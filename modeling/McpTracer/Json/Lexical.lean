import McpTracer.Foundation.Quoted
import McpTracer.Json.Codec

/-! The literals of a JSON text.

A printed tree closes its string literals, and outside of them it has neither a
backslash nor a bar. The compact text form is such a text.
-/

set_option autoImplicit false

namespace McpTracer.Json
open McpTracer.Foundation

namespace Compact

end Compact

end McpTracer.Json
