import Mathlib.Data.List.Induction
import McpTracer.Foundation.Table
import McpTracer.Json.Lexical

/-! The local cache of tool calls.

Entries are found under a hash of the tool's name, a bar and the printed
arguments. Outside of its literals a JSON text has no bar, so that the key tells
the name from the arguments although names are not escaped.
-/

set_option autoImplicit false

namespace McpTracer.Model
open McpTracer.Foundation McpTracer.Json

structure LocalToolCache where
  entries : Table String Value

namespace LocalToolCache

def new : LocalToolCache := ⟨Table.empty⟩

section Operations
variable (codec : Codec) (sha256Hex : String → String)

/-- The cache key of a call. -/
def computeKey (toolName : String) (arguments : Value) : String :=
  sha256Hex (toolName ++ "|" ++ codec.toString arguments)

def get (cache : LocalToolCache) (toolName : String) (arguments : Value) : Option Value :=
  cache.entries (computeKey codec sha256Hex toolName arguments)

def insert (cache : LocalToolCache) (toolName : String) (arguments result : Value) : LocalToolCache :=
  ⟨cache.entries.insert (computeKey codec sha256Hex toolName arguments) result⟩

end Operations

end LocalToolCache

/-- One call with its result. -/
structure CachedCall where
  toolName : String
  arguments : Value
  result : Value

namespace LocalToolCache

/-- A cache that was given results one after another. -/
def insertAll (codec : Codec) (sha256Hex : String → String) (calls : List CachedCall) : LocalToolCache :=
  calls.foldl (fun cache call => cache.insert codec sha256Hex call.toolName call.arguments call.result) .new

section Keys
variable {codec : Codec} {sha256Hex : String → String}

end Keys

end LocalToolCache

end McpTracer.Model
