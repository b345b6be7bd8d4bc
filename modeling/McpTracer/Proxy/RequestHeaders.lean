import McpTracer.Proxy.ModernRequest
import McpTracer.Storage.StoredMessage

/-! The headers of a replayed request.

A modern request names its version, its method and what it calls in headers of their own. What else a
tool call puts into headers is declared by the input schema of the tool, as the recording has it.
-/

set_option autoImplicit false

namespace McpTracer.Proxy.HttpReplay
open McpTracer.Foundation McpTracer.Json McpTracer.Storage

/-- What the HTTP library makes of the names and the values of headers. -/
structure HttpLibrary where
  /-- The name in lower case, unless it is refused. -/
  headerName : String → Option String
  headerValue : String → Bool
  base64 : String → String

/-- Names in lower case, with their values. -/
def HeaderMap : Type := List (String × String)

namespace HeaderMap

def empty : HeaderMap := []

def append (headers : HeaderMap) (name value : String) : HeaderMap := List.append headers [(name, value)]

/-- One value replaces all that were there. -/
def insert (headers : HeaderMap) (name value : String) : HeaderMap :=
  append (List.filter (fun header => header.1 ≠ name) headers) name value

end HeaderMap

def insertHeader (library : HttpLibrary) (headers : HeaderMap) (name value : String) : Except String HeaderMap :=
  if library.headerValue value then .ok (headers.insert name value)
  else .error s!"modern MCP request has an invalid {name} header value"

def isBlank (c : Char) : Bool := c = ' ' || c = '\t'

/-- A value that a header cannot carry as it is, or that looks encoded, is encoded. -/
def encodeMcpHeaderValue (library : HttpLibrary) (value : String) : String :=
  let chars := value.toList
  let sentinel := "=?base64?".toList.isPrefixOf chars && "?=".toList.isSuffixOf chars
  let plain := !chars.isEmpty && chars.all (fun c => (32 ≤ c.toNat && c.toNat ≤ 126) || c = '\t') &&
    !chars.head?.any isBlank && !chars.getLast?.any isBlank && !sentinel
  if plain then value else "=?base64?" ++ library.base64 value ++ "?="

/-! ## What a schema binds to headers -/

inductive ToolParamType where
  | string
  | integer
  | boolean
  deriving DecidableEq

structure ToolHeaderBinding where
  headerName : String
  path : List String
  valueType : ToolParamType
  deriving DecidableEq

def displaySchemaPath (path : List String) : String :=
  if path.isEmpty then "inputSchema" else "arguments." ++ ".".intercalate path

def isHttpToken (value : String) : Bool :=
  value.toList.all fun c => (c.isAlphanum && c.toNat < 128) || "!#$%&'*+-.^_`|~".toList.contains c

def headerAnnotation : String := "x-mcp-header"

mutual
def containsHeaderAnnotation : Value → Bool
  | .object fields => fields.any (fun field => field.1 = headerAnnotation) || anyFieldAnnotated fields
  | .array items => anyItemAnnotated items
  | _ => false
def anyFieldAnnotated : List (String × Value) → Bool
  | [] => false
  | (_, value) :: rest => containsHeaderAnnotation value || anyFieldAnnotated rest
def anyItemAnnotated : List Value → Bool
  | [] => false
  | item :: rest => containsHeaderAnnotation item || anyItemAnnotated rest
end

def paramType (path : List String) (schema : Value) : Except String ToolParamType :=
  match (schema.get "type").bind Value.asStr with
  | some "string" => .ok .string
  | some "integer" => .ok .integer
  | some "boolean" => .ok .boolean
  | some other => .error (s!"x-mcp-header property '{displaySchemaPath path}' has unsupported type '{other}'; " ++
      "expected string, integer, or boolean")
  | none => .error (s!"x-mcp-header property '{displaySchemaPath path}' must declare type string, integer, or " ++
      "boolean")

/-- The binding that a schema declares for itself, after those found before it. -/
def visitAnnotation (library : HttpLibrary) (path : List String) (propertiesOnly isProperty : Bool)
    (bindings : List ToolHeaderBinding) (schema : Value) : Except String (List ToolHeaderBinding) :=
  match schema.get headerAnnotation with
  | none => .ok bindings
  | some declared => do
    ensure (propertiesOnly && isProperty)
      "x-mcp-header is allowed only on a primitive property reached through inputSchema.properties"
    let header ← require (declared.asStr.filter fun value => value ≠ "" && isHttpToken value)
      "x-mcp-header must be a non-empty HTTP token string"
    let valueType ← paramType path schema
    let headerName ← require (library.headerName ("mcp-param-" ++ header))
      s!"x-mcp-header '{header}' does not form a valid Mcp-Param header name"
    ensure (bindings.all fun binding => binding.headerName ≠ headerName)
      s!"x-mcp-header '{header}' is duplicated case-insensitively in one inputSchema"
    return bindings ++ [⟨headerName, path, valueType⟩]

mutual
def visitValue (library : HttpLibrary) (path : List String) (propertiesOnly isProperty : Bool)
    (bindings : List ToolHeaderBinding) : Value → Except String (List ToolHeaderBinding)
  | .object fields =>
    match visitAnnotation library path propertiesOnly isProperty bindings (.object fields) with
    | .error err => .error err
    | .ok bindings => visitKeywords library path propertiesOnly bindings fields
  | .array items => visitItems library path bindings items
  | _ => .ok bindings
def visitItems (library : HttpLibrary) (path : List String) (bindings : List ToolHeaderBinding) :
    List Value → Except String (List ToolHeaderBinding)
  | [] => .ok bindings
  | item :: rest =>
    match visitValue library path false false bindings item with
    | .error err => .error err
    | .ok bindings => visitItems library path bindings rest
def visitProperties (library : HttpLibrary) (path : List String) (propertiesOnly : Bool)
    (bindings : List ToolHeaderBinding) : List (String × Value) → Except String (List ToolHeaderBinding)
  | [] => .ok bindings
  | (name, child) :: rest =>
    match visitValue library (path ++ [name]) propertiesOnly true bindings child with
    | .error err => .error err
    | .ok bindings => visitProperties library path propertiesOnly bindings rest
def visitKeyword (library : HttpLibrary) (path : List String) (propertiesOnly : Bool)
    (bindings : List ToolHeaderBinding) : String × Value → Except String (List ToolHeaderBinding)
  | (keyword, .object fields) =>
    if keyword = headerAnnotation then .ok bindings
    else if keyword = "properties" then visitProperties library path propertiesOnly bindings fields
    else if containsHeaderAnnotation (.object fields) then visitValue library path false false bindings (.object fields)
    else .ok bindings
  | (keyword, value) =>
    if keyword = headerAnnotation then .ok bindings
    else if containsHeaderAnnotation value = false then .ok bindings
    else if keyword = "properties" then .error "inputSchema.properties must be an object"
    else visitValue library path false false bindings value
def visitKeywords (library : HttpLibrary) (path : List String) (propertiesOnly : Bool)
    (bindings : List ToolHeaderBinding) : List (String × Value) → Except String (List ToolHeaderBinding)
  | [] => .ok bindings
  | field :: rest =>
    match visitKeyword library path propertiesOnly bindings field with
    | .error err => .error err
    | .ok bindings => visitKeywords library path propertiesOnly bindings rest
end

def collectToolHeaderBindings (library : HttpLibrary) (schema : Value) : Except String (List ToolHeaderBinding) :=
  if schema.isObject then visitValue library [] true false [] schema
  else .error "inputSchema must be a JSON object"

/-! ## The definition of a tool in the recording -/

/-- The nearest earlier client message with the id of this one is a request for the tools. -/
def isToolsListResponse (messages : List StoredMessage) (responseIndex : Nat) : Bool :=
  match messages[responseIndex]?.bind StoredMessage.rpcId with
  | none => false
  | some rpcId =>
    ((messages.take responseIndex).reverse.find? fun request =>
        request.direction = "c2s" && request.rpcId = some rpcId).any fun request =>
      request.messageKind = "request" && request.method = some "tools/list"

def toolBindings (library : HttpLibrary) (toolName : String) (responseSeq : Nat) (tool : Value) :
    Except String (List ToolHeaderBinding) :=
  match tool.get "inputSchema" with
  | none => .ok []
  | some schema =>
    (collectToolHeaderBindings library schema).mapError fun _ =>
      s!"captured inputSchema for modern tool '{toolName}' in tools/list response seq {responseSeq} is invalid"

def definesTool (toolName : String) (tool : Value) : Bool := (tool.get "name").bind Value.asStr = some toolName

/-- Search backwards for a response that lists tools. -/
def bindingsAmong (library : HttpLibrary) (codec : Codec) (messages : List StoredMessage) (callSeq : Nat)
    (toolName : String) : List (StoredMessage × Nat) → Except String (List ToolHeaderBinding)
  | [] => .error (s!"cannot replay modern tools/call '{toolName}' at source seq {callSeq}: no prior captured " ++
      "tools/list definition is available to derive Mcp-Param-* headers")
  | (response, index) :: earlier =>
    if callSeq ≤ response.seq || response.direction ≠ "s2c" || !isToolsListResponse messages index then
      bindingsAmong library codec messages callSeq toolName earlier
    else
      match codec.fromStr response.payload with
      | none => .error s!"captured tools/list response seq {response.seq} is not valid JSON"
      | some payload =>
        match (payload.getPath ["result", "tools"]).bind Value.asArray with
        | none => bindingsAmong library codec messages callSeq toolName earlier
        | some tools =>
          match tools.find? (definesTool toolName) with
          | none => .error (s!"cannot replay modern tools/call '{toolName}' at source seq {callSeq}: the latest " ++
              s!"captured tools/list response (seq {response.seq}) does not define it")
          | some tool => toolBindings library toolName response.seq tool

def toolHeaderBindingsAt (library : HttpLibrary) (codec : Codec) (messages : List StoredMessage) (callSeq : Nat)
    (toolName : String) : Except String (List ToolHeaderBinding) :=
  bindingsAmong library codec messages callSeq toolName messages.zipIdx.reverse

/-! ## The headers of a request -/

def maxSafeInteger : Nat := 9007199254740991

def encodeToolHeaderValue (library : HttpLibrary) (value : Value) (binding : ToolHeaderBinding) :
    Except String String :=
  let refusal (kind : String) :=
    s!"argument '{displaySchemaPath binding.path}' must be {kind} to populate {binding.headerName}"
  match binding.valueType with
  | .string => (require value.asStr (refusal "a string")).map (encodeMcpHeaderValue library)
  | .boolean => (require value.asBool (refusal "a boolean")).map toString
  | .integer =>
    (require (value.asI64.filter fun n => n.natAbs ≤ maxSafeInteger) (refusal "a JavaScript-safe integer")).map
      toString

def insertToolHeader (library : HttpLibrary) (request : Value) (headers : HeaderMap) (binding : ToolHeaderBinding) :
    Except String HeaderMap :=
  match request.getPath ("params" :: "arguments" :: binding.path) with
  | none => .ok headers
  | some value => do
    let encoded ← encodeToolHeaderValue library value binding
    ensure (library.headerValue encoded)
      (s!"derived {binding.headerName} value for '{displaySchemaPath binding.path}' is not a valid HTTP header " ++
        "value")
    return headers.insert binding.headerName encoded

def insertToolHeaders (library : HttpLibrary) (request : Value) (bindings : List ToolHeaderBinding)
    (headers : HeaderMap) : Except String HeaderMap :=
  bindings.foldlM (insertToolHeader library request) headers

/-- The name of what is called or read, where the method requires it. -/
def insertMcpName (library : HttpLibrary) (method : String) (request : Value) (headers : HeaderMap) :
    Except String HeaderMap :=
  match requiredNameField method with
  | none => .ok headers
  | some nameField => do
    let name ← require ((request.getPath ["params", nameField]).bind Value.asStr)
      s!"modern MCP {method} request is missing string params.{nameField} required for Mcp-Name"
    insertHeader library headers "mcp-name" (encodeMcpHeaderValue library name)

def insertRouting (library : HttpLibrary) (sessionId : Option String) (request : Value) (headers : HeaderMap) :
    Except String HeaderMap :=
  match modernProtocolVersion request with
  | some protocolVersion => do
    let headers ← insertHeader library headers "mcp-protocol-version" protocolVersion
    let method ← require (methodOf request) "modern MCP request is missing a string method"
    let headers ← insertHeader library headers "mcp-method" method
    insertMcpName library method request headers
  | none =>
    match sessionId.filter library.headerValue with
    | some sessionId => .ok (headers.insert "mcp-session-id" sessionId)
    | none => .ok headers

/-- Extra headers cannot set what the schema of a called tool declares. -/
def buildRequestHeaders (library : HttpLibrary) (extra : HeaderMap) (sessionId : Option String) (request : Value)
    (toolHeaders : List ToolHeaderBinding) : Except String HeaderMap := do
  let modernTool ← modernToolName request
  let kept : HeaderMap := List.filter (fun header =>
    modernTool.isNone || !"mcp-param-".toList.isPrefixOf header.1.toList) extra
  let headers ← insertToolHeaders library request (if modernTool.isSome then toolHeaders else []) kept
  insertRouting library sessionId request
    ((headers.insert "content-type" "application/json").insert "accept" "application/json, text/event-stream")

end McpTracer.Proxy.HttpReplay
