import McpTracer.Json.Pointer
import McpTracer.Model.Diff
import McpTracer.Storage.Transfer

/-! Declarative assertions over a recorded session.

A rule is evaluated on the exchanges, the decoded payloads and the tools of the
session. Bounds on latency and quota are not among the rules here.
-/

set_option autoImplicit false

namespace McpTracer.Model
open McpTracer.Foundation McpTracer.Json McpTracer.Protocol McpTracer.Storage McpTracer.Redact

/-! ## Expected values -/

/-- A value of an assertion file. A date is kept as its text. -/
inductive TomlValue where
  | string (text : String)
  | integer (n : Int)
  | float (bits : BitVec 64)
  | boolean (b : Bool)
  | datetime (text : String)
  | array (items : List TomlValue)
  | table (entries : List (String × TomlValue))

/-- A double as a JSON value. There is no number for those that are not finite. -/
def doubleValue (bits : BitVec 64) : Value :=
  if finite : bits.extractLsb' 52 11 ≠ BitVec.allOnes 11 then .number (.float ⟨bits, finite⟩) else .null

mutual
def tomlToJson : TomlValue → Value
  | .string text => .string text
  | .integer n => integerValue n
  | .float bits => doubleValue bits
  | .boolean b => .bool b
  | .datetime text => .string text
  | .array items => .array (tomlItems items)
  | .table entries => .object (tomlEntries entries)
def tomlItems : List TomlValue → List Value
  | [] => []
  | item :: rest => tomlToJson item :: tomlItems rest
def tomlEntries : List (String × TomlValue) → List (String × Value)
  | [] => []
  | (key, value) :: rest => SortedMap.insert key (tomlToJson value) (tomlEntries rest)
end

/-- One assertion rule. -/
inductive Assertion where
  /-- No exchange of the tool, or none at all, failed or is unanswered. -/
  | noErrors (tool : Option String)
  | toolCalled (tool : String) (min max : Option Nat)
  | methodCalled (method : String) (min max : Option Nat)
  /-- Every occurrence of `after` follows at least one of `before`. Names are of methods or tools. -/
  | callOrder (before after : String)
  /-- The value at a pointer of every response in scope. -/
  | responseMatches (tool method : Option String) (pointer : String) (equals : Option TomlValue)
      (contains : Option String)
  | toolsPinned (hashes : List (String × String))

/-- A rule with an optional label to show in place of its description. -/
structure AssertionEntry where
  description : Option String
  rule : Assertion

/-! ## Hashes -/

section Hashes
variable (codec : Codec) (sha256Hex : String → String)

/-- The six members in the order of their keys. -/
def toolIdentity (name : String) (tool : ToolDef) : Value := .object [
  ("annotations", tool.annotations.getD .null),
  ("description", optionValue tool.description),
  ("inputSchema", tool.inputSchema.getD .null),
  ("name", .string name),
  ("outputSchema", tool.outputSchema.getD .null),
  ("title", optionValue tool.title)]

def toolIdentityCanonical (name : String) (tool : ToolDef) : String := codec.toString (toolIdentity name tool)

/-- Stable identity hash over the full tool contract. -/
def toolHash (name : String) (tool : ToolDef) : String := sha256Hex (toolIdentityCanonical codec name tool)

/-! ## The assertion -/

/-- Outcome of a single assertion. -/
structure AssertionResult where
  description : String
  passed : Bool
  reason : Option String
  deriving DecidableEq

def pinFailure (tools : List (String × ToolDef)) (pin : String × String) : Option String :=
  match tools.lookup pin.1 with
  | none => some ("tool `" ++ pin.1 ++ "` not found in session (no tools/list, or tool no longer offered)")
  | some tool =>
    let actual := toolHash codec sha256Hex pin.1 tool
    if actual ≠ pin.2 then
      some ("tool `" ++ pin.1 ++ "` hash mismatch: expected " ++ pin.2 ++ ", got " ++ actual)
    else none

/-- Pins are hashes by tool name. Without one the assertion fails and tells the hashes there are. -/
def toolsPinned (hashes : List (String × String)) (tools : List (String × ToolDef)) : AssertionResult :=
  if hashes.isEmpty then
    if tools.isEmpty then
      ⟨"tools_pinned", false, some "no tools/list response found in session; nothing to pin"⟩
    else
      ⟨"tools_pinned", false, some ("no pinned hashes provided; current tool hashes: " ++
        ", ".intercalate (tools.map fun tool =>
          tool.1 ++ " = \"" ++ toolHash codec sha256Hex tool.1 tool.2 ++ "\""))⟩
  else
    let failures := hashes.filterMap (pinFailure codec sha256Hex tools)
    ⟨"tools_pinned", failures.isEmpty, if failures.isEmpty then none else some ("; ".intercalate failures)⟩

end Hashes

/-! ## Evaluation -/

/-- Both names have to agree where they are given. -/
def inScope (exchange : Exchange) (tool method : Option String) : Bool :=
  (tool.isNone || exchange.toolName == tool) && (method.isNone || exchange.method == method)

def nameMatches (exchange : Exchange) (name : String) : Bool :=
  exchange.method == some name || exchange.toolName == some name

def describeExchange (exchange : Exchange) : String :=
  match exchange.method, exchange.toolName with
  | some method, some tool => method ++ " " ++ tool
  | some method, none => method
  | none, _ => "<orphan response>"

def noErrors (exchanges : List Exchange) (tool : Option String) : AssertionResult :=
  let bad := (exchanges.filter fun e =>
    inScope e tool none && [ExchangeStatus.error, .toolError, .unanswered].contains e.status).map describeExchange
  ⟨tool.elim "no_errors" fun tool => "no_errors (tool " ++ tool ++ ")", bad.isEmpty,
    if bad.isEmpty then none else some ("failing exchanges: " ++ ", ".intercalate bad)⟩

/-- The least count is one unless it is given. -/
def checkBounds (description : String) (count : Nat) (min max : Option Nat) : AssertionResult :=
  let least := min.getD 1
  if count < least then
    ⟨description, false, some ("occurred " ++ toString count ++ " time(s), expected at least " ++ toString least)⟩
  else
    match max with
    | none => ⟨description, true, none⟩
    | some most =>
      if most < count then
        ⟨description, false, some ("occurred " ++ toString count ++ " time(s), expected at most " ++ toString most)⟩
      else ⟨description, true, none⟩

/-- The positions of the exchanges that a name is of. -/
def positionsOf (exchanges : List Exchange) (name : String) : List Nat :=
  (exchanges.zipIdx.filter fun entry => nameMatches entry.1 name).map Prod.snd

def callOrder (exchanges : List Exchange) (before after : String) : AssertionResult :=
  let firstBefore := exchanges.findIdx? fun exchange => nameMatches exchange before
  let afterPositions := positionsOf exchanges after
  let description := "call_order " ++ before ++ " -> " ++ after
  if afterPositions.isEmpty then ⟨description, false, some ("no occurrence of `" ++ after ++ "` in session")⟩
  else
    match firstBefore with
    | none => ⟨description, false, some ("no occurrence of `" ++ before ++ "` in session")⟩
    | some beforeIdx =>
      if afterPositions.any (· < beforeIdx) then
        ⟨description, false, some ("`" ++ after ++ "` occurred before the first `" ++ before ++ "`")⟩
      else ⟨description, true, none⟩

section Responses
variable (codec : Codec) (debug : String → String)

/-- The text that is searched: a string itself, anything else as JSON. -/
def haystack : Value → String
  | .string text => text
  | other => codec.toString other

/-- What is wrong with the value at the pointer. -/
def valueFailure (pointer : String) (equals : Option TomlValue) (contains : Option String) (value : Value) :
    Option String :=
  if isRedacted value then
    some ("cannot assert on redacted field " ++ pointer ++ "; record with a policy that keeps it")
  else
    match equals.filter fun expected => !value.beq (tomlToJson expected) with
    | some expected =>
      some ("expected " ++ codec.toString (tomlToJson expected) ++ ", found " ++ codec.toString value)
    | none =>
      match contains.filter fun needle => !decide (needle.toList <:+: (haystack codec value).toList) with
      | some needle =>
        some ("value " ++ debug (haystack codec value) ++ " does not contain " ++ debug needle)
      | none => none

/-- What is wrong with the response of an exchange. -/
def responseFailure (payloads : Table Nat Value) (pointer : String) (equals : Option TomlValue)
    (contains : Option String) (exchange : Exchange) : Option String :=
  match (exchange.responseSeq.bind payloads).bind (Value.pointer pointer) with
  | none => some ("pointer " ++ pointer ++ " not found in response of " ++ describeExchange exchange)
  | some value => valueFailure codec debug pointer equals contains value

/-- The responses in scope are checked in order, up to the first that fails. -/
def responseMatches (exchanges : List Exchange) (payloads : Table Nat Value) (tool method : Option String)
    (pointer : String) (equals : Option TomlValue) (contains : Option String) : AssertionResult :=
  let description := "response_matches " ++ pointer
  let matching := exchanges.filter fun e => inScope e tool method && e.responseSeq.isSome
  if matching.isEmpty then ⟨description, false, some "no responded exchanges matched scope"⟩
  else
    match matching.findSome? (responseFailure codec debug payloads pointer equals contains) with
    | some reason => ⟨description, false, some reason⟩
    | none => ⟨description, true, none⟩

end Responses

section Evaluate
variable (codec : Codec) (sha256Hex debug : String → String)

def evaluateOne (exchanges : List Exchange) (payloads : Table Nat Value) (tools : List (String × ToolDef)) :
    Assertion → AssertionResult
  | .noErrors tool => noErrors exchanges tool
  | .toolCalled tool min max =>
    checkBounds ("tool_called " ++ tool) (exchanges.countP fun e => e.toolName == some tool) min max
  | .methodCalled method min max =>
    checkBounds ("method_called " ++ method) (exchanges.countP fun e => e.method == some method) min max
  | .callOrder before after => callOrder exchanges before after
  | .responseMatches tool method pointer equals contains =>
    responseMatches codec debug exchanges payloads tool method pointer equals contains
  | .toolsPinned hashes => toolsPinned codec sha256Hex hashes tools

/-- The outcome of every assertion of a specification. The quoting of texts in reasons comes from outside,
as the hash function does. -/
def evaluate (spec : List AssertionEntry) (messages : List StoredMessage) : List AssertionResult :=
  spec.map fun entry =>
    let result := evaluateOne codec sha256Hex debug (correlate codec messages).exchanges
      (payloadsBySeq codec messages) (extractTools codec messages) entry.rule
    match entry.description with
    | some label => { result with description := label }
    | none => result

/-- A specification of this rule alone is met. -/
def passes (messages : List StoredMessage) (rule : Assertion) : Bool :=
  (evaluate codec sha256Hex debug [⟨none, rule⟩] messages).all AssertionResult.passed

theorem passes_eq (messages : List StoredMessage) (rule : Assertion) :
    passes codec sha256Hex debug messages rule =
      (evaluateOne codec sha256Hex debug (correlate codec messages).exchanges (payloadsBySeq codec messages)
        (extractTools codec messages) rule).passed := by
  simp [passes, evaluate]

/-- A label does not change an outcome. -/
theorem evaluate_passed (spec : List AssertionEntry) (messages : List StoredMessage) :
    (evaluate codec sha256Hex debug spec messages).map AssertionResult.passed =
      spec.map fun entry => passes codec sha256Hex debug messages entry.rule := by
  simp only [evaluate, List.map_map, passes_eq]
  refine List.map_congr_left fun entry _ => ?_
  rw [Function.comp_apply]
  split <;> rfl

end Evaluate

end McpTracer.Model
