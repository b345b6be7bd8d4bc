import McpTracer.Redact.Policy

/-! Redaction of one message payload.

The walk masks every value under a sensitive key. Inside a tool definition the
two schema fields are walked as schemas: names under a properties-like keyword
are contracts, and everything a schema keyword does not own is walked as usual.
The mask is a parameter, since the placeholder walk and the type-preserving walk
differ in nothing else. The schema walk hands every value it does not own to a
visitor, which may rewrite the value and carries a state.
-/

set_option autoImplicit false

namespace McpTracer.Redact
open McpTracer.Json

/-- Payload shape alone never grants a schema exception. -/
inductive RedactionContext where
  | runtime
  /-- A response matched to a previously observed tools/list request. -/
  | toolListResponse
  deriving DecidableEq, Repr

def isMcpToolSchemaKey (key : String) : Bool := key = "inputSchema" || key = "outputSchema"

/-! ## The schema walk -/

/-- Keywords whose members name properties or definitions. -/
def nameMapKeywords : List String :=
  ["properties", "patternProperties", "$defs", "definitions", "dependentSchemas"]

def subschemaKeywords : List String :=
  ["items", "additionalItems", "additionalProperties", "unevaluatedProperties", "unevaluatedItems",
    "propertyNames", "not", "if", "then", "else", "contains", "contentSchema"]

def schemaArrayKeywords : List String := ["allOf", "anyOf", "oneOf", "prefixItems", "items"]

def dependencyKeywords : List String := ["dependencies", "dependentRequired"]

/-- Only objects and booleans are schemas. -/
def isSchema (value : Value) : Bool := value.isObject || value.isBoolean

/-- A dependency given as an array of property names. -/
def isNameArray (definition : Value) : Bool :=
  match definition with
  | .array items => items.all Value.isString
  | _ => false

section Schema
variable {σ : Type} (isSensitive : String → Bool) (visit : String → Value → σ → Value × σ)

mutual
def walkSchema : Value → σ → Value × σ
  | .object schema, state =>
    let walked := walkSchemaMembers schema state
    (.object walked.1, walked.2)
  | .bool b, state => (.bool b, state)
  | value, state => visit "" value state
def walkSchemaMembers : List (String × Value) → σ → List (String × Value) × σ
  | [], state => ([], state)
  | (key, child) :: rest, state =>
    let walked :=
      if isSensitive key then visit key child state
      else if nameMapKeywords.contains key && child.isObject then walkNameMap child state
      else if subschemaKeywords.contains key && isSchema child then walkSchema child state
      else if schemaArrayKeywords.contains key && child.isArray then walkSchemaArray key child state
      else if dependencyKeywords.contains key && child.isObject then walkDependencies key child state
      else visit key child state
    let others := walkSchemaMembers rest walked.2
    ((key, walked.1) :: others.1, others.2)
/-- The object under a properties-like keyword. -/
def walkNameMap : Value → σ → Value × σ
  | .object properties, state =>
    let walked := walkDefinitions properties state
    (.object walked.1, walked.2)
  | child, state => (child, state)
def walkDefinitions : List (String × Value) → σ → List (String × Value) × σ
  | [], state => ([], state)
  | (name, definition) :: rest, state =>
    let walked := if isSchema definition then walkSchema definition state else visit name definition state
    let others := walkDefinitions rest walked.2
    ((name, walked.1) :: others.1, others.2)
/-- The array under a keyword that lists schemas. -/
def walkSchemaArray (key : String) : Value → σ → Value × σ
  | .array schemas, state =>
    let walked := walkSchemaItems key schemas state
    (.array walked.1, walked.2)
  | child, state => (child, state)
def walkSchemaItems (key : String) : List Value → σ → List Value × σ
  | [], state => ([], state)
  | schema :: rest, state =>
    let walked := if isSchema schema then walkSchema schema state else visit key schema state
    let others := walkSchemaItems key rest walked.2
    (walked.1 :: others.1, others.2)
def walkDependencies (key : String) : Value → σ → Value × σ
  | .object dependencies, state =>
    let walked := walkDependencyMembers key dependencies state
    (.object walked.1, walked.2)
  | child, state => (child, state)
def walkDependencyMembers (key : String) :
    List (String × Value) → σ → List (String × Value) × σ
  | [], state => ([], state)
  | (name, definition) :: rest, state =>
    let walked :=
      if isNameArray definition then (definition, state)
      else if key = "dependencies" && isSchema definition then walkSchema definition state
      else visit name definition state
    let others := walkDependencyMembers key rest walked.2
    ((name, walked.1) :: others.1, others.2)
end

end Schema

/-! ## The payload walk -/

section Walk
variable (isSensitive : String → Bool) (mask : Value → Value)

mutual
/-- Generic recursive walk with no exemptions. -/
def maskWalk : Value → Value
  | .object fields => .object (maskFields fields)
  | .array items => .array (maskItems items)
  | value => value
def maskItems : List Value → List Value
  | [] => []
  | item :: rest => maskWalk item :: maskItems rest
def maskFields : List (String × Value) → List (String × Value)
  | [] => []
  | (key, child) :: rest =>
    (key, if isSensitive key then mask child else maskWalk child) :: maskFields rest
end

def maskMember (key : String) (child : Value) : Value :=
  if isSensitive key then mask child else maskWalk isSensitive mask child

def maskSchema (schema : Value) : Value :=
  (walkSchema isSensitive (fun key value (_ : Unit) => (maskMember isSensitive mask key value, ()))
    schema ()).1

def maskToolDefinition : Value → Value
  | .object tool => .object <| tool.map fun (key, child) =>
      (key, if isSensitive key then mask child
        else if isMcpToolSchemaKey key then maskSchema isSensitive mask child
        else maskWalk isSensitive mask child)
  | value => maskWalk isSensitive mask value

def maskResult : Value → Value
  | .object result => .object <| result.map fun (key, child) =>
      (key, match key = "tools" && !isSensitive key, child with
        | true, .array tools => .array (tools.map (maskToolDefinition isSensitive mask))
        | _, child => maskMember isSensitive mask key child)
  | value => maskWalk isSensitive mask value

def maskMessage (context : RedactionContext) : Value → Value
  | .object top => .object <| top.map fun (key, child) =>
      (key, if isSensitive key then mask child
        else if key = "result" && decide (context = .toolListResponse) then
          maskResult isSensitive mask child
        else maskWalk isSensitive mask child)
  | value => maskWalk isSensitive mask value

end Walk

structure Redactor where
  policy : RedactionPolicy
  customKeys : List String
  deriving DecidableEq

def placeholder : Value := .string redactedPlaceholder

/-- A dummy of the same JSON type, for payloads that must still fit a strict schema. -/
def redactValueTyped : Value → Value
  | .string _ => placeholder
  | .number _ => .number (.posInt 0)
  | .bool _ => .bool false
  | .array _ => .array []
  | .object _ => .object []
  | .null => .null

namespace Redactor

def new (policy : RedactionPolicy) : Redactor where
  policy := policy
  customKeys := (policy.customKeys.map normalizeKey).filter (· ≠ "")

/-- A redactor for the `none` policy rewrites nothing. -/
def isActive (redactor : Redactor) : Bool := redactor.policy ≠ .none

def isSensitiveKey (redactor : Redactor) (key : String) : Bool :=
  matchesPolicySensitiveKey key redactor.customKeys

def walk (redactor : Redactor) : Value → Value :=
  maskWalk redactor.isSensitiveKey fun _ => placeholder

def walkTyped (redactor : Redactor) : Value → Value :=
  maskWalk redactor.isSensitiveKey redactValueTyped

def walkToolDefinition (redactor : Redactor) : Value → Value :=
  maskToolDefinition redactor.isSensitiveKey fun _ => placeholder

def walkToolDefinitionTyped (redactor : Redactor) : Value → Value :=
  maskToolDefinition redactor.isSensitiveKey redactValueTyped

def walkResult (redactor : Redactor) : Value → Value :=
  maskResult redactor.isSensitiveKey fun _ => placeholder

def walkResultTyped (redactor : Redactor) : Value → Value :=
  maskResult redactor.isSensitiveKey redactValueTyped

def walkMessage (redactor : Redactor) (context : RedactionContext) : Value → Value :=
  maskMessage redactor.isSensitiveKey (fun _ => placeholder) context

def walkMessageTyped (redactor : Redactor) (context : RedactionContext) : Value → Value :=
  maskMessage redactor.isSensitiveKey redactValueTyped context

def redactWithContext (redactor : Redactor) (value : Value) (context : RedactionContext) : Value :=
  if redactor.isActive then redactor.walkMessage context value else value

def redact (redactor : Redactor) (value : Value) : Value :=
  redactor.redactWithContext value .runtime

def redactPreservingTypesWithContext (redactor : Redactor) (value : Value)
    (context : RedactionContext) : Value :=
  if redactor.isActive then redactor.walkMessageTyped context value else value

end Redactor

end McpTracer.Redact
