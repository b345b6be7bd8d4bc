import McpTracer.Foundation.SortedMap
import McpTracer.Redact.Policy
import McpTracer.Storage.StoredMessage

/-! The calls that a replay would send, and what the session tells about their risk.

Nothing is executed: the plan is read off the recorded messages.
-/

set_option autoImplicit false

namespace McpTracer.Model
open McpTracer.Foundation McpTracer.Json McpTracer.Redact McpTracer.Storage

/-- Hints that a tool definition declares; what is not there is not known to be false. -/
structure ToolAnnotations where
  destructiveHint : Option Bool
  readOnlyHint : Option Bool
  idempotentHint : Option Bool
  openWorldHint : Option Bool
  deriving DecidableEq

namespace ToolAnnotations

def default : ToolAnnotations where
  destructiveHint := none
  readOnlyHint := none
  idempotentHint := none
  openWorldHint := none

def fromValue (value : Value) : ToolAnnotations where
  destructiveHint := (value.get "destructiveHint").bind Value.asBool
  readOnlyHint := (value.get "readOnlyHint").bind Value.asBool
  idempotentHint := (value.get "idempotentHint").bind Value.asBool
  openWorldHint := (value.get "openWorldHint").bind Value.asBool

end ToolAnnotations

inductive RiskLevel where
  | readOnly
  | destructive
  | unknown
  deriving DecidableEq

structure PlannedCall where
  seq : Nat
  kind : String
  method : Option String
  toolName : Option String
  rpcId : Option String
  annotations : Option ToolAnnotations
  risk : RiskLevel
  containsRedactedPlaceholder : Bool
  allowed : Bool

structure Plan where
  totalCalls : Nat
  allowedCalls : Nat
  filteredOutCalls : Nat
  destructiveCalls : Nat
  unknownRiskCalls : Nat
  redactedPlaceholderCalls : Nat
  requiresAcknowledgement : Bool
  calls : List PlannedCall

/-! ## The driven messages -/

def isDriven (message : StoredMessage) : Bool :=
  message.direction = "c2s" && (message.messageKind = "request" || message.messageKind = "notification")

def isInitialize (message : StoredMessage) : Bool := message.method = some "initialize"

/-- What the client sent on its own account, with the first `initialize` in front. -/
def drivenMessages (source : List StoredMessage) : List StoredMessage :=
  let driven := source.filter isDriven
  match driven.find? isInitialize with
  | none => driven
  | some init => init :: driven.eraseP isInitialize

theorem drivenMessages_perm (source : List StoredMessage) :
    (drivenMessages source).Perm (source.filter isDriven) := by
  unfold drivenMessages
  dsimp only
  split
  case h_1 => rfl
  case h_2 init found =>
    obtain ⟨isInit, front, rest, split, before⟩ := List.find?_eq_some_iff_append.1 found
    have erased : (source.filter isDriven).eraseP isInitialize = front ++ rest := by
      rw [split, List.eraseP_append_right _ (by simpa using before), List.eraseP_cons_of_pos isInit]
    rw [erased, split]
    exact List.perm_middle.symm

theorem mem_drivenMessages_iff {source : List StoredMessage} {message : StoredMessage} :
    message ∈ drivenMessages source ↔ message ∈ source ∧ isDriven message = true := by
  rw [(drivenMessages_perm source).mem_iff, List.mem_filter]

/-- A tool call is sent if its tool is; other messages are not filtered. -/
def toolIsAllowed (toolName : Option String) (allowTools denyTools : List String) : Bool :=
  match toolName with
  | none => true
  | some name => !denyTools.contains name && (allowTools.isEmpty || allowTools.contains name)

/-- The driven messages that the filters let through. -/
def allowedMessages (source : List StoredMessage) (allowTools denyTools : List String) : List StoredMessage :=
  (drivenMessages source).filter fun message => toolIsAllowed message.toolName allowTools denyTools

theorem mem_allowedMessages_iff {source : List StoredMessage} {allowTools denyTools : List String}
    {message : StoredMessage} : message ∈ allowedMessages source allowTools denyTools ↔
      message ∈ source ∧ isDriven message = true ∧ toolIsAllowed message.toolName allowTools denyTools = true := by
  rw [allowedMessages, List.mem_filter, mem_drivenMessages_iff, and_assoc]

theorem allowedMessages_nodup {source : List StoredMessage} (unique : (source.map StoredMessage.seq).Nodup)
    (allowTools denyTools : List String) :
    ((allowedMessages source allowTools denyTools).map StoredMessage.seq).Nodup := by
  have driven : ((drivenMessages source).map StoredMessage.seq).Nodup :=
    ((drivenMessages_perm source).map _).nodup_iff.2 (unique.sublist (List.filter_sublist.map _))
  exact driven.sublist (List.filter_sublist.map _)

/-! ## The report -/

/-- What one message lists of tools; of definitions under one name the last counts. -/
def observeListing (codec : Codec) (annotations : List (String × ToolAnnotations)) (message : StoredMessage) :
    List (String × ToolAnnotations) :=
  if message.direction ≠ "s2c" then annotations
  else
    let tools := (((codec.fromStr message.payload).bind (Value.getPath ["result", "tools"])).bind
      Value.asArray).getD []
    tools.foldl (fun annotations tool =>
      match (tool.get "name").bind Value.asStr with
      | none => annotations
      | some name =>
        let hints := ((tool.get "annotations").map ToolAnnotations.fromValue).getD .default
        SortedMap.insert name hints annotations) annotations

def observedToolAnnotations (codec : Codec) (source : List StoredMessage) : List (String × ToolAnnotations) :=
  source.foldl (observeListing codec) []

def riskFor (toolName : Option String) (annotations : Option ToolAnnotations) : RiskLevel :=
  if toolName.isNone then .readOnly
  else
    match annotations with
    | none => .unknown
    | some hints =>
      if hints.destructiveHint = some true then .destructive
      else if hints.readOnlyHint = some true then .readOnly
      else .unknown

def containsPlaceholder (payload : String) : Bool := decide (redactedPlaceholder.toList <:+: payload.toList)

def plannedCall (known : List (String × ToolAnnotations)) (allowTools denyTools : List String)
    (message : StoredMessage) : PlannedCall :=
  let annotations := message.toolName.bind fun name => known.lookup name
  { seq := message.seq
    kind := if message.messageKind = "request" then "request" else "notification"
    method := message.method
    toolName := message.toolName
    rpcId := message.rpcId
    annotations := annotations
    risk := riskFor message.toolName annotations
    containsRedactedPlaceholder := containsPlaceholder message.payload
    allowed := toolIsAllowed message.toolName allowTools denyTools }

def buildPlan (codec : Codec) (source : List StoredMessage) (allowTools denyTools : List String) : Plan :=
  let known := observedToolAnnotations codec source
  let calls := (drivenMessages source).map (plannedCall known allowTools denyTools)
  let allowedCalls := calls.countP PlannedCall.allowed
  let destructiveCalls := calls.countP fun call => call.allowed && call.risk = .destructive
  let unknownRiskCalls := calls.countP fun call => call.allowed && call.risk = .unknown
  let redactedPlaceholderCalls := calls.countP fun call => call.allowed && call.containsRedactedPlaceholder
  { totalCalls := calls.length
    allowedCalls := allowedCalls
    filteredOutCalls := calls.length - allowedCalls
    destructiveCalls := destructiveCalls
    unknownRiskCalls := unknownRiskCalls
    redactedPlaceholderCalls := redactedPlaceholderCalls
    requiresAcknowledgement := 0 < destructiveCalls || 0 < redactedPlaceholderCalls
    calls := calls }

/-- What the plan says will be sent. -/
def Plan.allowedSeqs (plan : Plan) : List Nat := (plan.calls.filter PlannedCall.allowed).map PlannedCall.seq

theorem allowedSeqs_buildPlan (codec : Codec) (source : List StoredMessage) (allowTools denyTools : List String) :
    (buildPlan codec source allowTools denyTools).allowedSeqs =
      (allowedMessages source allowTools denyTools).map StoredMessage.seq := by
  rw [Plan.allowedSeqs, buildPlan, allowedMessages, List.filter_map, List.map_map]
  rfl

end McpTracer.Model
