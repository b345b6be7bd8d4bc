import McpTracer.Model.Lifecycle
import McpTracer.Proxy.SessionWriter
import McpTracer.Storage.Transfer

/-! The health gate over a stored session.

It correlates the capture, scans the stored payloads with the tracker that recording uses, and asks
that the session was closed. A payload that does not decode is reported once and not scanned.
-/

set_option autoImplicit false

namespace McpTracer.Proxy
open McpTracer.Foundation McpTracer.Json McpTracer.Protocol McpTracer.Redact McpTracer.Storage McpTracer.Model

/-- The scan of one decoded payload; lost context is reported for the first message that shows it. -/
def payloadIssues (policy : RedactionPolicy) (seq : Nat) (lost reported : Bool) (payload : Value)
    (context : RedactionContext) : List SessionIntegrityIssue :=
  let name := policy.asStr
  let keys := unredactedSensitiveKeysWithContext payload policy context
  let fields := ", ".intercalate keys
  (if policy ≠ .none ∧ lost = true ∧ reported = false then
    [⟨.droppedMessages, some seq, "bounded redaction context was lost; schema completeness is not established"⟩]
    else []) ++
  (if keys ≠ [] then
    [⟨.unredactedSensitiveValue, some seq, s!"stored {name} policy left sensitive field(s) unmasked: {fields}"⟩]
    else [])

def redactionIssues (codec : Codec) (policy : RedactionPolicy) :
    RedactionContextTracker → Bool → List StoredMessage → List SessionIntegrityIssue
  | _, _, [] => []
  | tracker, reported, message :: rest =>
    match codec.fromStr message.payload with
    | none => redactionIssues codec policy tracker reported rest
    | some payload =>
      let observed := tracker.observe codec message.seq message.direction payload
      payloadIssues policy message.seq observed.1.lostContext reported payload observed.2 ++
        redactionIssues codec policy observed.1
          (reported || (decide (policy ≠ .none) && observed.1.lostContext)) rest

def appendRedactionIssues (codec : Codec) (messages : List StoredMessage) (policyName customKeysJson : String) :
    List SessionIntegrityIssue :=
  match readStringArray codec customKeysJson with
  | none =>
    [⟨.invalidRedactionConfiguration, none, "stored custom redaction keys are not a JSON string array"⟩]
  | some customKeys =>
    match RedactionPolicy.fromStorage policyName customKeys with
    | .error detail => [⟨.invalidRedactionConfiguration, none, detail⟩]
    | .ok policy => redactionIssues codec policy .fresh false messages

/-- What keeps a stored session from being trusted as a capture. -/
def assessCapture (codec : Codec) (summary : SessionRow) (messages : List StoredMessage) :
    List SessionIntegrityIssue :=
  validateSession codec messages (max summary.droppedMessages 0).toNat ++
  appendRedactionIssues codec messages summary.redactionPolicy summary.redactionKeysJson ++
  (if summary.endedAtNs = none then
    [⟨.sessionNotClosed, none, "session was never finalized by the recorder"⟩] else [])

/-! ## What a clean report says -/

theorem payloadIssues_eq_nil_iff {policy : RedactionPolicy} {seq : Nat} {lost : Bool} {payload : Value}
    {context : RedactionContext} : payloadIssues policy seq lost false payload context = [] ↔
      (policy ≠ .none → lost = false) ∧ unredactedSensitiveKeysWithContext payload policy context = [] := by
  unfold payloadIssues
  simp only [List.append_eq_nil_iff, ite_eq_right_iff, reduceCtorEq, imp_false, and_true, not_and, not_not,
    Bool.not_eq_true]

/-- The tracker after the calls has lost nothing if a policy is active. -/
def Retains (codec : Codec) (policy : RedactionPolicy) (tracker : RedactionContextTracker) (calls : List Call) : Prop :=
  policy ≠ .none → (calls.foldl (fun tracker call => (tracker.observeCall codec call).1) tracker).lostContext = false

theorem lostContext_of_foldl {codec : Codec} {tracker : RedactionContextTracker} {calls : List Call}
    (kept : (calls.foldl (fun tracker call => (tracker.observeCall codec call).1) tracker).lostContext = false) :
    tracker.lostContext = false := by
  induction calls generalizing tracker with
  | nil => exact kept
  | cons call rest ih =>
    by_contra lost
    have later := (observed codec tracker call.seq call.direction call.payload).lostContext (by simpa using lost)
    rw [← RedactionContextTracker.observeCall, ih kept] at later
    cases later

/-- A clean scan found neither a lost context nor an unmasked key. -/
theorem redactionIssues_eq_nil {codec : Codec} {policy : RedactionPolicy} {tracker : RedactionContextTracker}
    {messages : List McpMessage}
    (decodes : ∀ message ∈ messages, codec.fromStr (codec.toString message.payload) = some message.payload)
    (start : policy ≠ .none → tracker.lostContext = false)
    (clean : redactionIssues codec policy tracker false (messages.map (StoredMessage.ofMessage codec)) = []) :
    Retains codec policy tracker (messages.map observedCall) ∧
      ∀ pair ∈ messages.zip (RedactionContextTracker.contextsFrom codec tracker (messages.map observedCall)),
        unredactedSensitiveKeysWithContext pair.1.payload policy pair.2 = [] := by
  induction messages generalizing tracker with
  | nil => exact ⟨start, fun pair member => by cases member⟩
  | cons message rest ih =>
    obtain ⟨here, others⟩ := List.forall_mem_cons.1 decodes
    have decoded : codec.fromStr (StoredMessage.ofMessage codec message).payload = some message.payload := here
    simp only [List.map_cons, redactionIssues, decoded, List.append_eq_nil_iff, payloadIssues_eq_nil_iff] at clean
    obtain ⟨⟨kept, masked⟩, later⟩ := clean
    set next := tracker.observeCall codec (observedCall message) with nextEq
    have unreported : (false || (decide (policy ≠ .none) && next.1.lostContext)) = false := by
      by_cases active : policy = .none
      · simp [active]
      · simp [active, show next.1.lostContext = false from kept active]
    rw [show (StoredMessage.ofMessage codec message).seq = message.seq from rfl] at later
    have rest_ := ih others kept (unreported ▸ later)
    refine ⟨rest_.1, ?_⟩
    simp only [List.map_cons, RedactionContextTracker.contextsFrom, List.zip_cons_cons]
    exact List.forall_mem_cons.2 ⟨masked, rest_.2⟩

/-- A healthy session was closed, is complete as a capture, and its payloads pass the scan of its policy. -/
theorem assessCapture_eq_nil_iff {codec : Codec} {summary : SessionRow} {messages : List StoredMessage} :
    assessCapture codec summary messages = [] ↔ Healthy codec messages summary.droppedMessages.toNat ∧
      (∃ policy, redactionPolicyForSummary codec summary = .ok policy ∧
        redactionIssues codec policy .fresh false messages = []) ∧ summary.endedAtNs ≠ none := by
  have counted : (max summary.droppedMessages 0).toNat = summary.droppedMessages.toNat := by omega
  unfold assessCapture
  rw [List.append_eq_nil_iff, List.append_eq_nil_iff, counted, and_assoc]
  refine and_congr Iff.rfl (and_congr ?_ (by simp))
  unfold appendRedactionIssues redactionPolicyForSummary
  cases readStringArray codec summary.redactionKeysJson with
  | none => simp
  | some keys =>
    cases stored : RedactionPolicy.fromStorage summary.redactionPolicy keys with
    | error detail => simp [stored, Except.mapError]
    | ok policy => simp [stored, Except.mapError]

end McpTracer.Proxy
