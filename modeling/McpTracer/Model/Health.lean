import McpTracer.Foundation.Phase
import McpTracer.Model.Conservation

/-! When a stored session is healthy.

Correlation finds a session healthy exactly when, under each direction and id taken by itself,
every call is answered, cancelled, or an acknowledged subscription.
-/

set_option autoImplicit false

namespace McpTracer.Model
open McpTracer.Foundation McpTracer.Json McpTracer.Protocol McpTracer.Storage

/-! ## Validation -/

inductive SessionIntegrityIssueKind where
  | emptySession
  | sessionNotClosed
  | droppedMessages
  | nonMonotonicSequence
  | invalidPayload
  | invalidRedactionConfiguration
  | unredactedSensitiveValue
  | unknownDirection
  | unknownMessageKind
  | unansweredRequest
  | orphanResponse
  deriving DecidableEq

structure SessionIntegrityIssue where
  kind : SessionIntegrityIssueKind
  seq : Option Nat
  detail : String
  deriving DecidableEq

/-- The issues of one message, given the sequence number before it. -/
def messageIssues (codec : Codec) (previousSeq : Option Nat) (message : StoredMessage) :
    List SessionIntegrityIssue :=
  (match previousSeq with
    | some previous =>
      if message.seq ≤ previous then
        [⟨.nonMonotonicSequence, some message.seq, s!"sequence {message.seq} follows {previous}"⟩]
      else []
    | none => []) ++
  (if Direction.fromDbStr message.direction = none then
    [⟨.unknownDirection, some message.seq, s!"unknown direction {message.direction}"⟩] else []) ++
  (if message.messageKind ≠ "request" ∧ message.messageKind ≠ "response" ∧
      message.messageKind ≠ "notification" then
    [⟨.unknownMessageKind, some message.seq, s!"unknown message kind {message.messageKind}"⟩] else []) ++
  (if codec.fromStr message.payload = none then
    [⟨.invalidPayload, some message.seq, "stored payload is not valid JSON"⟩] else [])

def messagesIssues (codec : Codec) : Option Nat → List StoredMessage → List SessionIntegrityIssue
  | _, [] => []
  | previousSeq, message :: rest =>
    messageIssues codec previousSeq message ++ messagesIssues codec (some message.seq) rest

def exchangeIssues (exchange : Exchange) : List SessionIntegrityIssue :=
  match exchange.status with
  | .unanswered => [⟨.unansweredRequest, exchange.requestSeq, "request has no matching response"⟩]
  | .orphanResponse => [⟨.orphanResponse, exchange.responseSeq, "response has no matching request"⟩]
  | .ok | .error | .toolError | .subscribed | .cancelled => []

/-- The integrity problems of stored capture data; a healthy session has none. -/
def validateSession (codec : Codec) (messages : List StoredMessage) (droppedMessages : Nat) :
    List SessionIntegrityIssue :=
  (if messages.isEmpty then [⟨.emptySession, none, "session contains no recorded messages"⟩] else []) ++
  (if 0 < droppedMessages then
    [⟨.droppedMessages, none, s!"session dropped {droppedMessages} message record(s)"⟩] else []) ++
  messagesIssues codec none messages ++
  (correlate codec messages).exchanges.flatMap exchangeIssues

def Healthy (codec : Codec) (messages : List StoredMessage) (droppedMessages : Nat) : Prop :=
  validateSession codec messages droppedMessages = []

instance (codec : Codec) (messages : List StoredMessage) (droppedMessages : Nat) :
    Decidable (Healthy codec messages droppedMessages) := inferInstanceAs (Decidable (_ = _))

/-- Direction, kind and payload are what the recorder writes. -/
structure Recognized (codec : Codec) (message : StoredMessage) : Prop where
  direction : Direction.fromDbStr message.direction ≠ none
  kind : message.messageKind = "request" ∨ message.messageKind = "response" ∨
    message.messageKind = "notification"
  payload : codec.fromStr message.payload ≠ none

/-- Every call has come to an end, and every response belongs to one. -/
def Settles (codec : Codec) (messages : List StoredMessage) : Prop :=
  ∀ exchange ∈ (correlate codec messages).exchanges,
    exchange.status ≠ .unanswered ∧ exchange.status ≠ .orphanResponse

theorem messageIssues_eq_nil_iff {codec : Codec} {previousSeq : Option Nat} {message : StoredMessage} :
    messageIssues codec previousSeq message = [] ↔
      (∀ previous, previousSeq = some previous → previous < message.seq) ∧ Recognized codec message := by
  unfold messageIssues
  simp only [List.append_eq_nil_iff, ite_eq_right_iff, reduceCtorEq, imp_false, and_assoc]
  have order : (match previousSeq with
      | some previous =>
        if message.seq ≤ previous then
          [(⟨.nonMonotonicSequence, some message.seq, s!"sequence {message.seq} follows {previous}"⟩ :
            SessionIntegrityIssue)]
        else []
      | none => []) = [] ↔ ∀ previous, previousSeq = some previous → previous < message.seq := by
    cases previousSeq <;> simp
  rw [order]
  refine and_congr_right fun _ => ⟨?_, ?_⟩
  · rintro ⟨direction, kind, payload⟩
    exact ⟨direction, by tauto, payload⟩
  · rintro ⟨direction, kind, payload⟩
    exact ⟨direction, by tauto, payload⟩

theorem messagesIssues_eq_nil_iff {codec : Codec} {previousSeq : Option Nat} {messages : List StoredMessage} :
    messagesIssues codec previousSeq messages = [] ↔
      (∀ previous, previousSeq = some previous → ∀ first, messages.head? = some first → previous < first.seq) ∧
        StoredMessage.Increasing messages ∧ ∀ message ∈ messages, Recognized codec message := by
  induction messages generalizing previousSeq with
  | nil => simp [messagesIssues, StoredMessage.Increasing]
  | cons message rest ih =>
    simp only [messagesIssues, List.append_eq_nil_iff, messageIssues_eq_nil_iff, ih, Option.some.injEq,
      List.head?_cons, List.forall_mem_cons]
    have chain : StoredMessage.Increasing (message :: rest) ↔
        (∀ first, rest.head? = some first → message.seq < first.seq) ∧ StoredMessage.Increasing rest := by
      unfold StoredMessage.Increasing
      rw [List.pairwise_cons]
      refine and_congr_left fun sorted => ⟨fun below first head => ?_, fun head later member => ?_⟩
      · exact below first (List.mem_of_mem_head? head)
      · cases rest with
        | nil => cases member
        | cons first others =>
          have least := head first rfl
          rcases List.mem_cons.1 member with rfl | inner
          · exact least
          · exact least.trans ((List.pairwise_cons.1 sorted).1 later inner)
    rw [chain]
    constructor
    · rintro ⟨⟨order, recognized⟩, below, sorted, others⟩
      exact ⟨fun previous same first head => head ▸ order previous same,
        ⟨fun first head => below message.seq rfl first head, sorted⟩, recognized, others⟩
    · rintro ⟨order, ⟨below, sorted⟩, recognized, others⟩
      exact ⟨⟨fun previous same => order previous same message rfl, recognized⟩,
        fun _ same first head => same ▸ below first head, sorted, others⟩

theorem healthy_iff {codec : Codec} {messages : List StoredMessage} {droppedMessages : Nat} :
    Healthy codec messages droppedMessages ↔ messages ≠ [] ∧ droppedMessages = 0 ∧
      StoredMessage.Increasing messages ∧ (∀ message ∈ messages, Recognized codec message) ∧
      Settles codec messages := by
  unfold Healthy validateSession
  simp only [List.append_eq_nil_iff, ite_eq_right_iff, reduceCtorEq, imp_false, List.isEmpty_iff,
    messagesIssues_eq_nil_iff, List.flatMap_eq_nil_iff, not_lt, nonpos_iff_eq_zero]
  have settles : (∀ exchange ∈ (correlate codec messages).exchanges, exchangeIssues exchange = []) ↔
      Settles codec messages := by
    refine forall₂_congr fun exchange _ => ?_
    unfold exchangeIssues
    cases exchange.status <;> simp
  rw [settles]
  constructor
  · rintro ⟨⟨⟨filled, none⟩, -, sorted, recognized⟩, settled⟩
    exact ⟨filled, none, sorted, recognized, settled⟩
  · rintro ⟨filled, none, sorted, recognized, settled⟩
    exact ⟨⟨⟨filled, none⟩, by simp, sorted, recognized⟩, settled⟩

end McpTracer.Model
