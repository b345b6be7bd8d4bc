import McpTracer.Protocol.Message
import McpTracer.Redact.Evidence
import McpTracer.Redact.Validator

/-! Portable session artifacts and their validation.

Columns that a payload determines are checked against it, and the redaction
claim is checked with the same tracker that recording uses.
-/

set_option autoImplicit false

namespace McpTracer.Storage
open McpTracer.Json McpTracer.Protocol McpTracer.Redact

def format : String := "mtrace"

def version : Nat := 1

def maxMessages : Nat := 1000000

structure MtraceSession where
  client : String
  serverCommand : String
  transport : String
  startedAtNs : Int
  endedAtNs : Option Int
  redactionPolicy : String
  redactionKeys : List String
  droppedMessages : Int
  tags : List String
  deriving DecidableEq

structure MtraceMessage where
  seq : Nat
  tsNs : Int
  direction : String
  messageKind : String
  rpcId : Option String
  method : Option String
  toolName : Option String
  payload : Value
  payloadBytes : Nat
  isError : Bool
  errorCode : Option Int
  deriving DecidableEq

structure MtraceDocument where
  format : String
  version : Nat
  exportedAtNs : Int
  exporter : String
  session : MtraceSession
  messages : List MtraceMessage
  deriving DecidableEq

/-- Why an artifact is refused, with the data its message shows. -/
inductive Refusal where
  | unsupportedFormat (format : String)
  | unsupportedVersion (version : Nat)
  | tooManyMessages
  | invalidRedactionPolicy (detail : String)
  | customKeysNotNormalized
  | negativeDroppedMessages
  | sequenceNotIncreasing (seq : Nat)
  | unknownDirection (seq : Nat)
  | unknownMessageKind (seq : Nat)
  | payloadNotObject (seq : Nat)
  | messageKindMismatch (seq : Nat) (claimed implied : String)
  | rpcIdMismatch (seq : Nat) (claimed implied : Option String)
  | methodMismatch (seq : Nat) (claimed implied : Option String)
  | toolNameMismatch (seq : Nat) (claimed implied : Option String)
  | isErrorMismatch (seq : Nat) (claimed implied : Bool)
  | errorCodeMismatch (seq : Nat) (claimed implied : Option Int)
  | redactionContextLost
  | unredactedFields (seq : Nat) (policy : String) (fields : List String)
  deriving DecidableEq

namespace MtraceMessage

/-- The stored form of a message: every column is read off the payload. -/
def ofMessage (codec : Codec) (message : McpMessage) : MtraceMessage where
  seq := message.seq
  tsNs := message.timestampNs
  direction := message.direction.asDbStr
  messageKind := message.kind.asDbStr
  rpcId := message.idJson codec
  method := message.method
  toolName := message.toolName
  payload := message.payload
  payloadBytes := message.payloadBytes
  isError := message.isError
  errorCode := message.errorCode

/-- The message with the columns left aside. -/
def derived (message : MtraceMessage) (direction : Direction) : McpMessage where
  seq := message.seq
  timestampNs := message.tsNs
  direction := direction
  payload := message.payload
  payloadBytes := message.payloadBytes

def observedCall (message : MtraceMessage) : Call where
  seq := message.seq
  direction := message.direction
  payload := message.payload

end MtraceMessage

def rejectMessageFieldPayloadMismatch (codec : Codec) (message : MtraceMessage) :
    Except Refusal Unit :=
  match Direction.fromDbStr message.direction with
  | none => .error (.unknownDirection message.seq)
  | some direction =>
    let derived := message.derived direction
    if derived.kind.asDbStr ≠ message.messageKind then
      .error (.messageKindMismatch message.seq message.messageKind derived.kind.asDbStr)
    else if derived.idJson codec ≠ message.rpcId then
      .error (.rpcIdMismatch message.seq message.rpcId (derived.idJson codec))
    else if derived.method ≠ message.method then
      .error (.methodMismatch message.seq message.method derived.method)
    else if derived.toolName ≠ message.toolName then
      .error (.toolNameMismatch message.seq message.toolName derived.toolName)
    else if derived.isError ≠ message.isError then
      .error (.isErrorMismatch message.seq message.isError derived.isError)
    else if derived.errorCode ≠ message.errorCode then
      .error (.errorCodeMismatch message.seq message.errorCode derived.errorCode)
    else .ok ()

/-- One round of the loop over the messages; the result is the tracker for the next one. -/
def validateMessage (codec : Codec) (policy : RedactionPolicy) (previousSeq : Option Nat)
    (tracker : RedactionContextTracker) (message : MtraceMessage) :
    Except Refusal RedactionContextTracker :=
  if previousSeq.any fun previous => decide (message.seq ≤ previous) then
    .error (.sequenceNotIncreasing message.seq)
  else if message.direction ≠ "c2s" ∧ message.direction ≠ "s2c" then
    .error (.unknownDirection message.seq)
  else if message.messageKind ≠ "request" ∧ message.messageKind ≠ "response" ∧
      message.messageKind ≠ "notification" then .error (.unknownMessageKind message.seq)
  else if !message.payload.isObject then .error (.payloadNotObject message.seq)
  else
    match rejectMessageFieldPayloadMismatch codec message with
    | .error refusal => .error refusal
    | .ok () =>
      let outcome := tracker.observeCall codec message.observedCall
      let unredacted := unredactedSensitiveKeysWithContext message.payload policy outcome.2
      if policy ≠ .none ∧ outcome.1.lostContext = true then .error .redactionContextLost
      else if unredacted ≠ [] then .error (.unredactedFields message.seq policy.asStr unredacted)
      else .ok outcome.1

def validateMessages (codec : Codec) (policy : RedactionPolicy) :
    Option Nat → RedactionContextTracker → List MtraceMessage → Except Refusal Unit
  | _, _, [] => .ok ()
  | previousSeq, tracker, message :: rest =>
    match validateMessage codec policy previousSeq tracker message with
    | .error refusal => .error refusal
    | .ok tracker => validateMessages codec policy (some message.seq) tracker rest

def validate (codec : Codec) (document : MtraceDocument) : Except Refusal Unit :=
  if document.format ≠ format then .error (.unsupportedFormat document.format)
  else if document.version ≠ version then .error (.unsupportedVersion document.version)
  else if maxMessages < document.messages.length then .error .tooManyMessages
  else
    match RedactionPolicy.fromStorage document.session.redactionPolicy document.session.redactionKeys with
    | .error detail => .error (.invalidRedactionPolicy detail)
    | .ok policy =>
      if policy.customKeys ≠ document.session.redactionKeys then .error .customKeysNotNormalized
      else if document.session.droppedMessages < 0 then .error .negativeDroppedMessages
      else validateMessages codec policy none .fresh document.messages

/-! ## The redaction check -/

theorem rejectMessageFieldPayloadMismatch_ne (codec : Codec) (message : MtraceMessage) (seq : Nat)
    (name : String) (fields : List String) :
    rejectMessageFieldPayloadMismatch codec message ≠ .error (.unredactedFields seq name fields) := by
  unfold rejectMessageFieldPayloadMismatch
  split
  · simp
  · dsimp only
    split_ifs <;> simp

/-- An accepted message hands on the observing tracker. -/
theorem validateMessage_ok {codec : Codec} {policy : RedactionPolicy} {previousSeq : Option Nat}
    {tracker next : RedactionContextTracker} {message : MtraceMessage}
    (accepted : validateMessage codec policy previousSeq tracker message = .ok next) :
    next = (tracker.observeCall codec message.observedCall).1 := by
  unfold validateMessage at accepted
  cases fits : rejectMessageFieldPayloadMismatch codec message with
  | error refusal =>
      simp only [fits] at accepted
      split_ifs at accepted
  | ok _ =>
      simp only [fits] at accepted
      split_ifs at accepted
      exact (Except.ok.inj accepted).symm

/-- What an accepted message was checked for. -/
theorem validateMessage_checked {codec : Codec} {policy : RedactionPolicy} {previousSeq : Option Nat}
    {tracker next : RedactionContextTracker} {message : MtraceMessage}
    (accepted : validateMessage codec policy previousSeq tracker message = .ok next) :
    (∀ previous, previousSeq = some previous → previous < message.seq) ∧ message.payload.isObject = true ∧
      (policy = .none ∨ next.lostContext = false) ∧
      unredactedSensitiveKeysWithContext message.payload policy
        (tracker.observeCall codec message.observedCall).2 = [] := by
  obtain rfl := validateMessage_ok accepted
  unfold validateMessage at accepted
  cases fits : rejectMessageFieldPayloadMismatch codec message with
  | error refusal =>
    simp only [fits] at accepted
    split_ifs at accepted
  | ok _ =>
    simp only [fits] at accepted
    split_ifs at accepted with order direction kind shape lost found
    refine ⟨fun previous same => ?_, by simpa using shape, ?_, by simpa using found⟩
    · simpa [same] using order
    · by_contra neither
      push Not at neither
      exact lost ⟨neither.1, by simpa using neither.2⟩

theorem validateMessages_increasing {codec : Codec} {policy : RedactionPolicy} {previousSeq : Option Nat}
    {tracker : RedactionContextTracker} {messages : List MtraceMessage}
    (accepted : validateMessages codec policy previousSeq tracker messages = .ok ()) :
    (∀ previous, previousSeq = some previous → ∀ message ∈ messages, previous < message.seq) ∧
      messages.Pairwise fun earlier later => earlier.seq < later.seq := by
  induction messages generalizing previousSeq tracker with
  | nil => exact ⟨fun _ _ _ member => absurd member List.not_mem_nil, .nil⟩
  | cons message rest ih =>
    cases step : validateMessage codec policy previousSeq tracker message with
    | error refusal => simp [validateMessages, step] at accepted
    | ok next =>
      simp only [validateMessages, step] at accepted
      obtain ⟨below, sorted⟩ := ih accepted
      have order := (validateMessage_checked step).1
      refine ⟨fun previous same => ?_, List.pairwise_cons.2 ⟨below message.seq rfl, sorted⟩⟩
      exact List.forall_mem_cons.2 ⟨order previous same,
        fun later member => (order previous same).trans (below message.seq rfl later member)⟩

/-- A message refused for its fields holds fields its context does not exempt. -/
theorem validateMessage_unredacted {codec : Codec} {policy : RedactionPolicy}
    {previousSeq : Option Nat} {tracker : RedactionContextTracker} {message : MtraceMessage}
    {seq : Nat} {name : String} {fields : List String}
    (refused : validateMessage codec policy previousSeq tracker message =
      .error (.unredactedFields seq name fields)) :
    unredactedSensitiveKeysWithContext message.payload policy
      (tracker.observeCall codec message.observedCall).2 ≠ [] := by
  unfold validateMessage at refused
  cases fits : rejectMessageFieldPayloadMismatch codec message with
  | error refusal =>
      simp only [fits] at refused
      split_ifs at refused <;> have same := Except.error.inj refused
      case neg =>
        exact absurd (same ▸ fits) (rejectMessageFieldPayloadMismatch_ne codec message seq name fields)
      all_goals cases same
  | ok _ =>
      simp only [fits] at refused
      split_ifs at refused with _ _ _ _ _ found
      all_goals first | exact found | cases Except.error.inj refused

/-- A stream refused for unredacted fields holds such a message under the context of its history. -/
theorem validateMessages_unredacted {codec : Codec} {policy : RedactionPolicy} {seq : Nat}
    {name : String} {fields : List String} (messages : List MtraceMessage)
    (previousSeq : Option Nat) (tracker : RedactionContextTracker)
    (refused : validateMessages codec policy previousSeq tracker messages =
      .error (.unredactedFields seq name fields)) :
    ∃ pair ∈ messages.zip (RedactionContextTracker.contextsFrom codec tracker
        (messages.map MtraceMessage.observedCall)),
      unredactedSensitiveKeysWithContext pair.1.payload policy pair.2 ≠ [] := by
  induction messages generalizing previousSeq tracker with
  | nil => cases refused
  | cons message rest ih =>
      simp only [List.map_cons, RedactionContextTracker.contextsFrom, List.zip_cons_cons]
      cases step : validateMessage codec policy previousSeq tracker message with
      | error refusal =>
          have same : refusal = .unredactedFields seq name fields := by
            simpa [validateMessages, step] using refused
          exact ⟨_, List.mem_cons_self, validateMessage_unredacted (same ▸ step)⟩
      | ok next =>
          obtain rfl := validateMessage_ok step
          have later := ih (some message.seq) _ (by
            simpa [validateMessages, step] using refused)
          obtain ⟨pair, member, found⟩ := later
          exact ⟨pair, List.mem_cons_of_mem _ member, found⟩

/-- Validation under a policy that the session stores refuses fields only in the loop. -/
theorem validate_unredacted {codec : Codec} {document : MtraceDocument} {policy : RedactionPolicy}
    (stored : RedactionPolicy.fromStorage document.session.redactionPolicy
      document.session.redactionKeys = .ok policy) {seq : Nat} {name : String} {fields : List String}
    (refused : validate codec document = .error (.unredactedFields seq name fields)) :
    ∃ pair ∈ document.messages.zip (RedactionContextTracker.contexts codec
        (document.messages.map MtraceMessage.observedCall)),
      unredactedSensitiveKeysWithContext pair.1.payload policy pair.2 ≠ [] := by
  unfold validate at refused
  simp only [stored] at refused
  split_ifs at refused
  case neg => exact validateMessages_unredacted document.messages none .fresh refused
  all_goals cases Except.error.inj refused

/-- What an accepted document was checked for. -/
theorem validate_checked {codec : Codec} {document : MtraceDocument} (accepted : validate codec document = .ok ()) :
    document.format = format ∧ document.version = version ∧ document.messages.length ≤ maxMessages ∧
      ∃ policy, RedactionPolicy.fromStorage document.session.redactionPolicy document.session.redactionKeys =
          .ok policy ∧ policy.customKeys = document.session.redactionKeys ∧
        validateMessages codec policy none .fresh document.messages = .ok () := by
  unfold validate at accepted
  cases stored : RedactionPolicy.fromStorage document.session.redactionPolicy document.session.redactionKeys with
  | error detail =>
    simp only [stored] at accepted
    split_ifs at accepted
  | ok policy =>
    simp only [stored] at accepted
    split_ifs at accepted with otherFormat otherVersion many keys
    exact ⟨not_not.1 otherFormat, not_not.1 otherVersion, not_lt.1 many, policy, rfl, not_not.1 keys, accepted⟩

end McpTracer.Storage
