import McpTracer.Protocol.Message
import McpTracer.Redact.Evidence

/-! The redaction loop of the storage writer.

Messages arrive in the writer's order. Each one is observed raw and then masked
under the context it was given; lost context is reported once as a failed record.
-/

set_option autoImplicit false

namespace McpTracer.Proxy
open McpTracer.Json McpTracer.Protocol McpTracer.Redact

/-- What the storage writer keeps from one batch of messages to the next, as far as redaction goes. -/
structure WriterState where
  redactionContext : RedactionContextTracker
  failedMessageRecords : Nat
  firstFailure : Option String
  contextLossReported : Bool

namespace WriterState

def start : WriterState where
  redactionContext := .fresh
  failedMessageRecords := 0
  firstFailure := none
  contextLossReported := false

def maxFailedRecords : Nat := 2 ^ 64 - 1

/-- The counter saturates and only the first failure is kept. -/
def reportFailure (state : WriterState) (failure : String) : WriterState :=
  { state with
    failedMessageRecords := min (state.failedMessageRecords + 1) maxFailedRecords
    firstFailure := some (state.firstFailure.getD failure)
    contextLossReported := true }

@[simp] theorem reportFailure_redactionContext (state : WriterState) (failure : String) :
    (state.reportFailure failure).redactionContext = state.redactionContext := rfl

def redactMessage (codec : Codec) (redactor : Redactor) (state : WriterState) (message : McpMessage) :
    WriterState × McpMessage :=
  let outcome := state.redactionContext.observe codec message.seq message.direction.asDbStr message.payload
  let state := { state with redactionContext := outcome.1 }
  let state :=
    if redactor.isActive && state.redactionContext.lostContext && !state.contextLossReported then
      state.reportFailure "redaction request context was incomplete"
    else state
  (state, { message with payload := redactor.redactWithContext message.payload outcome.2 })

def redactMessages (codec : Codec) (redactor : Redactor) :
    WriterState → List McpMessage → WriterState × List McpMessage
  | state, [] => (state, [])
  | state, message :: rest =>
    let redacted := state.redactMessage codec redactor message
    let others := redactMessages codec redactor redacted.1 rest
    (others.1, redacted.2 :: others.2)

theorem redactMessage_redactionContext (codec : Codec) (redactor : Redactor) (state : WriterState)
    (message : McpMessage) : (state.redactMessage codec redactor message).1.redactionContext =
      (state.redactionContext.observe codec message.seq message.direction.asDbStr message.payload).1 := by
  unfold redactMessage
  dsimp only
  split <;> rfl

end WriterState

/-- The stream a session stores when its messages are written in order. -/
def recorded (codec : Codec) (redactor : Redactor) (messages : List McpMessage) : List McpMessage :=
  (WriterState.start.redactMessages codec redactor messages).2

/-- What the tracker is told about a message. -/
def observedCall (message : McpMessage) : Call where
  seq := message.seq
  direction := message.direction.asDbStr
  payload := message.payload

end McpTracer.Proxy
