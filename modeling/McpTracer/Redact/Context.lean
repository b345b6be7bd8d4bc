import McpTracer.Json.Codec
import McpTracer.Redact.Redactor

/-! Conservative request context for schema-aware redaction.

A bounded tracker remembers the tools/list requests that may still be answered.
Gaps, unknown directions and reused ids make it forget, so the schema context is
granted only to a response whose request the same unbroken stream holds. What
one call can do is said once, as a relation; the history invariant and the
bounds are derived from it.
-/

set_option autoImplicit false

namespace McpTracer.Redact
open McpTracer.Json

def maxPendingListRequests : Nat := 4096

def maxTrackedIdBytes : Nat := 1024

/-- Keys are the side that may answer and the encoded id. -/
structure RedactionContextTracker where
  pending : Finset (Bool × String)
  previousSeq : Option Nat
  /-- Bounded retention could not track a valid tools/list request. -/
  lostContext : Bool
  deriving DecidableEq

/-- Whether a message of this direction comes from the server side. -/
def responderOf : String → Option Bool
  | "c2s" => some false
  | "s2c" => some true
  | _ => none

/-- Only strings and numbers are ids. -/
def correlationId (payload : Value) : Option Value :=
  (payload.get "id").filter fun id => id.isString || id.isNumber

def isVersionTwo (payload : Value) : Bool := (payload.get "jsonrpc").bind Value.asStr = some "2.0"

def isListRequest (payload : Value) : Bool :=
  isVersionTwo payload && decide ((payload.get "method").bind Value.asStr = some "tools/list") &&
    (payload.get "result").isNone && (payload.get "error").isNone

/-- A method-less message that reports a result and no error. -/
def isResultResponse (payload : Value) : Bool :=
  (payload.get "method").isNone && isVersionTwo payload && (payload.get "result").isSome &&
    (payload.get "error").isNone

namespace RedactionContextTracker

def fresh : RedactionContextTracker where
  pending := ∅
  previousSeq := none
  lostContext := false

/-- What is still pending when the message numbered `seq` arrives: nothing after a gap. -/
def retained (tracker : RedactionContextTracker) (seq : Nat) : Finset (Bool × String) :=
  if tracker.previousSeq.any fun previous => decide (previous + 1 ≠ seq) then ∅ else tracker.pending

/-- Sequence numbers are machine words; the greatest one has no successor and every message after it
is a gap, as it is for natural numbers that stay below the word size. -/
def observe (codec : Codec) (tracker : RedactionContextTracker) (seq : Nat) (direction : String)
    (payload : Value) : RedactionContextTracker × RedactionContext :=
  let tracker := { tracker with pending := tracker.retained seq, previousSeq := some seq }
  match responderOf direction with
  | none => ({ tracker with pending := ∅ }, .runtime)
  | some responder =>
    match correlationId payload with
    | none => (tracker, .runtime)
    | some id =>
      let listRequest := isListRequest payload
      if id.asStr.any fun text => decide (maxTrackedIdBytes < text.utf8ByteSize) then
        ({ tracker with lostContext := tracker.lostContext || listRequest }, .runtime)
      else
        let encoded := codec.toString id
        if maxTrackedIdBytes < encoded.utf8ByteSize then
          ({ tracker with lostContext := tracker.lostContext || listRequest }, .runtime)
        else if (payload.get "method").isSome then
          let key := (!responder, encoded)
          let tracker := { tracker with pending := tracker.pending.erase key }
          if listRequest then
            if tracker.pending.card < maxPendingListRequests then
              ({ tracker with pending := insert key tracker.pending }, .runtime)
            else ({ tracker with lostContext := true }, .runtime)
          else (tracker, .runtime)
        else
          let key := (responder, encoded)
          ({ tracker with pending := tracker.pending.erase key },
            if decide (key ∈ tracker.pending) && isVersionTwo payload &&
                (payload.get "result").isSome && (payload.get "error").isNone then .toolListResponse
            else .runtime)

end RedactionContextTracker

/-! ## What one call does -/

/-- Short enough to be kept. -/
def Trackable (codec : Codec) (id : Value) : Prop :=
  (id.asStr.any fun text => decide (maxTrackedIdBytes < text.utf8ByteSize)) = false ∧
    (codec.toString id).utf8ByteSize ≤ maxTrackedIdBytes

/-- The possible outcomes of one call, by what the call carries. -/
inductive Observed (codec : Codec) (tracker : RedactionContextTracker) (seq : Nat)
    (direction : String) (payload : Value) : RedactionContextTracker → RedactionContext → Prop where
  | unknownDirection : responderOf direction = none →
      Observed codec tracker seq direction payload ⟨∅, some seq, tracker.lostContext⟩ .runtime
  | unidentified {responder : Bool} : responderOf direction = some responder →
      correlationId payload = none → Observed codec tracker seq direction payload
        ⟨tracker.retained seq, some seq, tracker.lostContext⟩ .runtime
  | oversized {responder : Bool} {id : Value} : responderOf direction = some responder →
      correlationId payload = some id → ¬ Trackable codec id →
      Observed codec tracker seq direction payload
        ⟨tracker.retained seq, some seq, tracker.lostContext || isListRequest payload⟩ .runtime
  | listed {responder : Bool} {id : Value} : responderOf direction = some responder →
      correlationId payload = some id → Trackable codec id → isListRequest payload = true →
      ((tracker.retained seq).erase (!responder, codec.toString id)).card < maxPendingListRequests →
      Observed codec tracker seq direction payload
        ⟨insert (!responder, codec.toString id)
            ((tracker.retained seq).erase (!responder, codec.toString id)), some seq,
          tracker.lostContext⟩ .runtime
  | refused {responder : Bool} {id : Value} : responderOf direction = some responder →
      correlationId payload = some id → Trackable codec id → isListRequest payload = true →
      Observed codec tracker seq direction payload
        ⟨(tracker.retained seq).erase (!responder, codec.toString id), some seq, true⟩ .runtime
  | reused {responder : Bool} {id : Value} : responderOf direction = some responder →
      correlationId payload = some id → Trackable codec id → (payload.get "method").isSome = true →
      isListRequest payload = false → Observed codec tracker seq direction payload
        ⟨(tracker.retained seq).erase (!responder, codec.toString id), some seq,
          tracker.lostContext⟩ .runtime
  | answered {responder : Bool} {id : Value} : responderOf direction = some responder →
      correlationId payload = some id → Trackable codec id → payload.get "method" = none →
      Observed codec tracker seq direction payload
        ⟨(tracker.retained seq).erase (responder, codec.toString id), some seq, tracker.lostContext⟩
        (if (responder, codec.toString id) ∈ tracker.retained seq ∧ isResultResponse payload = true
          then .toolListResponse else .runtime)

theorem isListRequest_method {payload : Value} (listing : isListRequest payload = true) :
    (payload.get "method").isSome = true := by
  simp only [isListRequest, Bool.and_eq_true, decide_eq_true_eq] at listing
  cases found : payload.get "method" with
  | none => simp [found] at listing
  | some method => rfl

theorem observed (codec : Codec) (tracker : RedactionContextTracker) (seq : Nat) (direction : String)
    (payload : Value) : Observed codec tracker seq direction payload
      (tracker.observe codec seq direction payload).1
      (tracker.observe codec seq direction payload).2 := by
  unfold RedactionContextTracker.observe
  cases side : responderOf direction with
  | none => exact .unknownDirection side
  | some responder =>
      cases found : correlationId payload with
      | none => exact .unidentified side found
      | some id =>
          by_cases long : id.asStr.any fun text => decide (maxTrackedIdBytes < text.utf8ByteSize)
          · simp only [long, if_true]
            exact .oversized side found fun trackable => by simp [trackable.1] at long
          by_cases wide : maxTrackedIdBytes < (codec.toString id).utf8ByteSize
          · simp only [long, wide, if_true]
            exact .oversized side found fun trackable => Nat.not_lt.mpr trackable.2 wide
          have trackable : Trackable codec id := ⟨by simpa using long, Nat.not_lt.mp wide⟩
          cases method : payload.get "method" with
          | none =>
              have outcome : Observed codec tracker seq direction payload _ _ :=
                .answered side found trackable method
              simpa [long, wide, isResultResponse, method, and_assoc] using outcome
          | some name =>
              have named : (payload.get "method").isSome = true := by simp [method]
              by_cases listing : isListRequest payload = true
              · by_cases room :
                    ((tracker.retained seq).erase (!responder, codec.toString id)).card <
                      maxPendingListRequests
                · simp only [long, wide, listing, room, if_true, if_false, Option.isSome_some]
                  exact .listed side found trackable listing room
                · simp only [long, wide, listing, room, if_true, if_false, Option.isSome_some]
                  exact .refused side found trackable listing
              · simp only [long, wide, listing, if_true, if_false, Option.isSome_some]
                exact .reused side found trackable named (by simpa using listing)

end McpTracer.Redact
