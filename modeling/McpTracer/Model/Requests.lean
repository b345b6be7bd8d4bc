import McpTracer.Model.Conservation

/-! The requests of a session as its exchanges tell them.

What an exchange keeps of its request is never changed. So the exchanges with a
request are the request messages, and in a stream whose sequence numbers
increase they are in its order.
-/

set_option autoImplicit false

namespace McpTracer.Model
open McpTracer.Foundation McpTracer.Json McpTracer.Protocol McpTracer.Storage

/-- What an exchange keeps of the request that opened it. -/
structure RequestRecord where
  seq : Nat
  tsNs : Int
  origin : Direction
  rpcId : Option String
  method : Option String
  toolName : Option String
  deriving DecidableEq

def RequestRecord.ofMessage (message : StoredMessage) : Option RequestRecord :=
  if message.messageKind = "request" then
    (Direction.fromDbStr message.direction).map fun direction =>
      ⟨message.seq, message.tsNs, direction, message.rpcId, message.method, message.toolName⟩
  else none

def Exchange.request (exchange : Exchange) : Option RequestRecord := do
  let seq ← exchange.requestSeq
  let tsNs ← exchange.requestTsNs
  return ⟨seq, tsNs, exchange.origin, exchange.rpcId, exchange.method, exchange.toolName⟩

/-- The requests of a stream, in its order. -/
def requestRecords (messages : List StoredMessage) : List RequestRecord :=
  messages.filterMap RequestRecord.ofMessage

theorem ofMessage_eq_some_iff {message : StoredMessage} {request : RequestRecord} :
    RequestRecord.ofMessage message = some request ↔ message.messageKind = "request" ∧
      Direction.fromDbStr message.direction = some request.origin ∧ message.seq = request.seq ∧
      message.tsNs = request.tsNs ∧ message.rpcId = request.rpcId ∧ message.method = request.method ∧
      message.toolName = request.toolName := by
  unfold RequestRecord.ofMessage
  cases request
  split_ifs with kind
  · simp only [Option.map_eq_some_iff, RequestRecord.mk.injEq]
    grind
  · simp [kind]

/-- What a record has of the exchange it was read from. -/
theorem request_fields {exchange : Exchange} {request : RequestRecord} (asked : exchange.request = some request) :
    exchange.requestSeq = some request.seq ∧ exchange.origin = request.origin ∧
      exchange.method = request.method ∧ exchange.toolName = request.toolName := by
  simp only [Exchange.request, Option.bind_eq_bind, Option.bind_eq_some_iff, Option.pure_def, Option.some.injEq] at asked
  obtain ⟨seq, found, tsNs, -, rfl⟩ := asked
  exact ⟨found, rfl, rfl, rfl⟩

section Step
variable {codec : Codec} {state : Correlation} {message : StoredMessage} {direction : Direction}

theorem request_answered (exchange : Exchange) : (exchange.answered codec message).request = exchange.request := rfl

theorem request_cancelled (exchange : Exchange) : exchange.cancelled.request = exchange.request := rfl

theorem request_acknowledged (exchange : Exchange) : exchange.acknowledged.request = exchange.request := by
  unfold Exchange.acknowledged
  split <;> rfl

/-- Only a request adds to the requests, and a step changes none of them. -/
theorem requests_step : (state.step codec message).exchanges.filterMap Exchange.request =
    state.exchanges.filterMap Exchange.request ++ (RequestRecord.ofMessage message).toList := by
  unfold Correlation.step
  cases known : Direction.fromDbStr message.direction with
  | none => simp [RequestRecord.ofMessage, known]
  | some direction =>
    dsimp only
    split
    case h_1 kind =>
      simp [Correlation.request, Exchange.opened, Exchange.request, RequestRecord.ofMessage, kind, known]
    case h_2 kind =>
      have none : RequestRecord.ofMessage message = none := if_neg (by simp [kind])
      rw [none, Option.toList_none, List.append_nil]
      unfold Correlation.response
      split
      · exact filterMap_modify_kept request_answered _ _
      · simp [Exchange.orphan, Exchange.request]
    case h_3 kind =>
      have none : RequestRecord.ofMessage message = none := if_neg (by simp [kind])
      rw [none, Option.toList_none, List.append_nil, Correlation.notification]
      have cancelled : (state.cancellation codec direction message).exchanges.filterMap Exchange.request =
          state.exchanges.filterMap Exchange.request := by
        unfold Correlation.cancellation
        split
        · exact filterMap_modify_kept request_cancelled _ _
        · rfl
      rw [← cancelled]
      generalize state.cancellation codec direction message = later
      unfold Correlation.acknowledgement
      split
      · split
        · exact filterMap_modify_kept request_acknowledged _ _
        · rfl
      · rfl
    case h_4 other _ _ =>
      have none : RequestRecord.ofMessage message = none := if_neg other
      rw [none, Option.toList_none, List.append_nil]

/-- A property of what was opened or found without a request, and kept by every change, holds throughout. -/
theorem step_induct {P : Exchange → Prop}
    (opened : ∀ direction, Direction.fromDbStr message.direction = some direction → message.messageKind = "request" →
      P (Exchange.opened direction message))
    (orphan : ∀ direction, P (Exchange.orphan direction message))
    (answered : ∀ exchange, P exchange → P (exchange.answered codec message))
    (cancelled : ∀ exchange, P exchange → P exchange.cancelled)
    (acknowledged : ∀ exchange, P exchange → P exchange.acknowledged)
    (before : ∀ exchange ∈ state.exchanges, P exchange) :
    ∀ exchange ∈ (state.step codec message).exchanges, P exchange := by
  -- A change at an index keeps the property if it does so for every exchange.
  have modified {exchanges : List Exchange} {index : Nat} {change : Exchange → Exchange}
      (kept : ∀ exchange, P exchange → P (change exchange)) (all : ∀ exchange ∈ exchanges, P exchange) :
      ∀ exchange ∈ exchanges.modify index change, P exchange := by
    intro exchange member
    cases found : exchanges[index]? with
    | none =>
        rw [List.modify_eq_self (List.getElem?_eq_none_iff.1 found)] at member
        exact all exchange member
    | some old =>
        rcases mem_modify found member with same | rfl
        · exact all exchange same
        · exact kept old (all old (List.mem_of_getElem? found))
  have added {exchanges : List Exchange} {new : Exchange} (all : ∀ exchange ∈ exchanges, P exchange)
      (holds : P new) : ∀ exchange ∈ exchanges ++ [new], P exchange :=
    List.forall_mem_append.2 ⟨all, List.forall_mem_singleton.2 holds⟩
  unfold Correlation.step
  split
  · exact before
  · rename_i direction known
    split
    · rename_i kind
      exact added before (opened direction known kind)
    · unfold Correlation.response
      split
      · exact modified answered before
      · exact added before (orphan _)
    · have afterwards : ∀ exchange ∈ (state.cancellation codec direction message).exchanges, P exchange := by
        unfold Correlation.cancellation
        split
        · exact modified cancelled before
        · exact before
      rw [Correlation.notification]
      generalize state.cancellation codec direction message = later at afterwards
      unfold Correlation.acknowledgement
      split
      · split
        · exact modified acknowledged afterwards
        · exact afterwards
      · exact afterwards
    · exact before

end Step

section View
variable (codec : Codec) (messages : List StoredMessage)

theorem correlate_requestRecords_perm :
    ((correlate codec messages).exchanges.filterMap Exchange.request).Perm (requestRecords messages) := by
  have folded : (messages.foldl (Correlation.step codec) .start).exchanges.filterMap Exchange.request =
      requestRecords messages := by
    induction messages using List.reverseRecOn with
    | nil => rfl
    | append_singleton history message ih =>
        rw [List.foldl_append, List.foldl_cons, List.foldl_nil, requests_step, ih, requestRecords, requestRecords,
          List.filterMap_append]
        cases request : RequestRecord.ofMessage message with
        | none => simp [request]
        | some request' => simp [request]
  rw [← folded]
  exact (correlate_perm codec messages).filterMap _

theorem correlate_forall {P : Exchange → Prop}
    (opened : ∀ message ∈ messages, ∀ direction, Direction.fromDbStr message.direction = some direction →
      message.messageKind = "request" → P (Exchange.opened direction message))
    (orphan : ∀ message ∈ messages, ∀ direction, P (Exchange.orphan direction message))
    (answered : ∀ message ∈ messages, ∀ exchange, P exchange → P (exchange.answered codec message))
    (cancelled : ∀ exchange, P exchange → P exchange.cancelled)
    (acknowledged : ∀ exchange, P exchange → P exchange.acknowledged) :
    ∀ exchange ∈ (correlate codec messages).exchanges, P exchange := by
  intro exchange member
  rw [mem_correlate] at member
  revert exchange
  induction messages using List.reverseRecOn with
  | nil => simp [Correlation.start]
  | append_singleton history message ih =>
      rw [List.foldl_append]
      have earlier := ih (fun other member => opened other (List.mem_append_left _ member))
        (fun other member => orphan other (List.mem_append_left _ member))
        (fun other member => answered other (List.mem_append_left _ member))
      have last : message ∈ history ++ [message] := List.mem_append_right _ (List.mem_singleton_self _)
      exact step_induct (opened message last) (orphan message last) (answered message last) cancelled acknowledged
        earlier

/-- An exchange without a request names neither a method nor a tool. -/
theorem correlate_unnamed {exchange : Exchange} (member : exchange ∈ (correlate codec messages).exchanges)
    (unasked : exchange.request = none) : exchange.method = none ∧ exchange.toolName = none := by
  refine correlate_forall codec messages (P := fun exchange => exchange.request = none →
    exchange.method = none ∧ exchange.toolName = none) ?_ ?_ ?_ ?_ ?_ exchange member unasked
  · intro message _ direction _ _ absent
    simp [Exchange.opened, Exchange.request] at absent
  · exact fun message _ direction _ => ⟨rfl, rfl⟩
  · exact fun message _ exchange kept absent => kept absent
  · exact fun exchange kept absent => kept absent
  · intro exchange kept absent
    rw [request_acknowledged] at absent
    unfold Exchange.acknowledged
    split
    · exact kept absent
    · exact kept absent

end View

section Ordered
variable {codec : Codec} {messages : List StoredMessage}

theorem requestRecords_increasing (increasing : StoredMessage.Increasing messages) :
    (requestRecords messages).Pairwise fun a b => a.seq < b.seq := by
  refine List.Pairwise.filterMap _ (fun a b less left first right second => ?_) increasing
  obtain ⟨-, -, same, -⟩ := ofMessage_eq_some_iff.1 first
  obtain ⟨-, -, other, -⟩ := ofMessage_eq_some_iff.1 second
  rw [← same, ← other]
  exact less

theorem sortKey_of_request {exchange : Exchange} {request : RequestRecord} (asked : exchange.request = some request) :
    exchange.sortKey = request.seq := by
  simp [Exchange.sortKey, (request_fields asked).1]

/-- The exchanges list the requests of an increasing stream as the stream does. -/
theorem correlate_requestRecords (increasing : StoredMessage.Increasing messages) :
    (correlate codec messages).exchanges.filterMap Exchange.request = requestRecords messages := by
  have perm := correlate_requestRecords_perm codec messages
  have later := requestRecords_increasing increasing
  have sorted : ((correlate codec messages).exchanges.filterMap Exchange.request).Pairwise
      fun a b => a.seq ≤ b.seq := by
    refine List.Pairwise.filterMap _ (fun a b le left first right second => ?_) (correlate_sorted codec messages)
    rw [← sortKey_of_request first, ← sortKey_of_request second]
    exact le
  refine List.Perm.eq_of_pairwise (fun a b first second below above => ?_) sorted (later.imp Nat.le_of_lt) perm
  -- Requests with one number are one request.
  exact List.inj_on_of_nodup_map (List.pairwise_map.2 (later.imp Nat.ne_of_lt)) (perm.mem_iff.1 first) second
    (Nat.le_antisymm below above)

end Ordered

end McpTracer.Model
