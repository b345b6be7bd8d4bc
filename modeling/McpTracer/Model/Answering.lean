import McpTracer.Model.Conservation
import McpTracer.Model.Health
import McpTracer.Model.Requests

/-! What a response of a healthy session answers.

An exchange keeps the direction and the method of its request. In a healthy session every response has
an exchange, and this is the exchange of the last open request with its id.
-/

set_option autoImplicit false

namespace McpTracer.Model
open McpTracer.Foundation McpTracer.Json McpTracer.Protocol McpTracer.Storage

/-! ## Requests of exchanges -/

/-- What an exchange has of its request. -/
def Exchange.asked (exchange : Exchange) : Option Nat × Direction × Option String :=
  (exchange.requestSeq, exchange.origin, exchange.method)

/-- The request that these fields were read from. -/
def Asks (message : StoredMessage) (asked : Option Nat × Direction × Option String) : Prop :=
  asked.1 = some message.seq ∧ message.direction = asked.2.1.asDbStr ∧ message.messageKind = "request" ∧
    message.method = asked.2.2

section
variable {codec : Codec} {messages : List StoredMessage} {exchange : Exchange}

/-- Every exchange with a request has its fields from one. -/
theorem asks_of_requestSeq (member : exchange ∈ (correlate codec messages).exchanges)
    (requested : exchange.requestSeq ≠ none) : ∃ message ∈ messages, Asks message exchange.asked := by
  refine correlate_forall codec messages (P := fun exchange => exchange.requestSeq ≠ none →
    ∃ message ∈ messages, Asks message exchange.asked) ?opened ?orphan ?answered ?cancelled ?acknowledged exchange member
    requested
  case opened =>
    intro message inside direction known kind _
    exact ⟨message, inside, rfl, (Direction.fromDbStr_eq_some_iff _ _).1 known, kind, rfl⟩
  case orphan =>
    intro message _ direction absent
    exact absurd rfl absent
  case answered => exact fun _ _ _ before => before
  case cancelled => exact fun _ before => before
  case acknowledged =>
    intro exchange before
    unfold Exchange.acknowledged
    split <;> exact before

/-! ## Responses -/

/-- The exchanges that carry both numbers are the requests that are answered. -/
theorem paired_iff {a b : Nat} : (∃ exchange ∈ (correlate codec messages).exchanges,
    exchange.requestSeq = some a ∧ exchange.responseSeq = some b) ↔
      ∃ before response after, messages = before ++ response :: after ∧ response.seq = b ∧
        ∃ earlier request between, before = earlier ++ request :: between ∧ request.seq = a ∧
          Answers codec request between response := by
  have carried := (tracks_foldl codec messages).pairs a b
  simp only [List.mem_map, Exchange.sides, Prod.mk.injEq, Sometime, meets_iff] at carried
  simp only [mem_correlate, carried]

/-- Only one request is answered. -/
theorem answers_unique {earlier between otherEarlier otherBetween : List StoredMessage}
    {request other response : StoredMessage} (same : earlier ++ request :: between = otherEarlier ++ other :: otherBetween)
    (answers : Answers codec request between response) (also : Answers codec other otherBetween response) :
    request = other := by
  obtain ⟨direction, id, isRequest, isResponse, calm⟩ := answers
  obtain ⟨otherDirection, otherId, isOther, alsoResponse, otherCalm⟩ := also
  obtain rfl : direction = otherDirection :=
    opposite_inj.1 (asDbStr_inj.1 (isResponse.1.symm.trans alsoResponse.1))
  obtain rfl : id = otherId := Option.some.inj (isResponse.2.2.symm.trans alsoResponse.2.2)
  have here := (openRequests_eq_some_iff codec _ direction id request).2 ⟨earlier, between, rfl, isRequest, calm⟩
  have there := (openRequests_eq_some_iff codec _ direction id other).2 ⟨otherEarlier, otherBetween, same, isOther, otherCalm⟩
  exact Option.some.inj (here.symm.trans there)

theorem eq_of_seq_eq (increasing : StoredMessage.Increasing messages) {message other : StoredMessage}
    (member : message ∈ messages) (also : other ∈ messages) (same : message.seq = other.seq) : message = other := by
  obtain ⟨before, after, shape⟩ := List.append_of_mem member
  obtain ⟨otherBefore, otherAfter, otherShape⟩ := List.append_of_mem also
  exact (split_unique increasing shape otherShape same).2

/-- In a healthy session a response answers an open request, and its exchange has the fields of this request. -/
theorem answers_of_healthy {dropped : Nat} (healthy : Healthy codec messages dropped)
    {before after : List StoredMessage} {response : StoredMessage} (shape : messages = before ++ response :: after)
    (kind : response.messageKind = "response") :
    ∃ earlier request between, before = earlier ++ request :: between ∧ Answers codec request between response ∧
      (∃ exchange ∈ (correlate codec messages).exchanges, exchange.responseSeq = some response.seq) ∧
      ∀ exchange ∈ (correlate codec messages).exchanges, exchange.responseSeq = some response.seq →
        Asks request exchange.asked := by
  obtain ⟨-, -, increasing, recognized, settled⟩ := healthy_iff.1 healthy
  have member : response ∈ messages := shape ▸ List.mem_append_right _ List.mem_cons_self
  have listed : response.seq ∈ (correlate codec messages).exchanges.filterMap Exchange.responseSeq :=
    (correlate_responses codec messages).mem_iff.2
      (mem_seqsOf_iff.2 ⟨response, member, ⟨(recognized response member).direction, kind⟩, rfl⟩)
  -- Whatever carries the number of this response also carries that of the request it answers.
  have paired (exchange : Exchange) (inside : exchange ∈ (correlate codec messages).exchanges)
      (answered : exchange.responseSeq = some response.seq) : ∃ earlier request between,
        before = earlier ++ request :: between ∧ exchange.requestSeq = some request.seq ∧
          Answers codec request between response := by
    have requested : exchange.requestSeq ≠ none := fun absent => (settled exchange inside).2
      (((tracks_foldl codec messages).orphanStatus exchange ((mem_correlate codec messages exchange).1 inside)).2 absent)
    obtain ⟨a, asked⟩ := Option.ne_none_iff_exists'.1 requested
    obtain ⟨history, other, rest, otherShape, same, earlier, request, between, split, first, answers⟩ :=
      paired_iff.1 ⟨exchange, inside, asked, answered⟩
    obtain ⟨rfl, rfl⟩ := split_unique increasing shape otherShape same.symm
    exact ⟨earlier, request, between, split, by rw [asked, first], answers⟩
  obtain ⟨exchange, inside, answered⟩ := List.mem_filterMap.1 listed
  obtain ⟨earlier, request, between, split, -, answers⟩ := paired exchange inside answered
  refine ⟨earlier, request, between, split, answers, ⟨exchange, inside, answered⟩, fun other also here => ?_⟩
  obtain ⟨otherEarlier, otherRequest, otherBetween, otherSplit, asked, otherAnswers⟩ := paired other also here
  obtain rfl := answers_unique (split.symm.trans otherSplit) answers otherAnswers
  obtain ⟨message, sent, asks⟩ := asks_of_requestSeq also (by simp [asked])
  have requested : request ∈ messages := by simp [shape, split]
  obtain rfl := eq_of_seq_eq increasing sent requested (Option.some.inj (asks.1.symm.trans asked))
  exact asks

end

end McpTracer.Model
