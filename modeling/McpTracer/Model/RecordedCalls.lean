import McpTracer.Model.Answering
import McpTracer.Model.CorrespondingDiff
import McpTracer.Model.Replay

/-! The calls of a session that was recorded from messages.

The columns of the store are read off the payloads there. So the exchange of a call that was answered says of its
request and its response what their payloads say, and it says nothing else but when they came.
-/

set_option autoImplicit false

namespace McpTracer.Model
open McpTracer.Foundation McpTracer.Json McpTracer.Protocol McpTracer.Storage

/-- Messages that are numbered in their order and are read back as they were written. -/
structure Recording (codec : Codec) where
  messages : List McpMessage
  numbered : messages.Pairwise fun earlier later => earlier.seq < later.seq
  readsBack : ∀ message ∈ messages, codec.fromStr (codec.toString message.payload) = some message.payload

/-- What a response says about a call of this method. -/
def outcomeOf (method : Option String) (response : McpMessage) : ExchangeStatus :=
  if response.isError then .error
  else if method = some "tools/call" ∧ response.isToolError = true then .toolError
  else .ok

/-- A call of the client and the response to it. -/
structure AnsweredCall where
  request : McpMessage
  response : McpMessage
  asks : request.direction = .clientToServer
  answers : response.direction = .serverToClient
  named : request.method.isSome
  identified : request.id.isSome
  same : response.id = request.id
  unnamed : response.method = none

/-- The exchange is that of the call, whenever its messages came. -/
structure Exchange.TellsOf (exchange : Exchange) (call : AnsweredCall) : Prop where
  origin : exchange.origin = .clientToServer
  method : exchange.method = call.request.method
  toolName : exchange.toolName = call.request.toolName
  errorCode : exchange.errorCode = call.response.errorCode
  status : exchange.status = outcomeOf call.request.method call.response

/-- The exchange that the two messages make. -/
def AnsweredCall.exchange (codec : Codec) (call : AnsweredCall) : Exchange :=
  (Exchange.opened .clientToServer (.ofMessage codec call.request)).answered codec (.ofMessage codec call.response)

namespace Recording
variable {codec : Codec} (recording : Recording codec)

def stored : List StoredMessage := recording.messages.map (StoredMessage.ofMessage codec)

theorem stored_increasing : StoredMessage.Increasing recording.stored :=
  List.pairwise_map.2 recording.numbered

theorem stored_distinct : (recording.stored.map StoredMessage.seq).Nodup :=
  List.pairwise_map.2 (recording.stored_increasing.imp Nat.ne_of_lt)

variable {recording}

theorem mem_stored {message : StoredMessage} :
    message ∈ recording.stored ↔ ∃ own ∈ recording.messages, StoredMessage.ofMessage codec own = message := List.mem_map

theorem eq_of_seq {message other : McpMessage} (member : message ∈ recording.messages)
    (also : other ∈ recording.messages) (same : message.seq = other.seq) : message = other :=
  List.inj_on_of_nodup_map (List.pairwise_map.2 (recording.numbered.imp Nat.ne_of_lt)) member also same

theorem payload_of_mem {message : McpMessage} (member : message ∈ recording.messages) :
    payloadsBySeq codec recording.stored message.seq = some message.payload := by
  have keys : ((recording.stored.filterMap fun message =>
      (codec.fromStr message.payload).map fun payload => (message.seq, payload)).map Prod.fst).Nodup := by
    refine List.pairwise_map.2 (List.pairwise_filterMap.2 (recording.stored_increasing.imp ?_))
    intro below first less there here above found
    obtain ⟨_, -, rfl⟩ := Option.map_eq_some_iff.1 here
    obtain ⟨_, -, rfl⟩ := Option.map_eq_some_iff.1 found
    exact Nat.ne_of_lt less
  refine (Table.ofList_eq_some_iff keys _ _).2 (List.mem_filterMap.2 ⟨_, mem_stored.2 ⟨message, member, rfl⟩, ?_⟩)
  exact Option.map_eq_some_iff.2 ⟨_, recording.readsBack message member, rfl⟩

theorem reportsToolError_of_mem {message : McpMessage} (member : message ∈ recording.messages) :
    Exchange.reportsToolError codec (.ofMessage codec message) = message.isToolError := by
  have decoded : codec.fromStr (StoredMessage.ofMessage codec message).payload = some message.payload :=
    recording.readsBack message member
  rw [Exchange.reportsToolError, decoded]
  rfl

/-! ## What an exchange has of its messages -/

/-- The fields of an exchange are read off messages with its numbers. -/
structure Carries (recording : Recording codec) (exchange : Exchange) : Prop where
  asked : ∀ seq, exchange.requestSeq = some seq → ∃ request ∈ recording.messages, request.seq = seq ∧
    request.direction = exchange.origin ∧ request.kind = .request ∧ exchange.method = request.method ∧
    exchange.toolName = request.toolName
  settled : ∀ seq, exchange.responseSeq = some seq → exchange.isAnswered = true →
    ∃ response ∈ recording.messages, response.seq = seq ∧ exchange.errorCode = response.errorCode ∧
      exchange.status = outcomeOf exchange.method response

theorem carries_of_mem {exchange : Exchange} (member : exchange ∈ (correlate codec recording.stored).exchanges) :
    Carries recording exchange := by
  refine correlate_forall codec recording.stored (P := Carries recording) ?opened ?orphan ?answered ?cancelled
    ?acknowledged exchange member
  case opened =>
    intro message inside direction known kind
    obtain ⟨request, listed, rfl⟩ := mem_stored.1 inside
    refine ⟨?_, fun _ absent => by cases absent⟩
    rintro seq ⟨rfl⟩
    have side : request.direction = direction := Option.some.inj ((Direction.fromDbStr_asDbStr _).symm.trans known)
    have asks : request.kind = .request := by
      cases shape : request.kind <;> simp [StoredMessage.ofMessage, shape, MessageKind.asDbStr] at kind ⊢
    exact ⟨request, listed, rfl, side, asks, rfl, rfl⟩
  case orphan =>
    intro message _ direction
    refine ⟨fun _ absent => (by cases absent), fun _ _ answered => ?_⟩
    simp [Exchange.isAnswered, Exchange.orphan] at answered
  case answered =>
    intro message inside exchange before
    obtain ⟨response, listed, rfl⟩ := mem_stored.1 inside
    refine ⟨before.asked, ?_⟩
    rintro seq ⟨rfl⟩ -
    refine ⟨response, listed, rfl, rfl, ?_⟩
    simp only [Exchange.answered, reportsToolError_of_mem listed, outcomeOf]
    rfl
  case cancelled =>
    intro exchange before
    exact ⟨before.asked, fun _ _ answered => by simp [Exchange.isAnswered, Exchange.cancelled] at answered⟩
  case acknowledged =>
    intro exchange before
    unfold Exchange.acknowledged
    split
    · exact ⟨before.asked, fun _ _ answered => by simp [Exchange.isAnswered] at answered⟩
    · exact before

/-- The exchange is that of these two messages of the recording. -/
structure Conducted (recording : Recording codec) (exchange : Exchange) (call : AnsweredCall) : Prop where
  requestIn : call.request ∈ recording.messages
  responseIn : call.response ∈ recording.messages
  requestSeq : exchange.requestSeq = some call.request.seq
  responseSeq : exchange.responseSeq = some call.response.seq
  tells : exchange.TellsOf call

/-- The exchange of an answered call of the client is that of its request and its response. -/
theorem exists_call {exchange : Exchange} (member : exchange ∈ (correlate codec recording.stored).exchanges)
    (listed : exchange.isListed = true) : ∃ call : AnsweredCall, Conducted recording exchange call := by
  have inside := ((isListed_iff member).1 listed).1
  simp only [answeredRequests, List.mem_filter, Bool.and_eq_true, decide_eq_true_eq, Option.isSome_iff_exists] at inside
  obtain ⟨-, ⟨origin, requestSeq, asked⟩, responseSeq, answered⟩ := inside
  have settled : exchange.isAnswered = true :=
    (correlate_settled codec recording.stored member).2 ⟨by simp [asked], by simp [answered]⟩
  obtain ⟨asks, responds⟩ := carries_of_mem member
  obtain ⟨request, requestIn, rfl, side, kind, method, toolName⟩ := asks requestSeq asked
  obtain ⟨response, responseIn, rfl, errorCode, status⟩ := responds responseSeq answered settled
  obtain ⟨before, message, after, shape, number, earlier, opening, between, split, start, direction, id, isRequest,
    isResponse, -⟩ := paired_iff.1 ⟨exchange, member, asked, answered⟩
  obtain ⟨own, ownIn, rfl⟩ := mem_stored.1 (show opening ∈ recording.stored by rw [shape, split]; simp)
  obtain ⟨other, otherIn, rfl⟩ := mem_stored.1 (show message ∈ recording.stored by rw [shape]; simp)
  obtain rfl : own = request := eq_of_seq ownIn requestIn start
  obtain rfl : other = response := eq_of_seq otherIn responseIn number
  obtain ⟨identity, present, text⟩ := Option.map_eq_some_iff.1 isRequest.2.2
  obtain ⟨answer, carried, also⟩ := Option.map_eq_some_iff.1 isResponse.2.2
  -- Ids of one text are one value.
  have formed {message : McpMessage} (listed : message ∈ recording.messages) {id : Value}
      (found : message.id = some id) : id.wellFormed = true :=
    Value.wellFormed_get (codec.fromStr_wellFormed (recording.readsBack message listed)) found
  obtain rfl : answer = identity :=
    codec.toString_injective (formed otherIn carried) (formed ownIn present) (also.trans text.symm)
  have responding : other.isResponse = true := by
    have kind := isResponse.2.1
    simp only [StoredMessage.ofMessage, McpMessage.kind] at kind
    by_contra plain
    rw [if_neg plain] at kind
    split_ifs at kind <;> simp [MessageKind.asDbStr] at kind
  have naming : own.method.isSome := by
    have plain : own.isResponse = false := by
      by_contra responds
      simp [McpMessage.kind, Bool.not_eq_false _ ▸ responds] at kind
    simpa [McpMessage.isResponse, present, Option.isNone_iff_eq_none, Option.isSome_iff_ne_none] using plain
  have towards : direction = .clientToServer := by
    have sides : own.direction = direction := asDbStr_inj.1 isRequest.1
    rw [← sides, side, origin]
  subst towards
  refine ⟨⟨own, other, side.trans origin, asDbStr_inj.1 isResponse.1, naming, by rw [present]; rfl,
    carried.trans present.symm, ?_⟩, requestIn, responseIn, asked, answered, ⟨origin, method, toolName, errorCode, ?_⟩⟩
  · simpa [McpMessage.isResponse, carried] using responding
  · rw [status, method]

theorem exists_calls (recording : Recording codec) : ∃ calls, List.Forall₂ (Conducted recording)
    ((correlate codec recording.stored).exchanges.filter Exchange.isListed) calls := by
  refine exists_forall₂ fun exchange member => ?_
  obtain ⟨inside, listed⟩ := List.mem_filter.1 member
  exact exists_call inside listed

end Recording

/-! ## Sessions of the same calls -/

/-- Exchanges that differ at most in when their messages came. -/
structure SameCall (aPayloads bPayloads : Table Nat Value) (a b : Exchange) : Prop where
  origin : a.origin = b.origin
  method : a.method = b.method
  toolName : a.toolName = b.toolName
  errorCode : a.errorCode = b.errorCode
  status : a.status = b.status
  request : a.requestSeq.bind aPayloads = b.requestSeq.bind bPayloads
  response : a.responseSeq.bind aPayloads = b.responseSeq.bind bPayloads

/-- A session of calls of the client that were answered, none of them with a failure in the tool, and nothing else that
is compared. -/
def Reproducible (codec : Codec) (messages : List StoredMessage) : Prop :=
  (∀ exchange ∈ (correlate codec messages).exchanges, (alignmentBase exchange).isSome → exchange.isListed = true) ∧
    ∀ message ∈ messages, notificationBase message = none

section Same
variable {codec : Codec} {as bs : List StoredMessage} {aPayloads bPayloads : Table Nat Value} {a b : Exchange}

theorem SameCall.alignmentBase (same : SameCall aPayloads bPayloads a b) : alignmentBase a = alignmentBase b := by
  unfold Model.alignmentBase
  rw [same.status, same.method, same.toolName, same.origin]

theorem SameCall.requestParams (same : SameCall aPayloads bPayloads a b) :
    requestParams a aPayloads = requestParams b bPayloads := by
  rw [Model.requestParams, Model.requestParams, same.request]

theorem SameCall.responseSubtree (same : SameCall aPayloads bPayloads a b) (field : String) :
    responseSubtree a aPayloads field = responseSubtree b bPayloads field := by
  rw [Model.responseSubtree, Model.responseSubtree, same.response]

/-- Exchanges of the same calls show the same tools. -/
theorem catalog_of_same {left right : List Exchange} (same : List.Forall₂ (SameCall aPayloads bPayloads) left right)
    (state : CatalogState) : (left.filter isListing).foldl (CatalogState.step aPayloads) state =
      (right.filter isListing).foldl (CatalogState.step bPayloads) state := by
  induction same generalizing state with
  | nil => rfl
  | @cons a b left right first _ ih =>
    have listing : isListing a = isListing b := by rw [isListing, isListing, first.method, first.status]
    have stepped : state.step aPayloads a = state.step bPayloads b := by
      rw [CatalogState.step, CatalogState.step, first.request, first.response]
    cases shows : isListing b with
    | true => simp only [List.filter_cons, listing, shows, if_true, List.foldl_cons, stepped, ih]
    | false => simpa only [List.filter_cons, listing, shows, if_false, Bool.false_eq_true] using ih state

/-- If a session has the calls of another one that were answered, the two are alike exactly if the other has no more. -/
theorem agreeWhereCompared_iff_of_same {rules : IgnoreRules}
    (same : List.Forall₂ (SameCall (payloadsBySeq codec as) (payloadsBySeq codec bs))
      ((correlate codec as).exchanges.filter Exchange.isListed) (correlate codec bs).exchanges)
    (named : ∀ exchange ∈ (correlate codec as).exchanges, exchange.isListed = true → (alignmentBase exchange).isSome)
    (silent : ∀ message ∈ bs, notificationBase message = none) :
    AgreeWhereCompared codec as bs rules ↔ Reproducible codec as := by
  have quiet : notificationAlignmentKeys bs = [] := (Occurrence.keyed_eq_nil_iff _ _).2 silent
  constructor
  · intro agree
    constructor
    · -- as many keys as exchanges that have one, and the other session has no more of them than were answered
      have keys := congrArg List.length agree.keys
      simp only [List.length_map, keyedExchanges, alignmentKeys, Occurrence.length_keyed] at keys
      have listed : ((correlate codec as).exchanges.filter fun exchange => (alignmentBase exchange).isSome).filter
          Exchange.isListed = (correlate codec as).exchanges.filter Exchange.isListed := by
        rw [List.filter_filter]
        refine List.filter_congr fun exchange member => ?_
        cases shown : exchange.isListed with
        | true => simp [named exchange member shown]
        | false => rfl
      have bound := (List.length_filter_le (fun exchange => (alignmentBase exchange).isSome)
        (correlate codec bs).exchanges).trans_eq same.length_eq.symm
      have all := List.length_filter_eq_length_iff.1 (le_antisymm (List.length_filter_le Exchange.isListed _)
        (keys.le.trans (listed ▸ bound)))
      exact fun exchange member keyed => all exchange (List.mem_filter.2 ⟨member, keyed⟩)
    · refine (Occurrence.keyed_eq_nil_iff _ _).1 (List.eq_nil_iff_forall_not_mem.2 fun entry member => ?_)
      have also := (agree.notificationKeys entry.1).1 (List.mem_map_of_mem member)
      rw [quiet] at also
      cases also
  · rintro ⟨complete, mute⟩
    have all : (correlate codec as).exchanges.filter Exchange.isListed =
        (correlate codec as).exchanges.filter fun exchange => (alignmentBase exchange).isSome := by
      refine List.filter_congr fun exchange member => Bool.eq_iff_iff.2 ⟨?_, complete exchange member⟩
      exact named exchange member
    obtain ⟨pairs, firsts, seconds, alike⟩ := exists_pairs same
    have left : keyedExchanges codec as = Occurrence.keyed alignmentBase (pairs.map Prod.fst) := by
      rw [firsts, all, Occurrence.keyed_filter]
      rfl
    have right : keyedExchanges codec bs = Occurrence.keyed alignmentBase (pairs.map Prod.snd) := by
      rw [seconds]
      rfl
    have bases : ∀ pair ∈ pairs, alignmentBase pair.1 = alignmentBase pair.2 := fun pair member =>
      (alike pair member).alignmentBase
    have met {key : String} {a b : Exchange} (inA : (key, a) ∈ keyedExchanges codec as)
        (inB : (key, b) ∈ keyedExchanges codec bs) :
        SameCall (payloadsBySeq codec as) (payloadsBySeq codec bs) a b := by
      rw [left] at inA
      rw [right] at inB
      exact alike _ ((Occurrence.keyed_pairs_iff bases a b).1 ⟨key, inA, inB⟩).1
    have muted : notificationAlignmentKeys as = [] := (Occurrence.keyed_eq_nil_iff _ _).2 mute
    exact {
      keys := by rw [left, right, Occurrence.keyed_pairs_keys bases]
      outcome := fun key a b inA inB => ⟨(met inA inB).status, (met inA inB).errorCode⟩
      params := fun key a b inA inB v w first second => by
        obtain rfl : v = w := Option.some.inj (first.symm.trans ((met inA inB).requestParams.trans second))
        exact Agrees.refl _ _
      bodies := fun key a b inA inB field _ v w first second => by
        obtain rfl : v = w := Option.some.inj (first.symm.trans (((met inA inB).responseSubtree field).trans second))
        exact Agrees.refl _ _
      notificationKeys := fun key => by rw [quiet, muted]
      notifications := fun key a b inA => by
        rw [muted] at inA
        cases inA
      tools := fun name => by
        have shown : extractTools codec as = extractTools codec bs := by
          have listings : (correlate codec as).exchanges.filter isListing =
              ((correlate codec as).exchanges.filter Exchange.isListed).filter isListing := by
            rw [List.filter_filter]
            refine List.filter_congr fun exchange member => ?_
            cases listing : isListing exchange with
            | false => rfl
            | true =>
              simp only [isListing, Bool.and_eq_true, decide_eq_true_eq] at listing
              have keyed : (alignmentBase exchange).isSome := by
                rw [Model.alignmentBase, if_neg (by rw [listing.2]; decide), listing.1]
                cases exchange.toolName <;> rfl
              simp [complete exchange member keyed]
          rw [extractTools, extractTools, extractToolCatalog, extractToolCatalog]
          simp only [listings, catalog_of_same same]
        rw [shown]
        cases (extractTools codec bs).lookup name with
        | none => exact .none
        | some tool => exact .some (SameTool.refl tool) }

end Same

end McpTracer.Model
