import McpTracer.Redact.Context

/-! Evidence for the schema context over whole histories.

Every pending key comes from a tools/list request in the same unbroken run of
sequence numbers that nothing has disturbed since. Encoded ids identify ids, so
a grant names one earlier request, and a request is used up by its first answer.
-/

set_option autoImplicit false

namespace McpTracer.Redact
open McpTracer.Json

/-- One call of the tracker. -/
structure Call where
  seq : Nat
  direction : String
  payload : Value
  deriving DecidableEq

namespace RedactionContextTracker

def observeCall (codec : Codec) (tracker : RedactionContextTracker) (call : Call) :
    RedactionContextTracker × RedactionContext :=
  tracker.observe codec call.seq call.direction call.payload

/-- The tracker after a history of calls. -/
def after (codec : Codec) (calls : List Call) : RedactionContextTracker :=
  calls.foldl (fun tracker call => (tracker.observeCall codec call).1) fresh

/-- The context of a call made after a history. -/
def contextAfter (codec : Codec) (calls : List Call) (call : Call) : RedactionContext :=
  ((after codec calls).observeCall codec call).2

/-- The contexts of a run of calls, in order. -/
def contextsFrom (codec : Codec) (tracker : RedactionContextTracker) :
    List Call → List RedactionContext
  | [] => []
  | call :: rest =>
    let outcome := tracker.observeCall codec call
    outcome.2 :: contextsFrom codec outcome.1 rest

def contexts (codec : Codec) (calls : List Call) : List RedactionContext :=
  contextsFrom codec fresh calls

theorem after_concat (codec : Codec) (calls : List Call) (call : Call) :
    after codec (calls ++ [call]) = ((after codec calls).observeCall codec call).1 := by
  simp [after]

end RedactionContextTracker

open RedactionContextTracker

/-! ## The vocabulary of the history -/

/-- Sequence numbers without a gap. -/
def Unbroken (calls : List Call) : Prop :=
  calls.IsChain fun earlier later => earlier.seq + 1 = later.seq

/-- A valid tools/list request with this id, to be answered by this side. -/
structure Requests (call : Call) (responder : Bool) (id : Value) : Prop where
  side : responderOf call.direction = some (!responder)
  identified : correlationId call.payload = some id
  listing : isListRequest call.payload = true

/-- A response to this id from this side with a result and no error. -/
structure Answers (call : Call) (responder : Bool) (id : Value) : Prop where
  side : responderOf call.direction = some responder
  identified : correlationId call.payload = some id
  result : isResultResponse call.payload = true

/-- After such a call an earlier request with the id can no longer be matched. -/
def Disturbs (call : Call) (responder : Bool) (id : Value) : Prop :=
  responderOf call.direction = none ∨
    (correlationId call.payload = some id ∧
      ((responderOf call.direction = some (!responder) ∧ (call.payload.get "method").isSome = true) ∨
        (responderOf call.direction = some responder ∧ call.payload.get "method" = none)))

/-- A request, the calls since, and the response it is evidence for. -/
structure Evidence (request : Call) (between : List Call) (response : Call) (responder : Bool)
    (id : Value) : Prop where
  requests : Requests request responder id
  answers : Answers response responder id
  unbroken : Unbroken (request :: (between ++ [response]))
  undisturbed : ∀ call ∈ between, ¬ Disturbs call responder id

/-- A history holds a request that may still be answered. -/
def Open (calls : List Call) (responder : Bool) (id : Value) : Prop :=
  ∃ earlier request between, calls = earlier ++ request :: between ∧ Requests request responder id ∧
    Unbroken (request :: between) ∧ ∀ call ∈ between, ¬ Disturbs call responder id

theorem Disturbs.asker {call : Call} {responder answerer : Bool} {id : Value}
    (disturbs : Disturbs call answerer id) (side : responderOf call.direction = some responder)
    (method : (call.payload.get "method").isSome = true) : answerer = !responder := by
  rcases disturbs with unknown | ⟨_, ⟨asks, _⟩ | ⟨_, absent⟩⟩
  · simp [side] at unknown
  · obtain rfl : responder = !answerer := by simpa [side] using asks
    simp
  · simp [absent] at method

theorem Disturbs.answerer {call : Call} {responder answerer : Bool} {id : Value}
    (disturbs : Disturbs call answerer id) (side : responderOf call.direction = some responder)
    (method : call.payload.get "method" = none) : answerer = responder := by
  rcases disturbs with unknown | ⟨_, ⟨_, named⟩ | ⟨responds, _⟩⟩
  · simp [side] at unknown
  · simp [method] at named
  · simpa [side, eq_comm] using responds

/-! ## Step lemmas -/

section Step
variable {codec : Codec} {tracker next : RedactionContextTracker} {seq : Nat} {direction : String}
  {payload : Value} {context : RedactionContext}

theorem mem_retained_iff (tracker : RedactionContextTracker) (seq : Nat) (key : Bool × String) :
    key ∈ tracker.retained seq ↔
      key ∈ tracker.pending ∧ ∀ previous, tracker.previousSeq = some previous → previous + 1 = seq := by
  unfold retained
  cases tracker.previousSeq with
  | none => simp
  | some previous =>
      by_cases consecutive : previous + 1 = seq <;> simp [consecutive]

theorem retained_card_le (tracker : RedactionContextTracker) (seq : Nat) :
    (tracker.retained seq).card ≤ tracker.pending.card :=
  Finset.card_le_card fun key member => ((mem_retained_iff tracker seq key).mp member).1

theorem Observed.previousSeq (outcome : Observed codec tracker seq direction payload next context) :
    next.previousSeq = some seq := by
  cases outcome <;> rfl

theorem Observed.lostContext (outcome : Observed codec tracker seq direction payload next context)
    (lost : tracker.lostContext = true) : next.lostContext = true := by
  cases outcome <;> simp [lost]

theorem Observed.card_le (outcome : Observed codec tracker seq direction payload next context)
    (bounded : tracker.pending.card ≤ maxPendingListRequests) :
    next.pending.card ≤ maxPendingListRequests := by
  have kept := (retained_card_le tracker seq).trans bounded
  have erased : ∀ key, ((tracker.retained seq).erase key).card ≤ maxPendingListRequests :=
    fun key => (Finset.card_erase_le).trans kept
  cases outcome with
  | unknownDirection => simp
  | unidentified => exact kept
  | oversized => exact kept
  | listed _ _ _ _ room => exact (Finset.card_insert_le _ _).trans room
  | refused => exact erased _
  | reused => exact erased _
  | answered => exact erased _

/-- A pending key was opened by this call, or was pending before and is not disturbed by it. -/
theorem Observed.mem_pending (outcome : Observed codec tracker seq direction payload next context)
    {key : Bool × String} (member : key ∈ next.pending) :
    (∃ id, key.2 = codec.toString id ∧ Trackable codec id ∧
        Requests ⟨seq, direction, payload⟩ key.1 id) ∨
      (key ∈ tracker.retained seq ∧ ∀ id, key.2 = codec.toString id → Trackable codec id →
        ¬ Disturbs ⟨seq, direction, payload⟩ key.1 id) := by
  obtain ⟨answerer, encoded⟩ := key
  -- A tracked id that the call carries is the one whose key the call removed.
  have removed {responder : Bool} {other : Value} (side : responderOf direction = some responder)
      (identified : correlationId payload = some other) {removedSide : Bool}
      (kind : ∀ id, Disturbs ⟨seq, direction, payload⟩ answerer id → answerer = removedSide)
      (kept : (answerer, encoded) ≠ (removedSide, codec.toString other)) (id : Value)
      (same : encoded = codec.toString id) : ¬ Disturbs ⟨seq, direction, payload⟩ answerer id := by
    intro disturbs
    have sides := kind id disturbs
    rcases disturbs with unknown | ⟨carried, _⟩
    · simp [side] at unknown
    · obtain rfl : other = id := by simpa [identified] using carried
      exact kept (by rw [sides, same])
  cases outcome with
  | unknownDirection => simp at member
  | unidentified side absent =>
      refine .inr ⟨member, fun id _ _ disturbs => ?_⟩
      rcases disturbs with unknown | ⟨carried, _⟩
      · simp [side] at unknown
      · simp [absent] at carried
  | oversized side identified large =>
      refine .inr ⟨member, fun id _ small disturbs => ?_⟩
      rcases disturbs with unknown | ⟨carried, _⟩
      · simp [side] at unknown
      · simp only [identified, Option.some.injEq] at carried
        exact large (carried ▸ small)
  | @listed responder id side identified small listing room =>
      have method := isListRequest_method listing
      rcases Finset.mem_insert.mp member with same | rest
      · obtain ⟨rfl, rfl⟩ := Prod.mk.inj same
        exact .inl ⟨id, rfl, small, by simpa using side, identified, listing⟩
      · obtain ⟨kept, before⟩ := Finset.mem_erase.mp rest
        exact .inr ⟨before, fun other same _ =>
          removed side identified (fun _ disturbs => disturbs.asker side method) kept other same⟩
  | @refused responder id side identified small listing =>
      have method := isListRequest_method listing
      obtain ⟨kept, before⟩ := Finset.mem_erase.mp member
      exact .inr ⟨before, fun other same _ =>
        removed side identified (fun _ disturbs => disturbs.asker side method) kept other same⟩
  | @reused responder id side identified small method plain =>
      obtain ⟨kept, before⟩ := Finset.mem_erase.mp member
      exact .inr ⟨before, fun other same _ =>
        removed side identified (fun _ disturbs => disturbs.asker side method) kept other same⟩
  | @answered responder id side identified small method =>
      obtain ⟨kept, before⟩ := Finset.mem_erase.mp member
      exact .inr ⟨before, fun other same _ =>
        removed side identified (fun _ disturbs => disturbs.answerer side method) kept other same⟩

/-- The schema context is granted only for a pending key that the response names. -/
theorem Observed.granted (outcome : Observed codec tracker seq direction payload next context)
    (granted : context = .toolListResponse) :
    ∃ responder id, (responder, codec.toString id) ∈ tracker.retained seq ∧
      Answers ⟨seq, direction, payload⟩ responder id := by
  cases outcome with
  | @answered responder id side identified small method =>
      split_ifs at granted with both
      exact ⟨responder, id, both.1, side, identified, both.2⟩
  | _ => cases granted

/-- A valid request is tracked from now on, or its loss is recorded. -/
theorem Observed.tracks (outcome : Observed codec tracker seq direction payload next context)
    {responder : Bool} {id : Value} (requests : Requests ⟨seq, direction, payload⟩ responder id) :
    (responder, codec.toString id) ∈ next.pending ∨ next.lostContext = true := by
  have side : responderOf direction = some (!responder) := requests.side
  have carried : correlationId payload = some id := requests.identified
  have listing : isListRequest payload = true := requests.listing
  have method := isListRequest_method listing
  cases outcome with
  | unknownDirection unknown => simp [side] at unknown
  | unidentified _ absent => simp [carried] at absent
  | oversized => exact .inr (by simp [listing])
  | @listed other found known identified =>
      obtain rfl : (!other) = responder := by simp_all
      obtain rfl : found = id := by simpa [carried, eq_comm] using identified
      exact .inl (Finset.mem_insert_self _ _)
  | refused => exact .inr rfl
  | reused _ _ _ _ plain => simp [listing] at plain
  | answered _ _ _ absent => simp [absent] at method

end Step

/-! ## Run lemmas -/

theorem after_previousSeq (codec : Codec) (calls : List Call) :
    (after codec calls).previousSeq = calls.getLast?.map Call.seq := by
  induction calls using List.reverseRecOn with
  | nil => rfl
  | append_singleton calls call _ =>
      rw [after_concat, observeCall, (observed codec _ _ _ _).previousSeq]
      simp

theorem after_card_le (codec : Codec) (calls : List Call) :
    (after codec calls).pending.card ≤ maxPendingListRequests := by
  induction calls using List.reverseRecOn with
  | nil => exact Nat.zero_le _
  | append_singleton calls call ih =>
      rw [after_concat]
      exact (observed codec _ _ _ _).card_le ih

theorem after_lostContext (codec : Codec) (calls later : List Call)
    (lost : (after codec calls).lostContext = true) : (after codec (calls ++ later)).lostContext = true := by
  induction later using List.reverseRecOn with
  | nil => simpa using lost
  | append_singleton later call ih =>
      rw [← List.append_assoc, after_concat]
      exact (observed codec _ _ _ _).lostContext ih

/-- A run is extended by the number after its last one. -/
theorem unbroken_concat {request : Call} {between : List Call} {call : Call}
    (unbroken : Unbroken (request :: between))
    (next : ∀ previous, ((request :: between).getLast?.map Call.seq) = some previous →
      previous + 1 = call.seq) : Unbroken (request :: (between ++ [call])) := by
  have extended : (request :: (between ++ [call])) = (request :: between) ++ [call] := rfl
  rw [extended, Unbroken, List.isChain_append]
  refine ⟨unbroken, by simp, fun last isLast head isHead => ?_⟩
  obtain rfl : call = head := by simpa using isHead
  exact next last.seq (by simp [Option.mem_def.mp isLast])

theorem after_retained {codec : Codec} {earlier : List Call} {request : Call} {between : List Call}
    {seq : Nat} {key : Bool × String}
    (retains : key ∈ (after codec (earlier ++ request :: between)).retained seq) :
    key ∈ (after codec (earlier ++ request :: between)).pending ∧
      ∀ previous, ((request :: between).getLast?.map Call.seq) = some previous → previous + 1 = seq := by
  obtain ⟨pending, next⟩ := (mem_retained_iff _ _ _).mp retains
  rw [after_previousSeq, List.getLast?_append_of_ne_nil _ (List.cons_ne_nil _ _)] at next
  exact ⟨pending, next⟩

/-- Every pending key belongs to an open request. -/
theorem after_pending (codec : Codec) (calls : List Call) :
    ∀ key ∈ (after codec calls).pending, ∃ id, key.2 = codec.toString id ∧ Trackable codec id ∧
      Open calls key.1 id := by
  induction calls using List.reverseRecOn with
  | nil => simp [after, fresh]
  | append_singleton calls call ih =>
      intro key member
      rw [after_concat] at member
      rcases (observed codec _ _ _ _).mem_pending member with ⟨id, same, small, requests⟩ | ⟨kept, calm⟩
      · exact ⟨id, same, small, calls, call, [], rfl, requests, List.isChain_singleton _, by simp⟩
      · obtain ⟨id, same, small, earlier, request, between, rfl, requests, unbroken, undisturbed⟩ :=
          ih key ((mem_retained_iff _ _ _).mp kept).1
        refine ⟨id, same, small, earlier, request, between ++ [call], by simp, requests,
          unbroken_concat unbroken (after_retained kept).2, ?_⟩
        simpa [or_imp, forall_and] using ⟨undisturbed, calm id same small⟩

theorem correlationId_wellFormed {payload id : Value} (identified : correlationId payload = some id) :
    id.wellFormed = true := by
  have kind := (Option.filter_eq_some_iff.mp identified).2
  cases id with
  | array items => cases kind
  | object fields => cases kind
  | _ => rfl

/-- A granted response has evidence in its history. -/
theorem contextAfter_evidence (codec : Codec) (before : List Call) (response : Call)
    (granted : contextAfter codec before response = .toolListResponse) :
    ∃ responder id earlier request between, before = earlier ++ request :: between ∧
      Evidence request between response responder id := by
  obtain ⟨responder, id, retains, answers⟩ := (observed codec _ _ _ _).granted granted
  obtain ⟨found, same, -, earlier, request, between, rfl, requests, unbroken, undisturbed⟩ :=
    after_pending codec before _ ((mem_retained_iff _ _ _).mp retains).1
  obtain rfl : id = found := codec.toString_injective (correlationId_wellFormed answers.identified)
    (correlationId_wellFormed requests.identified) same
  exact ⟨responder, id, earlier, request, between, rfl, requests, answers,
    unbroken_concat unbroken (after_retained retains).2, undisturbed⟩

/-- The answer that uses up a request disturbs it for every later response. -/
theorem Answers.disturbs {call : Call} {responder : Bool} {id : Value}
    (answers : Answers call responder id) : Disturbs call responder id := by
  have method : call.payload.get "method" = none := by
    have result := answers.result
    simp only [isResultResponse, Bool.and_eq_true] at result
    simpa using result.1.1.1
  exact .inr ⟨answers.identified, .inr ⟨answers.side, method⟩⟩

/-- The schema context is granted only on evidence, at most once for a request; retention is bounded,
and a valid request that was not retained leaves its mark. -/
theorem observe_grants_on_evidence (codec : Codec) (calls : List Call) :
    (∀ before response rest, calls = before ++ response :: rest →
      contextAfter codec before response = .toolListResponse →
      ∃ responder id earlier request between, before = earlier ++ request :: between ∧
        Evidence request between response responder id) ∧
    (∀ earlier request first response second again rest,
      calls = earlier ++ request :: (first ++ response :: (second ++ again :: rest)) →
      ∀ responder id, Evidence request first response responder id →
      ∀ other otherId, ¬ Evidence request (first ++ response :: second) again other otherId) ∧
    (after codec calls).pending.card ≤ 4096 ∧
    (∀ before request rest responder id, calls = before ++ request :: rest →
      Requests request responder id →
      (responder, codec.toString id) ∈ (after codec (before ++ [request])).pending ∨
        (after codec calls).lostContext = true) := by
  refine ⟨fun before response rest _ granted => contextAfter_evidence codec before response granted,
    ?once, after_card_le codec calls, ?tracked⟩
  case once =>
    intro earlier request first response second again rest _ responder id used other otherId reused
    obtain rfl : otherId = id := by
      simpa [used.requests.identified, eq_comm] using reused.requests.identified
    obtain rfl : other = responder := by
      simpa [used.requests.side, eq_comm] using reused.requests.side
    exact reused.undisturbed response (by simp) used.answers.disturbs
  case tracked =>
    rintro before request rest responder id rfl requests
    rcases (observed codec (after codec before) request.seq request.direction request.payload).tracks
      requests with pending | lost
    · exact .inl (by rwa [after_concat])
    · have marked : (after codec (before ++ [request])).lostContext = true := by rwa [after_concat]
      refine .inr ?_
      simpa using after_lostContext codec (before ++ [request]) rest marked

def listingCall : Call where
  seq := 0
  direction := "c2s"
  payload := .object [("id", .number (.posInt 1)), ("jsonrpc", .string "2.0"),
    ("method", .string "tools/list")]

def listedCall : Call where
  seq := 1
  direction := "s2c"
  payload := .object [("id", .number (.posInt 1)), ("jsonrpc", .string "2.0"), ("result", .object [])]

theorem listedCall_evidence :
    contextAfter Compact.codec [listingCall] listedCall = .toolListResponse ∧
      ∃ responder id earlier request between, [listingCall] = earlier ++ request :: between ∧
        Evidence request between listedCall responder id := by
  have granted : contextAfter Compact.codec [listingCall] listedCall = .toolListResponse := by
    decide +kernel
  exact ⟨granted, (observe_grants_on_evidence Compact.codec [listingCall, listedCall]).1 [listingCall]
    listedCall [] rfl granted⟩

end McpTracer.Redact
