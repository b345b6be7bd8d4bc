import McpTracer.Model.Replay

/-! Each entry of the inventory answers once.

The entries a run of live requests takes are described by their positions. A
position is free until it is taken, a request takes a free one that its strategy
relates to it, and it goes unanswered only when there is none.
-/

set_option autoImplicit false

namespace McpTracer.Model
open McpTracer.Foundation McpTracer.Json McpTracer.Storage

/-! ## The relation of a strategy -/

/-- The recorded call has the method and the tool of the live one. -/
structure RecordedExchange.SameTool (recorded : RecordedExchange) (request : Value) : Prop where
  method : methodOf request = some recorded.method
  toolName : recorded.toolName = toolNameOf request

/-- The recorded call has canonically equal parameters as well. -/
structure RecordedExchange.SameCall (codec : Codec) (recorded : RecordedExchange) (request : Value) : Prop extends
    recorded.SameTool request where
  paramsKey : recorded.paramsKey = paramsKeyOf codec request

/-- Whether a strategy lets a recorded exchange answer a request. -/
def MatchStrategy.Relates (codec : Codec) (recorded : RecordedExchange) (request : Value) : MatchStrategy → Prop
  | .sequential => (methodOf request).isSome = true
  | .method => methodOf request = some recorded.method
  | .exact => recorded.SameCall codec request
  | .methodAndParams => recorded.SameTool request
  | .subset => recorded.SameTool request ∧ paramsSubset recorded.params (paramsOf request) = true

theorem RecordedExchange.sameTool_used {recorded : RecordedExchange} {request : Value} (used : Bool) :
    RecordedExchange.SameTool { recorded with used := used } request ↔ recorded.SameTool request :=
  ⟨fun same => ⟨same.method, same.toolName⟩, fun same => ⟨same.method, same.toolName⟩⟩

theorem RecordedExchange.sameCall_used {codec : Codec} {recorded : RecordedExchange} {request : Value} (used : Bool) :
    RecordedExchange.SameCall codec { recorded with used := used } request ↔ recorded.SameCall codec request :=
  ⟨fun same => ⟨(sameTool_used used).1 same.toSameTool, same.paramsKey⟩,
    fun same => ⟨(sameTool_used used).2 same.toSameTool, same.paramsKey⟩⟩

/-- A relation does not look at whether an exchange is used. -/
theorem MatchStrategy.relates_used {codec : Codec} (strategy : MatchStrategy) {recorded : RecordedExchange}
    {request : Value} (used : Bool) :
    strategy.Relates codec { recorded with used := used } request ↔ strategy.Relates codec recorded request := by
  cases strategy with
  | sequential => exact Iff.rfl
  | method => exact Iff.rfl
  | exact => exact RecordedExchange.sameCall_used used
  | methodAndParams => exact RecordedExchange.sameTool_used used
  | subset => exact and_congr_left' (RecordedExchange.sameTool_used used)

/-- What the positions taken by a run of requests guarantee. -/
structure OneShot (codec : Codec) (strategy : MatchStrategy) (inventory : List RecordedExchange)
    (requests : List Value) (taken : List (Option Nat)) : Prop where
  length : taken.length = requests.length
  once : ∀ j k i : Nat, taken[j]? = some (some i) → taken[k]? = some (some i) → j = k
  related : ∀ (k i : Nat) (request : Value), requests[k]? = some request → taken[k]? = some (some i) →
    ∃ recorded, inventory[i]? = some recorded ∧ strategy.Relates codec recorded request
  /-- A related exchange that a request leaves behind was taken before. -/
  complete : ∀ (k i : Nat) (request : Value) (recorded : RecordedExchange), requests[k]? = some request →
    taken[k]? = some none → inventory[i]? = some recorded → strategy.Relates codec recorded request →
    ∃ j < k, taken[j]? = some (some i)
  /-- Other parameters are accepted only when the exchanges with equal ones were taken before. -/
  preferred : strategy = .methodAndParams →
    ∀ (k i : Nat) (request : Value) (recorded : RecordedExchange), requests[k]? = some request →
      taken[k]? = some (some i) → inventory[i]? = some recorded → recorded.paramsKey ≠ paramsKeyOf codec request →
      ∀ (l : Nat) (equal : RecordedExchange), inventory[l]? = some equal → equal.SameCall codec request →
        ∃ j < k, taken[j]? = some (some l)

namespace MockSession

/-! ## One request -/

section Selection
variable {codec : Codec} {session : MockSession} {request : Value}

/-- The position that a request takes. -/
def selected (codec : Codec) (session : MockSession) (request : Value) : Option Nat :=
  (methodOf request).bind fun method => session.position codec method request

theorem matchRequest_eq (codec : Codec) (session : MockSession) (request : Value) :
    matchRequest codec session request = (selected codec session request).elim (session, none) session.take := by
  unfold matchRequest selected
  cases (methodOf request).bind fun method => session.position codec method request with
  | none => rfl
  | some index => rfl

theorem sameMethod_iff {method : String} (named : methodOf request = some method) (recorded : RecordedExchange) :
    sameMethod method recorded = true ↔ recorded.used = false ∧ methodOf request = some recorded.method := by
  rw [sameMethod, Bool.and_eq_true, Bool.not_eq_true', beq_iff_eq, named, Option.some.injEq, @eq_comm _ recorded.method]

theorem sameTool_iff {method : String} (named : methodOf request = some method) (recorded : RecordedExchange) :
    sameTool method request recorded = true ↔ recorded.used = false ∧ recorded.SameTool request := by
  rw [sameTool, Bool.and_eq_true, sameMethod_iff named, beq_iff_eq, and_assoc]
  exact and_congr_right fun _ => ⟨fun both => ⟨both.1, both.2⟩, fun same => ⟨same.method, same.toolName⟩⟩

theorem sameCall_iff {method : String} (named : methodOf request = some method) (recorded : RecordedExchange) :
    sameCall codec method request recorded = true ↔ recorded.used = false ∧ recorded.SameCall codec request := by
  rw [sameCall, Bool.and_eq_true, sameTool_iff named, beq_iff_eq, and_assoc]
  exact and_congr_right fun _ => ⟨fun both => ⟨both.1, both.2⟩, fun same => ⟨same.toSameTool, same.paramsKey⟩⟩

/-- The exchanges a search of the strategy accepts are the free ones it relates to the request. -/
def Searches (codec : Codec) (strategy : MatchStrategy) (request : Value) (p : RecordedExchange → Bool) : Prop :=
  ∀ recorded, p recorded = true ↔ recorded.used = false ∧ strategy.Relates codec recorded request

theorem getElem?_of_findIdx? {A : Type} {p : A → Bool} {xs : List A} {i : Nat} (found : xs.findIdx? p = some i) :
    ∃ x, xs[i]? = some x ∧ p x = true := by
  obtain ⟨inside, holds, -⟩ := List.findIdx?_eq_some_iff_getElem.1 found
  exact ⟨xs[i], List.getElem?_eq_getElem inside, holds⟩

theorem eq_false_of_findIdx? {A : Type} {p : A → Bool} {xs : List A} (absent : xs.findIdx? p = none) {i : Nat} {x : A}
    (at' : xs[i]? = some x) : p x = false :=
  List.findIdx?_eq_none_iff.1 absent x (List.mem_of_getElem? at')

/-- A strategy takes what one search finds. The preferred search of a strategy with two comes first. -/
theorem position_search {method : String} (named : methodOf request = some method) :
    ∃ p, Searches codec session.strategy request p ∧
      (session.position codec method request = session.exchanges.findIdx? p ∨
        session.strategy = .methodAndParams ∧
        session.position codec method request =
          (session.exchanges.findIdx? (sameCall codec method request)).or (session.exchanges.findIdx? p)) := by
  unfold position
  cases session.strategy with
  | sequential => exact ⟨_, fun recorded => by simp [MatchStrategy.Relates, named], .inl rfl⟩
  | method => exact ⟨_, sameMethod_iff named, .inl rfl⟩
  | exact => exact ⟨_, sameCall_iff named, .inl rfl⟩
  | methodAndParams => exact ⟨_, sameTool_iff named, .inr ⟨rfl, rfl⟩⟩
  | subset =>
      refine ⟨_, fun recorded => ?_, .inl rfl⟩
      rw [Bool.and_eq_true, sameTool_iff named, and_assoc]
      rfl

/-- A selected exchange is free and related to the request. -/
theorem selected_related {i : Nat} (taken : selected codec session request = some i) :
    ∃ recorded, session.exchanges[i]? = some recorded ∧ recorded.used = false ∧
      session.strategy.Relates codec recorded request := by
  obtain ⟨method, named, found⟩ := Option.bind_eq_some_iff.1 taken
  obtain ⟨p, searches, once | ⟨both, twice⟩⟩ := @position_search codec session request method named
  · rw [once] at found
    obtain ⟨recorded, at', holds⟩ := getElem?_of_findIdx? found
    exact ⟨recorded, at', (searches recorded).1 holds⟩
  · rw [twice, Option.or_eq_some_iff] at found
    rcases found with first | ⟨-, second⟩
    · obtain ⟨recorded, at', holds⟩ := getElem?_of_findIdx? first
      obtain ⟨free, same⟩ := (sameCall_iff named recorded).1 holds
      exact ⟨recorded, at', free, by rw [both]; exact same.toSameTool⟩
    · obtain ⟨recorded, at', holds⟩ := getElem?_of_findIdx? second
      exact ⟨recorded, at', (searches recorded).1 holds⟩

/-- Nothing that is free is related to a request that selects nothing. -/
theorem used_of_not_selected (missed : selected codec session request = none) {i : Nat} {recorded : RecordedExchange}
    (at' : session.exchanges[i]? = some recorded) (related : session.strategy.Relates codec recorded request) :
    recorded.used = true := by
  have named : ∃ method, methodOf request = some method := by
    cases strategy : session.strategy with
    | sequential =>
        rw [strategy] at related
        exact Option.isSome_iff_exists.1 related
    | method => exact ⟨_, by rw [strategy] at related; exact related⟩
    | exact => exact ⟨_, by rw [strategy] at related; exact related.method⟩
    | methodAndParams => exact ⟨_, by rw [strategy] at related; exact related.method⟩
    | subset => exact ⟨_, by rw [strategy] at related; exact related.1.method⟩
  obtain ⟨method, named⟩ := named
  rw [selected, named, Option.bind_some] at missed
  obtain ⟨p, searches, once | ⟨-, twice⟩⟩ := @position_search codec session request method named
  · rw [once] at missed
    have skipped := eq_false_of_findIdx? missed at'
    cases used : recorded.used with
    | true => rfl
    | false => rw [(searches recorded).2 ⟨used, related⟩] at skipped; cases skipped
  · rw [twice, Option.or_eq_none_iff] at missed
    have skipped := eq_false_of_findIdx? missed.2 at'
    cases used : recorded.used with
    | true => rfl
    | false => rw [(searches recorded).2 ⟨used, related⟩] at skipped; cases skipped

/-- A recorded call with equal parameters is passed over only when it is used. -/
theorem used_of_preferred (strategy : session.strategy = .methodAndParams) {i : Nat} {recorded : RecordedExchange}
    (taken : selected codec session request = some i) (at' : session.exchanges[i]? = some recorded)
    (differs : recorded.paramsKey ≠ paramsKeyOf codec request) {l : Nat} {equal : RecordedExchange}
    (there : session.exchanges[l]? = some equal) (same : equal.SameCall codec request) : equal.used = true := by
  obtain ⟨method, named, found⟩ := Option.bind_eq_some_iff.1 taken
  rw [position, strategy, Option.or_eq_some_iff] at found
  rcases found with first | ⟨none, -⟩
  · obtain ⟨entry, at'', holds⟩ := getElem?_of_findIdx? first
    obtain rfl := Option.some.inj (at'.symm.trans at'')
    exact absurd ((sameCall_iff named recorded).1 holds).2.paramsKey differs
  · have skipped := eq_false_of_findIdx? none there
    cases used : equal.used with
    | true => rfl
    | false => rw [(sameCall_iff named equal).2 ⟨used, same⟩] at skipped; cases skipped

theorem matchRequest_strategy (codec : Codec) (session : MockSession) (request : Value) :
    (matchRequest codec session request).1.strategy = session.strategy := by
  rw [matchRequest_eq]
  cases selected codec session request with
  | none => rfl
  | some index => rfl

/-- Only the selected exchange is used up. -/
theorem matchRequest_getElem? (codec : Codec) (session : MockSession) (request : Value) (i : Nat) :
    (matchRequest codec session request).1.exchanges[i]? = session.exchanges[i]?.map fun recorded =>
      { recorded with used := recorded.used || decide (selected codec session request = some i) } := by
  rw [matchRequest_eq]
  cases selected codec session request with
  | none => simp
  | some index =>
      simp only [Option.elim_some, take, List.getElem?_modify, Option.some.injEq]
      by_cases same : index = i
      · simp [same]
      · simp [same]

theorem matchRequest_answer (codec : Codec) (session : MockSession) (request : Value) :
    (matchRequest codec session request).2 =
      (selected codec session request).bind fun i => session.exchanges[i]?.map RecordedExchange.answer := by
  rw [matchRequest_eq]
  cases selected codec session request with
  | none => rfl
  | some index => rfl

end Selection

/-! ## Runs -/

/-- The positions that requests take one after another. -/
def positions (codec : Codec) (session : MockSession) : List Value → List (Option Nat)
  | [] => []
  | request :: rest =>
    selected codec session request :: positions codec (matchRequest codec session request).1 rest

theorem positions_length (codec : Codec) (session : MockSession) (requests : List Value) :
    (positions codec session requests).length = requests.length := by
  induction requests generalizing session with
  | nil => rfl
  | cons request rest ih => rw [positions, List.length_cons, ih, List.length_cons]

theorem positions_getElem? (codec : Codec) (session : MockSession) (requests : List Value) (k : Nat) :
    (positions codec session requests)[k]? =
      requests[k]?.map (selected codec (session.after codec (requests.take k))) := by
  induction requests generalizing session k with
  | nil => rfl
  | cons request rest ih =>
      cases k with
      | zero => rfl
      | succ k => exact ih _ k

theorem positions_take (codec : Codec) (session : MockSession) (requests : List Value) (k : Nat) :
    positions codec session (requests.take k) = (positions codec session requests).take k := by
  induction requests generalizing session k with
  | nil => simp [positions]
  | cons request rest ih =>
      cases k with
      | zero => rfl
      | succ k => simp only [List.take_succ_cons, positions, ih]

theorem after_strategy (codec : Codec) (session : MockSession) (requests : List Value) :
    (session.after codec requests).strategy = session.strategy := by
  induction requests generalizing session with
  | nil => rfl
  | cons request rest ih => rw [after, List.foldl_cons, ← after, ih, matchRequest_strategy]

/-- After a run, the exchanges at the positions taken by it are used. -/
theorem after_getElem? (codec : Codec) (session : MockSession) (requests : List Value) (i : Nat) :
    (session.after codec requests).exchanges[i]? = session.exchanges[i]?.map fun recorded =>
      { recorded with used := recorded.used || decide (some i ∈ positions codec session requests) } := by
  induction requests generalizing session with
  | nil => simp [after, positions]
  | cons request rest ih =>
      rw [after, List.foldl_cons, ← after, ih, matchRequest_getElem?, Option.map_map]
      congr 1
      funext recorded
      simp only [Function.comp_apply, positions, List.mem_cons, Bool.or_assoc, Bool.decide_or, eq_comm]

theorem replay_positions (codec : Codec) (session : MockSession) (requests : List Value) :
    session.replay codec requests =
      (positions codec session requests).map fun slot =>
        slot.bind fun i => session.exchanges[i]?.map RecordedExchange.answer := by
  induction requests generalizing session with
  | nil => rfl
  | cons request rest ih =>
      rw [replay_cons, matchRequest_answer, positions, List.map_cons, ih]
      congr 2
      funext slot
      congr 1
      funext i
      -- Using an entry up does not change its answer.
      rw [matchRequest_getElem?, Option.map_map]
      rfl

section Unused
variable {codec : Codec} {session : MockSession}

/-- From an unused inventory, what is used before a request was taken before it. -/
theorem taken_before (unused : ∀ recorded ∈ session.exchanges, recorded.used = false) {requests : List Value}
    {k i : Nat} {recorded : RecordedExchange} (at' : session.exchanges[i]? = some recorded) :
    (session.after codec (requests.take k)).exchanges[i]? =
        some { recorded with used := decide (some i ∈ (positions codec session requests).take k) } := by
  rw [after_getElem?, at', positions_take, Option.map_some, unused recorded (List.mem_of_getElem? at'), Bool.false_or]

theorem getElem?_of_mem_take {A : Type} {xs : List A} {x : A} {k : Nat} (member : x ∈ xs.take k) :
    ∃ j < k, xs[j]? = some x := by
  obtain ⟨j, found⟩ := List.mem_iff_getElem?.1 member
  rw [List.getElem?_take] at found
  split_ifs at found with inside
  exact ⟨j, inside, found⟩

theorem mem_take_of_getElem? {A : Type} {xs : List A} {x : A} {j k : Nat} (before : j < k) (found : xs[j]? = some x) :
    x ∈ xs.take k := by
  refine List.mem_iff_getElem?.2 ⟨j, ?_⟩
  rw [List.getElem?_take, if_pos before, found]

theorem positions_oneShot (unused : ∀ recorded ∈ session.exchanges, recorded.used = false) (requests : List Value) :
    OneShot codec session.strategy session.exchanges requests (positions codec session requests) := by
  -- A position that is taken now was free until now.
  have fresh {k i : Nat} (taken : (positions codec session requests)[k]? = some (some i)) :
      some i ∉ (positions codec session requests).take k := by
    rw [positions_getElem?] at taken
    obtain ⟨request, -, now⟩ := Option.map_eq_some_iff.1 taken
    obtain ⟨recorded, at', free, -⟩ := selected_related now
    rw [after_getElem?, positions_take] at at'
    obtain ⟨original, -, rfl⟩ := Option.map_eq_some_iff.1 at'
    simp only [Bool.or_eq_false_iff, decide_eq_false_iff_not] at free
    exact free.2
  refine ⟨positions_length codec session requests, fun j k i first second => ?_, fun k i request asked taken => ?_,
    fun k i request recorded asked missed at' related => ?_,
    fun strategy k i request recorded asked taken at' differs l equal there same => ?_⟩
  · rcases lt_trichotomy j k with before | same | after
    · exact absurd (mem_take_of_getElem? before first) (fresh second)
    · exact same
    · exact absurd (mem_take_of_getElem? after second) (fresh first)
  · rw [positions_getElem?, asked, Option.map_some, Option.some.injEq] at taken
    obtain ⟨recorded, at', -, related⟩ := selected_related taken
    rw [after_getElem?] at at'
    obtain ⟨original, there, rfl⟩ := Option.map_eq_some_iff.1 at'
    rw [after_strategy] at related
    exact ⟨original, there, (session.strategy.relates_used _).1 related⟩
  · rw [positions_getElem?, asked, Option.map_some, Option.some.injEq] at missed
    have used := used_of_not_selected missed (taken_before unused at')
      (by rw [after_strategy]; exact (session.strategy.relates_used _).2 related)
    exact getElem?_of_mem_take (of_decide_eq_true used)
  · rw [positions_getElem?, asked, Option.map_some, Option.some.injEq] at taken
    have used := used_of_preferred (by rw [after_strategy]; exact strategy) taken (taken_before unused at') differs
      (taken_before unused there) ((RecordedExchange.sameCall_used _).2 same)
    exact getElem?_of_mem_take (of_decide_eq_true used)

end Unused

theorem recordExchanges_unused {codec : Codec} {table : Table Nat StoredMessage} {exchanges : List Exchange}
    {inventory : List RecordedExchange} (made : recordExchanges codec table exchanges = .ok inventory) :
    ∀ recorded ∈ inventory, recorded.used = false := by
  induction exchanges generalizing inventory with
  | nil =>
      obtain rfl : [] = inventory := Except.ok.inj made
      simp
  | cons exchange rest ih =>
      rw [recordExchanges] at made
      split at made
      · simp only [bind_eq_ok_iff, pure_eq_ok_iff] at made
        obtain ⟨recorded, described, others, recordedRest, rfl⟩ := made
        refine List.forall_mem_cons.2 ⟨?_, ih recordedRest⟩
        simp only [recordExchange, bind_eq_ok_iff, pure_eq_ok_iff] at described
        obtain ⟨-, -, -, -, -, -, -, -, -, -, rfl⟩ := described
        rfl
      · exact ih made

/-- A mock session of any recording answers any run of requests by entries that it takes once each,
related to their requests, as long as there are any. -/
theorem replay_one_shot {codec : Codec} {messages : List StoredMessage} {strategy : MatchStrategy} {mock : MockSession}
    (built : fromMessagesWithStrategy codec messages strategy = .ok mock) (requests : List Value) :
    ∃ taken, OneShot codec strategy mock.exchanges requests taken ∧
      mock.replay codec requests = taken.map fun slot =>
        slot.bind fun i => mock.exchanges[i]?.map RecordedExchange.answer := by
  simp only [fromMessagesWithStrategy, bind_eq_ok_iff, pure_eq_ok_iff] at built
  obtain ⟨inventory, made, rfl⟩ := built
  have unused := recordExchanges_unused made
  exact ⟨_, @positions_oneShot codec ⟨inventory, strategy⟩ unused requests, replay_positions codec _ requests⟩

/-- The second of two equal calls finds the only exchange used. -/
theorem replay_one_shot_echoed :
    ∃ taken, OneShot Compact.codec .methodAndParams echoMock.exchanges [echoCall, echoCall] taken ∧
      echoMock.replay Compact.codec [echoCall, echoCall] = taken.map fun slot =>
        slot.bind fun i => echoMock.exchanges[i]?.map RecordedExchange.answer :=
  @replay_one_shot Compact.codec (echoed []) .methodAndParams echoMock (by decide +kernel) [echoCall, echoCall]

end MockSession
end McpTracer.Model
