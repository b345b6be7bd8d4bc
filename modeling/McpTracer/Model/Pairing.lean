import McpTracer.Foundation.Pointwise
import McpTracer.Model.Correlate

/-! Correlation pairs exactly the right messages.

What is pending is determined by the history alone: a key is open exactly when
the last message that touched it was a request. The pass keeps this together
with the pairs and orphans it has produced, so both can be read off the history.
-/

set_option autoImplicit false

namespace McpTracer.Model
open McpTracer.Foundation McpTracer.Json McpTracer.Protocol McpTracer.Storage

/-! ## Roles of messages -/

def IsRequest (message : StoredMessage) (direction : Direction) (id : String) : Prop :=
  message.direction = direction.asDbStr ∧ message.messageKind = "request" ∧ message.rpcId = some id

def IsResponse (message : StoredMessage) (direction : Direction) (id : String) : Prop :=
  message.direction = direction.asDbStr ∧ message.messageKind = "response" ∧ message.rpcId = some id

/-- A cancellation of `id` by the side that requested it. -/
def Cancels (codec : Codec) (message : StoredMessage) (direction : Direction) (id : String) : Prop :=
  message.direction = direction.asDbStr ∧ message.messageKind = "notification" ∧
    message.method = some "notifications/cancelled" ∧
    ∃ payload requestId, codec.fromStr message.payload = some payload ∧
      payload.getPath ["params", "requestId"] = some requestId ∧
      (requestId.isString = true ∨ requestId.isNumber = true) ∧ codec.toString requestId = id

/-- The response answers the request, and no message between them takes the request away. -/
def Answers (codec : Codec) (request : StoredMessage) (between : List StoredMessage)
    (response : StoredMessage) : Prop :=
  ∃ direction id, IsRequest request direction id ∧ IsResponse response direction.opposite id ∧
    ∀ message ∈ between, ¬ IsRequest message direction id ∧
      ¬ IsResponse message direction.opposite id ∧ ¬ Cancels codec message direction id

/-- What a message does to the open requests. -/
def effect (codec : Codec) (message : StoredMessage) :
    Effect (Direction × String) StoredMessage :=
  match Direction.fromDbStr message.direction with
  | none => .keeps
  | some direction =>
    if message.messageKind = "request" then
      message.rpcId.elim .keeps fun id => .opens (direction.opposite, id) message
    else if message.messageKind = "response" then
      message.rpcId.elim .keeps fun id => .closes (direction, id)
    else if message.messageKind = "notification" then
      (cancelledId codec message).elim .keeps fun id => .closes (direction.opposite, id)
    else .keeps

theorem cancelledId_eq_some_iff (codec : Codec) (message : StoredMessage) (id : String) :
    cancelledId codec message = some id ↔ message.method = some "notifications/cancelled" ∧
      ∃ payload requestId, codec.fromStr message.payload = some payload ∧
        payload.getPath ["params", "requestId"] = some requestId ∧
        (requestId.isString = true ∨ requestId.isNumber = true) ∧ codec.toString requestId = id := by
  unfold cancelledId StoredMessage.idAt
  split_ifs with named
  · simp only [named, true_and, Option.map_eq_some_iff, Option.filter_eq_some_iff,
      Option.bind_eq_some_iff, Bool.or_eq_true]
    constructor
    · rintro ⟨requestId, ⟨⟨payload, parsed, found⟩, kind⟩, same⟩
      exact ⟨payload, requestId, parsed, found, kind, same⟩
    · rintro ⟨payload, requestId, parsed, found, kind, same⟩
      exact ⟨requestId, ⟨⟨payload, parsed, found⟩, kind⟩, same⟩
  · simp [named]

theorem opposite_inj {direction other : Direction} :
    direction.opposite = other.opposite ↔ direction = other := by
  cases direction <;> cases other <;> decide

theorem asDbStr_inj {direction other : Direction} :
    direction.asDbStr = other.asDbStr ↔ direction = other := by
  cases direction <;> cases other <;> decide

theorem effect_eq_opens_iff (codec : Codec) (message request : StoredMessage) (direction : Direction)
    (id : String) : effect codec message = .opens (direction.opposite, id) request ↔
      IsRequest message direction id ∧ request = message := by
  unfold effect IsRequest
  constructor
  · intro opens
    cases known : Direction.fromDbStr message.direction with
    | none => simp [known] at opens
    | some side =>
        simp only [known] at opens
        split_ifs at opens with kind
        case pos =>
          cases identified : message.rpcId with
          | none => simp [identified] at opens
          | some own =>
              simp only [identified, Option.elim_some, Effect.opens.injEq, Prod.mk.injEq,
                opposite_inj] at opens
              obtain ⟨⟨rfl, rfl⟩, rfl⟩ := opens
              exact ⟨⟨(Direction.fromDbStr_eq_some_iff _ _).mp known, kind, rfl⟩, rfl⟩
        · cases identified : message.rpcId <;> simp [identified] at opens
        · cases named : cancelledId codec message <;> simp [named] at opens
  · rintro ⟨⟨known, kind, identified⟩, rfl⟩
    simp [known, kind, identified]

theorem touches_iff (codec : Codec) (message : StoredMessage) (direction : Direction) (id : String) :
    (effect codec message).Touches (direction.opposite, id) ↔ IsRequest message direction id ∨
      IsResponse message direction.opposite id ∨ Cancels codec message direction id := by
  have cancels := cancelledId_eq_some_iff codec message id
  cases known : Direction.fromDbStr message.direction with
  | none =>
      have unknown (side : Direction) : message.direction ≠ side.asDbStr := by
        intro same
        rw [same, Direction.fromDbStr_asDbStr] at known
        cases known
      simp [effect, known, Effect.Touches, IsRequest, IsResponse, Cancels, unknown]
  | some side =>
      have written := (Direction.fromDbStr_eq_some_iff _ _).mp known
      simp only [IsRequest, IsResponse, Cancels, written, asDbStr_inj, ← cancels]
      by_cases request : message.messageKind = "request"
      · cases identified : message.rpcId <;>
          simp [effect, known, request, identified, Effect.Touches, opposite_inj]
      by_cases response : message.messageKind = "response"
      · cases identified : message.rpcId <;>
          simp [effect, known, response, identified, Effect.Touches]
      by_cases notification : message.messageKind = "notification"
      · cases named : cancelledId codec message <;>
          simp [effect, known, notification, named, Effect.Touches, opposite_inj]
      · simp [effect, known, request, response, notification, Effect.Touches]

/-- The open requests after a history. -/
def openRequests (codec : Codec) (history : List StoredMessage) :
    Table (Direction × String) StoredMessage :=
  Effect.pending (history.map (effect codec))

/-- A request is open exactly when a response to it would answer it. -/
theorem openRequests_eq_some_iff (codec : Codec) (history : List StoredMessage) (direction : Direction)
    (id : String) (request : StoredMessage) :
    openRequests codec history (direction.opposite, id) = some request ↔
      ∃ earlier between, history = earlier ++ request :: between ∧ IsRequest request direction id ∧
        ∀ message ∈ between, ¬ IsRequest message direction id ∧
          ¬ IsResponse message direction.opposite id ∧ ¬ Cancels codec message direction id := by
  rw [openRequests, Effect.pending_eq_some_iff]
  constructor
  · rintro ⟨before, after, shape, untouched⟩
    obtain ⟨earlier, rest, rfl, rfl, tail⟩ := List.map_eq_append_iff.mp shape
    obtain ⟨message, between, rfl, opens, rfl⟩ := List.map_eq_cons_iff.mp tail
    obtain ⟨requests, rfl⟩ := (effect_eq_opens_iff codec message request direction id).mp opens
    refine ⟨earlier, between, rfl, requests, fun later member => ?_⟩
    have calm := untouched _ (List.mem_map_of_mem member)
    rw [touches_iff] at calm
    push Not at calm
    exact calm
  · rintro ⟨earlier, between, rfl, requests, calm⟩
    refine ⟨earlier.map (effect codec), between.map (effect codec), ?_, ?_⟩
    · simp [(effect_eq_opens_iff codec request request direction id).mpr ⟨requests, rfl⟩]
    · intro later member
      obtain ⟨message, found, rfl⟩ := List.mem_map.mp member
      rw [touches_iff]
      have := calm message found
      push Not
      exact this

theorem openRequests_concat (codec : Codec) (history : List StoredMessage) (message : StoredMessage) :
    openRequests codec (history ++ [message]) =
      (effect codec message).apply (openRequests codec history) := by
  simp [openRequests, Effect.pending_concat]

/-! ## What the pass keeps -/

/-- The sequence numbers an exchange carries. -/
def Exchange.sides (exchange : Exchange) : Option Nat × Option Nat :=
  (exchange.requestSeq, exchange.responseSeq)

/-- The exchange at this index is still waiting for the response to this request. -/
def Waiting (exchanges : List Exchange) (key : Direction × String) (index : Nat)
    (request : StoredMessage) : Prop :=
  ∃ exchange, exchanges[index]? = some exchange ∧ exchange.sides = (some request.seq, none) ∧
    exchange.origin.opposite = key.1 ∧ exchange.rpcId = some key.2 ∧ exchange.method = request.method

/-- After this history, the response meets the open request numbered `a`. -/
def Meets (codec : Codec) (b a : Nat) (history : List StoredMessage) (response : StoredMessage) : Prop :=
  response.seq = b ∧ ∃ direction id request, IsResponse response direction id ∧
    openRequests codec history (direction, id) = some request ∧ request.seq = a

/-- After this history, no open request is there for the response. -/
def MeetsNone (codec : Codec) (b : Nat) (history : List StoredMessage) (response : StoredMessage) : Prop :=
  response.seq = b ∧ ∃ direction, response.direction = direction.asDbStr ∧
    response.messageKind = "response" ∧
    ∀ id, response.rpcId = some id → openRequests codec history (direction, id) = none

/-- Some message of the history has the property after the messages before it. -/
def Sometime (holds : List StoredMessage → StoredMessage → Prop) (history : List StoredMessage) : Prop :=
  ∃ before message after, history = before ++ message :: after ∧ holds before message

/-- The state of the pass is determined by the history as far as correlation goes. -/
structure Tracks (codec : Codec) (history : List StoredMessage) (state : Correlation) : Prop where
  waiting : ∀ key request, openRequests codec history key = some request →
    ∃ index, state.pending key = some index ∧ Waiting state.exchanges key index request
  closed : ∀ key, openRequests codec history key = none → state.pending key = none
  orphanStatus : ∀ exchange ∈ state.exchanges,
    exchange.status = .orphanResponse ↔ exchange.requestSeq = none
  pairs : ∀ a b, (some a, some b) ∈ state.exchanges.map Exchange.sides ↔
    Sometime (Meets codec b a) history
  orphans : ∀ b, (none, some b) ∈ state.exchanges.map Exchange.sides ↔
    Sometime (MeetsNone codec b) history

theorem sometime_concat (holds : List StoredMessage → StoredMessage → Prop)
    (history : List StoredMessage) (last : StoredMessage) :
    Sometime holds (history ++ [last]) ↔ Sometime holds history ∨ holds history last := by
  constructor
  · rintro ⟨before, x, after, shape, found⟩
    rcases concat_place shape with ⟨rfl, rfl, -⟩ | ⟨middle, -, rfl⟩
    · exact .inr found
    · exact .inl ⟨before, x, middle, rfl, found⟩
  · rintro (⟨before, x, after, rfl, found⟩ | found)
    · exact ⟨before, x, after ++ [last], by simp, found⟩
    · exact ⟨history, last, [], rfl, found⟩

/-! ## Changing one exchange -/

section Modify
variable {exchanges : List Exchange} {key other : Direction × String} {index : Nat}
  {request : StoredMessage}

theorem Waiting.append (waits : Waiting exchanges key index request) (more : List Exchange) :
    Waiting (exchanges ++ more) key index request := by
  obtain ⟨exchange, found, rest⟩ := waits
  have inside : index < exchanges.length := (List.getElem?_eq_some_iff.mp found).1
  exact ⟨exchange, by rw [List.getElem?_append_left inside, found], rest⟩

/-- A waiting exchange belongs to one key only. -/
theorem Waiting.key_unique {otherRequest : StoredMessage} (waits : Waiting exchanges key index request)
    (also : Waiting exchanges other index otherRequest) : other = key := by
  obtain ⟨exchange, found, -, side, id, -⟩ := waits
  obtain ⟨same, alsoFound, -, otherSide, otherId, -⟩ := also
  obtain rfl : exchange = same := Option.some.inj (found.symm.trans alsoFound)
  exact Prod.ext (otherSide.symm.trans side) (Option.some.inj (otherId.symm.trans id))

theorem Waiting.modify_other {changed : Nat} {change : Exchange → Exchange}
    (waits : Waiting exchanges key index request) (differs : changed ≠ index) :
    Waiting (exchanges.modify changed change) key index request := by
  obtain ⟨exchange, found, rest⟩ := waits
  exact ⟨exchange, by simp [differs, found], rest⟩

/-- A change of other fields leaves every exchange waiting that waited. -/
theorem Waiting.modify_kept {changed : Nat} {change : Exchange → Exchange}
    (kept : ∀ exchange, (change exchange).sides = exchange.sides ∧
      (change exchange).origin = exchange.origin ∧ (change exchange).rpcId = exchange.rpcId ∧
      (change exchange).method = exchange.method)
    (waits : Waiting exchanges key index request) :
    Waiting (exchanges.modify changed change) key index request := by
  by_cases same : changed = index
  · obtain ⟨exchange, found, sides, side, id, method⟩ := waits
    obtain ⟨keptSides, keptOrigin, keptId, keptMethod⟩ := kept exchange
    exact ⟨change exchange, by simp [same, found],
      keptSides.trans sides, by rw [keptOrigin, side], keptId.trans id, keptMethod.trans method⟩
  · exact waits.modify_other same

end Modify

/-! ## Step lemmas -/

section Step
variable {codec : Codec} {history : List StoredMessage} {state : Correlation}
  {message : StoredMessage} {direction : Direction}

/-- A message that is no response leaves pairs and orphans as they are. -/
theorem sometime_not_response (plain : ∀ side : Direction, message.direction = side.asDbStr →
    message.messageKind ≠ "response") (a b : Nat) :
    (Sometime (Meets codec b a) (history ++ [message]) ↔ Sometime (Meets codec b a) history) ∧
      (Sometime (MeetsNone codec b) (history ++ [message]) ↔ Sometime (MeetsNone codec b) history) := by
  have noPair : ¬ Meets codec b a history message := by
    rintro ⟨_, side, _, _, response, _⟩
    exact plain side response.1 response.2.1
  have noOrphan : ¬ MeetsNone codec b history message := by
    rintro ⟨_, side, known, response, _⟩
    exact plain side known response
  simp [sometime_concat, noPair, noOrphan]

/-- A message that is no response and takes no open request away changes nothing. -/
theorem tracks_skip (tracks : Tracks codec history state)
    (keeps : (effect codec message).apply (openRequests codec history) = openRequests codec history)
    (plain : ∀ side : Direction, message.direction = side.asDbStr →
      message.messageKind ≠ "response") : Tracks codec (history ++ [message]) state := by
  have same := (openRequests_concat codec history message).trans keeps
  exact {
    waiting := fun key request opened => tracks.waiting key request (same ▸ opened)
    closed := fun key absent => tracks.closed key (same ▸ absent)
    orphanStatus := tracks.orphanStatus
    pairs := fun a b => (tracks.pairs a b).trans (sometime_not_response plain a b).1.symm
    orphans := fun b => (tracks.orphans b).trans (sometime_not_response plain 0 b).2.symm }

theorem tracks_request (tracks : Tracks codec history state)
    (known : Direction.fromDbStr message.direction = some direction)
    (kind : message.messageKind = "request") :
    Tracks codec (history ++ [message]) (state.request direction message) := by
  have plain (side : Direction) (_ : message.direction = side.asDbStr) :
      message.messageKind ≠ "response" := by simp [kind]
  have opens : effect codec message =
      message.rpcId.elim .keeps fun id => .opens (direction.opposite, id) message := by
    simp [effect, known, kind]
  refine ⟨?waiting, ?closed, ?orphanStatus, ?pairs, ?orphans⟩
  case waiting =>
    -- A request without an id opens nothing; one with an id takes the place of an open one.
    intro key request opened
    rw [openRequests_concat, opens] at opened
    cases identified : message.rpcId with
    | none =>
        rw [identified] at opened
        obtain ⟨index, pending, waits⟩ := tracks.waiting key request opened
        exact ⟨index, by simpa [Correlation.request, identified] using pending, waits.append _⟩
    | some id =>
        rw [identified] at opened
        by_cases same : key = (direction.opposite, id)
        · subst same
          obtain rfl : message = request := by simpa [Effect.apply] using opened
          refine ⟨state.exchanges.length, by simp [Correlation.request, identified], ?_⟩
          exact ⟨Exchange.opened direction message, by simp [Correlation.request], rfl, rfl, identified, rfl⟩
        · rw [Option.elim_some, Effect.apply, Table.insert_other _ _ same] at opened
          obtain ⟨index, pending, waits⟩ := tracks.waiting key request opened
          refine ⟨index, ?_, waits.append _⟩
          simpa [Correlation.request, identified, Table.insert_other _ _ same] using pending
  case closed =>
    intro key absent
    rw [openRequests_concat, opens] at absent
    cases identified : message.rpcId with
    | none =>
        rw [identified] at absent
        simpa [Correlation.request, identified] using tracks.closed key absent
    | some id =>
        rw [identified] at absent
        by_cases same : key = (direction.opposite, id)
        · subst same
          simp [Effect.apply] at absent
        · rw [Option.elim_some, Effect.apply, Table.insert_other _ _ same] at absent
          simpa [Correlation.request, identified, Table.insert_other _ _ same] using
            tracks.closed key absent
  case orphanStatus =>
    intro exchange member
    rcases List.mem_append.mp member with before | new
    · exact tracks.orphanStatus exchange before
    · obtain rfl : exchange = Exchange.opened direction message := by simpa using new
      simp [Exchange.opened]
  case pairs =>
    intro a b
    rw [(sometime_not_response plain a b).1, ← tracks.pairs]
    simp [Correlation.request, Exchange.opened, Exchange.sides]
  case orphans =>
    intro b
    rw [(sometime_not_response plain 0 b).2, ← tracks.orphans]
    simp [Correlation.request, Exchange.opened, Exchange.sides]

/-- Closing the key of a waiting exchange and changing that exchange leaves the other keys alone. -/
theorem waiting_erase (tracks : Tracks codec history state) {key : Direction × String} {index : Nat}
    {request : StoredMessage} (pending : state.pending key = some index)
    (waits : Waiting state.exchanges key index request) (closes : effect codec message = .closes key)
    (change : Exchange → Exchange) :
    (∀ other later, openRequests codec (history ++ [message]) other = some later →
      ∃ position, state.pending.erase key other = some position ∧
        Waiting (state.exchanges.modify index change) other position later) ∧
    ∀ other, openRequests codec (history ++ [message]) other = none →
      state.pending.erase key other = none := by
  rw [openRequests_concat, closes]
  refine ⟨fun other later opened => ?_, fun other absent => ?_⟩
  · by_cases same : other = key
    · subst same
      simp [Effect.apply] at opened
    · rw [Effect.apply, Table.erase_other _ same] at opened
      obtain ⟨position, found, waiting⟩ := tracks.waiting other later opened
      refine ⟨position, by rwa [Table.erase_other _ same], waiting.modify_other fun collision => ?_⟩
      exact same (waits.key_unique (collision ▸ waiting))
  · by_cases same : other = key
    · subst same
      simp
    · rw [Effect.apply, Table.erase_other _ same] at absent
      rw [Table.erase_other _ same, tracks.closed other absent]

theorem tracks_answered (tracks : Tracks codec history state) {id : String} {index : Nat}
    {request : StoredMessage} (known : Direction.fromDbStr message.direction = some direction)
    (kind : message.messageKind = "response") (identified : message.rpcId = some id)
    (opened : openRequests codec history (direction, id) = some request)
    (pending : state.pending (direction, id) = some index)
    (waits : Waiting state.exchanges (direction, id) index request) :
    Tracks codec (history ++ [message]) { state with
      exchanges := state.exchanges.modify index fun exchange => exchange.answered codec message
      pending := state.pending.erase (direction, id) } := by
  have closes : effect codec message = .closes (direction, id) := by
    simp [effect, known, kind, identified]
  have written := (Direction.fromDbStr_eq_some_iff _ _).mp known
  have others := waiting_erase tracks pending waits closes fun exchange =>
    exchange.answered codec message
  obtain ⟨exchange, found, sides, -, -⟩ := waits
  have after : (exchange.answered codec message).sides = (some request.seq, some message.seq) := by
    simp only [Exchange.sides, Prod.mk.injEq] at sides
    simp [Exchange.answered, Exchange.sides, sides.1]
  refine ⟨others.1, others.2, ?orphanStatus, ?pairs, ?orphans⟩
  case orphanStatus =>
    intro changed member
    rcases mem_modify found member with before | rfl
    · exact tracks.orphanStatus changed before
    · have requested : (exchange.answered codec message).requestSeq ≠ none := by
        simp [(Prod.mk.inj after).1]
      have answered : (exchange.answered codec message).status ≠ .orphanResponse := by
        simp only [Exchange.answered]
        split_ifs <;> decide
      simp [requested, answered]
  case pairs =>
    -- The exchange carried no response before, so no earlier pair is lost.
    intro a b
    have meets : Meets codec b a history message ↔ request.seq = a ∧ message.seq = b := by
      constructor
      · rintro ⟨same, side, other, found, response, open_, first⟩
        obtain rfl : side = direction := asDbStr_inj.mp (response.1.symm.trans written)
        obtain rfl : id = other := Option.some.inj (identified.symm.trans response.2.2)
        obtain rfl : request = found := Option.some.inj (opened.symm.trans open_)
        exact ⟨first, same⟩
      · rintro ⟨first, same⟩
        exact ⟨same, direction, id, request, ⟨written, kind, identified⟩, opened, first⟩
    rw [sometime_concat, ← tracks.pairs, mem_map_modify found (by simp [sides]), after, meets]
    simp [eq_comm]
  case orphans =>
    intro b
    have meets : ¬ MeetsNone codec b history message := by
      rintro ⟨-, side, known', -, absent⟩
      obtain rfl : side = direction := asDbStr_inj.mp (known'.symm.trans written)
      simp [absent id identified] at opened
    rw [sometime_concat, ← tracks.orphans, mem_map_modify found (by simp [sides]), after]
    simp [meets]

theorem tracks_orphan (tracks : Tracks codec history state)
    (known : Direction.fromDbStr message.direction = some direction)
    (kind : message.messageKind = "response")
    (absent : ∀ id, message.rpcId = some id → openRequests codec history (direction, id) = none) :
    Tracks codec (history ++ [message])
      { state with exchanges := state.exchanges ++ [Exchange.orphan direction message] } := by
  have written := (Direction.fromDbStr_eq_some_iff _ _).mp known
  -- Nothing is open under the key, so closing it changes nothing.
  have same : openRequests codec (history ++ [message]) = openRequests codec history := by
    rw [openRequests_concat]
    cases identified : message.rpcId with
    | none => simp [effect, known, kind, identified, Effect.apply]
    | some id =>
        simpa [effect, known, kind, identified, Effect.apply] using
          Table.erase_absent _ (absent id identified)
  refine ⟨?waiting, ?closed, ?orphanStatus, ?pairs, ?orphans⟩
  case waiting =>
    intro key request opened
    obtain ⟨index, pending, waits⟩ := tracks.waiting key request (same ▸ opened)
    exact ⟨index, pending, waits.append _⟩
  case closed => exact fun key closed => tracks.closed key (same ▸ closed)
  case orphanStatus =>
    intro exchange member
    rcases List.mem_append.mp member with before | new
    · exact tracks.orphanStatus exchange before
    · obtain rfl : exchange = Exchange.orphan direction message := by simpa using new
      simp [Exchange.orphan]
  case pairs =>
    intro a b
    have meets : ¬ Meets codec b a history message := by
      rintro ⟨-, side, id, request, response, opened, -⟩
      obtain rfl : side = direction := asDbStr_inj.mp (response.1.symm.trans written)
      simp [absent id response.2.2] at opened
    rw [sometime_concat, ← tracks.pairs]
    simp [meets, Exchange.orphan, Exchange.sides]
  case orphans =>
    intro b
    have meets : MeetsNone codec b history message ↔ message.seq = b :=
      ⟨fun found => found.1, fun found => ⟨found, direction, written, kind, absent⟩⟩
    rw [sometime_concat, ← tracks.orphans, meets]
    simp [Exchange.orphan, Exchange.sides, eq_comm]

theorem tracks_response (tracks : Tracks codec history state)
    (known : Direction.fromDbStr message.direction = some direction)
    (kind : message.messageKind = "response") :
    Tracks codec (history ++ [message]) (state.response codec direction message) := by
  cases identified : message.rpcId with
  | none =>
      have orphan := tracks_orphan tracks known kind (by simp [identified])
      simpa [Correlation.response, identified] using orphan
  | some id =>
      cases opened : openRequests codec history (direction, id) with
      | none =>
          have closed := tracks.closed (direction, id) opened
          have orphan := tracks_orphan tracks known kind (by simpa [identified] using opened)
          simpa [Correlation.response, identified, closed] using orphan
      | some request =>
          obtain ⟨index, pending, waits⟩ := tracks.waiting (direction, id) request opened
          have answered := tracks_answered tracks known kind identified opened pending waits
          simpa [Correlation.response, identified, pending] using answered

/-- Changing a field that correlation does not read, of an exchange that is no orphan. -/
theorem orphanStatus_modify {change : Exchange → Exchange} {index : Nat} {key : Direction × String}
    {request : StoredMessage} (tracks : Tracks codec history state)
    (waits : Waiting state.exchanges key index request)
    (kept : ∀ exchange, (change exchange).sides = exchange.sides)
    (status : ∀ exchange, exchange.status ≠ .orphanResponse → (change exchange).status ≠ .orphanResponse) :
    ∀ exchange ∈ state.exchanges.modify index change,
      exchange.status = .orphanResponse ↔ exchange.requestSeq = none := by
  obtain ⟨waiting, found, sides, -, -⟩ := waits
  intro exchange member
  rcases mem_modify found member with before | rfl
  · exact tracks.orphanStatus exchange before
  · have requested : waiting.requestSeq = some request.seq := (Prod.mk.inj sides).1
    have before := tracks.orphanStatus waiting (List.mem_of_getElem? found)
    have after : (change waiting).requestSeq = some request.seq := by
      rw [← requested]
      exact (Prod.mk.inj (kept waiting)).1
    simpa [after] using status waiting (by simp [before, requested])

theorem tracks_cancellation (tracks : Tracks codec history state)
    (known : Direction.fromDbStr message.direction = some direction)
    (kind : message.messageKind = "notification") :
    Tracks codec (history ++ [message]) (state.cancellation codec direction message) := by
  have plain (side : Direction) (_ : message.direction = side.asDbStr) :
      message.messageKind ≠ "response" := by simp [kind]
  cases cancelled : cancelledId codec message with
  | none =>
      have skipped := tracks_skip tracks (by simp [effect, known, kind, cancelled, Effect.apply]) plain
      simpa [Correlation.cancellation, cancelled] using skipped
  | some id =>
      have closes : effect codec message = .closes (direction.opposite, id) := by
        simp [effect, known, kind, cancelled]
      cases opened : openRequests codec history (direction.opposite, id) with
      | none =>
          -- The cancelled request was answered or cancelled before.
          have closed := tracks.closed _ opened
          have skipped := tracks_skip tracks (by rw [closes]; exact Table.erase_absent _ opened) plain
          simpa [Correlation.cancellation, cancelled, closed] using skipped
      | some request =>
          obtain ⟨index, pending, waits⟩ := tracks.waiting _ request opened
          have others := waiting_erase tracks pending waits closes Exchange.cancelled
          have kept (exchange : Exchange) : exchange.cancelled.sides = exchange.sides := rfl
          have status := orphanStatus_modify tracks waits kept fun _ _ => by simp [Exchange.cancelled]
          simp only [Correlation.cancellation, cancelled, pending, Option.bind_some, Option.map_some]
          refine ⟨others.1, others.2, status, fun a b => ?_, fun b => ?_⟩
          · rw [map_modify_kept kept, tracks.pairs, (sometime_not_response plain a b).1]
          · rw [map_modify_kept kept, tracks.orphans, (sometime_not_response plain 0 b).2]

theorem acknowledged_kept (exchange : Exchange) : exchange.acknowledged.sides = exchange.sides ∧
    exchange.acknowledged.origin = exchange.origin ∧
    exchange.acknowledged.rpcId = exchange.rpcId ∧
    exchange.acknowledged.method = exchange.method := by
  unfold Exchange.acknowledged
  split <;> exact ⟨rfl, rfl, rfl, rfl⟩

/-- An acknowledgement only looks at the open request. -/
theorem tracks_acknowledgement (message : StoredMessage) (direction : Direction)
    (tracks : Tracks codec history state) :
    Tracks codec history (state.acknowledgement codec direction message) := by
  unfold Correlation.acknowledgement
  split
  · cases named : (subscriptionId codec message).bind fun id => state.pending (direction, id) with
    | none => exact tracks
    | some index =>
        obtain ⟨id, -, pending⟩ := Option.bind_eq_some_iff.mp named
        cases opened : openRequests codec history (direction, id) with
        | none => simp [tracks.closed _ opened] at pending
        | some request =>
            obtain ⟨position, found, waits⟩ := tracks.waiting _ request opened
            obtain rfl : index = position := Option.some.inj (pending.symm.trans found)
            have kept (exchange : Exchange) := (acknowledged_kept exchange).1
            have status := orphanStatus_modify tracks waits kept fun exchange plain => by
              unfold Exchange.acknowledged
              split <;> simp [plain]
            -- The entry stays pending: its exchange changes, but none of the fields read here.
            refine ⟨fun key later open_ => ?_, tracks.closed, status, fun a b => ?_, fun b => ?_⟩
            · obtain ⟨other, pendingOther, waiting⟩ := tracks.waiting key later open_
              exact ⟨other, pendingOther, waiting.modify_kept acknowledged_kept⟩
            · rw [map_modify_kept kept, tracks.pairs]
            · rw [map_modify_kept kept, tracks.orphans]
  · exact tracks

theorem tracks_notification (tracks : Tracks codec history state)
    (known : Direction.fromDbStr message.direction = some direction)
    (kind : message.messageKind = "notification") :
    Tracks codec (history ++ [message]) (state.notification codec direction message) := by
  obtain ⟨waiting, closed, orphanStatus, pairs, orphans⟩ :=
    tracks_acknowledgement message direction (tracks_cancellation tracks known kind)
  exact ⟨waiting, closed, orphanStatus, pairs, orphans⟩

/-- One message of the pass, by its direction and kind. -/
theorem tracks_step (tracks : Tracks codec history state) :
    Tracks codec (history ++ [message]) (state.step codec message) := by
  unfold Correlation.step
  cases known : Direction.fromDbStr message.direction with
  | none =>
      refine tracks_skip tracks (by simp [effect, known, Effect.apply]) fun side written => ?_
      simp [written] at known
  | some direction =>
      simp only
      split
      · exact tracks_request tracks known (by assumption)
      · exact tracks_response tracks known (by assumption)
      · exact tracks_notification tracks known (by assumption)
      · rename_i noRequest noResponse noNotification
        have keeps : effect codec message = .keeps := by
          simp only [effect, known]
          rw [if_neg noRequest, if_neg noResponse, if_neg noNotification]
        exact tracks_skip tracks (by rw [keeps, Effect.apply]) fun _ _ => noResponse

end Step

/-! ## The whole pass -/

theorem tracks_start (codec : Codec) : Tracks codec [] .start where
  waiting key request opened := by simp [openRequests, Table.empty] at opened
  closed key _ := rfl
  orphanStatus exchange member := by simp [Correlation.start] at member
  pairs a b := by simp [Correlation.start, Sometime]
  orphans b := by simp [Correlation.start, Sometime]

theorem tracks_foldl (codec : Codec) (messages : List StoredMessage) :
    Tracks codec messages (messages.foldl (Correlation.step codec) .start) := by
  induction messages using List.reverseRecOn with
  | nil => exact tracks_start codec
  | append_singleton history message ih =>
      rw [List.foldl_append]
      exact tracks_step ih

theorem mem_correlate (codec : Codec) (messages : List StoredMessage) (exchange : Exchange) :
    exchange ∈ (correlate codec messages).exchanges ↔
      exchange ∈ (messages.foldl (Correlation.step codec) .start).exchanges := by
  simp [correlate, List.mem_insertionSort]

/-- A response meets an open request exactly when it answers it. -/
theorem meets_iff (codec : Codec) (history : List StoredMessage) (response : StoredMessage) (a b : Nat) :
    Meets codec b a history response ↔ response.seq = b ∧ ∃ earlier request between,
      history = earlier ++ request :: between ∧ request.seq = a ∧ Answers codec request between response := by
  constructor
  · rintro ⟨same, side, id, request, isResponse, opened, first⟩
    rw [← Direction.opposite_opposite side] at opened isResponse
    obtain ⟨earlier, between, shape, isRequest, calm⟩ :=
      (openRequests_eq_some_iff codec history side.opposite id request).mp opened
    exact ⟨same, earlier, request, between, shape, first, side.opposite, id, isRequest, isResponse, calm⟩
  · rintro ⟨same, earlier, request, between, shape, first, side, id, isRequest, isResponse, calm⟩
    exact ⟨same, side.opposite, id, request, isResponse,
      (openRequests_eq_some_iff codec history side id request).mpr
        ⟨earlier, between, shape, isRequest, calm⟩, first⟩

/-- A response meets no open request exactly when no earlier request is answered by it. -/
theorem meetsNone_iff (codec : Codec) (history : List StoredMessage) (response : StoredMessage)
    {direction : Direction} (known : response.direction = direction.asDbStr)
    (kind : response.messageKind = "response") (b : Nat) :
    MeetsNone codec b history response ↔ response.seq = b ∧ ¬ ∃ earlier request between,
      history = earlier ++ request :: between ∧ Answers codec request between response := by
  constructor
  · rintro ⟨same, side, written, -, absent⟩
    refine ⟨same, ?_⟩
    rintro ⟨earlier, request, between, shape, origin, id, isRequest, isResponse, calm⟩
    obtain rfl : side = origin.opposite := asDbStr_inj.mp (written.symm.trans isResponse.1)
    have opened := (openRequests_eq_some_iff codec history origin id request).mpr
      ⟨earlier, between, shape, isRequest, calm⟩
    simp [absent id isResponse.2.2] at opened
  · rintro ⟨same, unanswered⟩
    refine ⟨same, direction, known, kind, fun id identified => ?_⟩
    cases opened : openRequests codec history (direction, id) with
    | none => rfl
    | some request =>
        rw [← Direction.opposite_opposite direction] at opened known
        obtain ⟨earlier, between, shape, isRequest, calm⟩ :=
          (openRequests_eq_some_iff codec history direction.opposite id request).mp opened
        exact absurd ⟨earlier, request, between, shape, direction.opposite, id, isRequest,
          ⟨known, kind, identified⟩, calm⟩ unanswered

/-- In a stream of increasing numbers a number occurs at one place. -/
theorem split_unique {messages before after otherBefore otherAfter : List StoredMessage}
    {message other : StoredMessage} (ordered : StoredMessage.Increasing messages)
    (shape : messages = before ++ message :: after)
    (otherShape : messages = otherBefore ++ other :: otherAfter) (same : message.seq = other.seq) :
    before = otherBefore ∧ message = other := by
  subst shape
  rw [StoredMessage.Increasing, List.pairwise_append] at ordered
  obtain ⟨-, rest, across⟩ := ordered
  rcases List.append_eq_append_iff.mp otherShape with ⟨middle, rfl, tail⟩ | ⟨middle, rfl, tail⟩
  · cases middle with
    | nil => exact ⟨by simp, (List.cons.inj tail).1⟩
    | cons first middle =>
        obtain ⟨rfl, rfl⟩ := List.cons.inj tail
        have later := (List.pairwise_cons.mp rest).1 other (by simp)
        exact absurd same (Nat.ne_of_lt later)
  · cases middle with
    | nil => exact ⟨by simp, (List.cons.inj tail).1.symm⟩
    | cons first middle =>
        obtain ⟨rfl, rfl⟩ := List.cons.inj tail
        have earlier := across other (by simp) message List.mem_cons_self
        exact absurd same.symm (Nat.ne_of_lt earlier)

/-- The exchanges that carry both numbers are the answered requests, and a response is an orphan
exactly when it answers none. -/
theorem correlate_pairs_iff (codec : Codec) (messages : List StoredMessage)
    (ordered : StoredMessage.Increasing messages) :
    (∀ a b, (∃ exchange ∈ (correlate codec messages).exchanges,
        exchange.requestSeq = some a ∧ exchange.responseSeq = some b) ↔
      ∃ earlier request between response later,
        messages = earlier ++ request :: (between ++ response :: later) ∧
          request.seq = a ∧ response.seq = b ∧ Answers codec request between response) ∧
    (∀ before response after direction, messages = before ++ response :: after →
      response.direction = Direction.asDbStr direction → response.messageKind = "response" →
      ((∃ exchange ∈ (correlate codec messages).exchanges, exchange.status = .orphanResponse ∧
          exchange.responseSeq = some response.seq) ↔
        ¬ ∃ earlier request between, before = earlier ++ request :: between ∧
          Answers codec request between response)) := by
  have tracks := tracks_foldl codec messages
  refine ⟨fun a b => ?pairs, fun before response after direction shape known kind => ?orphans⟩
  case pairs =>
    have carried := tracks.pairs a b
    simp only [List.mem_map, Exchange.sides, Prod.mk.injEq] at carried
    simp only [mem_correlate, carried, Sometime, meets_iff]
    constructor
    · rintro ⟨before, response, later, shape, last, earlier, request, between, rfl, first, answers⟩
      exact ⟨earlier, request, between, response, later, by simpa using shape, first, last, answers⟩
    · rintro ⟨earlier, request, between, response, later, shape, first, last, answers⟩
      exact ⟨earlier ++ request :: between, response, later, by simpa using shape, last, earlier,
        request, between, rfl, first, answers⟩
  case orphans =>
    have carried := tracks.orphans response.seq
    simp only [List.mem_map, Exchange.sides, Prod.mk.injEq] at carried
    have orphan : (∃ exchange ∈ (correlate codec messages).exchanges,
        exchange.status = .orphanResponse ∧ exchange.responseSeq = some response.seq) ↔
        Sometime (MeetsNone codec response.seq) messages := by
      rw [← carried]
      constructor
      · rintro ⟨exchange, member, status, last⟩
        rw [mem_correlate] at member
        exact ⟨exchange, member, (tracks.orphanStatus exchange member).mp status, last⟩
      · rintro ⟨exchange, member, first, last⟩
        exact ⟨exchange, (mem_correlate codec messages exchange).mpr member,
          (tracks.orphanStatus exchange member).mpr first, last⟩
    rw [orphan]
    constructor
    · rintro ⟨history, message, rest, otherShape, meets⟩
      obtain ⟨rfl, rfl⟩ := split_unique ordered otherShape shape meets.1
      exact ((meetsNone_iff codec history message known kind _).mp meets).2
    · exact fun unanswered => ⟨before, response, after, shape,
        (meetsNone_iff codec before response known kind _).mpr ⟨rfl, unanswered⟩⟩

/-- Two calls with one id in opposite directions, answered crosswise. -/
def crossedCalls : List StoredMessage :=
  [⟨0, 100, "c2s", "request", some "1", some "tools/call", some "echo", "", 0, false, none⟩,
    ⟨1, 110, "s2c", "request", some "1", some "roots/list", none, "", 0, false, none⟩,
    ⟨2, 150, "s2c", "response", some "1", none, none, "", 0, false, none⟩,
    ⟨3, 160, "c2s", "response", some "1", none, none, "", 0, false, none⟩]

theorem correlate_crossedCalls :
    ∃ earlier request between response later,
      crossedCalls = earlier ++ request :: (between ++ response :: later) ∧
        request.seq = 0 ∧ response.seq = 2 ∧ Answers Compact.codec request between response := by
  have ordered : StoredMessage.Increasing crossedCalls := by
    simp [StoredMessage.Increasing, crossedCalls]
  refine ((correlate_pairs_iff Compact.codec crossedCalls ordered).1 0 2).mp ?_
  decide +kernel

end McpTracer.Model
