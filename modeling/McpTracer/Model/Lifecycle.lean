import McpTracer.Model.Health

/-! The calls of a session, key by key.

A key is the direction of the response and the id. What correlation says about the calls under a
key depends on nothing but the messages that touch the key, and these drive one small machine.
-/

set_option autoImplicit false

namespace McpTracer.Model
open McpTracer.Foundation McpTracer.Json McpTracer.Protocol McpTracer.Storage

/-! ## What a message does under a key -/

def listens (direction : Direction) (method : Option String) : Bool :=
  direction = .clientToServer && method = some "subscriptions/listen"

def eventAt (codec : Codec) (key : Direction × String) (message : StoredMessage) : Option CallEvent :=
  match Direction.fromDbStr message.direction with
  | none => none
  | some direction =>
    if message.messageKind = "request" then
      if key.1 = direction.opposite ∧ message.rpcId = some key.2 then
        some (.asks (listens direction message.method))
      else none
    else if message.messageKind = "response" then
      if key.1 = direction ∧ message.rpcId = some key.2 then some .answers else none
    else if message.messageKind = "notification" then
      if key.1 = direction.opposite ∧ cancelledId codec message = some key.2 then some .cancels
      else if direction = .serverToClient ∧ key.1 = direction ∧ subscriptionId codec message = some key.2 then
        some .acknowledges
      else none
    else none

/-- Where the calls under a key are after a history. -/
def phaseAfter (codec : Codec) (history : List StoredMessage) (key : Direction × String) : Phase :=
  Phase.idle.run (history.filterMap (eventAt codec key))

/-- A request or response that carries no id can never be paired. -/
def Anonymous (message : StoredMessage) : Prop :=
  Direction.fromDbStr message.direction ≠ none ∧
    (message.messageKind = "request" ∨ message.messageKind = "response") ∧ message.rpcId = none

/-- No call was lost and no response was one too many. -/
structure Sound (codec : Codec) (history : List StoredMessage) : Prop where
  named : ∀ message ∈ history, ¬ Anonymous message
  unbroken : ∀ key, phaseAfter codec history key ≠ .broken

section
variable {codec : Codec} {history : List StoredMessage} {message : StoredMessage} {key : Direction × String}

theorem phaseAfter_concat : phaseAfter codec (history ++ [message]) key =
    match eventAt codec key message with
    | some event => (phaseAfter codec history key).next event
    | none => phaseAfter codec history key := by
  unfold phaseAfter
  rw [List.filterMap_append, Phase.run_append]
  cases touched : eventAt codec key message <;> simp [touched, Phase.run]

theorem Sound.before (sound : Sound codec (history ++ [message])) : Sound codec history := by
  refine ⟨fun earlier member => sound.named earlier (List.mem_append_left _ member), fun key => ?_⟩
  have whole := sound.unbroken key
  unfold phaseAfter at whole
  rw [List.filterMap_append, Phase.run_append] at whole
  exact Phase.ne_broken_of_run whole

end

/-! ## What the pass knows of the calls -/

/-- The pass and the machine agree about a key. -/
def Holds (state : Correlation) (key : Direction × String) : Phase → Prop
  | .idle => state.pending key = none
  | .waiting listening => ∃ index exchange, state.pending key = some index ∧
      state.exchanges[index]? = some exchange ∧ exchange.status = .unanswered ∧
      listens exchange.origin exchange.method = listening
  | .listening => ∃ index exchange, state.pending key = some index ∧
      state.exchanges[index]? = some exchange ∧ exchange.status = .subscribed
  | .broken => False

/-- As long as nothing is lost, every unanswered exchange is pending. -/
structure Mirrors (phases : Direction × String → Phase) (state : Correlation) : Prop where
  held : ∀ key, Holds state key (phases key)
  accounted : ∀ index exchange, state.exchanges[index]? = some exchange → exchange.status = .unanswered →
    ∃ key, state.pending key = some index
  matched : ∀ exchange ∈ state.exchanges, exchange.status ≠ .orphanResponse

/-- Some exchange is unhealthy, and nothing pending leads to it. -/
def Lost (state : Correlation) : Prop :=
  ∃ index exchange, state.exchanges[index]? = some exchange ∧
    (exchange.status = .unanswered ∨ exchange.status = .orphanResponse) ∧
    ∀ key, state.pending key ≠ some index

section
variable {codec : Codec} {history : List StoredMessage} {state : Correlation}
  {message : StoredMessage} {direction : Direction} {phases : Direction × String → Phase}
  {key other : Direction × String} {index : Nat}

/-- Pending keys lead to exchanges of their own. -/
theorem pending_unique (tracks : Tracks codec history state) (here : state.pending key = some index)
    (there : state.pending other = some index) : other = key := by
  obtain ⟨request, waits⟩ := waits_of_pending tracks here
  obtain ⟨_, also⟩ := waits_of_pending tracks there
  exact waits.key_unique also

theorem pending_lt (tracks : Tracks codec history state) (pending : state.pending key = some index) :
    index < state.exchanges.length := by
  obtain ⟨_, _, found, _⟩ := waits_of_pending tracks pending
  exact (List.getElem?_eq_some_iff.1 found).1

/-! ## Steps of a pass that has lost something -/

/-- The step leaves an exchange alone that nothing pending leads to. -/
def Spares (state later : Correlation) : Prop :=
  ∀ index, index < state.exchanges.length → (∀ key, state.pending key ≠ some index) →
    later.exchanges[index]? = state.exchanges[index]? ∧ ∀ key, later.pending key ≠ some index

theorem Lost.step {later : Correlation} (lost : Lost state) (spares : Spares state later) : Lost later := by
  obtain ⟨index, exchange, found, unhealthy, unclaimed⟩ := lost
  obtain ⟨same, still⟩ := spares index (List.getElem?_eq_some_iff.1 found).1 unclaimed
  exact ⟨index, exchange, same.trans found, unhealthy, still⟩

theorem spares_append (more : List Exchange) :
    Spares state { state with exchanges := state.exchanges ++ more } :=
  fun _ inside unclaimed => ⟨List.getElem?_append_left inside, unclaimed⟩

theorem spares_modify {change : Exchange → Exchange} {pending : Table (Direction × String) Nat}
    (here : state.pending key = some index)
    (fewer : ∀ other position, pending other = some position → state.pending other = some position) :
    Spares state { state with exchanges := state.exchanges.modify index change, pending := pending } := by
  intro position inside unclaimed
  have differs : index ≠ position := fun same => unclaimed key (same ▸ here)
  exact ⟨by simp [differs], fun other claimed => unclaimed other (fewer other position claimed)⟩

theorem erase_fewer (table : Table (Direction × String) Nat) (erased other : Direction × String) (position : Nat)
    (found : table.erase erased other = some position) : table other = some position := by
  by_cases same : other = erased
  · subst same
    simp at found
  · rwa [Table.erase_other _ same] at found

theorem spares_request : Spares state (state.request direction message) := by
  intro index inside unclaimed
  refine ⟨List.getElem?_append_left inside, fun key claimed => ?_⟩
  cases named : message.rpcId with
  | none =>
    simp only [Correlation.request, named] at claimed
    exact unclaimed key claimed
  | some id =>
    simp only [Correlation.request, named] at claimed
    by_cases same : key = (direction.opposite, id)
    · subst same
      rw [Table.insert_same, Option.some.injEq] at claimed
      exact (claimed ▸ inside).false
    · exact unclaimed key (by rwa [Table.insert_other _ _ same] at claimed)

theorem spares_response : Spares state (state.response codec direction message) := by
  unfold Correlation.response
  split
  · rename_i id index found
    obtain ⟨own, -, entry⟩ := Option.bind_eq_some_iff.1 found
    obtain ⟨position, pending, same⟩ := Option.map_eq_some_iff.1 entry
    obtain ⟨rfl, rfl⟩ := Prod.mk.inj same
    exact spares_modify pending (erase_fewer state.pending (direction, own))
  · exact spares_append _

theorem spares_cancellation : Spares state (state.cancellation codec direction message) := by
  unfold Correlation.cancellation
  split
  · rename_i id index found
    obtain ⟨own, -, entry⟩ := Option.bind_eq_some_iff.1 found
    obtain ⟨position, pending, same⟩ := Option.map_eq_some_iff.1 entry
    obtain ⟨rfl, rfl⟩ := Prod.mk.inj same
    exact spares_modify pending (erase_fewer state.pending (direction.opposite, own))
  · exact fun _ _ unclaimed => ⟨rfl, unclaimed⟩

theorem spares_acknowledgement : Spares state (state.acknowledgement codec direction message) := by
  unfold Correlation.acknowledgement
  split
  · split
    · rename_i index found
      obtain ⟨id, -, pending⟩ := Option.bind_eq_some_iff.1 found
      exact spares_modify pending fun _ _ found => found
    · exact fun _ _ unclaimed => ⟨rfl, unclaimed⟩
  · exact fun _ _ unclaimed => ⟨rfl, unclaimed⟩

theorem Lost.step_message (lost : Lost state) : Lost (state.step codec message) := by
  unfold Correlation.step
  split
  · exact lost
  · split
    · exact lost.step spares_request
    · exact lost.step spares_response
    · exact (lost.step spares_cancellation).step spares_acknowledgement
    · exact lost

/-! ## Steps that lose something -/

theorem lost_opened (tracks : Tracks codec history state) (unnamed : message.rpcId = none) :
    Lost (state.request direction message) := by
  refine ⟨state.exchanges.length, Exchange.opened direction message, ?_, .inl rfl, fun key claimed => ?_⟩
  · simp [Correlation.request]
  · unfold Correlation.request at claimed
    rw [unnamed] at claimed
    exact (pending_lt tracks claimed).false

/-- A request under a key that still waits leaves the waiting exchange behind. -/
theorem lost_displaced (tracks : Tracks codec history state) {id : String} {listening : Bool}
    (held : Holds state (direction.opposite, id) (.waiting listening)) (named : message.rpcId = some id) :
    Lost (state.request direction message) := by
  obtain ⟨index, exchange, pending, found, unanswered, -⟩ := held
  have inside := pending_lt tracks pending
  refine ⟨index, exchange, ?_, .inl unanswered, fun key claimed => ?_⟩
  · exact (List.getElem?_append_left inside).trans found
  · unfold Correlation.request at claimed
    rw [named] at claimed
    dsimp only at claimed
    by_cases same : key = (direction.opposite, id)
    · subst same
      rw [Table.insert_same, Option.some.injEq] at claimed
      exact (claimed ▸ inside).false
    · rw [Table.insert_other _ _ same] at claimed
      exact same (pending_unique tracks pending claimed)

theorem lost_orphan (tracks : Tracks codec history state)
    (unmatched : ∀ id, message.rpcId = some id → state.pending (direction, id) = none) :
    Lost (state.response codec direction message) := by
  have none_ : (message.rpcId.bind fun id => (state.pending (direction, id)).map fun index => (id, index)) =
      none := by
    rw [Option.bind_eq_none_iff]
    intro id named
    rw [unmatched id named]
    rfl
  unfold Correlation.response
  rw [none_]
  exact ⟨state.exchanges.length, Exchange.orphan direction message, by simp, .inr rfl,
    fun key claimed => (pending_lt tracks claimed).false⟩

/-! ## Steps that keep everything accounted for -/

/-- The notifications do not matter. -/
theorem Mirrors.of_eq {later : Correlation} (mirrors : Mirrors phases state)
    (exchanges : later.exchanges = state.exchanges) (pending : later.pending = state.pending) :
    Mirrors phases later := by
  cases later
  cases state
  cases exchanges
  cases pending
  refine ⟨fun key => ?_, mirrors.accounted, mirrors.matched⟩
  have held := mirrors.held key
  cases phase : phases key <;> (rw [phase] at held; exact held)

/-- Where nothing is pending, the calls have come to an end. -/
theorem Mirrors.idle_of_absent (mirrors : Mirrors phases state) (absent : state.pending key = none) :
    phases key = .idle := by
  have held := mirrors.held key
  cases phase : phases key with
  | idle => rfl
  | broken => rw [phase] at held; exact held.elim
  | _ =>
    rw [phase] at held
    obtain ⟨index, exchange, pending, -⟩ := held
    rw [absent] at pending
    cases pending

theorem Holds.keep {later : Correlation} {phase : Phase} (held : Holds state key phase)
    (pending : later.pending key = state.pending key)
    (exchanges : ∀ index, state.pending key = some index →
      later.exchanges[index]? = state.exchanges[index]?) : Holds later key phase := by
  cases phase with
  | idle => exact pending.trans held
  | waiting listening =>
    obtain ⟨index, exchange, claimed, found, rest⟩ := held
    exact ⟨index, exchange, pending.trans claimed, (exchanges index claimed).trans found, rest⟩
  | listening =>
    obtain ⟨index, exchange, claimed, found, rest⟩ := held
    exact ⟨index, exchange, pending.trans claimed, (exchanges index claimed).trans found, rest⟩
  | broken => exact held

theorem mirrors_request (tracks : Tracks codec history state) (mirrors : Mirrors phases state) {id : String}
    (named : message.rpcId = some id) (settled : (phases (direction.opposite, id)).Settled) :
    Mirrors (Function.update phases (direction.opposite, id) (.waiting (listens direction message.method)))
      (state.request direction message) := by
  have pending : (state.request direction message).pending =
      state.pending.insert (direction.opposite, id) state.exchanges.length := by
    simp [Correlation.request, named]
  have exchanges : (state.request direction message).exchanges =
      state.exchanges ++ [Exchange.opened direction message] := rfl
  refine ⟨fun key => ?_, fun index exchange found unanswered => ?_, fun exchange member => ?_⟩
  · by_cases same : key = (direction.opposite, id)
    · subst same
      rw [Function.update_self]
      exact ⟨state.exchanges.length, Exchange.opened direction message, by rw [pending, Table.insert_same],
        by simp [exchanges], rfl, rfl⟩
    · rw [Function.update_of_ne same]
      refine (mirrors.held key).keep (by rw [pending, Table.insert_other _ _ same]) fun index claimed => ?_
      exact List.getElem?_append_left (pending_lt tracks claimed)
  · rw [exchanges] at found
    rw [pending]
    by_cases inside : index < state.exchanges.length
    · rw [List.getElem?_append_left inside] at found
      obtain ⟨key, claimed⟩ := mirrors.accounted index exchange found unanswered
      refine ⟨key, ?_⟩
      -- A key that is asked anew waits for nothing, so it is not the one of this exchange.
      have differs : key ≠ (direction.opposite, id) := by
        rintro rfl
        have held := mirrors.held (direction.opposite, id)
        rcases settled with idle | listening
        · rw [idle] at held
          rw [show state.pending _ = none from held] at claimed
          cases claimed
        · rw [listening] at held
          obtain ⟨position, other, also, there, subscribed⟩ := held
          obtain rfl := Option.some.inj (also.symm.trans claimed)
          obtain rfl := Option.some.inj (there.symm.trans found)
          rw [subscribed] at unanswered
          cases unanswered
      rw [Table.insert_other _ _ differs]
      exact claimed
    · have last : index = state.exchanges.length := by
        have bound := (List.getElem?_eq_some_iff.1 found).1
        rw [List.length_append, List.length_singleton] at bound
        omega
      exact ⟨(direction.opposite, id), by rw [Table.insert_same, last]⟩
  · rcases List.mem_append.1 member with earlier | last
    · exact mirrors.matched exchange earlier
    · obtain rfl := List.mem_singleton.1 last
      simp [Exchange.opened]

/-- An answer or a cancellation ends the call that is pending under its key. -/
theorem mirrors_close (tracks : Tracks codec history state) (mirrors : Mirrors phases state)
    (pending : state.pending key = some index) {change : Exchange → Exchange}
    (closes : ∀ exchange, (change exchange).status ≠ .unanswered ∧ (change exchange).status ≠ .orphanResponse) :
    Mirrors (Function.update phases key .idle)
      { state with exchanges := state.exchanges.modify index change, pending := state.pending.erase key } := by
  refine ⟨fun other => ?_, fun position exchange found unanswered => ?_, fun exchange member => ?_⟩
  · by_cases same : other = key
    · subst same
      rw [Function.update_self]
      exact Table.erase_same _ _
    · rw [Function.update_of_ne same]
      refine (mirrors.held other).keep (Table.erase_other _ same) fun position claimed => ?_
      have differs : index ≠ position := by
        rintro rfl
        exact same (pending_unique tracks pending claimed)
      simp [differs]
  · have differs : index ≠ position := by
      rintro rfl
      obtain ⟨old, -, rfl⟩ : ∃ old, state.exchanges[index]? = some old ∧ change old = exchange := by
        simpa using found
      exact (closes old).1 unanswered
    obtain ⟨other, claimed⟩ := mirrors.accounted position exchange (by simpa [differs] using found) unanswered
    have elsewhere : other ≠ key := by
      rintro rfl
      exact differs (Option.some.inj (pending.symm.trans claimed))
    exact ⟨other, (Table.erase_other _ elsewhere).trans claimed⟩
  · obtain ⟨request, old, found, -⟩ := waits_of_pending tracks pending
    rcases mem_modify found member with earlier | rfl
    · exact mirrors.matched exchange earlier
    · exact (closes old).2

theorem acknowledged_status (exchange : Exchange) : exchange.acknowledged.status =
    if listens exchange.origin exchange.method = true then .subscribed else exchange.status := by
  unfold Exchange.acknowledged listens
  split_ifs <;> simp_all

theorem mirrors_acknowledged (tracks : Tracks codec history state) (mirrors : Mirrors phases state)
    (pending : state.pending key = some index) :
    Mirrors (Function.update phases key ((phases key).next .acknowledges))
      { state with exchanges := state.exchanges.modify index Exchange.acknowledged } := by
  refine ⟨fun other => ?_, fun position exchange found unanswered => ?_, fun exchange member => ?_⟩
  · by_cases same : other = key
    · subst same
      rw [Function.update_self]
      have held := mirrors.held other
      cases phase : phases other with
      | idle =>
        rw [phase] at held
        rw [show state.pending other = none from held] at pending
        cases pending
      | waiting listening =>
        rw [phase] at held
        obtain ⟨_, exchange, claimed, found, unanswered, kind⟩ := held
        obtain rfl := Option.some.inj (pending.symm.trans claimed)
        have status := acknowledged_status exchange
        rw [kind] at status
        cases listening with
        | true => exact ⟨index, exchange.acknowledged, pending, by simp [found], status⟩
        | false =>
          refine ⟨index, exchange.acknowledged, pending, by simp [found], status.trans unanswered, ?_⟩
          have kept := (acknowledged_kept exchange).2
          rw [kept.1, kept.2.2, kind]
      | listening =>
        rw [phase] at held
        obtain ⟨_, exchange, claimed, found, subscribed⟩ := held
        obtain rfl := Option.some.inj (pending.symm.trans claimed)
        refine ⟨index, exchange.acknowledged, pending, by simp [found], ?_⟩
        rw [acknowledged_status, subscribed]
        exact ite_self _
      | broken =>
        rw [phase] at held
        exact held.elim
    · rw [Function.update_of_ne same]
      refine (mirrors.held other).keep rfl fun position claimed => ?_
      have differs : index ≠ position := by
        rintro rfl
        exact same (pending_unique tracks pending claimed)
      simp [differs]
  · by_cases same : index = position
    · exact ⟨key, same ▸ pending⟩
    · exact mirrors.accounted position exchange (by simpa [same] using found) unanswered
  · obtain ⟨request, old, found, -⟩ := waits_of_pending tracks pending
    rcases mem_modify found member with earlier | rfl
    · exact mirrors.matched exchange earlier
    · rw [acknowledged_status]
      split_ifs
      · simp
      · exact mirrors.matched old (List.mem_of_getElem? found)

/-! ## One message -/

/-- A message that touches no key and is not anonymous changes nothing. -/
theorem sound_untouched (sound : Sound codec history) (named : ¬ Anonymous message)
    (untouched : ∀ key, eventAt codec key message = none) :
    Sound codec (history ++ [message]) ∧
      phaseAfter codec (history ++ [message]) = phaseAfter codec history := by
  have same : phaseAfter codec (history ++ [message]) = phaseAfter codec history := by
    funext key
    rw [phaseAfter_concat, untouched key]
  refine ⟨⟨fun earlier member => ?_, fun key => same ▸ sound.unbroken key⟩, same⟩
  rcases List.mem_append.1 member with before | last
  · exact sound.named earlier before
  · exact List.mem_singleton.1 last ▸ named

/-- A message that touches one key moves the calls under it. -/
theorem sound_touched (sound : Sound codec history) (named : ¬ Anonymous message) {event : CallEvent}
    (touched : eventAt codec key message = some event)
    (only : ∀ other, other ≠ key → eventAt codec other message = none) :
    (Sound codec (history ++ [message]) ↔ (phaseAfter codec history key).next event ≠ .broken) ∧
      phaseAfter codec (history ++ [message]) = Function.update (phaseAfter codec history) key
        ((phaseAfter codec history key).next event) := by
  have moved : phaseAfter codec (history ++ [message]) = Function.update (phaseAfter codec history) key
      ((phaseAfter codec history key).next event) := by
    funext other
    rw [phaseAfter_concat]
    by_cases same : other = key
    · subst same
      rw [touched, Function.update_self]
    · rw [only other same, Function.update_of_ne same]
  refine ⟨⟨fun whole => ?_, fun unbroken => ⟨fun earlier member => ?_, fun other => ?_⟩⟩, moved⟩
  · have here := whole.unbroken key
    rwa [moved, Function.update_self] at here
  · rcases List.mem_append.1 member with before | last
    · exact sound.named earlier before
    · exact List.mem_singleton.1 last ▸ named
  · rw [moved]
    by_cases same : other = key
    · subst same
      rwa [Function.update_self]
    · rw [Function.update_of_ne same]
      exact sound.unbroken other

/-- The two ways a step can go. -/
def Accounts (codec : Codec) (history : List StoredMessage) (state : Correlation) : Prop :=
  Sound codec history ∧ Mirrors (phaseAfter codec history) state ∨ ¬ Sound codec history ∧ Lost state

theorem not_sound_of_anonymous (anonymous : Anonymous message) : ¬ Sound codec (history ++ [message]) :=
  fun sound => sound.named message (by simp) anonymous

variable (sound : Sound codec history) (mirrors : Mirrors (phaseAfter codec history) state)
  (tracks : Tracks codec history state) (known : Direction.fromDbStr message.direction = some direction)

include sound mirrors tracks known

theorem accounts_request (kind : message.messageKind = "request") :
    Accounts codec (history ++ [message]) (state.request direction message) := by
  cases named : message.rpcId with
  | none =>
    have anonymous : Anonymous message := ⟨by simp [known], .inl kind, named⟩
    exact .inr ⟨not_sound_of_anonymous anonymous, lost_opened tracks named⟩
  | some id =>
    have touched : eventAt codec (direction.opposite, id) message =
        some (.asks (listens direction message.method)) := by
      simp [eventAt, known, kind, named]
    have only : ∀ other, other ≠ (direction.opposite, id) → eventAt codec other message = none := by
      intro other differs
      have unmatched : ¬ (other.1 = direction.opposite ∧ message.rpcId = some other.2) := fun both =>
        differs (Prod.ext both.1 (Option.some.inj (both.2.symm.trans named)))
      simp [eventAt, known, kind, unmatched]
    obtain ⟨soundIff, moved⟩ := sound_touched sound (fun unnamed => by simp [unnamed.2.2] at named) touched only
    have held := mirrors.held (direction.opposite, id)
    cases phase : phaseAfter codec history (direction.opposite, id) with
    | waiting listening =>
      rw [phase] at held soundIff
      exact .inr ⟨fun whole => soundIff.1 whole rfl, lost_displaced tracks held named⟩
    | broken => exact absurd phase (sound.unbroken _)
    | _ =>
      rw [phase] at soundIff moved
      refine .inl ⟨soundIff.2 (by simp [Phase.next]), ?_⟩
      rw [moved]
      exact mirrors_request tracks mirrors named (by simp [phase, Phase.Settled])

theorem accounts_response (kind : message.messageKind = "response") :
    Accounts codec (history ++ [message]) (state.response codec direction message) := by
  cases named : message.rpcId with
  | none =>
    have anonymous : Anonymous message := ⟨by simp [known], .inr kind, named⟩
    exact .inr ⟨not_sound_of_anonymous anonymous, lost_orphan tracks fun id present => by simp [named] at present⟩
  | some id =>
    have touched : eventAt codec (direction, id) message = some .answers := by
      simp [eventAt, known, kind, named]
    have only : ∀ other, other ≠ (direction, id) → eventAt codec other message = none := by
      intro other differs
      have unmatched : ¬ (other.1 = direction ∧ message.rpcId = some other.2) := fun both =>
        differs (Prod.ext both.1 (Option.some.inj (both.2.symm.trans named)))
      simp [eventAt, known, kind, unmatched]
    obtain ⟨soundIff, moved⟩ := sound_touched sound (fun unnamed => by simp [unnamed.2.2] at named) touched only
    have held := mirrors.held (direction, id)
    cases phase : phaseAfter codec history (direction, id) with
    | idle =>
      rw [phase] at held soundIff
      refine .inr ⟨fun whole => soundIff.1 whole rfl, lost_orphan tracks fun other same => ?_⟩
      obtain rfl := Option.some.inj (named.symm.trans same)
      exact held
    | broken => exact absurd phase (sound.unbroken _)
    | _ =>
      rw [phase] at held soundIff moved
      refine .inl ⟨soundIff.2 (by simp [Phase.next]), ?_⟩
      obtain ⟨index, exchange, pending, -⟩ := held
      have taken : state.response codec direction message =
          { state with
            exchanges := state.exchanges.modify index fun exchange => exchange.answered codec message
            pending := state.pending.erase (direction, id) } := by
        simp [Correlation.response, named, pending]
      rw [moved, taken]
      refine mirrors_close tracks mirrors pending fun exchange => ?_
      unfold Exchange.answered
      dsimp only
      split_ifs <;> simp

theorem accounts_notification (kind : message.messageKind = "notification") :
    Accounts codec (history ++ [message]) (state.notification codec direction message) := by
  have named : ¬ Anonymous message := fun anonymous => by
    rcases anonymous.2.1 with request | response
    · exact absurd (kind.symm.trans request) (by decide)
    · exact absurd (kind.symm.trans response) (by decide)
  cases cancelled : cancelledId codec message with
  | some id =>
    -- A cancellation is no acknowledgement, so only the key it names is touched.
    have unsubscribed : subscriptionId codec message = none := by
      have method := ((cancelledId_eq_some_iff codec message id).1 cancelled).1
      simp [subscriptionId, method]
    have touched : eventAt codec (direction.opposite, id) message = some .cancels := by
      simp [eventAt, known, kind, cancelled]
    have only : ∀ other, other ≠ (direction.opposite, id) → eventAt codec other message = none := by
      intro other differs
      have unmatched : other.1 = direction.opposite → ¬ id = other.2 := fun side same =>
        differs (Prod.ext side same.symm)
      simpa [eventAt, known, kind, cancelled, unsubscribed] using unmatched
    obtain ⟨soundIff, moved⟩ := sound_touched sound named touched only
    have acknowledged : ∀ later : Correlation,
        later.acknowledgement codec direction message = later := by
      intro later
      simp [Correlation.acknowledgement, unsubscribed]
    have unbroken := sound.unbroken (direction.opposite, id)
    have ended : (phaseAfter codec history (direction.opposite, id)).next .cancels = .idle := by
      cases phase : phaseAfter codec history (direction.opposite, id) <;> simp_all [Phase.next]
    rw [ended] at soundIff moved
    refine .inl ⟨soundIff.2 (by simp), ?_⟩
    rw [moved]
    unfold Correlation.notification
    rw [acknowledged]
    cases pending : state.pending (direction.opposite, id) with
    | none =>
      have kept : state.cancellation codec direction message = state := by
        simp [Correlation.cancellation, cancelled, pending]
      rw [kept, ← mirrors.idle_of_absent pending, Function.update_eq_self]
      exact mirrors.of_eq rfl rfl
    | some index =>
      have taken : state.cancellation codec direction message =
          { state with
            exchanges := state.exchanges.modify index Exchange.cancelled
            pending := state.pending.erase (direction.opposite, id) } := by
        simp [Correlation.cancellation, cancelled, pending]
      rw [taken]
      exact (mirrors_close tracks mirrors pending fun exchange => by simp [Exchange.cancelled]).of_eq rfl rfl
  | none =>
    have uncancelled : state.cancellation codec direction message = state := by
      simp [Correlation.cancellation, cancelled]
    unfold Correlation.notification
    rw [uncancelled]
    by_cases answered : direction = .serverToClient ∧ subscriptionId codec message ≠ none
    · obtain ⟨rfl, subscribed⟩ := answered
      obtain ⟨id, subscribed⟩ := Option.ne_none_iff_exists'.1 subscribed
      have touched : eventAt codec (.serverToClient, id) message = some .acknowledges := by
        simp [eventAt, known, kind, cancelled, subscribed]
      have only : ∀ other, other ≠ (.serverToClient, id) → eventAt codec other message = none := by
        intro other differs
        have unmatched : other.1 = .serverToClient → ¬ id = other.2 := fun side same =>
          differs (Prod.ext side same.symm)
        simpa [eventAt, known, kind, cancelled, subscribed] using unmatched
      obtain ⟨soundIff, moved⟩ := sound_touched sound named touched only
      have unbroken := sound.unbroken (.serverToClient, id)
      have still : (phaseAfter codec history (.serverToClient, id)).next .acknowledges ≠ .broken := by
        cases phase : phaseAfter codec history (.serverToClient, id) with
        | waiting listening => cases listening <;> simp [Phase.next]
        | _ => simp_all [Phase.next]
      refine .inl ⟨soundIff.2 still, ?_⟩
      rw [moved]
      cases pending : state.pending (.serverToClient, id) with
      | none =>
        have kept : state.acknowledgement codec .serverToClient message = state := by
          simp [Correlation.acknowledgement, subscribed, pending]
        have idle := mirrors.idle_of_absent pending
        rw [kept, show (phaseAfter codec history (.serverToClient, id)).next .acknowledges =
          phaseAfter codec history (.serverToClient, id) by rw [idle]; rfl, Function.update_eq_self]
        exact mirrors.of_eq rfl rfl
      | some index =>
        have taken : state.acknowledgement codec .serverToClient message =
            { state with exchanges := state.exchanges.modify index Exchange.acknowledged } := by
          simp [Correlation.acknowledgement, subscribed, pending]
        rw [taken]
        exact (mirrors_acknowledged tracks mirrors pending).of_eq rfl rfl
    · have kept : state.acknowledgement codec direction message = state := by
        unfold Correlation.acknowledgement
        split_ifs with server
        · have unsubscribed : subscriptionId codec message = none := by
            by_contra subscribed
            exact answered ⟨server, subscribed⟩
          rw [unsubscribed]
          rfl
        · rfl
      have untouched : ∀ key, eventAt codec key message = none := by
        intro key
        have unmatched : ¬ (direction = .serverToClient ∧ key.1 = direction ∧
            subscriptionId codec message = some key.2) := fun all =>
          answered ⟨all.1, by simp [all.2.2]⟩
        simp only [eventAt, known, kind, cancelled, unmatched, reduceCtorEq, and_false, if_false,
          if_true, String.reduceEq]
      obtain ⟨whole, same⟩ := sound_untouched sound named untouched
      refine .inl ⟨whole, ?_⟩
      rw [same, kept]
      exact mirrors.of_eq rfl rfl

omit known

theorem accounts_step : Accounts codec (history ++ [message]) (state.step codec message) := by
  unfold Correlation.step
  cases known : Direction.fromDbStr message.direction with
  | none =>
    obtain ⟨whole, same⟩ := sound_untouched sound (fun anonymous => anonymous.1 known)
      (fun key => by simp [eventAt, known])
    exact .inl ⟨whole, same ▸ mirrors⟩
  | some direction =>
    dsimp only
    split
    · exact accounts_request sound mirrors tracks known (by assumption)
    · exact accounts_response sound mirrors tracks known (by assumption)
    · exact accounts_notification sound mirrors tracks known (by assumption)
    · rename_i noRequest noResponse noNotification
      have named : ¬ Anonymous message := fun anonymous => anonymous.2.1.elim noRequest noResponse
      obtain ⟨whole, same⟩ := sound_untouched sound named
        (fun key => by
          unfold eventAt
          rw [known]
          dsimp only
          rw [if_neg noRequest, if_neg noResponse, if_neg noNotification])
      exact .inl ⟨whole, same ▸ mirrors⟩

end

/-! ## Runs -/

theorem accounts_foldl (codec : Codec) (messages : List StoredMessage) :
    Accounts codec messages (messages.foldl (Correlation.step codec) .start) := by
  induction messages using List.reverseRecOn with
  | nil =>
    refine .inl ⟨⟨by simp, fun key => by simp [phaseAfter]⟩, fun key => rfl, ?_, ?_⟩ <;>
      simp [Correlation.start]
  | append_singleton history message ih =>
    rw [List.foldl_append]
    rcases ih with ⟨sound, mirrors⟩ | ⟨unsound, lost⟩
    · exact accounts_step sound mirrors (tracks_foldl codec history)
    · exact .inr ⟨fun sound => unsound sound.before, lost.step_message⟩

/-- A session settles exactly when nothing is lost and every key comes to rest. -/
theorem settles_iff {codec : Codec} {messages : List StoredMessage} :
    Settles codec messages ↔ (∀ message ∈ messages, ¬ Anonymous message) ∧
      ∀ key, (phaseAfter codec messages key).Settled := by
  unfold Settles
  simp only [mem_correlate]
  rcases accounts_foldl codec messages with ⟨sound, mirrors⟩ | ⟨unsound, lost⟩
  · generalize messages.foldl (Correlation.step codec) .start = state at mirrors
    constructor
    · refine fun settles => ⟨sound.named, fun key => ?_⟩
      have held := mirrors.held key
      cases phase : phaseAfter codec messages key with
      | idle => exact .inl rfl
      | listening => exact .inr rfl
      | waiting listening =>
        rw [phase] at held
        obtain ⟨index, exchange, -, found, unanswered, -⟩ := held
        exact absurd unanswered (settles exchange (List.mem_of_getElem? found)).1
      | broken =>
        rw [phase] at held
        exact held.elim
    · rintro ⟨-, settled⟩ exchange member
      refine ⟨fun unanswered => ?_, mirrors.matched exchange member⟩
      obtain ⟨index, found⟩ := List.mem_iff_getElem?.1 member
      obtain ⟨key, pending⟩ := mirrors.accounted index exchange found unanswered
      have held := mirrors.held key
      rcases settled key with idle | listening
      · rw [idle] at held
        rw [show state.pending key = none from held] at pending
        cases pending
      · rw [listening] at held
        obtain ⟨position, other, also, there, subscribed⟩ := held
        obtain rfl := Option.some.inj (also.symm.trans pending)
        obtain rfl := Option.some.inj (there.symm.trans found)
        rw [subscribed] at unanswered
        cases unanswered
  · refine iff_of_false (fun settles => ?_) fun both => ?_
    · obtain ⟨index, exchange, found, unhealthy, -⟩ := lost
      have healthy := settles exchange (List.mem_of_getElem? found)
      exact unhealthy.elim healthy.1 healthy.2
    · exact unsound ⟨both.1, fun key => (both.2 key).ne_broken⟩

end McpTracer.Model
