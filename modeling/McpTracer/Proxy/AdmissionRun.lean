import McpTracer.Proxy.AdmissionSound

/-! Recording admission over whole runs.

A recording that is to close takes in no further exchange. What has been admitted is in the log.
-/

set_option autoImplicit false

namespace McpTracer.Proxy
open McpTracer.Foundation

/-- An exchange is not admitted to a recording that was to close before. -/
def AdmissionEvent.MayPrecede (earlier later : AdmissionEvent) : Prop :=
  ∀ exchange sessionId, earlier = .closing sessionId → later ≠ .admitted exchange sessionId

/-- How a step may change the recordings, and what it says about that. -/
structure AdmissionFollows (state : HttpState) (outcome : HttpState × List AdmissionEvent) : Prop where
  next : state.nextSession ≤ outcome.1.nextSession
  /-- A recording that is to close stays so. -/
  retiring : ∀ key entry, (key, entry) ∈ outcome.1.sessions → entry.sessionId < state.nextSession →
    ∃ other old, (other, old) ∈ state.sessions ∧ old.sessionId = entry.sessionId ∧
      (old.retiring = true → entry.retiring = true)
  admitted : ∀ exchange sessionId, .admitted exchange sessionId ∈ outcome.2 → sessionId = state.nextSession ∨
    ∃ key entry, (key, entry) ∈ state.sessions ∧ entry.sessionId = sessionId ∧ entry.retiring = false
  closing : ∀ sessionId, .closing sessionId ∈ outcome.2 → sessionId < outcome.1.nextSession ∧
    ∀ key entry, (key, entry) ∈ outcome.1.sessions → entry.sessionId = sessionId → entry.retiring = true
  ordered : outcome.2.Pairwise AdmissionEvent.MayPrecede
  logged : ∀ (id : Nat) exchange sessionId, outcome.1.exchanges[id]? = some exchange →
    exchange.stage.lease = some sessionId →
    (∃ old, state.exchanges[id]? = some old ∧ old.stage.lease = some sessionId) ∨
      .admitted id sessionId ∈ outcome.2

namespace AdmissionFollows

variable {state : HttpState}

/-- The entries are the old ones, or fewer. -/
theorem quiet {after : HttpState} (next : after.nextSession = state.nextSession)
    (sessions : ∀ entry ∈ after.sessions, entry ∈ state.sessions)
    (leases : ∀ (id : Nat) exchange sessionId, after.exchanges[id]? = some exchange →
      exchange.stage.lease = some sessionId → ∃ old, state.exchanges[id]? = some old ∧
        old.stage.lease = some sessionId) : AdmissionFollows state (after, []) where
  next := next.ge
  retiring := fun key entry member _ => ⟨key, entry, sessions _ member, rfl, fun to_close => to_close⟩
  admitted := by simp
  closing := by simp
  ordered := List.Pairwise.nil
  logged := fun id exchange sessionId found leased => .inl (leases id exchange sessionId found leased)

theorem same (state : HttpState) : AdmissionFollows state (state, []) :=
  quiet rfl (fun _ member => member) fun _ exchange _ found leased => ⟨exchange, found, leased⟩

/-- What another exchange does is no lease of this one. -/
theorem leases_move {id : Nat} {exchange : HttpExchange} (found : state.exchanges[id]? = some exchange)
    {stage : ExchangeStage} {other : Nat} {moved : HttpExchange}
    (here : (state.move id stage).exchanges[other]? = some moved) :
    (other = id ∧ moved.stage = stage) ∨ state.exchanges[other]? = some moved := by
  simp only [HttpState.move, List.getElem?_modify] at here
  by_cases same : id = other
  · subst same
    rw [found, Option.map_eq_map, Option.map_some, if_pos rfl] at here
    cases here
    exact .inl ⟨rfl, rfl⟩
  · refine .inr ?_
    simpa [same] using here

theorem lease_kept {id : Nat} {exchange : HttpExchange} (found : state.exchanges[id]? = some exchange)
    {stage : ExchangeStage} (lease : ∀ sessionId, stage.lease = some sessionId →
      exchange.stage.lease = some sessionId) {other : Nat} {moved : HttpExchange} {sessionId : Nat}
    (here : (state.move id stage).exchanges[other]? = some moved) (leased : moved.stage.lease = some sessionId) :
    ∃ old, state.exchanges[other]? = some old ∧ old.stage.lease = some sessionId := by
  rcases leases_move found here with ⟨rfl, now⟩ | old
  · exact ⟨exchange, found, lease sessionId (now ▸ leased)⟩
  · exact ⟨moved, old, leased⟩

/-- An exchange moves, and the permits and the counter follow. -/
theorem move {id : Nat} {exchange : HttpExchange} (found : state.exchanges[id]? = some exchange)
    {stage : ExchangeStage} (lease : ∀ sessionId, stage.lease = some sessionId →
      exchange.stage.lease = some sessionId) (captureSlots omittedExchanges : Nat) :
    AdmissionFollows state
      ({ state with captureSlots := captureSlots, omittedExchanges := omittedExchanges }.move id stage, []) :=
  quiet rfl (fun _ member => member) fun _ _ _ here leased => lease_kept found lease here leased

theorem retire (chosen : LogicalSessionKey → SessionEntry → Bool) :
    AdmissionFollows state (state.retire chosen, []) :=
  quiet rfl (fun _ member => (List.mem_filter.1 member).1) fun _ exchange _ found leased => ⟨exchange, found, leased⟩

theorem closingEvents_mem {close : Bool} {sessionId : Nat} {event : AdmissionEvent}
    (member : event ∈ HttpState.closingEvents close sessionId) : close = true ∧ event = .closing sessionId := by
  unfold HttpState.closingEvents at member
  split at member
  case isTrue closes => exact ⟨closes, List.mem_singleton.1 member⟩
  case isFalse => cases member

theorem closingEvents_ordered (close : Bool) (sessionId : Nat) :
    (HttpState.closingEvents close sessionId).Pairwise AdmissionEvent.MayPrecede := by
  unfold HttpState.closingEvents
  split
  · exact List.pairwise_singleton _ _
  · exact List.Pairwise.nil

/-- The entry of a key changes, and may then be retired. -/
theorem amend {limits : RecordingLimits} (sound : AdmissionSound limits state) {id : Nat} {exchange : HttpExchange}
    (found : state.exchanges[id]? = some exchange) {entry : SessionEntry}
    (registered : (exchange.key, entry) ∈ state.sessions) (change : SessionEntry → SessionEntry) (close : Bool)
    (stage : ExchangeStage) (events : List AdmissionEvent) {after : HttpState}
    (kept : ∀ entry, (change entry).sessionId = entry.sessionId)
    (stays : ∀ entry, entry.retiring = true → (change entry).retiring = true)
    (closes : close = true → ∀ entry, (change entry).retiring = true)
    (next : after.nextSession = state.nextSession)
    (sessions : ∀ entry ∈ after.sessions, entry ∈ Foundation.amend exchange.key change state.sessions)
    (moved : after.exchanges = (state.move id stage).exchanges)
    (leases : (∀ sessionId, stage.lease = some sessionId → exchange.stage.lease = some sessionId) ∧ events = [] ∨
      entry.retiring = false ∧ (∀ sessionId, stage.lease = some sessionId → sessionId = entry.sessionId) ∧
        events = [.admitted id entry.sessionId]) :
    AdmissionFollows state (after, events ++ HttpState.closingEvents close entry.sessionId) where
  next := next.ge
  retiring := by
    intro key other member _
    rcases mem_amend (sessions _ member) with ⟨_, old⟩ | ⟨_, old, before, rfl⟩
    · exact ⟨key, other, old, rfl, fun to_close => to_close⟩
    · exact ⟨exchange.key, old, before, (kept old).symm, stays old⟩
  admitted := by
    intro other sessionId member
    rcases List.mem_append.1 member with member | member
    · rcases leases with ⟨_, rfl⟩ | ⟨open_, _, rfl⟩
      · cases member
      · cases List.mem_singleton.1 member
        exact .inr ⟨_, entry, registered, rfl, open_⟩
    · cases (closingEvents_mem member).2
  closing := by
    intro sessionId member
    have here : close = true ∧ sessionId = entry.sessionId := by
      rcases List.mem_append.1 member with member | member
      · rcases leases with ⟨_, rfl⟩ | ⟨_, _, rfl⟩
        · cases member
        · cases List.mem_singleton.1 member
      · obtain ⟨closed, same⟩ := closingEvents_mem member
        cases same
        exact ⟨closed, rfl⟩
    obtain ⟨closed, rfl⟩ := here
    refine ⟨next ▸ sound.session_lt registered, fun key other member same => ?_⟩
    rcases mem_amend (sessions _ member) with ⟨differs, old⟩ | ⟨_, old, _, rfl⟩
    · exact absurd (sound.same_entry old registered same).1 differs
    · exact closes closed old
  ordered := by
    refine List.pairwise_append.2 ⟨?_, closingEvents_ordered _ _, fun earlier member later also => ?_⟩
    · rcases leases with ⟨_, rfl⟩ | ⟨_, _, rfl⟩
      · exact List.Pairwise.nil
      · exact List.pairwise_singleton _ _
    · obtain ⟨-, rfl⟩ := closingEvents_mem also
      rintro _ _ _ ⟨⟩
  logged := by
    intro other now sessionId here leased
    rw [moved] at here
    rcases leases with ⟨lease, rfl⟩ | ⟨_, lease, rfl⟩
    · exact .inl (lease_kept found lease here leased)
    · rcases leases_move found here with ⟨rfl, stays_here⟩ | old
      · obtain rfl := lease sessionId (stays_here ▸ leased)
        exact .inr (by simp)
      · exact .inl ⟨now, old, leased⟩

/-! ## The steps -/

section
variable {limits : RecordingLimits} (sound : AdmissionSound limits state) {id : Nat} {exchange : HttpExchange}
  (found : state.exchanges[id]? = some exchange)
include sound found

theorem resolveSession (now : Nat) (opens : Bool) :
    AdmissionFollows state (state.resolveSession id exchange now opens) := by
  have unresolved : AdmissionFollows state (state.move id .unresolved, []) :=
    move found (by rintro _ ⟨⟩) state.captureSlots state.omittedExchanges
  unfold HttpState.resolveSession
  dsimp only
  split
  case h_1 entry registered =>
    split
    case isTrue => exact unresolved
    case isFalse open_ =>
      refine amend sound found (mem_of_lookup registered) (SessionEntry.join exchange.closeAfterExchange)
        exchange.closeAfterExchange (.leased entry.sessionId) [.admitted id entry.sessionId] (fun _ => rfl) ?_ ?_ rfl (fun _ member => member) rfl
        (.inr ⟨by simpa using open_, ?_, rfl⟩)
      · intro entry to_close
        simp [SessionEntry.join, to_close]
      · intro closes entry
        simp [SessionEntry.join, closes]
      · rintro _ ⟨⟩
        rfl
  case h_2 fresh =>
    split
    case isTrue => exact unresolved
    case isFalse =>
      split
      case isFalse => exact unresolved
      case isTrue =>
        -- Only the new entry has the new number.
        refine ⟨Nat.le_succ _, ?_, ?_, ?_, ?_, ?_⟩
        · intro key entry member old
          rcases List.mem_cons.1 member with same | before
          · obtain ⟨-, rfl⟩ := Prod.mk.inj same
            exact absurd old (Nat.lt_irrefl _)
          · exact ⟨key, entry, before, rfl, fun to_close => to_close⟩
        · intro other sessionId member
          rcases List.mem_cons.1 member with same | member
          · cases same
            exact .inl rfl
          · cases (closingEvents_mem member).2
        · intro sessionId member
          rcases List.mem_cons.1 member with same | member
          · cases same
          · obtain ⟨closes, same⟩ := closingEvents_mem member
            cases same
            refine ⟨Nat.lt_succ_self _, fun key entry member same => ?_⟩
            rcases List.mem_cons.1 member with new | before
            · obtain ⟨-, rfl⟩ := Prod.mk.inj new
              exact closes
            · exact absurd same (sound.session_lt before).ne
        · refine List.pairwise_cons.2 ⟨fun later member => ?_, closingEvents_ordered _ _⟩
          rintro _ _ ⟨⟩
        · intro other moved sessionId here leased
          rcases leases_move found here with ⟨rfl, now⟩ | old
          · rw [now] at leased
            cases leased
            exact .inr List.mem_cons_self
          · exact .inl ⟨moved, old, leased⟩

theorem tellRefused : AdmissionFollows state (state.tellRefused id exchange) := by
  unfold HttpState.tellRefused
  dsimp only
  split
  case h_1 => exact move found (by rintro _ ⟨⟩) state.captureSlots state.omittedExchanges
  case h_2 entry registered =>
    refine amend sound found (mem_of_lookup registered) (SessionEntry.miss exchange.closeAfterExchange)
      exchange.closeAfterExchange .forwarded [] (fun _ => rfl) ?_ ?_ rfl (fun _ member => (List.mem_filter.1 member).1) rfl
      (.inl ⟨by rintro _ ⟨⟩, rfl⟩)
    · intro entry to_close
      simp [SessionEntry.miss, to_close]
    · intro closes entry
      simp [SessionEntry.miss, closes]

theorem releaseExchange (now : Nat) : AdmissionFollows state (state.releaseExchange id exchange now, []) := by
  unfold HttpState.releaseExchange
  split
  case h_1 => exact move found (by rintro _ ⟨⟩) state.captureSlots state.omittedExchanges
  case h_2 entry registered =>
    refine amend sound found (mem_of_lookup registered) (SessionEntry.leave exchange.closeAfterExchange now) false
      (.cleaning _) [] (fun _ => rfl) ?_ (by simp) rfl (fun _ member => (List.mem_filter.1 member).1) rfl
      (.inl ⟨by rintro _ ⟨⟩, rfl⟩)
    intro entry to_close
    simp [SessionEntry.leave, to_close]

theorem advance (step : AdmissionStep) : AdmissionFollows state (state.advance limits id exchange step) := by
  cases step with
  | takePermit =>
    rw [HttpState.advance]
    split
    case isFalse => exact same state
    case isTrue =>
      split
      · exact move found (by rintro _ ⟨⟩) state.captureSlots state.omittedExchanges
      · exact move found (by rintro _ ⟨⟩) (state.captureSlots - 1) state.omittedExchanges
  | takeIdle _ now =>
    rw [HttpState.advance]
    split
    case isFalse => exact same state
    case isTrue =>
      refine quiet rfl (fun entry member => (List.mem_filter.1 member).1) fun _ _ _ here leased => ?_
      exact lease_kept found (by rintro _ ⟨⟩) here leased
  | resolve _ now opens =>
    rw [HttpState.advance]
    split
    case isFalse => exact same state
    case isTrue => exact resolveSession sound found now opens
  | returnRefusedPermit =>
    rw [HttpState.advance]
    split
    case isFalse => exact same state
    case isTrue => exact move found (by rintro _ ⟨⟩) (state.captureSlots + 1) state.omittedExchanges
  | countOmitted =>
    rw [HttpState.advance]
    split
    case isFalse => exact same state
    case isTrue => exact move found (by rintro _ ⟨⟩) state.captureSlots (state.omittedExchanges + 1)
  | tellRefused =>
    rw [HttpState.advance]
    split
    case isFalse => exact same state
    case isTrue => exact tellRefused sound found
  | dropLease =>
    rw [HttpState.advance]
    split
    case h_1 sessionId stage =>
      refine move found ?_ state.captureSlots state.omittedExchanges
      rw [stage]
      exact fun _ leased => leased
    case h_2 => exact same state
  | release _ now =>
    rw [HttpState.advance]
    split
    case h_1 => exact releaseExchange sound found now
    case h_2 => exact same state
  | returnPermit =>
    rw [HttpState.advance]
    split
    case h_1 =>
      split
      · exact move found (by rintro _ ⟨⟩) (state.captureSlots + 1) state.omittedExchanges
      · exact same state
    case h_2 => exact same state
  | _ => exact same state

end

theorem arrive (limits : RecordingLimits) (head : RequestHead) :
    AdmissionFollows state (state.arrive limits head, []) := by
  obtain ⟨counter, key, shape⟩ := @AdmissionSound.arrive_eq limits state head
  rw [shape]
  refine quiet rfl (fun _ member => member) fun id exchange sessionId found leased => ?_
  rw [List.getElem?_append] at found
  split at found
  case isTrue => exact ⟨exchange, found, leased⟩
  case isFalse =>
    obtain rfl := List.mem_singleton.1 (List.mem_of_getElem? found)
    cases leased

theorem perform {limits : RecordingLimits} (sound : AdmissionSound limits state) (step : AdmissionStep) :
    AdmissionFollows state (state.perform limits step) := by
  unfold HttpState.perform
  split
  case h_1 head => exact arrive limits head
  case h_2 now => exact retire _
  case h_3 sessionId succeeds =>
    unfold HttpState.finalizeSessionEntry
    split
    · exact quiet rfl (fun _ member => member) fun _ exchange _ found leased => ⟨exchange, found, leased⟩
    · exact same state
  case h_4 =>
    split
    · exact quiet rfl (fun _ member => member) fun _ exchange _ found leased => ⟨exchange, found, leased⟩
    · exact same state
  case h_5 =>
    split
    · exact retire _
    · exact same state
  case h_6 =>
    split
    case h_1 id exchange moved =>
      obtain ⟨_, -, here⟩ := Option.bind_eq_some_iff.1 moved
      obtain ⟨_, found, same⟩ := Option.map_eq_some_iff.1 here
      cases same
      exact advance sound found _
    case h_2 => exact same state

end AdmissionFollows

/-! ## The runs -/

/-- What the log says of the state it leads to. -/
structure AdmissionLogged (log : List AdmissionEvent) (state : HttpState) : Prop where
  closing : ∀ sessionId, .closing sessionId ∈ log → sessionId < state.nextSession ∧
    ∀ key entry, (key, entry) ∈ state.sessions → entry.sessionId = sessionId → entry.retiring = true
  ordered : log.Pairwise AdmissionEvent.MayPrecede
  leases : ∀ (id : Nat) exchange sessionId, state.exchanges[id]? = some exchange →
    exchange.stage.lease = some sessionId → .admitted id sessionId ∈ log

theorem AdmissionLogged.step {log : List AdmissionEvent} {state : HttpState} (logged : AdmissionLogged log state)
    {outcome : HttpState × List AdmissionEvent} (follows : AdmissionFollows state outcome) :
    AdmissionLogged (log ++ outcome.2) outcome.1 where
  closing := by
    intro sessionId member
    rcases List.mem_append.1 member with earlier | now
    · obtain ⟨below, to_close⟩ := logged.closing sessionId earlier
      refine ⟨below.trans_le follows.next, fun key entry member same => ?_⟩
      obtain ⟨other, old, before, number, stays⟩ := follows.retiring key entry member (same ▸ below)
      exact stays (to_close other old before (number.trans same))
    · exact follows.closing sessionId now
  ordered := by
    refine List.pairwise_append.2 ⟨logged.ordered, follows.ordered, fun earlier before later now => ?_⟩
    rintro exchange sessionId rfl rfl
    obtain ⟨below, to_close⟩ := logged.closing sessionId before
    rcases follows.admitted exchange sessionId now with fresh | ⟨key, entry, member, same, still_open⟩
    · exact absurd fresh below.ne
    · rw [to_close key entry member same] at still_open
      cases still_open
  leases := by
    intro id exchange sessionId found leased
    rcases follows.logged id exchange sessionId found leased with ⟨old, before, was⟩ | now
    · exact List.mem_append_left _ (logged.leases id old sessionId before was)
    · exact List.mem_append_right _ now

theorem run_sound {limits : RecordingLimits} {state : HttpState} {log : List AdmissionEvent}
    (sound : AdmissionSound limits state) (logged : AdmissionLogged log state) (steps : List AdmissionStep) :
    AdmissionSound limits (feed (HttpState.perform limits) state steps).1 ∧
      AdmissionLogged (log ++ (feed (HttpState.perform limits) state steps).2)
        (feed (HttpState.perform limits) state steps).1 := by
  induction steps generalizing state log with
  | nil => exact ⟨sound, by rwa [feed, List.append_nil]⟩
  | cons step rest ih =>
    have others := ih (sound.perform step) (logged.step (.perform sound step))
    rw [List.append_assoc] at others
    exact others

/-- From the start of a recording. -/
theorem run_start (limits : RecordingLimits) (steps : List AdmissionStep) :
    AdmissionSound limits (HttpState.run limits steps).1 ∧
      AdmissionLogged (HttpState.run limits steps).2 (HttpState.run limits steps).1 := by
  have logged : AdmissionLogged [] (.start limits) := ⟨by simp, List.Pairwise.nil, by simp [HttpState.start]⟩
  exact run_sound .start logged steps

namespace HttpState

/-- Admitted exchanges that have not given their permit back. -/
def admittedCount (state : HttpState) : Nat :=
  state.exchanges.countP fun exchange =>
    match exchange.stage with
    | .leased _ | .releasing _ | .cleaning _ => true
    | _ => false

def liveSessions (state : HttpState) : List Nat := state.sessions.map fun entry => entry.2.sessionId

/-- What has left the registry, whether it has been finalized yet or not. -/
def removedSessions (state : HttpState) : List Nat :=
  state.finalizing.map SessionEntry.sessionId ++ state.finalized

end HttpState

theorem AdmissionSound.admitted_le {limits : RecordingLimits} {state : HttpState}
    (sound : AdmissionSound limits state) : state.admittedCount ≤ limits.maxCaptureExchanges := by
  have captures := sound.captures
  have fewer : state.admittedCount ≤ state.exchanges.countP HttpExchange.holdsPermit := by
    refine List.countP_mono_left fun exchange _ admitted => ?_
    rw [HttpExchange.holdsPermit]
    split at admitted
    case h_4 => cases admitted
    all_goals simp_all [ExchangeStage.holdsPermit]
  omega

/-- Nobody has a lease of what has been removed. -/
theorem AdmissionSound.unleased {limits : RecordingLimits} {state : HttpState} (sound : AdmissionSound limits state)
    {sessionId : Nat} (removed : sessionId ∈ state.removedSessions) : state.leaseCount sessionId = 0 := by
  refine List.countP_eq_zero.2 fun exchange member leased => ?_
  obtain ⟨entry, registered, rfl⟩ := sound.live exchange member sessionId (of_decide_eq_true leased)
  have unique := sound.accounted.nodup_iff.2 List.nodup_range
  exact (List.nodup_append.1 unique).2.2 entry.sessionId (List.mem_map.2 ⟨_, registered, rfl⟩) _ removed rfl

/-- Recording admission, after any steps in any order. -/
theorem admission_sound (limits : RecordingLimits) (steps : List AdmissionStep) :
    let state := (HttpState.run limits steps).1
    let log := (HttpState.run limits steps).2
    (state.sessions.map Prod.fst).Nodup ∧
    (∀ key entry, (key, entry) ∈ state.sessions → entry.activeExchanges = state.leaseCount entry.sessionId) ∧
    (state.liveSessions ++ state.removedSessions).Perm (List.range state.nextSession) ∧
    (∀ sessionId ∈ state.removedSessions, state.leaseCount sessionId = 0) ∧
    state.sessions.length + state.finalizing.length ≤ limits.maxRecordingSessions ∧
    state.admittedCount ≤ limits.maxCaptureExchanges ∧
    (∀ (id : Nat) exchange sessionId, state.exchanges[id]? = some exchange →
      exchange.stage.lease = some sessionId → .admitted id sessionId ∈ log) ∧
    log.Pairwise AdmissionEvent.MayPrecede ∧
    state.omittedExchanges = state.exchanges.countP HttpExchange.isOmitted := by
  intro state log
  obtain ⟨sound, logged⟩ := run_start limits steps
  have writers : state.writerSlots + (state.sessions.length + state.finalizing.length) =
    limits.maxRecordingSessions := sound.writers
  exact ⟨sound.oneEntry, sound.active, sound.accounted, fun _ removed => sound.unleased removed,
    by omega, sound.admitted_le, logged.leases, logged.ordered, sound.omitted⟩

/-- A refused deletion retires the recording that still is in use; the key then opens another one. -/
example :
    let call : RequestHead := ⟨some "same", none, false⟩
    let outcome := HttpState.run ⟨1, 1, 300, false⟩ [.arrive call, .takePermit 0, .takeIdle 0 0, .resolve 0 0 true,
      .arrive { call with isDelete := true }, .takePermit 1, .countOmitted 1, .tellRefused 1, .dropLease 0, .release 0 5,
      .finalize 0 true, .returnPermit 0, .arrive call, .takePermit 2, .takeIdle 2 6, .resolve 2 6 true]
    outcome.1.omittedExchanges = 1 ∧ outcome.1.finalized = [0] ∧ outcome.1.liveSessions = [1] := by decide

end McpTracer.Proxy
