import McpTracer.Foundation.Pointwise
import McpTracer.Foundation.Reorder
import McpTracer.Proxy.Admission

/-! What holds of recording admission whatever the order of the steps.

An entry counts the leases of its recording, so that what has no active exchange can be retired. Each
permit is either free or held by one exchange or one writer.
-/

set_option autoImplicit false

namespace McpTracer.Proxy
open McpTracer.Foundation

namespace ExchangeStage

/-- The recording that the exchange holds a lease of. -/
def lease : ExchangeStage → Option Nat
  | .leased sessionId | .releasing sessionId => some sessionId
  | _ => none

def holdsPermit : ExchangeStage → Bool
  | .permitted | .resolving | .unresolved | .leased _ | .releasing _ | .cleaning _ => true
  | _ => false

/-- The exchange was not admitted and has been counted. -/
def isOmitted : ExchangeStage → Bool
  | .counted | .forwarded => true
  | _ => false

end ExchangeStage

namespace HttpExchange

def leases (sessionId : Nat) (exchange : HttpExchange) : Bool := exchange.stage.lease = some sessionId

def holdsPermit (exchange : HttpExchange) : Bool := exchange.stage.holdsPermit

def isOmitted (exchange : HttpExchange) : Bool := exchange.stage.isOmitted

end HttpExchange

/-- The leases of a recording that are held or being released. -/
def HttpState.leaseCount (state : HttpState) (sessionId : Nat) : Nat :=
  state.exchanges.countP (HttpExchange.leases sessionId)

structure AdmissionSound (limits : RecordingLimits) (state : HttpState) : Prop where
  /-- A key has at most one entry. -/
  oneEntry : (state.sessions.map Prod.fst).Nodup
  active : ∀ key entry, (key, entry) ∈ state.sessions → entry.activeExchanges = state.leaseCount entry.sessionId
  /-- A recording of which there is a lease is in the registry, under the key of the lease. -/
  live : ∀ exchange ∈ state.exchanges, ∀ sessionId, exchange.stage.lease = some sessionId →
    ∃ entry, (exchange.key, entry) ∈ state.sessions ∧ entry.sessionId = sessionId
  /-- Each recording is in the registry, or being finalized, or finalized, and that once. -/
  accounted : (state.sessions.map (fun entry => entry.2.sessionId) ++
    (state.finalizing.map SessionEntry.sessionId ++ state.finalized)).Perm (List.range state.nextSession)
  writers : state.writerSlots + (state.sessions.length + state.finalizing.length) = limits.maxRecordingSessions
  captures : state.captureSlots + state.exchanges.countP HttpExchange.holdsPermit +
    (if state.stopping then limits.maxCaptureExchanges else 0) = limits.maxCaptureExchanges
  omitted : state.omittedExchanges = state.exchanges.countP HttpExchange.isOmitted

namespace AdmissionSound

variable {limits : RecordingLimits} {state : HttpState}

theorem start : AdmissionSound limits (.start limits) where
  oneEntry := List.nodup_nil
  active := by simp [HttpState.start]
  live := by simp [HttpState.start]
  accounted := by simp [HttpState.start]
  writers := by simp [HttpState.start]
  captures := by simp [HttpState.start]
  omitted := rfl

theorem sessions_unique (sound : AdmissionSound limits state) :
    (state.sessions.map fun entry => entry.2.sessionId).Nodup :=
  (List.nodup_append.1 (sound.accounted.nodup_iff.2 List.nodup_range)).1

theorem session_lt (sound : AdmissionSound limits state) {key : LogicalSessionKey} {entry : SessionEntry}
    (member : (key, entry) ∈ state.sessions) : entry.sessionId < state.nextSession := by
  refine List.mem_range.1 (sound.accounted.mem_iff.1 (List.mem_append_left _ ?_))
  exact List.mem_map.2 ⟨(key, entry), member, rfl⟩

/-- Entries of one recording are one entry. -/
theorem same_entry (sound : AdmissionSound limits state) {key other : LogicalSessionKey}
    {entry second : SessionEntry} (member : (key, entry) ∈ state.sessions) (also : (other, second) ∈ state.sessions)
    (same : entry.sessionId = second.sessionId) : key = other ∧ entry = second :=
  Prod.mk.inj (List.inj_on_of_nodup_map sound.sessions_unique member also same)

/-! ## The parts of a step -/

/-- What nobody is active in may be retired. -/
theorem retire (sound : AdmissionSound limits state) {chosen : LogicalSessionKey → SessionEntry → Bool}
    (idle : ∀ key entry, (key, entry) ∈ state.sessions → chosen key entry = true → entry.activeExchanges = 0) :
    AdmissionSound limits (state.retire chosen) where
  oneEntry := sound.oneEntry.sublist (List.filter_sublist.map _)
  active := fun key entry member => sound.active key entry (List.mem_filter.1 member).1
  live := by
    intro exchange member sessionId leased
    obtain ⟨entry, registered, same⟩ := sound.live exchange member sessionId leased
    refine ⟨entry, List.mem_filter.2 ⟨registered, ?_⟩, same⟩
    -- The lease counts, so that the entry is not idle.
    have counted : 0 < state.leaseCount entry.sessionId :=
      List.countP_pos_iff.2 ⟨exchange, member, by simp [HttpExchange.leases, leased, same]⟩
    by_contra taken
    have nobody := idle exchange.key entry registered (by simpa using taken)
    rw [sound.active exchange.key entry registered] at nobody
    omega
  accounted := by
    refine List.Perm.trans ?_ sound.accounted
    simp only [HttpState.retire, List.map_append, List.append_assoc, List.map_map]
    have split := (List.filter_append_perm (fun entry : LogicalSessionKey × SessionEntry =>
      !chosen entry.1 entry.2) state.sessions).map fun entry => entry.2.sessionId
    simp only [Bool.not_not, List.map_append] at split
    refine List.Perm.trans ?_ (split.append_right _)
    rw [List.append_assoc]
    refine List.Perm.append_left _ ?_
    rw [← List.append_assoc, ← List.append_assoc]
    exact List.perm_append_comm.append_right _
  writers := by
    have split := (List.filter_append_perm (fun entry : LogicalSessionKey × SessionEntry =>
      !chosen entry.1 entry.2) state.sessions).length_eq
    have writers := sound.writers
    simp only [Bool.not_not, List.length_append] at split
    simp only [HttpState.retire, List.length_append, List.length_map]
    omega
  captures := sound.captures
  omitted := sound.omitted

theorem takeIdleSessions (sound : AdmissionSound limits state) (now : Nat) :
    AdmissionSound limits (state.takeIdleSessions limits now) :=
  sound.retire fun key entry _ chosen => by
    simp only [Bool.and_eq_true, decide_eq_true_eq] at chosen
    exact chosen.1

theorem settle (sound : AdmissionSound limits state) (key : LogicalSessionKey) :
    AdmissionSound limits (state.settle key) :=
  sound.retire fun other entry _ chosen => by
    simp only [Bool.and_eq_true, decide_eq_true_eq] at chosen
    exact chosen.2.2

section
variable {id : Nat} {exchange : HttpExchange} (found : state.exchanges[id]? = some exchange) (stage : ExchangeStage)
include found

theorem leaseCount_move (sessionId : Nat) :
    (state.move id stage).leaseCount sessionId + (decide (exchange.stage.lease = some sessionId)).toNat =
      state.leaseCount sessionId + (decide (stage.lease = some sessionId)).toNat :=
  countP_modify found

theorem permits_move : (state.move id stage).exchanges.countP HttpExchange.holdsPermit +
    exchange.stage.holdsPermit.toNat =
      state.exchanges.countP HttpExchange.holdsPermit + stage.holdsPermit.toNat := countP_modify found

theorem omitted_move : (state.move id stage).exchanges.countP HttpExchange.isOmitted +
    exchange.stage.isOmitted.toNat = state.exchanges.countP HttpExchange.isOmitted + stage.isOmitted.toNat :=
  countP_modify found

theorem mem_move {other : HttpExchange} (member : other ∈ (state.move id stage).exchanges) :
    other ∈ state.exchanges ∨ (other.key = exchange.key ∧ other.stage = stage) := by
  rcases mem_modify found member with before | rfl
  · exact .inl before
  · exact .inr ⟨rfl, rfl⟩

end

/-- The exchange goes on without getting or losing a lease. -/
theorem move (sound : AdmissionSound limits state) {id : Nat} {exchange : HttpExchange}
    (found : state.exchanges[id]? = some exchange) {stage : ExchangeStage} (same : stage.lease = exchange.stage.lease)
    {captureSlots omittedExchanges : Nat}
    (permit : captureSlots + stage.holdsPermit.toNat = state.captureSlots + exchange.stage.holdsPermit.toNat)
    (count : omittedExchanges + exchange.stage.isOmitted.toNat =
      state.omittedExchanges + stage.isOmitted.toNat) :
    AdmissionSound limits
      ({ state with captureSlots := captureSlots, omittedExchanges := omittedExchanges }.move id stage) where
  oneEntry := sound.oneEntry
  active := by
    intro key entry member
    have counted := leaseCount_move found stage entry.sessionId
    rw [same] at counted
    exact (sound.active key entry member).trans (Nat.add_right_cancel counted).symm
  live := by
    intro other member sessionId leased
    rcases mem_move found stage member with before | ⟨key, here⟩
    · exact sound.live other before sessionId leased
    · rw [here, same] at leased
      rw [key]
      exact sound.live exchange (List.mem_of_getElem? found) sessionId leased
  accounted := sound.accounted
  writers := sound.writers
  captures := by
    have permits := permits_move found stage
    have captures := sound.captures
    show captureSlots + (state.move id stage).exchanges.countP HttpExchange.holdsPermit +
      (if state.stopping then limits.maxCaptureExchanges else 0) = limits.maxCaptureExchanges
    omega
  omitted := by
    have counted := omitted_move found stage
    have omitted := sound.omitted
    show omittedExchanges = (state.move id stage).exchanges.countP HttpExchange.isOmitted
    omega

/-- The exchange goes on and the entry of its key follows. -/
theorem change (sound : AdmissionSound limits state) {id : Nat} {exchange : HttpExchange}
    (found : state.exchanges[id]? = some exchange) {entry : SessionEntry}
    (registered : state.sessions.lookup exchange.key = some entry) (change : SessionEntry → SessionEntry)
    (kept : ∀ entry, (change entry).sessionId = entry.sessionId) {stage : ExchangeStage}
    (before : ∀ sessionId, exchange.stage.lease = some sessionId → sessionId = entry.sessionId)
    (after : ∀ sessionId, stage.lease = some sessionId → sessionId = entry.sessionId)
    (count : (change entry).activeExchanges + exchange.stage.lease.isSome.toNat =
      entry.activeExchanges + stage.lease.isSome.toNat)
    (permit : stage.holdsPermit = exchange.stage.holdsPermit)
    (omission : stage.isOmitted = exchange.stage.isOmitted) :
    AdmissionSound limits ((state.amendEntry exchange.key change).move id stage) := by
  have member := mem_of_lookup registered
  have ids : (amend exchange.key change state.sessions).map (fun entry => entry.2.sessionId) =
      state.sessions.map fun entry => entry.2.sessionId := map_amend_kept fun value => kept value
  have here : ∀ stage : ExchangeStage, (∀ sessionId, stage.lease = some sessionId → sessionId = entry.sessionId) →
      decide (stage.lease = some entry.sessionId) = stage.lease.isSome := by
    intro stage only
    cases lease : stage.lease with
    | none => simp
    | some sessionId => simp [only sessionId lease]
  refine ⟨?_, ?_, ?_, ?_, ?_, ?_, ?_⟩
  · exact (congrArg List.Nodup keys_amend).mpr sound.oneEntry
  · intro key other amended
    have counted := leaseCount_move found stage other.sessionId
    show other.activeExchanges = (state.move id stage).leaseCount other.sessionId
    rcases mem_amend amended with ⟨differs, same⟩ | ⟨rfl, old, same, rfl⟩
    · -- The leases that come and go are of another recording.
      have distinct : other.sessionId ≠ entry.sessionId := fun equal =>
        differs (sound.same_entry same member equal).1
      have not_before : exchange.stage.lease ≠ some other.sessionId := fun leased => distinct (before _ leased)
      have not_after : stage.lease ≠ some other.sessionId := fun leased => distinct (after _ leased)
      simp only [not_before, not_after, decide_false, Bool.toNat_false, Nat.add_zero] at counted
      rw [counted]
      exact sound.active key other same
    · obtain rfl := entry_unique sound.oneEntry member same
      rw [kept, here _ before, here _ after] at counted
      have active := sound.active _ entry member
      rw [kept]
      omega
  · intro other moved sessionId leased
    rcases mem_move found stage moved with old | ⟨key, now⟩
    · obtain ⟨holder, held, same⟩ := sound.live other old sessionId leased
      by_cases hit : other.key = exchange.key
      · refine ⟨change holder, ?_, (kept holder).trans same⟩
        rw [hit] at held ⊢
        exact mem_amend_same held
      · exact ⟨holder, mem_amend_other hit held, same⟩
    · rw [now] at leased
      rw [key]
      exact ⟨change entry, mem_amend_same member, (kept entry).trans (after sessionId leased).symm⟩
  · show (List.map _ (amend exchange.key change state.sessions) ++ _).Perm _
    rw [ids]
    exact sound.accounted
  · show state.writerSlots + ((amend exchange.key change state.sessions).length + _) = _
    rw [length_amend]
    exact sound.writers
  · have permits := permits_move found stage
    rw [permit] at permits
    have captures := sound.captures
    rw [← Nat.add_right_cancel permits] at captures
    exact captures
  · have omitted := omitted_move found stage
    rw [omission] at omitted
    exact sound.omitted.trans (Nat.add_right_cancel omitted).symm

/-- The exchange opens a recording. -/
theorem openSession (sound : AdmissionSound limits state) {id : Nat} {exchange : HttpExchange}
    (found : state.exchanges[id]? = some exchange) (fresh : state.sessions.lookup exchange.key = none)
    (stage : exchange.stage = .resolving) (slot : state.writerSlots ≠ 0) {entry : SessionEntry}
    (number : entry.sessionId = state.nextSession) (one : entry.activeExchanges = 1) :
    AdmissionSound limits (({ state with
      sessions := (exchange.key, entry) :: state.sessions
      nextSession := state.nextSession + 1
      writerSlots := state.writerSlots - 1 }).move id (.leased state.nextSession)) := by
  have leases := leaseCount_move found (.leased state.nextSession)
  simp only [stage, ExchangeStage.lease, reduceCtorEq, decide_false, Bool.toNat_false, Nat.add_zero,
    Option.some.injEq] at leases
  refine ⟨?_, ?_, ?_, ?_, ?_, ?_, ?_⟩
  · refine List.nodup_cons.2 ⟨fun bound => ?_, sound.oneEntry⟩
    have isSome := (lookup_isSome_iff state.sessions exchange.key).2 bound
    rw [fresh] at isSome
    cases isSome
  · intro key other member
    show other.activeExchanges = (state.move id (.leased state.nextSession)).leaseCount other.sessionId
    rw [leases]
    rcases List.mem_cons.1 member with same | old
    · obtain ⟨-, rfl⟩ := Prod.mk.inj same
      -- Nobody can have had a lease of it.
      have none : state.leaseCount other.sessionId = 0 := by
        refine List.countP_eq_zero.2 fun holder held leased => ?_
        obtain ⟨registered, live, same⟩ := sound.live holder held _ (of_decide_eq_true leased)
        have below := sound.session_lt live
        omega
      rw [none, one, number]
      simp
    · have below := sound.session_lt old
      have other_number : ¬ state.nextSession = other.sessionId := by omega
      rw [decide_eq_false other_number]
      exact sound.active key other old
  · intro other member sessionId leased
    rcases mem_move found _ member with old | ⟨key, now⟩
    · obtain ⟨registered, live, same⟩ := sound.live other old sessionId leased
      exact ⟨registered, List.mem_cons_of_mem _ live, same⟩
    · rw [now] at leased
      rw [key]
      exact ⟨entry, List.mem_cons_self, number.trans (Option.some.inj leased)⟩
  · show (entry.sessionId :: (state.sessions.map _ ++ _)).Perm (List.range (state.nextSession + 1))
    rw [number, List.range_succ]
    exact (sound.accounted.cons _).trans (List.perm_append_singleton _ _).symm
  · have writers := sound.writers
    show state.writerSlots - 1 + (state.sessions.length + 1 + state.finalizing.length) = limits.maxRecordingSessions
    omega
  · have permits := permits_move found (.leased state.nextSession)
    rw [stage] at permits
    have captures := sound.captures
    rw [← Nat.add_right_cancel permits] at captures
    exact captures
  · have omitted := omitted_move found (.leased state.nextSession)
    rw [stage] at omitted
    exact sound.omitted.trans (Nat.add_right_cancel omitted).symm

theorem finalizeSessionEntry (sound : AdmissionSound limits state) (sessionId : Nat) (succeeds : Bool) :
    AdmissionSound limits (state.finalizeSessionEntry sessionId succeeds) := by
  rw [HttpState.finalizeSessionEntry]
  split
  case isFalse => exact sound
  case isTrue member =>
    have unique : (state.finalizing.map SessionEntry.sessionId).Nodup := by
      have all := sound.accounted.nodup_iff.2 List.nodup_range
      exact (List.nodup_append.1 (List.nodup_append.1 all).2.1).1
    obtain ⟨entry, finalizing, rfl⟩ := List.mem_map.1 member
    have out := perm_cons_filter_ne unique finalizing
    refine ⟨sound.oneEntry, sound.active, sound.live, ?_, ?_, sound.captures, sound.omitted⟩
    · refine List.Perm.trans (List.Perm.append_left _ ?_) sound.accounted
      have moved := (out.map SessionEntry.sessionId).append_right state.finalized
      refine List.Perm.trans ?_ moved.symm
      rw [← List.append_assoc]
      exact (List.perm_append_singleton _ _).trans (List.Perm.refl _)
    · have length := out.length_eq
      have writers := sound.writers
      simp only [List.length_cons] at length
      show state.writerSlots + 1 + (state.sessions.length +
        (state.finalizing.filter fun other => other.sessionId ≠ entry.sessionId).length) = limits.maxRecordingSessions
      omega

theorem arrive_eq (state : HttpState) (head : RequestHead) : ∃ counter key, state.arrive limits head =
    { state with
      provisionalCounter := counter
      exchanges := state.exchanges ++ [⟨key, HttpState.closesAfter head key, .arriving⟩] } := by
  unfold HttpState.arrive HttpState.sessionKeyForRequest
  split
  · exact ⟨_, _, rfl⟩
  · split
    · exact ⟨_, _, rfl⟩
    · exact ⟨_, _, rfl⟩

theorem arrive (sound : AdmissionSound limits state) (head : RequestHead) :
    AdmissionSound limits (state.arrive limits head) := by
  obtain ⟨counter, key, same⟩ := @arrive_eq limits state head
  rw [same]
  refine ⟨sound.oneEntry, fun other entry member => ?_, fun exchange member sessionId leased => ?_, sound.accounted,
    sound.writers, ?_, ?_⟩
  · rw [sound.active other entry member, HttpState.leaseCount, HttpState.leaseCount, List.countP_append]
    rfl
  · rcases List.mem_append.1 member with old | new
    · exact sound.live exchange old sessionId leased
    · obtain rfl := List.mem_singleton.1 new
      cases leased
  · rw [List.countP_append]
    exact sound.captures
  · rw [List.countP_append]
    exact sound.omitted

theorem takeCapturePermits (sound : AdmissionSound limits state)
    (free : state.captureSlots = limits.maxCaptureExchanges) :
    AdmissionSound limits { state with captureSlots := 0, stopping := true } := by
  refine ⟨sound.oneEntry, sound.active, sound.live, sound.accounted, sound.writers, ?_, sound.omitted⟩
  have captures := sound.captures
  show 0 + state.exchanges.countP HttpExchange.holdsPermit + limits.maxCaptureExchanges = limits.maxCaptureExchanges
  omega

/-- While the shutdown holds the permits, nobody is active. -/
theorem closeAll (sound : AdmissionSound limits state) (stopping : state.stopping = true) :
    AdmissionSound limits (state.retire fun _ _ => true) := by
  refine sound.retire fun key entry member _ => ?_
  have captures := sound.captures
  rw [if_pos stopping] at captures
  have nobody : state.exchanges.countP HttpExchange.holdsPermit = 0 := by omega
  rw [sound.active key entry member]
  refine List.countP_eq_zero.2 fun exchange held leased => List.countP_eq_zero.1 nobody exchange held ?_
  have lease : exchange.stage.lease = some entry.sessionId := of_decide_eq_true leased
  cases stage : exchange.stage <;> simp [stage, ExchangeStage.lease] at lease <;>
    simp [HttpExchange.holdsPermit, stage, ExchangeStage.holdsPermit]

/-! ## The steps -/

theorem resolveSession (sound : AdmissionSound limits state) {id : Nat} {exchange : HttpExchange}
    (found : state.exchanges[id]? = some exchange) (stage : exchange.stage = .resolving) (now : Nat) (opens : Bool) :
    AdmissionSound limits (state.resolveSession id exchange now opens).1 := by
  have unresolved : AdmissionSound limits (state.move id .unresolved) :=
    sound.move found (by rw [stage]; rfl) (by rw [stage]; rfl) (by rw [stage]; rfl)
  unfold HttpState.resolveSession
  dsimp only
  split
  case h_1 entry registered =>
    split
    case isTrue => exact unresolved
    case isFalse =>
      refine sound.change found registered (SessionEntry.join _) (fun _ => rfl) ?_ ?_ ?_ ?_ ?_
      · rw [stage]
        rintro _ ⟨⟩
      · rintro _ ⟨⟩
        rfl
      · rw [stage]
        rfl
      · rw [stage]
        rfl
      · rw [stage]
        rfl
  case h_2 fresh =>
    split
    case isTrue => exact unresolved
    case isFalse slot =>
      split
      case isTrue => exact sound.openSession found fresh stage slot rfl rfl
      case isFalse => exact unresolved

theorem tellRefused (sound : AdmissionSound limits state) {id : Nat} {exchange : HttpExchange}
    (found : state.exchanges[id]? = some exchange) (stage : exchange.stage = .counted) :
    AdmissionSound limits (state.tellRefused id exchange).1 := by
  unfold HttpState.tellRefused
  dsimp only
  split
  case h_1 => exact sound.move found (by rw [stage]; rfl) (by rw [stage]; rfl) (by rw [stage]; rfl)
  case h_2 entry registered =>
    refine AdmissionSound.settle (sound.change found registered (SessionEntry.miss _) (fun _ => rfl)
      ?_ ?_ ?_ ?_ ?_ : AdmissionSound limits (HttpState.move _ id .forwarded)) exchange.key
    · rw [stage]
      rintro _ ⟨⟩
    · rintro _ ⟨⟩
    · rw [stage]
      rfl
    · rw [stage]
      rfl
    · rw [stage]
      rfl

theorem releaseExchange (sound : AdmissionSound limits state) {id : Nat} {exchange : HttpExchange}
    (found : state.exchanges[id]? = some exchange) {sessionId : Nat} (stage : exchange.stage = .releasing sessionId)
    (now : Nat) : AdmissionSound limits (state.releaseExchange id exchange now) := by
  obtain ⟨entry, registered, same⟩ := sound.live exchange (List.mem_of_getElem? found) sessionId (by rw [stage]; rfl)
  have lookup := (lookup_eq_some_iff sound.oneEntry _ _).2 registered
  unfold HttpState.releaseExchange
  rw [lookup]
  refine AdmissionSound.settle (sound.change found lookup (SessionEntry.leave _ now) (fun _ => rfl)
    ?_ ?_ ?_ ?_ ?_ : AdmissionSound limits (HttpState.move _ id (.cleaning _))) exchange.key
  · rw [stage]
    rintro _ ⟨⟩
    exact same.symm
  · rintro _ ⟨⟩
  · -- The lease that goes has been counted.
    have counted : 0 < state.leaseCount entry.sessionId := List.countP_pos_iff.2
      ⟨exchange, List.mem_of_getElem? found, by simp [HttpExchange.leases, stage, ExchangeStage.lease, same]⟩
    rw [← sound.active _ entry registered] at counted
    rw [stage]
    show entry.activeExchanges - 1 + 1 = entry.activeExchanges + 0
    omega
  · rw [stage]
    rfl
  · rw [stage]
    rfl

theorem advance (sound : AdmissionSound limits state) {id : Nat} {exchange : HttpExchange}
    (found : state.exchanges[id]? = some exchange) (step : AdmissionStep) :
    AdmissionSound limits (state.advance limits id exchange step).1 := by
  cases step with
  | takePermit =>
    rw [HttpState.advance]
    split
    case isFalse => exact sound
    case isTrue stage =>
      split
      case isTrue => exact sound.move found (by rw [stage]; rfl) (by rw [stage]; rfl) (by rw [stage]; rfl)
      case isFalse free =>
        refine sound.move found (by rw [stage]; rfl) ?_ (by rw [stage]; rfl)
        rw [stage]
        show state.captureSlots - 1 + 1 = state.captureSlots + 0
        omega
  | takeIdle _ now =>
    rw [HttpState.advance]
    split
    case isFalse => exact sound
    case isTrue stage =>
      exact (sound.takeIdleSessions now).move found (by rw [stage]; rfl) (by rw [stage]; rfl) (by rw [stage]; rfl)
  | resolve _ now opens =>
    rw [HttpState.advance]
    split
    case isFalse => exact sound
    case isTrue stage => exact sound.resolveSession found stage now opens
  | returnRefusedPermit =>
    rw [HttpState.advance]
    split
    case isFalse => exact sound
    case isTrue stage => exact sound.move found (by rw [stage]; rfl) (by rw [stage]; rfl) (by rw [stage]; rfl)
  | countOmitted =>
    rw [HttpState.advance]
    split
    case isFalse => exact sound
    case isTrue stage => exact sound.move found (by rw [stage]; rfl) (by rw [stage]; rfl) (by rw [stage]; rfl)
  | tellRefused =>
    rw [HttpState.advance]
    split
    case isFalse => exact sound
    case isTrue stage => exact sound.tellRefused found stage
  | dropLease =>
    rw [HttpState.advance]
    split
    case h_1 sessionId stage => exact sound.move found (by rw [stage]; rfl) (by rw [stage]; rfl) (by rw [stage]; rfl)
    case h_2 => exact sound
  | release _ now =>
    rw [HttpState.advance]
    split
    case h_1 sessionId stage => exact sound.releaseExchange found stage now
    case h_2 => exact sound
  | returnPermit =>
    rw [HttpState.advance]
    split
    case h_1 removed stage =>
      split
      case isTrue => exact sound.move found (by rw [stage]; rfl) (by rw [stage]; rfl) (by rw [stage]; rfl)
      case isFalse => exact sound
    case h_2 => exact sound
  | _ => exact sound

theorem perform (sound : AdmissionSound limits state) (step : AdmissionStep) :
    AdmissionSound limits (state.perform limits step).1 := by
  unfold HttpState.perform
  split
  case h_1 head => exact sound.arrive head
  case h_2 now => exact sound.takeIdleSessions now
  case h_3 sessionId succeeds => exact sound.finalizeSessionEntry sessionId succeeds
  case h_4 =>
    split
    case isTrue free => exact sound.takeCapturePermits free
    case isFalse => exact sound
  case h_5 =>
    split
    case isTrue stopping => exact sound.closeAll stopping
    case isFalse => exact sound
  case h_6 =>
    split
    case h_1 id exchange moved =>
      obtain ⟨_, -, here⟩ := Option.bind_eq_some_iff.1 moved
      obtain ⟨_, found, same⟩ := Option.map_eq_some_iff.1 here
      cases same
      exact sound.advance found _
    case h_2 => exact sound

end AdmissionSound

end McpTracer.Proxy
