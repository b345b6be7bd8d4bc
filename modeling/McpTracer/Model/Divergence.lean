import McpTracer.Foundation.Pointwise
import McpTracer.Model.Alignment
import Mathlib.Order.Bounds.Basic

/-! The trajectory check and the keyed comparison.

Both look at the same four things of an aligned pair. One walks the two lists
position by position, the other looks entries up by key; since keys are unique
they meet the same pairs whenever the key sequences are the same.
-/

set_option autoImplicit false

namespace McpTracer.Model
open McpTracer.Foundation McpTracer.Json McpTracer.Protocol McpTracer.Storage

/-- What a step of two trajectories has to agree in. -/
structure StepAgrees (aPayloads bPayloads : Table Nat Value) (options : DiffOptions)
    (a b : Exchange) : Prop where
  status : a.status = b.status
  errorCode : a.errorCode = b.errorCode
  request : requestDiffs aPayloads bPayloads options a b = []
  response : responseDiffs aPayloads bPayloads options a b = []

section Step
variable {aPayloads bPayloads : Table Nat Value} {options : DiffOptions}

theorem latencyDeltas_isLatency {a b : Exchange} :
    ∀ delta ∈ latencyDeltas options a b, delta.isLatency = true := by
  intro delta member
  unfold latencyDeltas at member
  split at member
  · cases member
  · split at member
    · dsimp only at member
      split_ifs at member
      · obtain rfl := List.mem_singleton.mp member
        rfl
      · cases member
      · cases member
    · cases member

/-- Only latency differs between exchanges whose steps agree, and the other way round. -/
theorem compareExchanges_latency_iff (a b : Exchange) :
    (∀ delta ∈ compareExchanges aPayloads bPayloads options a b, delta.isLatency = true) ↔
      StepAgrees aPayloads bPayloads options a b := by
  simp only [compareExchanges, List.mem_append, or_imp, forall_and]
  constructor
  · rintro ⟨⟨request, outcome⟩, -⟩
    -- A delta of another kind would be no latency, so its part of the list is empty.
    have noRequest : requestDiffs aPayloads bPayloads options a b = [] := by
      by_contra differs
      simp [differs, ExchangeDelta.isLatency] at request
    by_cases status : a.status = b.status
    · simp only [status, ne_eq, not_true_eq_false, if_false, List.mem_append, or_imp, forall_and] at outcome
      refine ⟨status, ?_, noRequest, ?_⟩
      · by_contra differs
        simp [differs, ExchangeDelta.isLatency] at outcome
      · by_contra differs
        simp [differs, ExchangeDelta.isLatency] at outcome
    · simp [status, ExchangeDelta.isLatency] at outcome
  · rintro ⟨status, errorCode, request, response⟩
    refine ⟨⟨?_, ?_⟩, latencyDeltas_isLatency⟩
    · simp [request]
    · simp [status, errorCode, response]

theorem compareExchanges_eq_nil_iff (a b : Exchange) :
    compareExchanges aPayloads bPayloads options a b = [] ↔
      StepAgrees aPayloads bPayloads options a b ∧ latencyDeltas options a b = [] := by
  constructor
  · intro quiet
    refine ⟨(compareExchanges_latency_iff a b).mp (by simp [quiet]), ?_⟩
    simpa [compareExchanges] using (List.append_eq_nil_iff.mp quiet).2
  · rintro ⟨⟨status, errorCode, request, response⟩, latency⟩
    simp [compareExchanges, status, errorCode, request, response, latency]

theorem stepDivergence_eq_none_iff (index : Nat) (a b : String × Exchange) :
    stepDivergence aPayloads bPayloads options index a b = none ↔
      a.1 = b.1 ∧ StepAgrees aPayloads bPayloads options a.2 b.2 := by
  unfold stepDivergence
  constructor
  · intro quiet
    dsimp only at quiet
    split_ifs at quiet with key status errorCode request response
    exact ⟨not_not.mp key, not_not.mp status, not_not.mp errorCode, by simpa using request,
      by simpa using response⟩
  · rintro ⟨key, status, errorCode, request, response⟩
    simp [key, status, errorCode, request, response]

theorem stepDivergence_index {index : Nat} {a b : String × Exchange} {divergence : PointOfDivergence}
    (found : stepDivergence aPayloads bPayloads options index a b = some divergence) :
    divergence.stepIndex = index := by
  unfold stepDivergence at found
  dsimp only at found
  split_ifs at found <;> exact (Option.some.inj found) ▸ rfl

/-- At this position the trajectories differ, or one of them has ended. -/
def DivergesAt (aPayloads bPayloads : Table Nat Value) (options : DiffOptions)
    (as bs : List (String × Exchange)) (position : Nat) : Prop :=
  match as[position]?, bs[position]? with
  | none, none => False
  | some a, some b => ¬ (a.1 = b.1 ∧ StepAgrees aPayloads bPayloads options a.2 b.2)
  | _, _ => True

/-- Both trajectories run through agreeing steps under the same keys. -/
def Coincide (aPayloads bPayloads : Table Nat Value) (options : DiffOptions)
    (as bs : List (String × Exchange)) : Prop :=
  List.Forall₂ (fun a b => a.1 = b.1 ∧ StepAgrees aPayloads bPayloads options a.2 b.2) as bs

theorem Coincide.keys {as bs : List (String × Exchange)}
    (same : Coincide aPayloads bPayloads options as bs) : as.map Prod.fst = bs.map Prod.fst :=
  map_eq_map_iff_forall₂.mpr (same.imp fun _ _ both => both.1)

theorem divergenceFrom_eq_none_iff (index : Nat) (as bs : List (String × Exchange)) :
    divergenceFrom aPayloads bPayloads options index as bs = none ↔
      Coincide aPayloads bPayloads options as bs := by
  induction as generalizing index bs with
  | nil => cases bs <;> simp [divergenceFrom, Coincide]
  | cons a as ih =>
      cases bs with
      | nil => simp [divergenceFrom, Coincide]
      | cons b bs =>
          rw [divergenceFrom, Coincide, List.forall₂_cons, ← stepDivergence_eq_none_iff index]
          cases step : stepDivergence aPayloads bPayloads options index a b with
          | none => simpa [Coincide] using ih (index + 1) bs
          | some divergence => simp

/-- The reported index is the first one at which the trajectories differ. -/
theorem divergenceFrom_least {index : Nat} {as bs : List (String × Exchange)}
    {divergence : PointOfDivergence}
    (found : divergenceFrom aPayloads bPayloads options index as bs = some divergence) :
    ∃ position, divergence.stepIndex = index + position ∧
      IsLeast {n | DivergesAt aPayloads bPayloads options as bs n} position := by
  -- The index the loop carries and the position in the remaining lists add up.
  induction as generalizing index bs with
  | nil =>
      cases bs with
      | nil => cases found
      | cons b bs =>
          obtain rfl := Option.some.inj found
          exact ⟨0, rfl, by simp [DivergesAt], fun _ _ => Nat.zero_le _⟩
  | cons a as ih =>
      cases bs with
      | nil =>
          obtain rfl := Option.some.inj found
          exact ⟨0, rfl, by simp [DivergesAt], fun _ _ => Nat.zero_le _⟩
      | cons b bs =>
          rw [divergenceFrom] at found
          cases step : stepDivergence aPayloads bPayloads options index a b with
          | some divergence =>
              simp only [step, Option.some.injEq] at found
              subst found
              refine ⟨0, stepDivergence_index step, ?_, fun _ _ => Nat.zero_le _⟩
              have differs : ¬ (a.1 = b.1 ∧ StepAgrees aPayloads bPayloads options a.2 b.2) := by
                rw [← stepDivergence_eq_none_iff index, step]
                simp
              simpa [DivergesAt] using differs
          | none =>
              simp only [step] at found
              obtain ⟨position, reported, diverges, least⟩ := ih found
              refine ⟨position + 1, by omega, by simpa [DivergesAt] using diverges, fun n other => ?_⟩
              cases n with
              | zero =>
                  have agrees := (stepDivergence_eq_none_iff index a b).mp step
                  exact absurd agrees (by simpa [DivergesAt] using other)
              | succ n => exact Nat.succ_le_succ (least (by simpa [DivergesAt] using other))

end Step

/-! ## Keyed comparison -/

section Align
variable {A : Type} {as bs : List (String × A)} {compare : A → A → List ExchangeDelta}

theorem align_removed_iff (uniqueB : (bs.map Prod.fst).Nodup) :
    (align as bs compare).removed = [] ↔ ∀ key ∈ as.map Prod.fst, key ∈ bs.map Prod.fst := by
  simp only [align, List.map_eq_nil_iff, List.filter_eq_nil_iff, Option.isNone_iff_eq_none,
    Table.ofList_eq_none_iff uniqueB, not_not, List.forall_mem_map]

theorem align_added_iff (uniqueA : (as.map Prod.fst).Nodup) :
    (align as bs compare).added = [] ↔ ∀ key ∈ bs.map Prod.fst, key ∈ as.map Prod.fst := by
  simp only [align, List.map_eq_nil_iff, List.filter_eq_nil_iff, Option.isNone_iff_eq_none,
    Table.ofList_eq_none_iff uniqueA, not_not, List.forall_mem_map]

/-- The changed entries are the pairs under one key whose comparison found something. -/
theorem mem_align_changed_iff (uniqueB : (bs.map Prod.fst).Nodup) (diff : AlignedExchangeDiff) :
    diff ∈ (align as bs compare).changed ↔ ∃ a b, (diff.key, a) ∈ as ∧ (diff.key, b) ∈ bs ∧
      compare a b = diff.deltas ∧ diff.deltas ≠ [] := by
  simp only [align, List.mem_filterMap]
  constructor
  · rintro ⟨⟨key, a⟩, member, found⟩
    obtain ⟨b, bound, kept⟩ := Option.bind_eq_some_iff.mp found
    split_ifs at kept with quiet
    obtain rfl := Option.some.inj kept
    exact ⟨a, b, member, (Table.ofList_eq_some_iff uniqueB key b).mp bound, rfl, by simpa using quiet⟩
  · rintro ⟨a, b, inA, inB, same, differs⟩
    refine ⟨(diff.key, a), inA, ?_⟩
    simp [(Table.ofList_eq_some_iff uniqueB diff.key b).mpr inB, same, differs]

/-- Lists of one key sequence pair the same entries by key and by position. -/
theorem forall₂_iff_of_keys {R : A → A → Prop} (unique : (as.map Prod.fst).Nodup)
    (keys : as.map Prod.fst = bs.map Prod.fst) :
    List.Forall₂ (fun a b => a.1 = b.1 ∧ R a.2 b.2) as bs ↔
      ∀ key a b, (key, a) ∈ as → (key, b) ∈ bs → R a b := by
  obtain ⟨length, keyAt⟩ := forall₂_iff_getElem?.mp (map_eq_map_iff_forall₂.mp keys)
  rw [forall₂_iff_getElem?]
  constructor
  · rintro ⟨-, related⟩ key a b inA inB
    obtain ⟨n, left⟩ := List.mem_iff_getElem?.mp inA
    obtain ⟨m, right⟩ := List.mem_iff_getElem?.mp inB
    -- A key occurs once, so both entries stand at its one position.
    obtain rfl : n = m := by
      have nInside : n < (as.map Prod.fst).length := by
        simpa using (List.getElem?_eq_some_iff.mp left).1
      refine (List.getElem?_inj nInside unique).mp ?_
      conv_rhs => rw [keys]
      simp [left, right]
    exact (related n _ _ left right).2
  · exact fun related => ⟨length, fun n a b left right => by
      have same := keyAt n a b left right
      refine ⟨same, related a.1 a.2 b.2 (List.mem_of_getElem? left) ?_⟩
      rw [same]
      exact List.mem_of_getElem? right⟩

theorem align_changed_iff (uniqueB : (bs.map Prod.fst).Nodup) :
    (align as bs compare).changed = [] ↔
      ∀ key a b, (key, a) ∈ as → (key, b) ∈ bs → compare a b = [] := by
  simp only [List.eq_nil_iff_forall_not_mem (l := (align as bs compare).changed),
    mem_align_changed_iff uniqueB]
  constructor
  · intro quiet key a b inA inB
    by_contra differs
    exact quiet ⟨key, compare a b⟩ ⟨a, b, inA, inB, rfl, differs⟩
  · rintro quiet diff ⟨a, b, inA, inB, same, differs⟩
    exact differs (same ▸ quiet diff.key a b inA inB)

end Align

/-- The trajectory check and the keyed comparison agree on whether there is a difference, and the check
reports the first position of one. -/
theorem pointOfDivergence_iff (codec : Codec) (as bs : List StoredMessage) (options : DiffOptions) :
    ((diffSessions codec as bs options).pointOfDivergence = none ↔
      (diffExchanges codec as bs options).added = [] ∧
      (diffExchanges codec as bs options).removed = [] ∧
      (∀ diff ∈ (diffExchanges codec as bs options).changed, ∀ delta ∈ diff.deltas,
        delta.isLatency = true) ∧
      (alignmentKeys (correlate codec as).exchanges).map Prod.fst =
        (alignmentKeys (correlate codec bs).exchanges).map Prod.fst) ∧
    ∀ divergence, (diffSessions codec as bs options).pointOfDivergence = some divergence →
      IsLeast {position | DivergesAt (payloadsBySeq codec as) (payloadsBySeq codec bs) options
        (alignmentKeys (correlate codec as).exchanges) (alignmentKeys (correlate codec bs).exchanges)
        position} divergence.stepIndex := by
  set aKeys := alignmentKeys (correlate codec as).exchanges with aKeysEq
  set bKeys := alignmentKeys (correlate codec bs).exchanges with bKeysEq
  have uniqueA : (aKeys.map Prod.fst).Nodup := alignmentKeys_nodup _
  have uniqueB : (bKeys.map Prod.fst).Nodup := alignmentKeys_nodup _
  refine ⟨?none, fun divergence found => ?least⟩
  case none =>
    have coincide : (diffSessions codec as bs options).pointOfDivergence = none ↔
        Coincide (payloadsBySeq codec as) (payloadsBySeq codec bs) options aKeys bKeys :=
      divergenceFrom_eq_none_iff 0 aKeys bKeys
    refine coincide.trans ⟨fun same => ?_, fun ⟨added, removed, latency, keys⟩ => ?_⟩
    · have keys : aKeys.map Prod.fst = bKeys.map Prod.fst := same.keys
      refine ⟨(align_added_iff uniqueA).mpr fun key member => keys ▸ member,
        (align_removed_iff uniqueB).mpr fun key member => keys ▸ member, fun diff member => ?_, keys⟩
      obtain ⟨a, b, inA, inB, deltas, -⟩ := (mem_align_changed_iff uniqueB diff).mp member
      rw [← deltas, compareExchanges_latency_iff]
      exact (forall₂_iff_of_keys uniqueA keys).mp same diff.key a b inA inB
    · refine (forall₂_iff_of_keys uniqueA keys).mpr fun key a b inA inB => ?_
      rw [← compareExchanges_latency_iff]
      intro delta member
      refine latency ⟨key, _⟩ ?_ delta member
      exact (mem_align_changed_iff uniqueB _).mpr
        ⟨a, b, inA, inB, rfl, List.ne_nil_of_mem member⟩
  case least =>
    obtain ⟨position, reported, least⟩ := divergenceFrom_least found
    rw [reported, Nat.zero_add]
    exact least

/-- Two calls; the second one is of this method. -/
def pingThen (method : String) : List StoredMessage :=
  [requestMessage "ping" none, { requestMessage method none with seq := 1, rpcId := some "2" }]

theorem pointOfDivergence_second : IsLeast {position | DivergesAt
    (payloadsBySeq Compact.codec (pingThen "ping")) (payloadsBySeq Compact.codec (pingThen "tools/list"))
    .standard (alignmentKeys (correlate Compact.codec (pingThen "ping")).exchanges)
    (alignmentKeys (correlate Compact.codec (pingThen "tools/list")).exchanges) position} 1 :=
  (pointOfDivergence_iff Compact.codec (pingThen "ping") (pingThen "tools/list") .standard).2
    ⟨1, "ping#1", .methodMismatch,
      "trajectory branched at step 1: session A executed 'ping#1' but session B executed 'tools/list#0'"⟩
    (by decide +kernel)

end McpTracer.Model
