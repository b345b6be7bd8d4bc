import Mathlib.Algebra.Order.Field.Basic
import Mathlib.Tactic.Linarith
import Mathlib.Tactic.Ring

/-! Token buckets in continuous time.

A bucket refills at a constant rate up to its capacity. What it admits in a
window is paid from the level at the first admission in the window and from the
refills after it, so that a window of a given length bounds the admitted sum.
-/

set_option autoImplicit false

namespace McpTracer.Foundation

/-- A bucket with its level at the time of the last refill. -/
structure TokenBucket (K : Type) where
  rate : K
  capacity : K
  tokens : K
  lastRefill : Option K

namespace TokenBucket

variable {K : Type} [Field K] [LinearOrder K]

/-- A new bucket is full. -/
def new (rate capacity : K) : TokenBucket K := ⟨rate, capacity, capacity, none⟩

/-- Advance to a time. A time that is not later refills nothing. -/
def refill (bucket : TokenBucket K) (now : K) : TokenBucket K :=
  { bucket with
    tokens := match bucket.lastRefill with
      | some last =>
        if last < now then min (bucket.tokens + (now - last) * bucket.rate) bucket.capacity else bucket.tokens
      | none => bucket.tokens
    lastRefill := some now }

/-- Consume an amount if the level allows it. -/
def tryConsume (bucket : TokenBucket K) (amount now : K) : TokenBucket K × Bool :=
  let bucket := bucket.refill now
  if amount ≤ bucket.tokens then ({ bucket with tokens := bucket.tokens - amount }, true) else (bucket, false)

/-! ## Runs over demands, each a time with an amount -/

def run (bucket : TokenBucket K) (demands : List (K × K)) : TokenBucket K :=
  demands.foldl (fun bucket demand => (bucket.tryConsume demand.2 demand.1).1) bucket

/-- Which of the demands are admitted. -/
def admissions (bucket : TokenBucket K) : List (K × K) → List Bool
  | [] => []
  | demand :: rest =>
    (bucket.tryConsume demand.2 demand.1).2 :: admissions (bucket.tryConsume demand.2 demand.1).1 rest

/-- The sum of what is admitted between two times. -/
def admittedBetween (s t : K) (bucket : TokenBucket K) : List (K × K) → K
  | [] => 0
  | demand :: rest =>
    (if (bucket.tryConsume demand.2 demand.1).2 = true ∧ s ≤ demand.1 ∧ demand.1 ≤ t then demand.2 else 0) +
      admittedBetween s t (bucket.tryConsume demand.2 demand.1).1 rest

/-! ## The level -/

/-- The level is between nothing and the capacity, and the bucket does not leak. -/
structure Valid (bucket : TokenBucket K) : Prop where
  rate : 0 ≤ bucket.rate
  nonneg : 0 ≤ bucket.tokens
  le_capacity : bucket.tokens ≤ bucket.capacity

@[simp] theorem refill_rate (bucket : TokenBucket K) (now : K) : (bucket.refill now).rate = bucket.rate := rfl

@[simp] theorem refill_capacity (bucket : TokenBucket K) (now : K) : (bucket.refill now).capacity = bucket.capacity := rfl

@[simp] theorem tryConsume_rate (bucket : TokenBucket K) (amount now : K) :
    (bucket.tryConsume amount now).1.rate = bucket.rate := by
  unfold tryConsume
  dsimp only
  split_ifs <;> rfl

@[simp] theorem tryConsume_capacity (bucket : TokenBucket K) (amount now : K) :
    (bucket.tryConsume amount now).1.capacity = bucket.capacity := by
  unfold tryConsume
  dsimp only
  split_ifs <;> rfl

@[simp] theorem run_capacity (bucket : TokenBucket K) (demands : List (K × K)) :
    (bucket.run demands).capacity = bucket.capacity := by
  induction demands generalizing bucket with
  | nil => rfl
  | cons demand rest ih => rw [run, List.foldl_cons, ← run, ih, tryConsume_capacity]

@[simp] theorem tryConsume_lastRefill (bucket : TokenBucket K) (amount now : K) :
    (bucket.tryConsume amount now).1.lastRefill = some now := by
  unfold tryConsume
  dsimp only
  split_ifs <;> rfl

theorem valid_new {rate capacity : K} (nonneg : 0 ≤ rate) (room : 0 ≤ capacity) : (TokenBucket.new rate capacity).Valid :=
  ⟨nonneg, room, le_refl _⟩

/-- A refill earns no more than the rate gives over the time since the last one. -/
theorem refill_tokens_le {bucket : TokenBucket K} {last now : K} (refilled : bucket.lastRefill = some last)
    (later : last ≤ now) : (bucket.refill now).tokens ≤ bucket.tokens + (now - last) * bucket.rate := by
  unfold refill
  simp only [refilled]
  split_ifs with strictly
  · exact min_le_left _ _
  · have same : now = last := le_antisymm (not_lt.1 strictly) later
    simp [same]

/-- Either outcome leaves what the refill gave, less what was admitted. -/
theorem tryConsume_cases (bucket : TokenBucket K) (amount now : K) :
    ((bucket.tryConsume amount now).2 = true ∧ amount ≤ (bucket.refill now).tokens ∧
      (bucket.tryConsume amount now).1.tokens = (bucket.refill now).tokens - amount) ∨
    ((bucket.tryConsume amount now).2 = false ∧
      (bucket.tryConsume amount now).1.tokens = (bucket.refill now).tokens) := by
  unfold tryConsume
  dsimp only
  split_ifs with enough
  · exact .inl ⟨rfl, enough, rfl⟩
  · exact .inr ⟨rfl, rfl⟩

/-- Nothing is admitted in a window that lies before all demands. -/
theorem admittedBetween_eq_zero {s t : K} {bucket : TokenBucket K} {demands : List (K × K)}
    (later : ∀ demand ∈ demands, t < demand.1) : bucket.admittedBetween s t demands = 0 := by
  induction demands generalizing bucket with
  | nil => rfl
  | cons demand rest ih =>
      obtain ⟨head, tail⟩ := List.forall_mem_cons.1 later
      rw [admittedBetween, if_neg fun inside => absurd inside.2.2 (not_le.2 head), ih tail, add_zero]

variable [IsStrictOrderedRing K]

theorem Valid.refill {bucket : TokenBucket K} (valid : bucket.Valid) (now : K) : (bucket.refill now).Valid := by
  refine ⟨valid.rate, ?_, ?_⟩
  · unfold TokenBucket.refill
    dsimp only
    cases bucket.lastRefill with
    | none => exact valid.nonneg
    | some last =>
        dsimp only
        split_ifs with later
        · have earned : 0 ≤ (now - last) * bucket.rate := mul_nonneg (sub_nonneg.2 later.le) valid.rate
          exact le_min (add_nonneg valid.nonneg earned) (valid.nonneg.trans valid.le_capacity)
        · exact valid.nonneg
  · unfold TokenBucket.refill
    dsimp only
    cases bucket.lastRefill with
    | none => exact valid.le_capacity
    | some last =>
        dsimp only
        split_ifs
        · exact min_le_right _ _
        · exact valid.le_capacity

theorem Valid.tryConsume {bucket : TokenBucket K} (valid : bucket.Valid) {amount : K} (nonneg : 0 ≤ amount) (now : K) :
    (bucket.tryConsume amount now).1.Valid := by
  have refilled := valid.refill now
  have full := refilled.le_capacity
  rw [refill_capacity] at full
  rcases tryConsume_cases bucket amount now with ⟨-, enough, level⟩ | ⟨-, level⟩
  · refine ⟨by simpa using valid.rate, ?_, ?_⟩
    · rw [level]
      linarith
    · rw [level, tryConsume_capacity]
      linarith
  · refine ⟨by simpa using valid.rate, ?_, ?_⟩
    · rw [level]
      exact refilled.nonneg
    · rw [level, tryConsume_capacity]
      exact full

theorem Valid.run {bucket : TokenBucket K} (valid : bucket.Valid) {demands : List (K × K)}
    (nonneg : ∀ demand ∈ demands, 0 ≤ demand.2) : (bucket.run demands).Valid := by
  induction demands generalizing bucket with
  | nil => exact valid
  | cons demand rest ih =>
      obtain ⟨head, tail⟩ := List.forall_mem_cons.1 nonneg
      exact ih (valid.tryConsume head demand.1) tail

/-! ## Windows -/

/-- What is admitted up to a time is paid from the level and the refills until then. -/
theorem admittedBetween_le_level {s t last : K} {bucket : TokenBucket K} (valid : bucket.Valid)
    (refilled : bucket.lastRefill = some last) (before : last ≤ t) {demands : List (K × K)}
    (nonneg : ∀ demand ∈ demands, 0 ≤ demand.2) (sorted : demands.Pairwise fun a b => a.1 ≤ b.1)
    (later : ∀ demand ∈ demands, last ≤ demand.1) :
    bucket.admittedBetween s t demands ≤ bucket.tokens + (t - last) * bucket.rate := by
  induction demands generalizing bucket last with
  | nil =>
      have earned : 0 ≤ (t - last) * bucket.rate := mul_nonneg (sub_nonneg.2 before) valid.rate
      exact add_nonneg valid.nonneg earned
  | cons demand rest ih =>
      obtain ⟨head, tail⟩ := List.forall_mem_cons.1 nonneg
      obtain ⟨now, others⟩ := List.forall_mem_cons.1 later
      obtain ⟨least, ordered⟩ := List.pairwise_cons.1 sorted
      by_cases reached : demand.1 ≤ t
      · have next := ih (valid.tryConsume head demand.1) (tryConsume_lastRefill _ _ _) reached tail ordered least
        have refill := refill_tokens_le refilled now
        have split : (t - last) * bucket.rate = (t - demand.1) * bucket.rate + (demand.1 - last) * bucket.rate := by ring
        rw [tryConsume_rate] at next
        rw [admittedBetween]
        rcases tryConsume_cases bucket demand.2 demand.1 with ⟨-, -, level⟩ | ⟨refused, level⟩
        · rw [level] at next
          split_ifs
          · linarith
          · linarith
        · rw [level] at next
          rw [if_neg (by simp [refused])]
          linarith
      · have nothing : bucket.admittedBetween s t (demand :: rest) = 0 :=
          admittedBetween_eq_zero (List.forall_mem_cons.2 ⟨not_le.1 reached, fun other member =>
            (not_le.1 reached).trans_le (least other member)⟩)
        have earned : 0 ≤ (t - last) * bucket.rate := mul_nonneg (sub_nonneg.2 before) valid.rate
        rw [nothing]
        exact add_nonneg valid.nonneg earned

/-- The burst bound: a window admits the capacity and what is refilled over its length at most. -/
theorem admittedBetween_le {s t : K} (ordered : s ≤ t) {bucket : TokenBucket K} (valid : bucket.Valid)
    {demands : List (K × K)} (nonneg : ∀ demand ∈ demands, 0 ≤ demand.2)
    (sorted : demands.Pairwise fun a b => a.1 ≤ b.1) :
    bucket.admittedBetween s t demands ≤ bucket.capacity + (t - s) * bucket.rate := by
  have room : 0 ≤ bucket.capacity + (t - s) * bucket.rate :=
    add_nonneg (valid.nonneg.trans valid.le_capacity) (mul_nonneg (sub_nonneg.2 ordered) valid.rate)
  induction demands generalizing bucket with
  | nil => exact room
  | cons demand rest ih =>
      obtain ⟨head, tail⟩ := List.forall_mem_cons.1 nonneg
      obtain ⟨least, ordered'⟩ := List.pairwise_cons.1 sorted
      have next := valid.tryConsume head demand.1
      by_cases early : demand.1 < s
      · -- The window has not begun.
        rw [admittedBetween, if_neg fun inside => absurd inside.2.1 (not_le.2 early), zero_add]
        have bound := ih next tail ordered'
        rw [tryConsume_capacity, tryConsume_rate] at bound
        exact bound room
      by_cases reached : demand.1 ≤ t
      · -- The first demand in the window meets a level that is at most the capacity.
        have paid := admittedBetween_le_level (s := s) next (tryConsume_lastRefill _ _ _) reached tail ordered' least
        have full := (valid.refill demand.1).le_capacity
        have shorter : (t - demand.1) * bucket.rate ≤ (t - s) * bucket.rate :=
          mul_le_mul_of_nonneg_right (by linarith [not_lt.1 early]) valid.rate
        rw [refill_capacity] at full
        rw [tryConsume_rate] at paid
        rw [admittedBetween]
        rcases tryConsume_cases bucket demand.2 demand.1 with ⟨-, -, level⟩ | ⟨refused, level⟩
        · rw [level] at paid
          split_ifs
          · linarith
          · linarith
        · rw [level] at paid
          rw [if_neg (by simp [refused])]
          linarith
      · have nothing : bucket.admittedBetween s t (demand :: rest) = 0 :=
          admittedBetween_eq_zero (List.forall_mem_cons.2 ⟨not_le.1 reached, fun other member =>
            (not_le.1 reached).trans_le (least other member)⟩)
        rw [nothing]
        exact room

end TokenBucket

end McpTracer.Foundation
