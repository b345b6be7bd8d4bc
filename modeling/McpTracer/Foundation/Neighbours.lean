import Mathlib.Data.List.Basic
import Mathlib.Order.Basic
import Mathlib.Order.Defs.LinearOrder
import Mathlib.Order.Lattice

/-! What stands next to what in a list, above all in a sorted one. -/

set_option autoImplicit false

namespace McpTracer.Foundation

variable {A : Type} {less : A → A → Prop}

/-- Every element with the one after it. -/
def neighbours (list : List A) : List (A × A) := list.zip list.tail

@[simp] theorem neighbours_cons_cons (first second : A) (rest : List A) :
    neighbours (first :: second :: rest) = (first, second) :: neighbours (second :: rest) := rfl

theorem neighbours_map {B : Type} (f : A → B) (list : List A) :
    neighbours (list.map f) = (neighbours list).map (Prod.map f f) := by
  rw [neighbours, neighbours, ← List.map_tail, List.zip_map]

theorem mem_of_mem_neighbours {list : List A} {pair : A × A} (member : pair ∈ neighbours list) :
    pair.1 ∈ list ∧ pair.2 ∈ list :=
  ⟨(List.of_mem_zip member).1, List.mem_of_mem_tail (List.of_mem_zip member).2⟩

theorem less_of_mem_neighbours {list : List A} (sorted : list.Pairwise less) {pair : A × A}
    (member : pair ∈ neighbours list) : less pair.1 pair.2 := by
  induction list with
  | nil => cases member
  | cons first rest ih =>
    cases rest with
    | nil => cases member
    | cons second rest =>
      obtain ⟨below, sorted⟩ := List.pairwise_cons.1 sorted
      rcases List.mem_cons.1 member with rfl | later
      · exact below second List.mem_cons_self
      · exact ih sorted later

/-- In a sorted list, two elements with nothing between them are neighbours. -/
theorem mem_neighbours_of_none_between (asymmetric : ∀ a b, less a b → ¬less b a) {list : List A}
    (sorted : list.Pairwise less) {low high : A} (lowMember : low ∈ list) (highMember : high ∈ list)
    (below : less low high) (none : ∀ other ∈ list, less low other → ¬less other high) :
    (low, high) ∈ neighbours list := by
  induction list with
  | nil => cases lowMember
  | cons first rest ih =>
    obtain ⟨firstBelow, others⟩ := List.pairwise_cons.1 sorted
    have highLater : high ∈ rest := by
      rcases List.mem_cons.1 highMember with rfl | later
      · rcases List.mem_cons.1 lowMember with rfl | lowLater
        · exact absurd below (asymmetric _ _ below)
        · exact absurd below (asymmetric _ _ (firstBelow low lowLater))
      · exact later
    cases rest with
    | nil => cases highLater
    | cons second rest =>
      rw [neighbours_cons_cons]
      rcases List.mem_cons.1 lowMember with rfl | lowLater
      · -- What follows the lower element is the higher one, or it would stand between the two.
        rcases List.mem_cons.1 highLater with rfl | later
        · exact List.mem_cons_self
        · exact absurd ((List.pairwise_cons.1 others).1 high later)
            (none second (List.mem_cons_of_mem _ List.mem_cons_self) (firstBelow second List.mem_cons_self))
      · exact List.mem_cons_of_mem _ (ih others lowLater highLater fun other member =>
          none other (List.mem_cons_of_mem _ member))

theorem length_neighbours (list : List A) : (neighbours list).length = list.length - 1 := by
  simp [neighbours]

/-- Whoever is not alone stands next to somebody. -/
theorem exists_neighbour {list : List A} {element other : A} (member : element ∈ list) (another : other ∈ list)
    (different : other ≠ element) : ∃ pair ∈ neighbours list, pair.1 = element ∨ pair.2 = element := by
  induction list generalizing other with
  | nil => cases member
  | cons first rest ih =>
    cases rest with
    | nil =>
      obtain rfl := List.mem_singleton.1 member
      exact absurd (List.mem_singleton.1 another) different
    | cons second rest =>
      rw [neighbours_cons_cons]
      by_cases head : first = element
      · exact ⟨_, List.mem_cons_self, .inl head⟩
      by_cases next : second = element
      · exact ⟨_, List.mem_cons_self, .inr next⟩
      have later : element ∈ second :: rest := (List.mem_cons.1 member).resolve_left (Ne.symm head)
      obtain ⟨pair, inside, touching⟩ := ih later List.mem_cons_self next
      exact ⟨pair, List.mem_cons_of_mem _ inside, touching⟩

/-! ## Neighbours with the same key -/

/-- The runs of elements that agree with the first of their run. -/
def runs (same : A → A → Bool) : List A → List (List A)
  | [] => []
  | start :: rest => (start :: rest.takeWhile (same start)) :: runs same (rest.dropWhile (same start))
termination_by list => list.length
decreasing_by exact Nat.lt_succ_of_le (List.dropWhile_sublist _).length_le

section
variable {K : Type} (key : A → K)

theorem neighbours_start [DecidableEq K] (start : A) (rest : List A) :
    (neighbours (start :: rest)).filter (fun pair => key pair.1 = key pair.2) =
      neighbours (start :: rest.takeWhile fun next => key start = key next) ++
        (neighbours (rest.dropWhile fun next => key start = key next)).filter fun pair => key pair.1 = key pair.2 := by
  induction rest generalizing start with
  | nil => rfl
  | cons next rest ih =>
    by_cases same : key start = key next
    · simp [same, ih next]
    · -- The run ends here, and the element that ends it opens the next one.
      simp [same, neighbours]

/-- What stands next to what inside the runs is what stands next to what with the same key. -/
theorem flatMap_neighbours_runs [DecidableEq K] (list : List A) :
    (runs (fun a b => key a = key b) list).flatMap neighbours =
      (neighbours list).filter fun pair => key pair.1 = key pair.2 := by
  induction list using runs.induct (fun a b => decide (key a = key b)) with
  | case1 => simp [runs, neighbours]
  | case2 start rest ih => rw [runs, List.flatMap_cons, ih, neighbours_start]

/-- In a list sorted by its keys the elements of one key stand together. -/
theorem neighbours_filter [LinearOrder K] {list : List A} (sorted : list.Pairwise fun a b => key a ≤ key b)
    (value : K) :
    (neighbours list).filter (fun pair => key pair.1 = value ∧ key pair.2 = value) =
      neighbours (list.filter fun element => key element = value) := by
  induction list with
  | nil => rfl
  | cons first rest ih =>
    obtain ⟨below, others⟩ := List.pairwise_cons.1 sorted
    cases rest with
    | nil => by_cases here : key first = value <;> simp [neighbours, here]
    | cons second rest =>
      by_cases here : key first = value
      · by_cases next : key second = value
        · simpa [here, next] using ih others
        · -- All that follows has a greater key.
          have less : value < key second := lt_of_le_of_ne (here ▸ below second List.mem_cons_self) (Ne.symm next)
          have none : ∀ element ∈ second :: rest, key element ≠ value := by
            intro element member
            rcases List.mem_cons.1 member with rfl | later
            · exact next
            · exact (lt_of_lt_of_le less ((List.pairwise_cons.1 others).1 element later)).ne'
          have empty : (second :: rest).filter (fun element => key element = value) = [] := by
            simpa using none
          rw [neighbours_cons_cons, List.filter_cons_of_neg (by simp [next]), ih others, empty,
            List.filter_cons_of_pos (by simp [here]), empty]
          rfl
      · simpa [here] using ih others

end

end McpTracer.Foundation
