import Mathlib.Data.List.Sort
import Mathlib.Order.Lattice

/-! Maps as association lists sorted by key, in the order an ordered map iterates. -/

set_option autoImplicit false

namespace McpTracer.Foundation.SortedMap

variable {K V : Type} [LinearOrder K]

/-- Insert a binding, replacing the one under the same key. -/
def insert (key : K) (value : V) : List (K × V) → List (K × V)
  | [] => [(key, value)]
  | (head, first) :: rest =>
    if key < head then (key, value) :: (head, first) :: rest
    else if key = head then (key, value) :: rest
    else (head, first) :: insert key value rest

def Sorted (map : List (K × V)) : Prop := (map.map Prod.fst).Pairwise (· < ·)

theorem mem_insert {key : K} {value : V} {map : List (K × V)} {binding : K × V}
    (member : binding ∈ insert key value map) : binding = (key, value) ∨ binding ∈ map := by
  induction map with
  | nil => exact .inl (by simpa [insert] using member)
  | cons first rest ih =>
      rw [insert] at member
      split_ifs at member
      · exact List.mem_cons.mp member
      · exact (List.mem_cons.mp member).imp_right fun later => List.mem_cons_of_mem _ later
      · rcases List.mem_cons.mp member with rfl | later
        · exact .inr List.mem_cons_self
        · exact (ih later).imp_right fun found => List.mem_cons_of_mem _ found

theorem insert_sorted {map : List (K × V)} (sorted : Sorted map) (key : K) (value : V) :
    Sorted (insert key value map) := by
  induction map with
  | nil => simp [Sorted, insert]
  | cons first rest ih =>
      obtain ⟨below, tail⟩ := List.pairwise_cons.mp sorted
      rw [insert]
      split_ifs with less same
      · refine List.pairwise_cons.mpr ⟨fun other member => ?_, sorted⟩
        rcases List.mem_cons.mp member with rfl | later
        · exact less
        · exact less.trans (below other later)
      · subst same
        exact sorted
      · refine List.pairwise_cons.mpr ⟨fun other member => ?_, ih tail⟩
        obtain ⟨binding, found, rfl⟩ := List.mem_map.mp member
        rcases mem_insert found with rfl | old
        · exact lt_of_le_of_ne (not_lt.mp less) (Ne.symm same)
        · exact below _ (List.mem_map_of_mem old)

theorem Sorted.nodup {map : List (K × V)} (sorted : Sorted map) : (map.map Prod.fst).Nodup :=
  List.Pairwise.imp (fun less => ne_of_lt less) sorted

end McpTracer.Foundation.SortedMap
