import Mathlib.Data.List.Dedup
import Mathlib.Data.List.Sort

/-! Finite sets as the sorted lists of their elements, in the order an ordered set iterates. -/

set_option autoImplicit false

namespace McpTracer.Foundation.SortedSet

variable {A : Type} [LinearOrder A]

def ofList (items : List A) : List A := items.dedup.insertionSort (· ≤ ·)

@[simp] theorem mem_ofList {items : List A} {x : A} : x ∈ ofList items ↔ x ∈ items := by
  simp [ofList, List.mem_insertionSort]

theorem ofList_perm_dedup (items : List A) : (ofList items).Perm items.dedup :=
  List.perm_insertionSort _ _

theorem ofList_nodup (items : List A) : (ofList items).Nodup :=
  (ofList_perm_dedup items).nodup_iff.2 (List.nodup_dedup items)

/-- Sets are equal as lists when they have the same elements. -/
theorem ofList_eq_iff {items others : List A} :
    ofList items = ofList others ↔ ∀ x, x ∈ items ↔ x ∈ others := by
  constructor
  · intro same x
    rw [← mem_ofList, same, mem_ofList]
  · intro same
    have perm : (ofList items).Perm (ofList others) :=
      (List.perm_ext_iff_of_nodup (ofList_nodup _) (ofList_nodup _)).2 (by simpa using same)
    exact perm.eq_of_pairwise' (List.pairwise_insertionSort _ _) (List.pairwise_insertionSort _ _)

/-- No element was repeated exactly when the set is as large as the list. -/
theorem length_ofList_iff {items : List A} : (ofList items).length = items.length ↔ items.Nodup := by
  rw [(ofList_perm_dedup items).length_eq]
  constructor
  · intro same
    have whole := (List.dedup_sublist items).eq_of_length same
    rw [← whole]
    exact List.nodup_dedup items
  · exact fun distinct => by rw [distinct.dedup]

/-- Lists without repetition that make one set are permutations of each other. -/
theorem perm_of_ofList_eq {items others : List A} (left : items.Nodup) (right : others.Nodup)
    (same : ofList items = ofList others) : items.Perm others :=
  (List.perm_ext_iff_of_nodup left right).2 (ofList_eq_iff.1 same)

end McpTracer.Foundation.SortedSet
