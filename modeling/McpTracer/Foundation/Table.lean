import Mathlib.Logic.Function.Basic
import Mathlib.Data.List.Induction
import Mathlib.Data.List.Nodup
import Mathlib.Logic.Relator

/-! Maps as partial functions, with the operations of a mutable map.

A table built from a list of bindings keeps the last binding of a key, as
collecting an iterator into a map does.
-/

set_option autoImplicit false

namespace McpTracer.Foundation

abbrev Table (K V : Type) := K → Option V

namespace Table

variable {K V : Type}

def empty : Table K V := fun _ => none

variable [DecidableEq K]

def insert (table : Table K V) (key : K) (value : V) : Table K V :=
  Function.update table key (some value)

def erase (table : Table K V) (key : K) : Table K V :=
  Function.update table key none

/-- Insert the bindings from left to right. -/
def insertAll (table : Table K V) (bindings : List (K × V)) : Table K V :=
  bindings.foldl (fun table binding => table.insert binding.1 binding.2) table

def ofList (bindings : List (K × V)) : Table K V := insertAll empty bindings

@[simp] theorem insert_same (table : Table K V) (key : K) (value : V) :
    table.insert key value key = some value := Function.update_self ..

theorem insert_other (table : Table K V) {key other : K} (value : V) (differs : other ≠ key) :
    table.insert key value other = table other := Function.update_of_ne differs ..

@[simp] theorem erase_same (table : Table K V) (key : K) : table.erase key key = none :=
  Function.update_self ..

theorem erase_other (table : Table K V) {key other : K} (differs : other ≠ key) :
    table.erase key other = table other := Function.update_of_ne differs ..

theorem erase_absent (table : Table K V) {key : K} (absent : table key = none) :
    table.erase key = table := by
  rw [erase, ← absent, Function.update_eq_self]

theorem insertAll_eq_of_notMem (table : Table K V) (bindings : List (K × V)) {key : K}
    (fresh : key ∉ bindings.map Prod.fst) : table.insertAll bindings key = table key := by
  induction bindings generalizing table with
  | nil => rfl
  | cons binding rest ih =>
      simp only [List.map_cons, List.mem_cons, not_or] at fresh
      rw [insertAll, List.foldl_cons, ← insertAll, ih _ fresh.2, insert_other _ _ fresh.1]

theorem insertAll_eq_some_iff (table : Table K V) (bindings : List (K × V))
    (unique : (bindings.map Prod.fst).Nodup) {key : K} (bound : key ∈ bindings.map Prod.fst)
    (value : V) : table.insertAll bindings key = some value ↔ (key, value) ∈ bindings := by
  induction bindings generalizing table with
  | nil => simp at bound
  | cons binding rest ih =>
      obtain ⟨head, first⟩ := binding
      simp only [List.map_cons, List.nodup_cons] at unique
      rw [insertAll, List.foldl_cons, ← insertAll]
      by_cases same : key = head
      · subst same
        rw [insertAll_eq_of_notMem _ _ unique.1, insert_same]
        have onlyHead : (key, value) ∉ rest := fun member => unique.1 (List.mem_map_of_mem member)
        simp [onlyHead, eq_comm]
      · have inRest : key ∈ rest.map Prod.fst := by simpa [same] using bound
        rw [ih _ unique.2 inRest]
        simp [same]

theorem ofList_eq_some_iff {bindings : List (K × V)} (unique : (bindings.map Prod.fst).Nodup)
    (key : K) (value : V) : ofList bindings key = some value ↔ (key, value) ∈ bindings := by
  by_cases bound : key ∈ bindings.map Prod.fst
  · exact insertAll_eq_some_iff _ _ unique bound value
  · rw [ofList, insertAll_eq_of_notMem _ _ bound]
    constructor
    · intro impossible
      cases impossible
    · exact fun member => absurd (List.mem_map_of_mem (f := Prod.fst) member) bound

theorem ofList_eq_none_iff {bindings : List (K × V)} (unique : (bindings.map Prod.fst).Nodup)
    (key : K) : ofList bindings key = none ↔ key ∉ bindings.map Prod.fst := by
  constructor
  · intro absent bound
    obtain ⟨⟨same, value⟩, member, rfl⟩ := List.mem_map.mp bound
    rw [(ofList_eq_some_iff unique same value).mpr member] at absent
    cases absent
  · exact fun fresh => insertAll_eq_of_notMem _ _ fresh

/-- A key has the value of its last binding. -/
theorem ofList_eq_getLast? (bindings : List (K × V)) (key : K) :
    ofList bindings key = (bindings.filterMap fun binding => if binding.1 = key then some binding.2 else none).getLast? := by
  induction bindings using List.reverseRecOn with
  | nil => rfl
  | append_singleton earlier binding ih =>
    rw [ofList, insertAll, List.foldl_append, List.foldl_cons, List.foldl_nil, ← insertAll, ← ofList, List.filterMap_append]
    by_cases same : binding.1 = key
    · simp [same]
    · rw [insert_other _ _ (Ne.symm same), ih]
      simp [same]

/-! ## Tables under corresponding keys -/

section Corresponding
variable {L : Type} [DecidableEq L]

/-- Two tables hold the same values under corresponding keys. -/
def Corresponds (names : K → L → Prop) (s : Table K V) (t : Table L V) : Prop :=
  ∀ k l, names k l → s k = t l

namespace Corresponds
variable {names : K → L → Prop} {s : Table K V} {t : Table L V} {key : K} {other : L}

theorem insert (same : Corresponds names s t) (unique : Relator.BiUnique names)
    (here : names key other) (value : V) :
    Corresponds names (s.insert key value) (t.insert other value) := by
  intro k l named
  by_cases hit : k = key
  · obtain rfl := (Relator.rel_eq unique named here).mp hit
    subst hit
    simp
  · have miss : l ≠ other := fun equal => hit ((Relator.rel_eq unique named here).mpr equal)
    rw [insert_other _ _ hit, insert_other _ _ miss, same k l named]

theorem erase (same : Corresponds names s t) (unique : Relator.BiUnique names)
    (here : names key other) : Corresponds names (s.erase key) (t.erase other) := by
  intro k l named
  by_cases hit : k = key
  · obtain rfl := (Relator.rel_eq unique named here).mp hit
    subst hit
    simp
  · have miss : l ≠ other := fun equal => hit ((Relator.rel_eq unique named here).mpr equal)
    rw [erase_other _ hit, erase_other _ miss, same k l named]

end Corresponds

end Corresponding

end Table

end McpTracer.Foundation
