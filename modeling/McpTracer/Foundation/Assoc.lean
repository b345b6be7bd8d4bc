import Mathlib.Data.List.Forall2
import Mathlib.Data.List.Nodup

/-! Lookups in association lists. -/

set_option autoImplicit false

namespace McpTracer.Foundation

variable {K V : Type} [BEq K] [LawfulBEq K]

theorem lookup_isSome_iff (fs : List (K × V)) (key : K) :
    (fs.lookup key).isSome = true ↔ key ∈ fs.map Prod.fst := by
  rw [List.lookup_isSome_iff]
  simp only [List.mem_map, beq_iff_eq]
  exact ⟨fun ⟨field, member, same⟩ => ⟨field, member, same.symm⟩,
    fun ⟨field, member, same⟩ => ⟨field, member, same.symm⟩⟩

theorem lookup_cons_same (key : K) (v : V) (fs : List (K × V)) :
    ((key, v) :: fs).lookup key = some v := by simp

theorem lookup_cons_other {key name : K} (differs : key ≠ name) (v : V) (fs : List (K × V)) :
    ((name, v) :: fs).lookup key = fs.lookup key := by
  have unequal : (key == name) = false := by simpa using differs
  rw [List.lookup_cons, unequal]

theorem mem_of_lookup {fs : List (K × V)} {key : K} {v : V}
    (found : fs.lookup key = some v) : (key, v) ∈ fs := by
  induction fs with
  | nil => cases found
  | cons field rest ih =>
      obtain ⟨name, value⟩ := field
      by_cases same : key = name
      · subst same
        rw [lookup_cons_same, Option.some.injEq] at found
        exact found ▸ List.mem_cons_self
      · rw [lookup_cons_other same] at found
        exact List.mem_cons_of_mem _ (ih found)

theorem lookup_eq_some_iff {fs : List (K × V)} (unique : (fs.map Prod.fst).Nodup)
    (key : K) (v : V) : fs.lookup key = some v ↔ (key, v) ∈ fs := by
  refine ⟨mem_of_lookup, fun member => ?_⟩
  have bound : (fs.lookup key).isSome = true :=
    (lookup_isSome_iff fs key).mpr (List.mem_map_of_mem (f := Prod.fst) member)
  obtain ⟨w, found⟩ := Option.isSome_iff_exists.mp bound
  have same := List.inj_on_of_nodup_map unique (mem_of_lookup found) member rfl
  rw [found, (Prod.mk.inj same).2]

/-- Lists with the same keys find the members at one position. -/
theorem lookup_aligned {fs gs : List (K × V)} (keys : fs.map Prod.fst = gs.map Prod.fst)
    {key : K} {x y : V} (left : fs.lookup key = some x) (right : gs.lookup key = some y) :
    ∃ n : Nat, fs[n]? = some (key, x) ∧ gs[n]? = some (key, y) := by
  induction fs generalizing gs with
  | nil => cases left
  | cons f fs ih =>
      cases gs with
      | nil => cases right
      | cons g gs =>
          obtain ⟨name, v⟩ := f
          obtain ⟨other, w⟩ := g
          simp only [List.map_cons, List.cons.injEq] at keys
          obtain ⟨rfl, rest⟩ := keys
          by_cases same : key = name
          · subst same
            rw [lookup_cons_same, Option.some.injEq] at left right
            exact ⟨0, by simp [left], by simp [right]⟩
          · rw [lookup_cons_other same] at left right
            obtain ⟨n, here, there⟩ := ih rest left right
            exact ⟨n + 1, by simpa using here, by simpa using there⟩

omit [LawfulBEq K] in
/-- Lists with the same keys and related members look up related members. -/
theorem lookup_forall₂ {R : V → V → Prop} {fs gs : List (K × V)}
    (related : List.Forall₂ (fun f g => f.1 = g.1 ∧ R f.2 g.2) fs gs) (key : K) :
    Option.Rel R (fs.lookup key) (gs.lookup key) := by
  induction related with
  | nil => exact .none
  | @cons f g fs gs head _ ih =>
      obtain ⟨name, v⟩ := f
      obtain ⟨other, w⟩ := g
      obtain ⟨rfl, member⟩ := head
      rw [List.lookup_cons, List.lookup_cons]
      cases key == name with
      | true => exact .some member
      | false => exact ih

/-- Dropping a key drops what is found under it. -/
theorem lookup_filter_ne [DecidableEq K] (dropped key : K) (fs : List (K × V)) :
    (fs.filter fun f => f.1 ≠ dropped).lookup key = if key = dropped then none else fs.lookup key := by
  induction fs with
  | nil => simp
  | cons f fs ih =>
      obtain ⟨name, v⟩ := f
      by_cases gone : name = dropped
      · subst gone
        by_cases same : key = name
        · simpa [same] using ih
        · simpa [same, lookup_cons_other same] using ih
      · by_cases here : key = name
        · subst here
          simp [gone]
        · simpa [gone, lookup_cons_other here] using ih

end McpTracer.Foundation
