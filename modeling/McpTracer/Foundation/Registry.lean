import McpTracer.Foundation.Assoc

/-! Registers: values under keys, each key at most once.

A value is changed in place, and entries are taken out by a condition on them.
-/

set_option autoImplicit false

namespace McpTracer.Foundation

variable {A B K V : Type}

/-- Change the value under a key. -/
def amend [DecidableEq K] (key : K) (change : V → V) (entries : List (K × V)) : List (K × V) :=
  entries.map fun entry => if entry.1 = key then (key, change entry.2) else entry

section
variable [DecidableEq K] {key : K} {change : V → V} {entries : List (K × V)}

theorem map_amend_kept {image : K × V → B} (kept : ∀ value, image (key, change value) = image (key, value)) :
    (amend key change entries).map image = entries.map image := by
  rw [amend, List.map_map]
  refine List.map_congr_left fun entry _ => ?_
  obtain ⟨name, value⟩ := entry
  by_cases same : name = key
  · subst same
    simp [kept]
  · simp [same]

theorem keys_amend : (amend key change entries).map Prod.fst = entries.map Prod.fst :=
  map_amend_kept fun _ => rfl

theorem length_amend : (amend key change entries).length = entries.length := List.length_map ..

theorem mem_amend {name : K} {value : V} (member : (name, value) ∈ amend key change entries) :
    (name ≠ key ∧ (name, value) ∈ entries) ∨ (name = key ∧ ∃ old, (key, old) ∈ entries ∧ value = change old) := by
  obtain ⟨⟨other, old⟩, before, same⟩ := List.mem_map.1 member
  dsimp only at same
  split_ifs at same with hit
  · cases same
    exact .inr ⟨rfl, old, hit ▸ before, rfl⟩
  · cases same
    exact .inl ⟨hit, before⟩

theorem mem_amend_same {old : V} (member : (key, old) ∈ entries) : (key, change old) ∈ amend key change entries :=
  List.mem_map.2 ⟨(key, old), member, if_pos rfl⟩

theorem mem_amend_other {name : K} {value : V} (differs : name ≠ key) (member : (name, value) ∈ entries) :
    (name, value) ∈ amend key change entries := List.mem_map.2 ⟨(name, value), member, if_neg differs⟩

end

/-- Two entries under one key are one. -/
theorem entry_unique {entries : List (K × V)} (unique : (entries.map Prod.fst).Nodup) {key : K} {value other : V}
    (here : (key, value) ∈ entries) (there : (key, other) ∈ entries) : value = other :=
  congrArg Prod.snd (List.inj_on_of_nodup_map unique here there rfl)

/-! ## Counting -/

/-- One element is changed: the others count as before. -/
theorem countP_modify {p : A → Bool} {change : A → A} {xs : List A} {index : Nat} {old : A}
    (found : xs[index]? = some old) :
    (xs.modify index change).countP p + (p old).toNat = xs.countP p + (p (change old)).toNat := by
  induction xs generalizing index with
  | nil => cases found
  | cons first rest ih =>
    cases index with
    | zero =>
      obtain rfl := Option.some.inj found
      rw [List.modify_zero_cons, List.countP_cons, List.countP_cons]
      cases p first <;> cases p (change first) <;> simp
    | succ index =>
      have others := @ih index found
      rw [List.modify_succ_cons, List.countP_cons, List.countP_cons]
      omega

end McpTracer.Foundation
