import Mathlib.Data.List.Induction
import McpTracer.Foundation.Table

/-! Matching closing events with the latest open one, under a key.

An event may open a key with a value, close a key, or leave the table alone.
Opening again replaces the value. The result of a run is characterised by the
event list itself: a key is bound to a value exactly when the last event that
touches the key opened it with that value.
-/

set_option autoImplicit false

namespace McpTracer.Foundation

/-- A place in an extended list is the last one, or a place in the list before. -/
theorem concat_place {A : Type} {xs before after : List A} {last x : A}
    (shape : xs ++ [last] = before ++ x :: after) :
    (before = xs ∧ x = last ∧ after = []) ∨
      ∃ middle, after = middle ++ [last] ∧ xs = before ++ x :: middle := by
  rcases List.eq_nil_or_concat after with rfl | ⟨middle, final, rfl⟩
  · obtain ⟨rfl, same⟩ := List.append_inj' shape rfl
    exact .inl ⟨rfl, by simpa using same.symm, rfl⟩
  · have split : xs ++ [last] = (before ++ x :: middle) ++ [final] := by simpa using shape
    obtain ⟨rfl, same⟩ := List.append_inj' split rfl
    obtain rfl : last = final := by simpa using same
    exact .inr ⟨middle, by simp, rfl⟩

inductive Effect (K V : Type) where
  | opens (key : K) (value : V)
  | closes (key : K)
  | keeps
  deriving DecidableEq

namespace Effect

variable {K V : Type}

def Touches (effect : Effect K V) (key : K) : Prop :=
  match effect with
  | .opens opened _ => opened = key
  | .closes closed => closed = key
  | .keeps => False

variable [DecidableEq K]

def apply (table : Table K V) : Effect K V → Table K V
  | .opens key value => table.insert key value
  | .closes key => table.erase key
  | .keeps => table

theorem apply_of_not_touches (table : Table K V) (effect : Effect K V) {key : K}
    (untouched : ¬ effect.Touches key) : effect.apply table key = table key := by
  cases effect with
  | opens opened value => exact Table.insert_other _ _ fun same => untouched same.symm
  | closes closed => exact Table.erase_other _ fun same => untouched same.symm
  | keeps => rfl

theorem apply_eq_some_iff (table : Table K V) (effect : Effect K V) (key : K) (value : V) :
    effect.apply table key = some value ↔
      effect = .opens key value ∨ (table key = some value ∧ ¬ effect.Touches key) := by
  by_cases touched : effect.Touches key
  · cases effect with
    | opens opened first =>
        obtain rfl : opened = key := touched
        simp [apply, Touches]
    | closes closed =>
        obtain rfl : closed = key := touched
        simp [apply, Touches]
    | keeps => exact touched.elim
  · rw [apply_of_not_touches _ _ touched]
    have notOpening : effect ≠ .opens key value := fun same => touched (same ▸ rfl)
    simp [touched, notOpening]

/-- The table after a run of events from the empty table. -/
def pending (effects : List (Effect K V)) : Table K V :=
  effects.foldl apply Table.empty

@[simp] theorem pending_nil : pending ([] : List (Effect K V)) = Table.empty := rfl

theorem pending_concat (effects : List (Effect K V)) (effect : Effect K V) :
    pending (effects ++ [effect]) = effect.apply (pending effects) := by
  simp [pending]

theorem pending_eq_some_iff (effects : List (Effect K V)) (key : K) (value : V) :
    pending effects key = some value ↔
      ∃ before after, effects = before ++ .opens key value :: after ∧
        ∀ effect ∈ after, ¬ effect.Touches key := by
  induction effects using List.reverseRecOn with
  | nil => simp [Table.empty]
  | append_singleton effects last ih =>
      rw [pending_concat, apply_eq_some_iff, ih]
      constructor
      · rintro (rfl | ⟨⟨before, after, rfl, untouched⟩, kept⟩)
        · exact ⟨effects, [], rfl, by simp⟩
        · refine ⟨before, after ++ [last], by simp, ?_⟩
          simpa [or_imp, forall_and] using ⟨untouched, kept⟩
      · rintro ⟨before, after, shape, untouched⟩
        rcases concat_place shape with ⟨-, opened, -⟩ | ⟨middle, rfl, rfl⟩
        · exact .inl opened.symm
        · exact .inr ⟨⟨before, middle, rfl, fun effect member => untouched effect (by simp [member])⟩,
            untouched last (by simp)⟩

end Effect

end McpTracer.Foundation
