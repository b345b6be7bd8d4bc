import Mathlib.Data.List.Basic

/-! Lists of texts between a separator and a closing character.

A text can be told apart when no other text of its kind continues it in front of
what may follow. Then the list can be told apart from the elements.
-/

set_option autoImplicit false

namespace McpTracer.Foundation

variable {E : Type}

/-- No other text that is followed by an ending starts as this one does. -/
def ToldApart (kind : E → Prop) (ends : List Char → Prop) (text : E → List Char) (x : E) : Prop :=
  ∀ y r s, kind y → ends r → ends s → text x ++ r = text y ++ s → x = y ∧ r = s

section Lists
variable {kind : E → Prop} {ends : List Char → Prop} {text : E → List Char} {separator close : Char}

/-- The text of the elements that follow the first one. -/
def followers (separator : Char) (text : E → List Char) : List E → List Char
  | [] => []
  | x :: rest => separator :: (text x ++ followers separator text rest)

theorem intercalate_cons (separator : Char) (text : E → List Char) (x : E) (rest : List E) :
    [separator].intercalate ((x :: rest).map text) = text x ++ followers separator text rest := by
  induction rest generalizing x with
  | nil => simp [followers]
  | cons y rest ih =>
      rw [List.map_cons, List.map_cons, List.intercalate_cons_cons, ← List.map_cons, ih y]
      simp [followers]

/-- What follows an element ends it. -/
theorem ends_followers (separated : ∀ rest, ends (separator :: rest)) (closed : ∀ rest, ends (close :: rest)) (xs : List E)
    (rest : List Char) : ends (followers separator text xs ++ close :: rest) := by
  cases xs with
  | nil => exact closed rest
  | cons x xs => exact separated _

theorem followers_unique (apart : separator ≠ close) (separated : ∀ rest, ends (separator :: rest))
    (closed : ∀ rest, ends (close :: rest)) {xs ys : List E} (toldApart : ∀ x ∈ xs, ToldApart kind ends text x)
    (kinds : ∀ y ∈ ys, kind y) {r s : List Char}
    (same : followers separator text xs ++ close :: r = followers separator text ys ++ close :: s) : xs = ys ∧ r = s := by
  induction xs generalizing ys with
  | nil =>
      cases ys with
      | nil => exact ⟨rfl, (List.cons.inj same).2⟩
      | cons y ys => exact absurd (List.cons.inj same).1.symm apart
  | cons x xs ih =>
      cases ys with
      | nil => exact absurd (List.cons.inj same).1 apart
      | cons y ys =>
          obtain ⟨first, others⟩ := List.forall_mem_cons.1 toldApart
          obtain ⟨kindFirst, kindOthers⟩ := List.forall_mem_cons.1 kinds
          simp only [followers, List.cons_append, List.append_assoc, List.cons.injEq, true_and] at same
          obtain ⟨rfl, rest⟩ := first y _ _ kindFirst (ends_followers separated closed xs r)
            (ends_followers separated closed ys s) same
          obtain ⟨rfl, ending⟩ := ih others kindOthers rest
          exact ⟨rfl, ending⟩

/-- A list is determined by its text up to the closing character. -/
theorem intercalate_unique (apart : separator ≠ close) (separated : ∀ rest, ends (separator :: rest))
    (closed : ∀ rest, ends (close :: rest)) (opens : ∀ x rest, kind x → (text x ++ rest).head? ≠ some close)
    {xs ys : List E} (toldApart : ∀ x ∈ xs, ToldApart kind ends text x) (left : ∀ x ∈ xs, kind x)
    (right : ∀ y ∈ ys, kind y) {r s : List Char}
    (same : [separator].intercalate (xs.map text) ++ close :: r = [separator].intercalate (ys.map text) ++ close :: s) :
    xs = ys ∧ r = s := by
  cases xs with
  | nil =>
      cases ys with
      | nil => exact ⟨rfl, (List.cons.inj same).2⟩
      | cons y ys =>
          rw [intercalate_cons, List.append_assoc] at same
          exact absurd (congrArg List.head? same).symm (opens y _ (right y List.mem_cons_self))
  | cons x xs =>
      cases ys with
      | nil =>
          rw [intercalate_cons, List.append_assoc] at same
          exact absurd (congrArg List.head? same) (opens x _ (left x List.mem_cons_self))
      | cons y ys =>
          refine followers_unique apart separated closed toldApart right ?_
          rw [intercalate_cons, intercalate_cons] at same
          exact congrArg (List.cons separator) same

end Lists

end McpTracer.Foundation
