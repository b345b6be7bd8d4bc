import Mathlib.Data.List.Basic
import Mathlib.Data.List.Infix

/-! Walking from a place in a tree of names, down into a name or up to the parent.

A place is the list of names that lead to it from the root. There is nothing above the root: a step up
stays there. What a walk does is said without its start: how far above the start it climbs, and which
names it goes down from there.
-/

set_option autoImplicit false

namespace McpTracer.Foundation

variable {A : Type}

inductive PathStep (A : Type) where
  | up
  | stay
  | down (name : A)
  deriving DecidableEq

def PathStep.from (place : List A) : PathStep A → List A
  | .up => place.dropLast
  | .stay => place
  | .down name => place ++ [name]

def walkFrom (place : List A) (steps : List (PathStep A)) : List A := steps.foldl PathStep.from place

@[simp] theorem walkFrom_nil (place : List A) : walkFrom place [] = place := rfl

@[simp] theorem walkFrom_cons (place : List A) (step : PathStep A) (steps : List (PathStep A)) :
    walkFrom place (step :: steps) = walkFrom (step.from place) steps := rfl

theorem walkFrom_append (place : List A) (first second : List (PathStep A)) :
    walkFrom place (first ++ second) = walkFrom (walkFrom place first) second :=
  List.foldl_append

theorem walkFrom_down (place names : List A) : walkFrom place (names.map .down) = place ++ names := by
  induction names generalizing place with
  | nil => simp
  | cons name names ih => simp [ih, PathStep.from]

theorem mem_walkFrom {place : List A} {steps : List (PathStep A)} {name : A} (member : name ∈ walkFrom place steps) :
    name ∈ place ∨ .down name ∈ steps := by
  induction steps generalizing place with
  | nil => exact .inl member
  | cons step steps ih =>
    rcases ih member with before | later
    · cases step with
      | up => exact .inl (List.mem_of_mem_dropLast before)
      | stay => exact .inl before
      | down added =>
        rcases List.mem_append.1 before with old | new
        · exact .inl old
        · exact .inr (List.mem_singleton.1 new ▸ List.mem_cons_self)
    · exact .inr (List.mem_cons_of_mem step later)

/-! ## A walk without its start -/

structure Ascent (A : Type) where
  /-- How many names of the start are left. -/
  climbs : Nat
  names : List A
  deriving DecidableEq

def Ascent.advance (ascent : Ascent A) : PathStep A → Ascent A
  | .up => if ascent.names.isEmpty then ⟨ascent.climbs + 1, []⟩ else ⟨ascent.climbs, ascent.names.dropLast⟩
  | .stay => ascent
  | .down name => ⟨ascent.climbs, ascent.names ++ [name]⟩

def ascent (steps : List (PathStep A)) : Ascent A := steps.foldl Ascent.advance ⟨0, []⟩

def Ascent.remaining (ascent : Ascent A) (place : List A) : List A := place.take (place.length - ascent.climbs)

def Ascent.climbed (ascent : Ascent A) (place : List A) : List A := place.drop (place.length - ascent.climbs)

def Ascent.reach (ascent : Ascent A) (place : List A) : List A := ascent.remaining place ++ ascent.names

theorem Ascent.remaining_append_climbed (ascent : Ascent A) (place : List A) :
    ascent.remaining place ++ ascent.climbed place = place :=
  List.take_append_drop _ _

theorem Ascent.reach_advance (ascent : Ascent A) (place : List A) (step : PathStep A) :
    (ascent.advance step).reach place = step.from (ascent.reach place) := by
  cases step with
  | stay => rfl
  | down name => simp [advance, reach, remaining, PathStep.from]
  | up =>
    obtain ⟨climbs, names⟩ := ascent
    cases names with
    | nil =>
      -- Everything below the start is gone, so the step leaves one of its names.
      have shorter : min (place.length - climbs - 1) place.length = place.length - (climbs + 1) := by omega
      simp [advance, reach, remaining, PathStep.from, List.dropLast_eq_take, List.take_take, shorter]
    | cons name names =>
      simp [advance, reach, remaining, PathStep.from, List.dropLast_append_of_ne_nil]

theorem walkFrom_reach (current : Ascent A) (place : List A) (steps : List (PathStep A)) :
    walkFrom (current.reach place) steps = (steps.foldl Ascent.advance current).reach place := by
  induction steps generalizing current with
  | nil => rfl
  | cons step steps ih => rw [walkFrom_cons, ← Ascent.reach_advance, ih, List.foldl_cons]

theorem walkFrom_eq_reach (place : List A) (steps : List (PathStep A)) :
    walkFrom place steps = (ascent steps).reach place := by
  have start : (⟨0, []⟩ : Ascent A).reach place = place := by simp [Ascent.reach, Ascent.remaining]
  rw [ascent, ← walkFrom_reach, start]

/-! ## Walks that end at the start or below it -/

/-- The names the walk goes down begin with those it has climbed over. -/
def Ascent.Reenters (ascent : Ascent A) (place : List A) : Prop := ascent.climbed place <+: ascent.names

instance [DecidableEq A] (ascent : Ascent A) (place : List A) : Decidable (ascent.Reenters place) :=
  inferInstanceAs (Decidable (_ <+: _))

theorem prefix_walkFrom_iff (place : List A) (steps : List (PathStep A)) :
    place <+: walkFrom place steps ↔ (ascent steps).Reenters place := by
  rw [walkFrom_eq_reach, Ascent.reach]
  conv_lhs => lhs; rw [← (ascent steps).remaining_append_climbed place]
  exact List.prefix_append_right_inj _

theorem foldl_advance_climbs (current : Ascent A) {steps : List (PathStep A)} (never : PathStep.up ∉ steps) :
    (steps.foldl Ascent.advance current).climbs = current.climbs := by
  induction steps generalizing current with
  | nil => rfl
  | cons step steps ih =>
    rw [List.mem_cons, not_or] at never
    rw [List.foldl_cons, ih _ never.2]
    cases step with
    | up => exact absurd rfl never.1
    | stay => rfl
    | down name => rfl

theorem reenters_of_climbs {ascent : Ascent A} (none : ascent.climbs = 0) (place : List A) :
    ascent.Reenters place := by
  simp [Ascent.Reenters, Ascent.climbed, none]

theorem prefix_walkFrom_of_never_up (place : List A) {steps : List (PathStep A)} (never : PathStep.up ∉ steps) :
    place <+: walkFrom place steps :=
  (prefix_walkFrom_iff place steps).2 (reenters_of_climbs (foldl_advance_climbs ⟨0, []⟩ never) place)

end McpTracer.Foundation
