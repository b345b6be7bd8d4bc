import Mathlib.Data.List.Basic

/-! Computations that succeed with a value or stop at the first failure. -/

set_option autoImplicit false

namespace McpTracer.Foundation

variable {E A B : Type}

/-- An optional value that must be there. -/
def require (value : Option A) (failure : E) : Except E A := value.elim (.error failure) .ok

@[simp] theorem require_some (a : A) (failure : E) : require (some a) failure = .ok a := rfl

@[simp] theorem require_none (failure : E) : require (none : Option A) failure = .error failure := rfl

@[simp] theorem require_eq_ok_iff {value : Option A} {failure : E} {a : A} :
    require value failure = .ok a ↔ value = some a := by
  cases value <;> simp

@[simp] theorem require_eq_error_iff {value : Option A} {failure other : E} :
    require value failure = .error other ↔ value = none ∧ failure = other := by
  cases value <;> simp

/-- A condition that must hold. -/
def ensure (condition : Bool) (failure : E) : Except E Unit := if condition then .ok () else .error failure

@[simp] theorem ensure_eq_ok_iff {condition : Bool} {failure : E} {done : Unit} :
    ensure condition failure = .ok done ↔ condition = true := by
  cases condition <;> simp [ensure]

/-- Two steps succeed when the first does and the second does on its value. -/
@[simp] theorem bind_eq_ok_iff {first : Except E A} {second : A → Except E B} {b : B} :
    (first >>= second) = .ok b ↔ ∃ a, first = .ok a ∧ second a = .ok b := by
  cases first with
  | error failure =>
    constructor
    · intro impossible
      cases impossible
    · rintro ⟨a, impossible, -⟩
      cases impossible
  | ok a =>
    constructor
    · exact fun done => ⟨a, rfl, done⟩
    · rintro ⟨_, same, done⟩
      cases same
      exact done

@[simp] theorem bind_eq_error_iff {first : Except E A} {second : A → Except E B} {failure : E} :
    (first >>= second) = .error failure ↔
      first = .error failure ∨ ∃ a, first = .ok a ∧ second a = .error failure := by
  cases first with
  | error other =>
    constructor
    · exact fun failed => .inl (by cases failed; rfl)
    · rintro (same | ⟨a, impossible, -⟩)
      · cases same
        rfl
      · cases impossible
  | ok a =>
    constructor
    · exact fun failed => .inr ⟨a, rfl, failed⟩
    · rintro (impossible | ⟨_, same, failed⟩)
      · cases impossible
      · cases same
        exact failed

@[simp] theorem map_eq_error_iff {f : A → B} {first : Except E A} {failure : E} :
    f <$> first = .error failure ↔ first = .error failure := by
  cases first with
  | error other => exact ⟨fun same => by cases same; rfl, fun same => by cases same; rfl⟩
  | ok a => constructor <;> (intro impossible; cases impossible)

theorem mapError_eq_ok_iff {F : Type} {f : E → F} {outcome : Except E A} {a : A} :
    outcome.mapError f = .ok a ↔ outcome = .ok a := by
  cases outcome <;> simp [Except.mapError]

theorem mapError_eq_error_iff {F : Type} {f : E → F} {outcome : Except E A} {failure : F} :
    outcome.mapError f = .error failure ↔ ∃ cause, outcome = .error cause ∧ f cause = failure := by
  cases outcome <;> simp [Except.mapError]

@[simp] theorem pure_eq_ok_iff {a b : A} : (pure a : Except E A) = .ok b ↔ a = b :=
  ⟨fun same => by cases same; rfl, fun same => by cases same; rfl⟩

@[simp] theorem pure_ne_error {a : A} {failure : E} : (pure a : Except E A) ≠ .error failure :=
  fun impossible => nomatch impossible

end McpTracer.Foundation
