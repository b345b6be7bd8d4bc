import McpTracer.Foundation.Outcome

/-! Computations that keep the state in which they fail.

A computation that loses its state with a failure has the same outcome as one that keeps it. What the
steps of a computation preserve, or leave behind when they fail, the whole computation does.
-/

set_option autoImplicit false

namespace McpTracer.Foundation

variable {E S A B : Type}

/-- The outcome without the state of a failure. -/
def completed : EStateM.Result E S A → Except E (A × S)
  | .ok a state => .ok (a, state)
  | .error failure _ => .error failure

/-- An outcome that does not depend on the state. -/
def settled (outcome : Except E A) : EStateM E S A := fun state =>
  match outcome with
  | .ok a => .ok a state
  | .error failure => .error failure state

theorem completed_settled (outcome : Except E A) (state : S) :
    completed (settled outcome state) = (fun a => (a, state)) <$> outcome := by
  cases outcome <;> rfl

theorem bind_ok {first : EStateM E S A} {second : A → EStateM E S B} {state after : S} {a : A}
    (done : first state = .ok a after) : (first >>= second) state = second a after := by
  change EStateM.bind first second state = second a after
  rw [EStateM.bind, done]

theorem bind_error {first : EStateM E S A} {second : A → EStateM E S B} {state after : S} {failure : E}
    (failed : first state = .error failure after) : (first >>= second) state = .error failure after := by
  change EStateM.bind first second state = .error failure after
  rw [EStateM.bind, failed]

theorem completed_bind (first : EStateM E S A) (second : A → EStateM E S B) (state : S) :
    completed ((first >>= second) state) =
      completed (first state) >>= fun done => completed (second done.1 done.2) := by
  cases outcome : first state with
  | ok a after =>
    rw [bind_ok outcome]
    rfl
  | error failure after =>
    rw [bind_error outcome]
    rfl

/-- Step by step, a computation has the outcome of one that loses the state of a failure. -/
theorem completed_bind_of {C D : Type} {first : EStateM E S A} {second : A → EStateM E S B} {state : S}
    {outcome : Except E C} {given : C → A × S} {rest : C → Except E D} {result : D → B × S}
    (same : completed (first state) = given <$> outcome)
    (later : ∀ c, completed (second (given c).1 (given c).2) = result <$> rest c) :
    completed ((first >>= second) state) = result <$> (outcome >>= rest) := by
  rw [completed_bind, same]
  cases outcome with
  | error failure => rfl
  | ok c => exact later c

/-! ## Invariants -/

/-- The invariant holds afterwards, or the failure has left the state in some way. -/
def Keeps (holds : S → Prop) (leaves : E → S → Prop) (computation : EStateM E S A) : Prop :=
  ∀ state, holds state →
    match computation state with
    | .ok _ after => holds after
    | .error failure after => leaves failure after

section
variable {holds : S → Prop} {leaves : E → S → Prop}

theorem Keeps.pure (a : A) : Keeps holds leaves (pure a : EStateM E S A) := fun _ before => before

theorem Keeps.settled (undisturbed : ∀ failure state, holds state → leaves failure state) (outcome : Except E A) :
    Keeps holds leaves (settled outcome) := by
  intro state before
  cases outcome with
  | ok a => exact before
  | error failure => exact undisturbed failure state before

theorem Keeps.bind {first : EStateM E S A} {second : A → EStateM E S B} (keeps : Keeps holds leaves first)
    (later : ∀ a, Keeps holds leaves (second a)) : Keeps holds leaves (first >>= second) := by
  intro state before
  have middle := keeps state before
  cases outcome : first state with
  | ok a after =>
    rw [outcome] at middle
    rw [bind_ok outcome]
    exact later a after middle
  | error failure after =>
    rw [outcome] at middle
    rwa [bind_error outcome]

end

end McpTracer.Foundation
