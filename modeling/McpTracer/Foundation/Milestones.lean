import Mathlib.Data.List.Basic

/-! Plans that a run carries out whatever else it does.

No step takes a run back. If each step of a plan takes it further from where the step before has left it, then the
whole plan is carried out by any steps among which those of the plan come in order.
-/

set_option autoImplicit false

namespace McpTracer.Foundation

variable {S E : Type}

/-- How far a run has come, as long as it takes only the permitted steps. -/
structure Milestones (step : S → E → S) (within : S → Prop) (permitted : E → Prop) where
  reached : S → Nat
  stays : ∀ state event, permitted event → within state → within (step state event)
  keeps : ∀ state event, permitted event → within state → reached state ≤ reached (step state event)

namespace Milestones
variable {step : S → E → S} {within : S → Prop} {permitted : E → Prop} (along : Milestones step within permitted)

/-- The steps of the plan each raise a state from the place that the step has in the plan. -/
def Raises : List E → Nat → Prop
  | [], _ => True
  | event :: rest, place =>
    (∀ state, within state → along.reached state = place → place < along.reached (step state event)) ∧
      Raises rest (place + 1)

variable {along}

theorem Raises.append {first second : List E} {place : Nat} (raises : along.Raises first place)
    (later : along.Raises second (place + first.length)) : along.Raises (first ++ second) place := by
  induction first generalizing place with
  | nil => exact later
  | cons event rest ih =>
    rw [List.length_cons, Nat.add_comm _ 1, ← Nat.add_assoc] at later
    exact ⟨raises.1, ih raises.2 later⟩

theorem Raises.replicate {event : E} {count place : Nat} (raises : ∀ index, index < count → ∀ state, within state →
    along.reached state = place + index → place + index < along.reached (step state event)) :
    along.Raises (List.replicate count event) place := by
  induction count generalizing place with
  | zero => trivial
  | succ count ih =>
    refine ⟨raises 0 (Nat.succ_pos _), ih fun index below state holds reached => ?_⟩
    have further := raises (index + 1) (Nat.succ_lt_succ below) state holds (by omega)
    omega

theorem carriesOut {plan events : List E} (among : plan.Sublist events) {start : Nat}
    (raises : along.Raises plan start) (allowed : ∀ event ∈ events, permitted event) {state : S}
    (holds : within state) (begun : start ≤ along.reached state) :
    start + plan.length ≤ along.reached (events.foldl step state) := by
  induction among generalizing state start with
  | slnil => exact begun
  | cons event _ ih =>
    have permits := allowed event List.mem_cons_self
    exact ih raises (fun other member => allowed other (List.mem_cons_of_mem _ member))
      (along.stays state event permits holds) (Nat.le_trans begun (along.keeps state event permits holds))
  | @cons_cons rest others event _ ih =>
    have permits := allowed event List.mem_cons_self
    have further : start + 1 ≤ along.reached (step state event) := by
      rcases Nat.eq_or_lt_of_le begun with here | beyond
      · exact here ▸ raises.1 state holds here.symm
      · exact Nat.lt_of_lt_of_le beyond (along.keeps state event permits holds)
    have later := ih raises.2 (fun other member => allowed other (List.mem_cons_of_mem _ member))
      (along.stays state event permits holds) further
    rw [List.length_cons, List.foldl_cons]
    omega

end Milestones

end McpTracer.Foundation
