import Mathlib.Data.List.Basic
import Mathlib.Data.List.Infix

/-! Runs that stop by themselves.

A step may stop the run; nothing after it is taken. Where it stops is the first
event that is over a limit, if what stops a step is read off the events before.
-/

set_option autoImplicit false

namespace McpTracer.Foundation

structure Stoppable (S E : Type) where
  step : S → E → S
  stopped : S → Bool

/-- The first event that is over a limit, and the events before it. -/
structure FirstOver {E : Type} (beyond : List E → E → Prop) (events front : List E) (event : E) : Prop where
  here : front ++ [event] <+: events
  exceeds : beyond front event
  first : ∀ shorter other, shorter ++ [other] <+: front → ¬ beyond shorter other

namespace Stoppable
variable {S E : Type} (m : Stoppable S E)

def run : S → List E → S
  | state, [] => state
  | state, event :: rest => if m.stopped state then state else run (m.step state event) rest

/-- The events up to the one that stops the run. -/
def taken : S → List E → List E
  | _, [] => []
  | state, event :: rest =>
    if m.stopped (m.step state event) then [] else event :: taken (m.step state event) rest

section Runs
variable {m} {state : S} {event : E} {events front : List E}

theorem run_of_stopped (stopped : m.stopped state = true) (events : List E) : m.run state events = state := by
  cases events with
  | nil => rfl
  | cons event rest => rw [run, if_pos stopped]

theorem run_cons (running : m.stopped state = false) (event : E) (rest : List E) :
    m.run state (event :: rest) = m.run (m.step state event) rest := by
  rw [run, running, if_neg Bool.false_ne_true]

theorem run_append (front back : List E) (state : S) :
    m.run state (front ++ back) = m.run (m.run state front) back := by
  induction front generalizing state with
  | nil => rfl
  | cons event rest ih =>
      cases stopped : m.stopped state with
      | true => rw [run_of_stopped stopped, run_of_stopped stopped, run_of_stopped stopped]
      | false => rw [List.cons_append, run_cons stopped, run_cons stopped, ih]

theorem run_concat (running : m.stopped (m.run state front) = false) (event : E) :
    m.run state (front ++ [event]) = m.step (m.run state front) event := by
  rw [run_append, run_cons running]
  rfl

theorem run_preserves {holds : S → Prop} (steps : ∀ state event, holds state → holds (m.step state event))
    (first : holds state) (events : List E) : holds (m.run state events) := by
  induction events generalizing state with
  | nil => exact first
  | cons event rest ih =>
      rw [run]
      split_ifs
      · exact first
      · exact ih (steps state event first)

/-- A run that goes on has gone on before. -/
theorem running_of_shorter (shorter : front <+: events) (running : m.stopped (m.run state events) = false) :
    m.stopped (m.run state front) = false := by
  obtain ⟨back, rfl⟩ := shorter
  rw [run_append] at running
  cases stopped : m.stopped (m.run state front) with
  | false => rfl
  | true =>
      rw [run_of_stopped stopped, stopped] at running
      exact running

/-- A run that has stopped does not go on. -/
theorem run_of_shorter (shorter : front <+: events) (stopped : m.stopped (m.run state front) = true) :
    m.run state events = m.run state front := by
  obtain ⟨back, rfl⟩ := shorter
  rw [run_append, run_of_stopped stopped]

end Runs

/-! ## Limits -/

section Limits
variable {m} {state : S} {beyond : List E → E → Prop} {events front : List E} {event : E}

/-- A run goes on as long as no event is over a limit. -/
theorem running_iff (running : m.stopped state = false)
    (stops : ∀ front event, m.stopped (m.run state front) = false →
      (m.stopped (m.step (m.run state front) event) = true ↔ beyond front event)) :
    m.stopped (m.run state events) = false ↔ ∀ front event, front ++ [event] <+: events → ¬ beyond front event := by
  -- The last event is looked at only if the run got that far.
  induction events using List.reverseRecOn with
  | nil => simpa [run] using running
  | append_singleton init last ih =>
      constructor
      · intro running front event shorter
        have before := running_of_shorter (List.prefix_append init [last]) running
        rcases List.prefix_concat_iff.1 shorter with whole | inside
        · obtain ⟨rfl, same⟩ := List.append_inj' whole rfl
          obtain rfl := List.head_eq_of_cons_eq same
          rw [run_concat before] at running
          rw [← stops _ _ before, running]
          exact Bool.false_ne_true
        · exact ih.1 before front event inside
      · intro within
        have before := ih.2 fun front event inside => within front event (inside.trans (List.prefix_append init [last]))
        rw [run_concat before, ← Bool.not_eq_true, stops _ _ before]
        exact within init last (List.prefix_refl _)

/-- A run that has stopped did so at the first event that is over a limit. -/
theorem exists_firstOver (running : m.stopped state = false)
    (stops : ∀ front event, m.stopped (m.run state front) = false →
      (m.stopped (m.step (m.run state front) event) = true ↔ beyond front event))
    (stopped : m.stopped (m.run state events) = true) : ∃ front event, FirstOver beyond events front event := by
  induction events using List.reverseRecOn with
  | nil =>
      rw [run, running] at stopped
      cases stopped
  | append_singleton init last ih =>
      cases before : m.stopped (m.run state init) with
      | true =>
          obtain ⟨front, event, cut⟩ := ih before
          exact ⟨front, event, cut.here.trans (List.prefix_append init [last]), cut.exceeds, cut.first⟩
      | false =>
          rw [run_concat before] at stopped
          exact ⟨init, last, List.prefix_refl _, (stops _ _ before).1 stopped, (running_iff running stops).1 before⟩

/-- The first event that is over a limit is the last one that the run looks at. -/
theorem run_of_firstOver (running : m.stopped state = false)
    (stops : ∀ front event, m.stopped (m.run state front) = false →
      (m.stopped (m.step (m.run state front) event) = true ↔ beyond front event))
    (cut : FirstOver beyond events front event) :
    m.stopped (m.run state front) = false ∧ m.run state events = m.step (m.run state front) event := by
  have before := (running_iff running stops).2 cut.first
  have here := run_concat before event
  refine ⟨before, ?_⟩
  rw [← here]
  refine run_of_shorter cut.here ?_
  rw [here]
  exact (stops _ _ before).2 cut.exceeds

end Limits

/-! ## What was taken -/

section Taken
variable {m} {state : S}

theorem taken_shorter (events : List E) (state : S) : m.taken state events <+: events := by
  induction events generalizing state with
  | nil => exact List.prefix_refl _
  | cons event rest ih =>
      rw [taken]
      split_ifs
      · exact List.nil_prefix
      · exact List.prefix_cons_iff.2 (.inr ⟨_, rfl, ih _⟩)

/-- Nothing that was taken has stopped the run. -/
theorem mem_taken {event : E} {events : List E} (member : event ∈ m.taken state events) :
    ∃ earlier, m.stopped (m.step earlier event) = false := by
  induction events generalizing state with
  | nil => cases member
  | cons head rest ih =>
      rw [taken] at member
      split_ifs at member with stopped
      · cases member
      · rcases List.mem_cons.1 member with rfl | later
        · exact ⟨state, Bool.eq_false_iff.2 stopped⟩
        · exact ih later

/-- After a part that stops nothing more is taken. -/
theorem taken_append (running : m.stopped state = false) (front back : List E) :
    m.taken state (front ++ back) = m.taken state front ++
      if m.stopped (m.run state front) then [] else m.taken (m.run state front) back := by
  induction front generalizing state with
  | nil => rw [run, running, if_neg Bool.false_ne_true, List.nil_append, taken, List.nil_append]
  | cons event rest ih =>
      rw [List.cons_append, taken, taken, run_cons running]
      cases stopped : m.stopped (m.step state event) with
      | true => rw [if_pos rfl, if_pos rfl, run_of_stopped stopped, if_pos stopped, List.nil_append]
      | false => rw [if_neg Bool.false_ne_true, if_neg Bool.false_ne_true, ih stopped, List.cons_append]

/-- Of a kind of event that only one part has, no more is taken of all parts than of that one. -/
theorem countP_taken_flatMap {A K : Type} {weight : E → Bool} {key : A → K} {part : A → List E} {k : K} {bound : Nat}
    {items : List A} (distinct : items.Pairwise fun a b => key a ≠ key b)
    (others : ∀ item ∈ items, key item ≠ k → (part item).countP weight = 0)
    (bounded : ∀ item ∈ items, key item = k → ∀ state, m.stopped state = false →
      (m.taken state (part item)).countP weight ≤ bound)
    (running : m.stopped state = false) : (m.taken state (items.flatMap part)).countP weight ≤ bound := by
  induction items generalizing state with
  | nil => exact Nat.zero_le _
  | cons item rest ih =>
      obtain ⟨apart, distinct⟩ := List.pairwise_cons.1 distinct
      rw [List.flatMap_cons, taken_append running, List.countP_append]
      by_cases mine : key item = k
      · -- This part has the events of the kind, and no later one has any.
        have none : ((rest.flatMap part).countP weight) = 0 := by
          rw [List.countP_eq_zero]
          intro event member
          obtain ⟨other, listed, inside⟩ := List.mem_flatMap.1 member
          have unlike := others other (.tail _ listed) fun same => apart other listed (mine.trans same.symm)
          exact List.countP_eq_zero.1 unlike event inside
        have back : (if m.stopped (m.run state (part item)) then []
            else m.taken (m.run state (part item)) (rest.flatMap part)).countP weight = 0 := by
          split_ifs
          · rfl
          · exact Nat.eq_zero_of_le_zero (none ▸ (taken_shorter _ _).sublist.countP_le)
        rw [back, Nat.add_zero]
        exact bounded item (.head _) mine state running
      · have front : (m.taken state (part item)).countP weight = 0 :=
          Nat.eq_zero_of_le_zero (others item (.head _) mine ▸ (taken_shorter _ _).sublist.countP_le)
        rw [front, Nat.zero_add]
        split_ifs with stopped
        · exact Nat.zero_le _
        · exact ih distinct (fun other member => others other (.tail _ member))
            (fun other member => bounded other (.tail _ member)) (Bool.eq_false_iff.2 stopped)

end Taken

end Stoppable

end McpTracer.Foundation
