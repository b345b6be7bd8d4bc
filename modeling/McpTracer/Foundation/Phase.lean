import Mathlib.Data.List.Basic

/-! The life of calls that share one id.

A call is asked, and then answered or cancelled; a call that asks for a stream may stay open once
it has been acknowledged. Asking while a call waits loses that call, and an answer to no call is
one too many: either of them breaks the log for good.
-/

set_option autoImplicit false

namespace McpTracer.Foundation

inductive CallEvent where
  | asks (listens : Bool)
  | answers
  | cancels
  | acknowledges
  deriving DecidableEq

inductive Phase where
  | idle
  | waiting (listens : Bool)
  | listening
  | broken
  deriving DecidableEq

namespace Phase

@[grind] def next : Phase → CallEvent → Phase
  | .broken, _ => .broken
  | .waiting _, .asks _ => .broken
  | _, .asks listens => .waiting listens
  | .idle, .answers => .broken
  | _, .answers => .idle
  | _, .cancels => .idle
  | .waiting true, .acknowledges => .listening
  | phase, .acknowledges => phase

def run (phase : Phase) (events : List CallEvent) : Phase := events.foldl next phase

/-- Nothing is waited for. -/
def Settled (phase : Phase) : Prop := phase = .idle ∨ phase = .listening

@[simp] theorem run_nil (phase : Phase) : phase.run [] = phase := rfl

theorem run_append (phase : Phase) (events others : List CallEvent) :
    phase.run (events ++ others) = (phase.run events).run others := List.foldl_append ..

theorem run_broken (events : List CallEvent) : Phase.broken.run events = .broken := by
  induction events with
  | nil => rfl
  | cons event rest ih => exact ih

theorem Settled.ne_broken {phase : Phase} (settled : phase.Settled) : phase ≠ .broken := by
  rcases settled with rfl | rfl <;> simp

/-- A log that is not broken at the end was not broken before. -/
theorem ne_broken_of_run {phase : Phase} {events : List CallEvent} (whole : phase.run events ≠ .broken) :
    phase ≠ .broken := by
  rintro rfl
  exact whole (run_broken events)

theorem ne_broken_of_next {phase : Phase} {event : CallEvent} (whole : phase.next event ≠ .broken) :
    phase ≠ .broken := by
  rintro rfl
  exact whole rfl

/-! ## Leaving calls out

A shortened log may leave out a call together with its answer. While such a call is open in the
full log, the shortened one is still where it was before.
-/

/-- Where the shortened log can be; `removed` says that the open call is left out. -/
def Follows (removed : Bool) (full reduced : Phase) : Prop :=
  if full = .idle ∨ removed = true then reduced.Settled else reduced = full

section
variable {removed : Bool} {full reduced : Phase}

theorem follows_idle (settled : reduced.Settled) : Follows removed .idle reduced := by
  simpa [Follows] using settled

theorem Follows.settled (follows : Follows removed full reduced) (settled : full.Settled) :
    reduced.Settled := by
  unfold Follows at follows
  split_ifs at follows
  · exact follows
  · exact follows ▸ settled

/-- Only when nothing is waited for may a call be asked. -/
theorem settled_of_asks {listens : Bool} (unbroken : full.next (.asks listens) ≠ .broken) : full.Settled := by
  cases full <;> simp_all [next, Settled]

theorem next_asks_of_settled (settled : reduced.Settled) (listens : Bool) :
    reduced.next (.asks listens) = .waiting listens := by
  rcases settled with rfl | rfl <;> rfl

theorem Follows.asks_kept (follows : Follows removed full reduced) {listens : Bool}
    (unbroken : full.next (.asks listens) ≠ .broken) :
    Follows false (full.next (.asks listens)) (reduced.next (.asks listens)) := by
  have settled := settled_of_asks unbroken
  rw [next_asks_of_settled settled, next_asks_of_settled (follows.settled settled)]
  simp [Follows]

theorem Follows.asks_removed (follows : Follows removed full reduced) {listens : Bool}
    (unbroken : full.next (.asks listens) ≠ .broken) :
    Follows true (full.next (.asks listens)) reduced := by
  simpa [Follows] using follows.settled (settled_of_asks unbroken)

/-- An answer that is kept answers a call that is kept. -/
theorem Follows.answers_kept (follows : Follows false full reduced) (unbroken : full.next .answers ≠ .broken)
    (later : Bool) : Follows later (full.next .answers) (reduced.next .answers) := by
  have settles : full.next .answers = .idle := by cases full <;> simp_all [next]
  have open_ : full ≠ .idle := by
    rintro rfl
    exact unbroken rfl
  have same : reduced = full := by simpa [Follows, open_] using follows
  rw [same, settles]
  exact follows_idle (.inl rfl)

theorem Follows.answers_removed (follows : Follows true full reduced) (unbroken : full.next .answers ≠ .broken)
    (later : Bool) : Follows later (full.next .answers) reduced := by
  have settles : full.next .answers = .idle := by cases full <;> simp_all [next]
  rw [settles]
  exact follows_idle (by simpa [Follows] using follows)

theorem Follows.cancels (follows : Follows removed full reduced) (unbroken : full ≠ .broken) :
    Follows removed (full.next .cancels) (reduced.next .cancels) := by
  have left : full.next .cancels = .idle := by cases full <;> simp_all [next]
  rw [left]
  refine follows_idle (.inl ?_)
  unfold Follows at follows
  split_ifs at follows with settled
  · rcases follows with rfl | rfl <;> rfl
  · exact follows ▸ left

theorem Follows.acknowledges (follows : Follows removed full reduced) :
    Follows removed (full.next .acknowledges) (reduced.next .acknowledges) := by
  unfold Follows at follows ⊢
  split_ifs at follows with settled
  · have reducedSettled : (reduced.next .acknowledges).Settled := by
      rcases follows with rfl | rfl
      · exact .inl rfl
      · exact .inr rfl
    rcases settled with rfl | rfl
    · simpa [next] using reducedSettled
    · simpa using reducedSettled
  · rw [follows]
    have open_ : full.next .acknowledges ≠ .idle := by
      cases full with
      | waiting listens => cases listens <;> simp [next]
      | _ => simp_all [next]
    have kept : removed ≠ true := fun gone => settled (.inr gone)
    simp [open_, kept]

theorem Follows.next_kept (follows : Follows false full reduced) {event : CallEvent}
    (unbroken : full.next event ≠ .broken) : Follows false (full.next event) (reduced.next event) := by
  cases event with
  | asks listens => exact follows.asks_kept unbroken
  | answers => exact follows.answers_kept unbroken false
  | cancels => exact follows.cancels (ne_broken_of_next unbroken)
  | acknowledges => exact follows.acknowledges

/-- A log that is kept whole comes to rest from any place of rest. -/
theorem Follows.run_kept (follows : Follows false full reduced) {events : List CallEvent}
    (unbroken : full.run events ≠ .broken) : Follows false (full.run events) (reduced.run events) := by
  induction events generalizing full reduced with
  | nil => exact follows
  | cons event rest ih => exact ih (follows.next_kept (ne_broken_of_run unbroken)) unbroken

end

end Phase

end McpTracer.Foundation
