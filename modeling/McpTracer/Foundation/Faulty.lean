import Mathlib.Data.List.Basic

/-! Programs made of operations that may fail.

A program is run from a state, and each of its operations is told what goes wrong with it. The states
after the operations are kept, so what a program never does can be said of all of them.
-/

set_option autoImplicit false

namespace McpTracer.Foundation

variable {S F E A B : Type}

/-- The outcome, the last state, the faults that are left, and the states that were visited. -/
structure Ran (S F E A : Type) where
  outcome : Except E A
  state : S
  faults : List F
  visited : List S

/-- Operations take their faults in order; those for whom there is none work. -/
def Program (S F E A : Type) : Type := S → List F → Ran S F E A

namespace Program

def operation (step : S → Option F → Except E A × S) : Program S F E A := fun state faults =>
  let (outcome, next) := step state faults.head?
  ⟨outcome, next, faults.tail, [next]⟩

def done (outcome : Except E A) : Program S F E A := fun state faults => ⟨outcome, state, faults, []⟩

def fail (err : E) : Program S F E A := done (.error err)

def andThen (first : Program S F E A) (next : A → Program S F E B) : Program S F E B := fun state faults =>
  let ran := first state faults
  match ran.outcome with
  | .error err => ⟨.error err, ran.state, ran.faults, ran.visited⟩
  | .ok a =>
    let rest := next a ran.state ran.faults
    ⟨rest.outcome, rest.state, rest.faults, ran.visited ++ rest.visited⟩

instance : Monad (Program S F E) where
  pure a := done (.ok a)
  bind := andThen

/-- The outcome as a value. -/
def attempt (program : Program S F E A) : Program S F E (Except E A) := fun state faults =>
  let ran := program state faults
  ⟨.ok ran.outcome, ran.state, ran.faults, ran.visited⟩

section
variable {first : Program S F E A} {next : A → Program S F E B} {state : S} {faults : List F}

theorem bind_of_error {err : E} (failed : (first state faults).outcome = .error err) :
    (first >>= next) state faults =
      ⟨.error err, (first state faults).state, (first state faults).faults, (first state faults).visited⟩ := by
  change andThen first next state faults = _
  simp only [andThen, failed]

theorem bind_of_ok {a : A} (done : (first state faults).outcome = .ok a) :
    (first >>= next) state faults =
      let rest := next a (first state faults).state (first state faults).faults
      ⟨rest.outcome, rest.state, rest.faults, (first state faults).visited ++ rest.visited⟩ := by
  change andThen first next state faults = _
  simp only [andThen, done]

end

/-! ## Rules -/

/-- With such faults only, the visited states are safe and the end is as stated. -/
def Ensures (allowed : F → Prop) (safe : S → Prop) (program : Program S F E A) (state : S)
    (post : Except E A → S → Prop) : Prop :=
  ∀ faults, (∀ fault ∈ faults, allowed fault) → let ran := program state faults
    (∀ visited ∈ ran.visited, safe visited) ∧ (∀ fault ∈ ran.faults, allowed fault) ∧ post ran.outcome ran.state

section
variable {allowed : F → Prop} {safe : S → Prop} {state : S} {post : Except E A → S → Prop}

theorem ensures_done {outcome : Except E A} (holds : post outcome state) :
    Ensures allowed safe (done outcome) state post :=
  fun _ fair => ⟨fun _ none => absurd none List.not_mem_nil, fair, holds⟩

theorem ensures_pure {a : A} (holds : post (.ok a) state) :
    Ensures allowed safe (pure a : Program S F E A) state post := ensures_done holds

theorem ensures_fail {err : E} (holds : post (.error err) state) :
    Ensures allowed safe (fail err : Program S F E A) state post := ensures_done holds

theorem ensures_operation {step : S → Option F → Except E A × S}
    (each : ∀ fault, (∀ f ∈ fault, allowed f) → safe (step state fault).2 ∧
      post (step state fault).1 (step state fault).2) : Ensures allowed safe (operation step) state post := by
  intro faults fair
  obtain ⟨kept, ended⟩ := each faults.head? fun f first => fair f (List.mem_of_mem_head? first)
  refine ⟨fun visited member => ?_, fun fault later => fair fault (List.mem_of_mem_tail later), ended⟩
  rwa [List.mem_singleton.1 member]

theorem ensures_bind {first : Program S F E A} {next : A → Program S F E B} {post : Except E B → S → Prop}
    (begun : Ensures allowed safe first state fun outcome state =>
      match outcome with
      | .error err => post (.error err) state
      | .ok a => Ensures allowed safe (next a) state post) :
    Ensures allowed safe (first >>= next) state post := by
  intro faults fair
  obtain ⟨kept, left, ended⟩ := begun faults fair
  change (∀ visited ∈ (andThen first next state faults).visited, safe visited) ∧
    (∀ fault ∈ (andThen first next state faults).faults, allowed fault) ∧
    post (andThen first next state faults).outcome (andThen first next state faults).state
  unfold andThen
  dsimp only
  cases outcome : (first state faults).outcome with
  | error err =>
    rw [outcome] at ended
    exact ⟨kept, left, ended⟩
  | ok a =>
    rw [outcome] at ended
    obtain ⟨later, remaining, final⟩ := ended _ left
    refine ⟨fun visited member => ?_, remaining, final⟩
    exact (List.mem_append.1 member).elim (kept visited) (later visited)

/-- What is known between two programs. -/
theorem ensures_seq {first : Program S F E A} {next : A → Program S F E B} {middle : Except E A → S → Prop}
    {post : Except E B → S → Prop} (begun : Ensures allowed safe first state middle)
    (failed : ∀ err state, middle (.error err) state → post (.error err) state)
    (later : ∀ a state, middle (.ok a) state → Ensures allowed safe (next a) state post) :
    Ensures allowed safe (first >>= next) state post := by
  apply ensures_bind
  intro faults fair
  obtain ⟨kept, left, ended⟩ := begun faults fair
  refine ⟨kept, left, ?_⟩
  cases outcome : (first state faults).outcome with
  | error err =>
    rw [outcome] at ended
    exact failed err _ ended
  | ok a =>
    rw [outcome] at ended
    exact later a _ ended

theorem ensures_attempt {program : Program S F E A} {post : Except E (Except E A) → S → Prop}
    (tried : Ensures allowed safe program state fun outcome state => post (.ok outcome) state) :
    Ensures allowed safe (attempt program) state post := tried

theorem Ensures.imp {program : Program S F E A} {laxer : S → Prop} {weaker : Except E A → S → Prop}
    (ensures : Ensures allowed safe program state post) (keeps : ∀ state, safe state → laxer state)
    (implies : ∀ outcome state, post outcome state → weaker outcome state) :
    Ensures allowed laxer program state weaker := by
  intro faults fair
  obtain ⟨kept, left, ended⟩ := ensures faults fair
  exact ⟨fun visited member => keeps visited (kept visited member), left, implies _ _ ended⟩

end

end Program

end McpTracer.Foundation
