import McpTracer.Foundation.FirstFit
import McpTracer.Model.Assertions

/-! Scoring a session against the calls that are expected of it.

Each expectation takes the first call left that satisfies it. With an order this
finds an assignment whenever there is one. Without one it finds an assignment
when nobody has to pass over a call.
-/

set_option autoImplicit false

namespace McpTracer.Model
open McpTracer.Foundation McpTracer.Json McpTracer.Storage

/-! ## Evaluation -/

structure ExpectedCall where
  tool : String
  /-- What the arguments of the call contain with equal values. -/
  requiredArguments : Option TomlValue

structure ForbiddenCall where
  tool : String

/-- The calls that must occur, in any order or in theirs, and the tools that must not be called. -/
structure EvalSpec where
  ordered : Bool
  expected : List ExpectedCall
  forbidden : List ForbiddenCall

structure ExpectationResult where
  description : String
  satisfied : Bool
  reason : Option String
  deriving DecidableEq

/-- The accuracy is the quotient before it is rounded to a double. -/
structure EvalReport where
  accuracy : Rat
  results : List ExpectationResult

/-- Every member that is required is there with an equal value. -/
def argumentsSubset : Value → Value → Bool
  | .object required, .object actual =>
    required.all fun field => (actual.lookup field.1).any fun value => value.beq field.2
  | .object _, _ => false
  | required, actual => required.beq actual

/-- A recorded call of a tool with its arguments. -/
abbrev RecordedCall : Type := Exchange × Value

/-- The exchanges with a tool, in the order of the session. -/
def recordedCalls (codec : Codec) (messages : List StoredMessage) : List RecordedCall :=
  let payloads := payloadsBySeq codec messages
  ((correlate codec messages).exchanges.filter fun exchange => exchange.toolName.isSome).map fun exchange =>
    (exchange, ((((exchange.requestSeq.bind payloads).bind (Value.get "params")).bind
      (Value.get "arguments")).getD .null))

/-- The tool and the arguments are what is expected. -/
def ExpectedCall.accepts (expectation : ExpectedCall) (call : RecordedCall) : Bool :=
  call.1.toolName == some expectation.tool &&
    expectation.requiredArguments.all fun required => argumentsSubset (tomlToJson required) call.2

/-- Which calls are used, and where the last one was found. -/
structure CallMatching where
  used : List Bool
  lastMatchedPosition : Option Nat

namespace CallMatching

def start (calls : List RecordedCall) : CallMatching := ⟨calls.map fun _ => false, none⟩

def isFree (state : CallMatching) (ordered : Bool) (position : Nat) : Bool :=
  !state.used.getD position false && (!ordered || state.lastMatchedPosition.all (· < position))

def take (state : CallMatching) (position : Nat) : CallMatching :=
  ⟨state.used.set position true, some position⟩

end CallMatching

/-- The expectation is satisfied by the call at this position. -/
def ExpectedCall.acceptsAt (calls : List RecordedCall) (expectation : ExpectedCall) (position : Nat) : Bool :=
  calls[position]?.any expectation.accepts

/-- The first call that is free and accepted. -/
def findCall (ordered : Bool) (calls : List RecordedCall) (state : CallMatching) (expectation : ExpectedCall) :
    Option Nat :=
  (List.range calls.length).find? fun position =>
    state.isFree ordered position && expectation.acceptsAt calls position

def expectationFound (expectation : ExpectedCall) : ExpectationResult :=
  ⟨"expect " ++ expectation.tool, true, none⟩

def expectationMissed (ordered : Bool) (expectation : ExpectedCall) : ExpectationResult :=
  ⟨"expect " ++ expectation.tool, false,
    some ("no matching call to `" ++ expectation.tool ++ "` found" ++ if ordered then " in the expected order" else "")⟩

def matchExpected (ordered : Bool) (calls : List RecordedCall) : CallMatching → List ExpectedCall → List ExpectationResult
  | _, [] => []
  | state, expectation :: rest =>
    match findCall ordered calls state expectation with
    | some position => expectationFound expectation :: matchExpected ordered calls (state.take position) rest
    | none => expectationMissed ordered expectation :: matchExpected ordered calls state rest

def checkForbidden (calls : List RecordedCall) (forbidden : ForbiddenCall) : ExpectationResult :=
  let violated := calls.any fun call => call.1.toolName == some forbidden.tool
  ⟨"forbidden " ++ forbidden.tool, !violated,
    if violated then some ("forbidden tool `" ++ forbidden.tool ++ "` was called") else none⟩

/-- The score of a session, with the outcome of each check. -/
def EvalSpec.evaluate (codec : Codec) (spec : EvalSpec) (messages : List StoredMessage) : EvalReport :=
  let calls := recordedCalls codec messages
  let results := matchExpected spec.ordered calls (.start calls) spec.expected ++ spec.forbidden.map (checkForbidden calls)
  ⟨if results.isEmpty then 1 else (results.countP ExpectationResult.satisfied : Rat) / (results.length : Rat), results⟩

/-! ## Assignments -/

/-- Each expectation has a call of its own that satisfies it, in order if the specification asks for it. -/
structure EvalSpec.IsAssignment (spec : EvalSpec) (calls : List RecordedCall) (positions : List Nat) : Prop where
  satisfied : List.Forall₂ (fun expectation position => ∃ call, calls[position]? = some call ∧ expectation.accepts call = true)
    spec.expected positions
  injective : positions.Nodup
  increasing : spec.ordered = true → positions.Pairwise (· < ·)

/-- Every expectation is marked satisfied. -/
def EvalSpec.AllExpected (codec : Codec) (spec : EvalSpec) (messages : List StoredMessage) : Prop :=
  ∀ result ∈ (spec.evaluate codec messages).results.take spec.expected.length, result.satisfied = true

/-- No expectation passes over a call that satisfies it, unless an expectation before it has that call. -/
def EvalSpec.NonePassedOver (spec : EvalSpec) (calls : List RecordedCall) (positions : List Nat) : Prop :=
  FirstCome (ExpectedCall.acceptsAt calls) [] spec.expected positions

/-- The specification is ordered, or nobody has to pass over a call for all to have one. -/
def EvalSpec.FirstComeSuffices (spec : EvalSpec) (calls : List RecordedCall) : Prop :=
  spec.ordered = true ∨ ((∃ positions, spec.IsAssignment calls positions) →
    ∃ positions, spec.IsAssignment calls positions ∧ spec.NonePassedOver calls positions)

/-! ## The pass -/

section Pass
variable {calls : List RecordedCall} {ordered : Bool} {state : CallMatching} {taken : List Nat}

/-- The calls used are those at the positions taken, the last one first. -/
structure CallMatching.Represents (calls : List RecordedCall) (state : CallMatching) (taken : List Nat) : Prop where
  length : state.used.length = calls.length
  used : ∀ position < calls.length, state.used.getD position false = taken.contains position
  last : state.lastMatchedPosition = taken.head?

theorem represents_start : (CallMatching.start calls).Represents calls [] where
  length := by simp [CallMatching.start]
  used position _ := by simp [CallMatching.start, List.getD_eq_getElem?_getD]
  last := rfl

theorem CallMatching.Represents.take (represents : state.Represents calls taken) {position : Nat}
    (inside : position < calls.length) : (state.take position).Represents calls (position :: taken) where
  length := by simp [CallMatching.take, represents.length]
  used other bound := by
    have before := represents.used other bound
    by_cases same : other = position
    · subst same
      simp [CallMatching.take, List.getD_eq_getElem?_getD, represents.length, inside]
    · rw [List.contains_cons, beq_eq_false_iff_ne.2 same, Bool.false_or, ← before]
      simp [CallMatching.take, List.getD_eq_getElem?_getD, Ne.symm same]
  last := rfl

/-- The places that a call can be taken from. -/
def allowedPlaces (ordered : Bool) : List Nat → Nat → Bool := if ordered then later else unused

theorem isFree_eq (represents : state.Represents calls taken) {position : Nat} (inside : position < calls.length) :
    state.isFree ordered position = allowedPlaces ordered taken position := by
  rw [CallMatching.isFree, represents.used position inside, represents.last]
  cases ordered <;> simp [allowedPlaces, later, unused]

/-- The pass hands the positions out one after the other. -/
theorem matchExpected_satisfied (represents : state.Represents calls taken) (expected : List ExpectedCall) :
    (matchExpected ordered calls state expected).map ExpectationResult.satisfied =
      (firstFit calls.length (allowedPlaces ordered) (ExpectedCall.acceptsAt calls) taken expected).map Option.isSome := by
  induction expected generalizing state taken with
  | nil => rfl
  | cons expectation rest ih =>
      have same : findCall ordered calls state expectation = (List.range calls.length).find? fun position =>
          allowedPlaces ordered taken position && expectation.acceptsAt calls position := by
        refine List.find?_congr fun position member => ?_
        rw [isFree_eq represents (List.mem_range.1 member)]
      rw [matchExpected, firstFit, same]
      cases found : (List.range calls.length).find? fun position =>
          allowedPlaces ordered taken position && expectation.acceptsAt calls position with
      | none => exact congrArg (List.cons false) (ih represents)
      | some position =>
          have inside := List.mem_range.1 (List.mem_of_find?_eq_some found)
          exact congrArg (List.cons true) (ih (represents.take inside))

theorem length_matchExpected (expected : List ExpectedCall) :
    (matchExpected ordered calls state expected).length = expected.length := by
  induction expected generalizing state with
  | nil => rfl
  | cons expectation rest ih =>
      unfold matchExpected
      split
      · exact congrArg (· + 1) ih
      · exact congrArg (· + 1) ih

end Pass

section Outcome
variable {codec : Codec} {spec : EvalSpec} {messages : List StoredMessage} {calls : List RecordedCall} {positions : List Nat}

theorem acceptsAt_iff {expectation : ExpectedCall} {position : Nat} :
    (∃ call, calls[position]? = some call ∧ expectation.accepts call = true) ↔
      position < calls.length ∧ expectation.acceptsAt calls position = true := by
  rw [ExpectedCall.acceptsAt, Option.any_eq_true]
  constructor
  · rintro ⟨call, found, accepted⟩
    exact ⟨(List.getElem?_eq_some_iff.1 found).1, call, found, accepted⟩
  · exact fun accepted => accepted.2

theorem isAssignment_iff : spec.IsAssignment calls positions ↔
    Assigned calls.length (ExpectedCall.acceptsAt calls) spec.expected positions ∧
      (spec.ordered = true → positions.Pairwise (· < ·)) := by
  constructor
  · rintro ⟨satisfied, injective, increasing⟩
    exact ⟨⟨satisfied.imp fun _ _ => acceptsAt_iff.1, injective⟩, increasing⟩
  · rintro ⟨⟨accepted, nodup⟩, increasing⟩
    exact ⟨accepted.imp fun _ _ => acceptsAt_iff.2, nodup, increasing⟩

theorem allExpected_iff : spec.AllExpected codec messages ↔
    ∀ place ∈ firstFit (recordedCalls codec messages).length (allowedPlaces spec.ordered)
      (ExpectedCall.acceptsAt (recordedCalls codec messages)) [] spec.expected, place.isSome = true := by
  have front : (spec.evaluate codec messages).results.take spec.expected.length =
      matchExpected spec.ordered (recordedCalls codec messages) (.start (recordedCalls codec messages)) spec.expected :=
    List.take_left' (length_matchExpected _)
  rw [EvalSpec.AllExpected, front, ← List.forall_mem_map (P := fun satisfied => satisfied = true),
    matchExpected_satisfied represents_start, List.forall_mem_map]

/-- With an order, all expectations are marked satisfied exactly when there is an assignment. -/
theorem allExpected_ordered (ordered : spec.ordered = true) : spec.AllExpected codec messages ↔
    ∃ positions, spec.IsAssignment (recordedCalls codec messages) positions := by
  rw [allExpected_iff, ordered]
  refine (firstFit_later .nil spec.expected).trans (exists_congr fun positions => ?_)
  rw [isAssignment_iff]
  constructor
  · rintro ⟨assigned, increasing, -⟩
    exact ⟨assigned, fun _ => increasing⟩
  · rintro ⟨assigned, increasing⟩
    exact ⟨assigned, increasing ordered, fun _ _ _ none => absurd none List.not_mem_nil⟩

/-- Without an order, they are when nobody passes over a call in some assignment. -/
theorem allExpected_unordered (unordered : spec.ordered = false) : spec.AllExpected codec messages ↔
    ∃ positions, spec.IsAssignment (recordedCalls codec messages) positions ∧
      spec.NonePassedOver (recordedCalls codec messages) positions := by
  rw [allExpected_iff, unordered]
  refine (firstFit_unused spec.expected).trans (exists_congr fun positions => ?_)
  rw [isAssignment_iff]
  constructor
  · rintro ⟨assigned, -, come⟩
    exact ⟨⟨assigned, fun ordered => absurd (unordered.symm.trans ordered) Bool.false_ne_true⟩, come⟩
  · rintro ⟨⟨assigned, -⟩, come⟩
    exact ⟨assigned, fun _ _ none => absurd none List.not_mem_nil, come⟩

theorem finds_assignment_iff : (spec.AllExpected codec messages ↔
      ∃ positions, spec.IsAssignment (recordedCalls codec messages) positions) ↔
    spec.FirstComeSuffices (recordedCalls codec messages) := by
  unfold EvalSpec.FirstComeSuffices
  cases kind : spec.ordered with
  | true => simp [allExpected_ordered kind]
  | false =>
      rw [allExpected_unordered kind]
      have weaker : (∃ positions, spec.IsAssignment (recordedCalls codec messages) positions ∧
          spec.NonePassedOver (recordedCalls codec messages) positions) →
          ∃ positions, spec.IsAssignment (recordedCalls codec messages) positions :=
        fun ⟨positions, assigned, _⟩ => ⟨positions, assigned⟩
      simp only [Bool.false_eq_true, false_or]
      exact ⟨fun same => same.2, fun suffices_ => ⟨weaker, suffices_⟩⟩

/-- If the expectations that a call can satisfy both accept more and more, there is no need to pass over a call. -/
theorem firstComeSuffices_of_nested (nested : Nested calls.length (ExpectedCall.acceptsAt calls) spec.expected) :
    spec.FirstComeSuffices calls := by
  cases kind : spec.ordered with
  | true => exact .inl kind
  | false =>
      refine .inr fun ⟨positions, assignment⟩ => ?_
      have full := firstFit_of_nested .nil (isAssignment_iff.1 assignment).1 nested
      obtain ⟨places, assigned, -, come⟩ := (firstFit_unused spec.expected).1 full
      refine ⟨places, isAssignment_iff.2 ⟨assigned, fun ordered => ?_⟩, come⟩
      exact absurd (kind.symm.trans ordered) Bool.false_ne_true

/-- An order of the expectations plays no role for whether each can have a call of its own. -/
theorem assignable_perm {other : EvalSpec} (unordered : spec.ordered = false) (unordered' : other.ordered = false)
    (same : other.expected.Perm spec.expected) :
    (∃ positions, other.IsAssignment calls positions) ↔ ∃ positions, spec.IsAssignment calls positions := by
  have carried {a b : EvalSpec} (kind : b.ordered = false) (order : a.expected.Perm b.expected)
      (assignable : ∃ positions, a.IsAssignment calls positions) : ∃ positions, b.IsAssignment calls positions := by
    obtain ⟨positions, satisfied, injective, -⟩ := assignable
    obtain ⟨moved, others, rearranged⟩ := List.perm_comp_forall₂ order.symm satisfied
    exact ⟨moved, others, rearranged.nodup_iff.2 injective, fun ordered => absurd (kind.symm.trans ordered) Bool.false_ne_true⟩
  exact ⟨carried unordered same, carried unordered' same.symm⟩

end Outcome

/-- The expectations are all marked satisfied when there is an assignment, exactly when the first calls that can be
had suffice; and then the order in which they are listed plays no role. -/
theorem evaluate_finds_assignment_iff (codec : Codec) (spec : EvalSpec) (messages : List StoredMessage) :
    ((spec.AllExpected codec messages ↔ ∃ positions, spec.IsAssignment (recordedCalls codec messages) positions) ↔
      spec.FirstComeSuffices (recordedCalls codec messages)) ∧
    ∀ other : EvalSpec, spec.ordered = false → other.ordered = false → other.expected.Perm spec.expected →
      spec.FirstComeSuffices (recordedCalls codec messages) → other.FirstComeSuffices (recordedCalls codec messages) →
      (other.AllExpected codec messages ↔ spec.AllExpected codec messages) := by
  refine ⟨finds_assignment_iff, fun other unordered unordered' same suffices_ suffices' => ?_⟩
  rw [finds_assignment_iff.2 suffices_, finds_assignment_iff.2 suffices', assignable_perm unordered unordered' same]

/-! ### A call that is taken too early -/

def searchRequest (seq : Nat) (arguments : List (String × Value)) : StoredMessage where
  seq := seq
  tsNs := 0
  direction := "c2s"
  messageKind := "request"
  rpcId := some (toString seq)
  method := some "tools/call"
  toolName := some "search"
  payload := Compact.codec.toString (.object [("params", .object [("arguments", .object arguments)])])
  payloadBytes := 0
  isError := false
  errorCode := none

/-- A search for the weather and a search for nothing. -/
def twoSearches : List StoredMessage := [searchRequest 0 [("query", .string "weather")], searchRequest 1 []]

/-- Any search and a search for the weather. -/
def searchesExpected : EvalSpec where
  ordered := false
  expected := [⟨"search", none⟩, ⟨"search", some (.table [("query", .string "weather")])⟩]
  forbidden := []

/-- The first expectation takes the only call that satisfies the second, though it could have the other. -/
theorem search_taken_too_early : ¬ (searchesExpected.AllExpected Compact.codec twoSearches ↔
    ∃ positions, searchesExpected.IsAssignment (recordedCalls Compact.codec twoSearches) positions) := by
  intro same
  have assignment : searchesExpected.IsAssignment (recordedCalls Compact.codec twoSearches) [1, 0] := by
    refine isAssignment_iff.2 ⟨⟨.cons ?_ (.cons ?_ .nil), by decide⟩, fun ordered => ?_⟩
    · decide +kernel
    · decide +kernel
    · cases ordered
  have missed : ¬ searchesExpected.AllExpected Compact.codec twoSearches := by
    unfold EvalSpec.AllExpected
    decide +kernel
  exact missed (same.2 ⟨_, assignment⟩)

end McpTracer.Model
