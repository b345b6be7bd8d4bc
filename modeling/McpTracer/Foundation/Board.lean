import Mathlib.Data.List.Basic
import Mathlib.Logic.Function.Basic

/-! A board of names under which owners publish.

A name is free, or was taken at the start, or has the draft of an owner, or what an owner published.
Owners draft and publish under free names only, and withdraw nothing but their own drafts: so a name that
was taken, or published under, stays as it is.
-/

set_option autoImplicit false

namespace McpTracer.Foundation

inductive Slot (Owner : Type) where
  | vacant
  | original
  | draft (owner : Owner)
  | published (owner : Owner)
  deriving DecidableEq

inductive Move (Name Owner : Type) where
  | draft (name : Name) (owner : Owner)
  | publish (name : Name) (owner : Owner)
  | withdraw (name : Name) (owner : Owner)
  deriving DecidableEq

abbrev Board (Name Owner : Type) : Type := Name → Slot Owner

variable {Name Owner : Type} [DecidableEq Name] [DecidableEq Owner]

namespace Board

def play (board : Board Name Owner) : Move Name Owner → Option (Board Name Owner)
  | .draft name owner =>
    if board name = .vacant then some (Function.update board name (.draft owner)) else none
  | .publish name owner =>
    if board name = .vacant then some (Function.update board name (.published owner)) else none
  | .withdraw name owner =>
    if board name = .draft owner then some (Function.update board name .vacant) else none

def playAll : Board Name Owner → List (Move Name Owner) → Option (Board Name Owner)
  | board, [] => some board
  | board, move :: moves => (board.play move).bind fun next => playAll next moves

theorem playAll_append (board : Board Name Owner) (front back : List (Move Name Owner)) :
    board.playAll (front ++ back) = (board.playAll front).bind fun next => next.playAll back := by
  induction front generalizing board with
  | nil => rfl
  | cons move moves ih => simp only [List.cons_append, playAll, ih, Option.bind_assoc]

section
variable {board next : Board Name Owner} {name : Name} {owner : Owner} {move : Move Name Owner}

theorem play_draft (free : board name = .vacant) :
    board.play (.draft name owner) = some (Function.update board name (.draft owner)) := if_pos free

theorem play_publish (free : board name = .vacant) :
    board.play (.publish name owner) = some (Function.update board name (.published owner)) := if_pos free

theorem play_withdraw (drafted : board name = .draft owner) :
    board.play (.withdraw name owner) = some (Function.update board name .vacant) := if_pos drafted

/-- What a move does: it is about a name that is free or the owner's draft, and about no other name. -/
theorem play_cases (played : board.play move = some next) :
    (∃ name owner, move = .draft name owner ∧ board name = .vacant ∧
      next = Function.update board name (.draft owner)) ∨
    (∃ name owner, move = .publish name owner ∧ board name = .vacant ∧
      next = Function.update board name (.published owner)) ∨
    (∃ name owner, move = .withdraw name owner ∧ board name = .draft owner ∧
      next = Function.update board name .vacant) := by
  cases move with
  | draft name owner =>
      obtain ⟨free, made⟩ := Option.ite_none_right_eq_some.1 played
      exact .inl ⟨name, owner, rfl, free, (Option.some.inj made).symm⟩
  | publish name owner =>
      obtain ⟨free, made⟩ := Option.ite_none_right_eq_some.1 played
      exact .inr (.inl ⟨name, owner, rfl, free, (Option.some.inj made).symm⟩)
  | withdraw name owner =>
      obtain ⟨drafted, made⟩ := Option.ite_none_right_eq_some.1 played
      exact .inr (.inr ⟨name, owner, rfl, drafted, (Option.some.inj made).symm⟩)

theorem original_play (played : board.play move = some next) (name : Name) :
    next name = .original ↔ board name = .original := by
  obtain ⟨other, owner, -, before, rfl⟩ | ⟨other, owner, -, before, rfl⟩ | ⟨other, owner, -, before, rfl⟩ :=
    play_cases played <;>
  by_cases same : name = other
  all_goals simp_all

theorem published_play (played : board.play move = some next) (name : Name) (owner : Owner) :
    next name = .published owner ↔ board name = .published owner ∨ move = .publish name owner := by
  obtain ⟨other, author, rfl, before, rfl⟩ | ⟨other, author, rfl, before, rfl⟩ |
    ⟨other, author, rfl, before, rfl⟩ := play_cases played
  all_goals
    by_cases same : name = other
    · subst same
      simp [before, eq_comm]
    · simp [same, eq_comm]

/-- A draft is made by a move, and goes by its owner's. -/
theorem count_draft_play (played : board.play move = some next) (name : Name) (owner : Owner) :
    (if move = .draft name owner then 1 else 0) + (if board name = .draft owner then 1 else 0) =
      (if move = .withdraw name owner then 1 else 0) + (if next name = .draft owner then 1 else 0) := by
  obtain ⟨other, author, rfl, before, rfl⟩ | ⟨other, author, rfl, before, rfl⟩ |
    ⟨other, author, rfl, before, rfl⟩ := play_cases played
  all_goals
    by_cases same : name = other
    · subst same
      simp [before]
    · simp [same, Ne.symm same]

end

section
variable {start board : Board Name Owner} {moves : List (Move Name Owner)}

theorem original_playAll (played : start.playAll moves = some board) (name : Name) :
    board name = .original ↔ start name = .original := by
  induction moves generalizing start with
  | nil => cases played; rfl
  | cons move moves ih =>
      obtain ⟨next, first, rest⟩ := Option.bind_eq_some_iff.1 played
      exact (ih rest).trans (original_play first name)

theorem published_playAll (played : start.playAll moves = some board) (name : Name) (owner : Owner) :
    board name = .published owner ↔ start name = .published owner ∨ Move.publish name owner ∈ moves := by
  induction moves generalizing start with
  | nil => cases played; simp
  | cons move moves ih =>
      obtain ⟨next, first, rest⟩ := Option.bind_eq_some_iff.1 played
      rw [ih rest, published_play first, List.mem_cons, or_assoc, eq_comm (a := move)]

/-- Drafts that were made and not withdrawn are on the board. -/
theorem count_draft_playAll (played : start.playAll moves = some board) (name : Name) (owner : Owner) :
    moves.count (.draft name owner) + (if start name = .draft owner then 1 else 0) =
      moves.count (.withdraw name owner) + (if board name = .draft owner then 1 else 0) := by
  induction moves generalizing start with
  | nil => cases played; rfl
  | cons move moves ih =>
      obtain ⟨next, first, rest⟩ := Option.bind_eq_some_iff.1 played
      have balanced := ih rest
      have one := count_draft_play first name owner
      rw [List.count_cons, List.count_cons]
      simp only [beq_iff_eq]
      omega

end

end Board

end McpTracer.Foundation
