import Mathlib.Data.List.Flatten
import McpTracer.Json.Value

/-! Locations in a JSON value, and their RFC 6901 pointers.

A location is the list of tokens that lead to it from the root. Its pointer is the text of the tokens,
each after a slash, with `~` and `/` escaped.
-/

set_option autoImplicit false

namespace McpTracer.Json
open McpTracer.Foundation

namespace Pointer

def escapeChar (c : Char) : List Char := if c = '~' then ['~', '0'] else if c = '/' then ['~', '1'] else [c]

def escape (token : List Char) : List Char := token.flatMap escapeChar

/-- A tilde that no digit of the two follows stands for itself. -/
def unescape : List Char → List Char
  | [] => []
  | [c] => [c]
  | c :: d :: rest =>
    if c = '~' ∧ d = '0' then '~' :: unescape rest
    else if c = '~' ∧ d = '1' then '/' :: unescape rest
    else c :: unescape (d :: rest)

/-- The pointer of a location. -/
def text (path : List String) : String := String.ofList (path.flatMap fun token => '/' :: escape token.toList)

/-- The location that a pointer names. -/
def tokens (pointer : String) : Option (List String) :=
  match pointer.toList with
  | [] => some []
  | c :: rest => if c = '/' then some ((rest.splitOnP (· == '/')).map fun part => String.ofList (unescape part)) else none

/-- Both pointers name locations, and neither location is on the way to the other. -/
def Apart (first second : String) : Prop :=
  ∃ path other, tokens first = some path ∧ tokens second = some other ∧ ¬ path <+: other ∧ ¬ other <+: path

theorem Apart.ne {first second : String} (apart : Apart first second) : first ≠ second := by
  rintro rfl
  obtain ⟨path, other, left, right, beside, -⟩ := apart
  obtain rfl : path = other := Option.some.inj (left.symm.trans right)
  exact beside (List.prefix_refl path)

/-- The number of an array element: decimal, without a leading zero. -/
def arrayIndex (token : String) : Option Nat :=
  let index := Nat.ofDigitChars 10 token.toList 0
  if token = toString index then some index else none

/-! ## Pointers and locations -/

theorem slash_not_mem_escape (token : List Char) : ∀ c ∈ escape token, (c == '/') = false := by
  intro c member
  obtain ⟨source, -, inside⟩ := List.mem_flatMap.1 member
  unfold escapeChar at inside
  split_ifs at inside with tilde slash
  · simp at inside
    rcases inside with rfl | rfl <;> rfl
  · simp at inside
    rcases inside with rfl | rfl <;> rfl
  · obtain rfl := List.mem_singleton.1 inside
    simpa using slash

theorem unescape_escape (token : List Char) : unescape (escape token) = token := by
  induction token with
  | nil => rfl
  | cons c rest ih =>
    have first : escape (c :: rest) = escapeChar c ++ escape rest := rfl
    rw [first, escapeChar]
    split_ifs with tilde slash
    · simp [unescape, ih, tilde]
    · simp [unescape, ih, slash]
    · cases others : escape rest with
      | nil =>
        rw [others] at ih
        simp [unescape, ← ih]
      | cons d more =>
        rw [others] at ih
        simp [unescape, tilde, ih]

/-- Parts without a slash are found again between the slashes. -/
theorem splitOnP_parts {part : List Char} {parts : List (List Char)}
    (plain : ∀ other ∈ part :: parts, ∀ c ∈ other, (c == '/') = false) :
    (part ++ parts.flatMap fun other => '/' :: other).splitOnP (· == '/') = part :: parts := by
  obtain ⟨first, others⟩ := List.forall_mem_cons.1 plain
  induction parts generalizing part with
  | nil => rw [List.flatMap_nil, List.append_nil, List.splitOnP_eq_singleton first]
  | cons next rest ih =>
    have later := ih others (List.forall_mem_cons.1 others).1 (List.forall_mem_cons.1 others).2
    rw [List.flatMap_cons, List.cons_append, List.splitOnP_append_cons _ _ (by rfl), later,
      List.splitOnP_eq_singleton first, List.singleton_append]

@[simp] theorem tokens_text (path : List String) : tokens (text path) = some path := by
  unfold tokens text
  rw [String.toList_ofList]
  cases path with
  | nil => rfl
  | cons token rest =>
    have parts : (rest.flatMap fun token => '/' :: escape token.toList) =
        (rest.map fun token => escape token.toList).flatMap fun part => '/' :: part := by
      rw [List.flatMap_map]
    have plain : ∀ part ∈ escape token.toList :: rest.map fun token => escape token.toList,
        ∀ c ∈ part, (c == '/') = false := by
      intro part member
      rcases List.mem_cons.1 member with rfl | later
      · exact slash_not_mem_escape _
      · obtain ⟨other, -, rfl⟩ := List.mem_map.1 later
        exact slash_not_mem_escape _
    rw [List.flatMap_cons, List.cons_append, parts]
    dsimp only
    rw [if_pos rfl, splitOnP_parts plain]
    simp [unescape_escape, Function.comp_def]

theorem text_injective {path other : List String} (same : text path = text other) : path = other := by
  have found := tokens_text path
  rw [same, tokens_text] at found
  exact (Option.some.inj found).symm

theorem arrayIndex_toString (index : Nat) : arrayIndex (toString index) = some index := by
  simp [arrayIndex]

/-- Digits are not escaped. -/
theorem escape_toString (index : Nat) : escape (toString index).toList = (toString index).toList := by
  rw [Nat.toString_eq_ofList_toDigits, String.toList_ofList, escape]
  have plain : ∀ c ∈ Nat.toDigits 10 index, escapeChar c = [c] := by
    intro c member
    have isDigit : c.isDigit = true := Nat.isDigit_of_mem_toDigits (by decide) (by decide) member
    have tilde : c ≠ '~' := by rintro rfl; exact absurd isDigit (by decide)
    have slash : c ≠ '/' := by rintro rfl; exact absurd isDigit (by decide)
    rw [escapeChar, if_neg tilde, if_neg slash]
  rw [List.flatMap_congr plain, List.flatMap_singleton']

theorem toString_of_arrayIndex {token : String} {index : Nat} (read : arrayIndex token = some index) :
    token = toString index := by
  unfold arrayIndex at read
  dsimp only at read
  split_ifs at read with canonical
  exact Option.some.inj read ▸ canonical

theorem toString_injective {index other : Nat} (same : toString index = toString other) : index = other := by
  have read := arrayIndex_toString index
  rw [same, arrayIndex_toString] at read
  exact (Option.some.inj read).symm

end Pointer

namespace Value

/-- What a token leads to. -/
def child (token : String) : Value → Option Value
  | .object fields => fields.lookup token
  | .array items => (Pointer.arrayIndex token).bind (items[·]?)
  | _ => none

/-- What is at a location. -/
def resolve : List String → Value → Option Value
  | [], v => some v
  | token :: rest, v => (v.child token).bind (resolve rest)

/-- What a pointer points to. -/
def pointer (text : String) (v : Value) : Option Value := (Pointer.tokens text).bind fun path => v.resolve path

@[simp] theorem child_object (token : String) (fields : List (String × Value)) :
    child token (.object fields) = fields.lookup token := rfl

theorem child_array_toString (index : Nat) (items : List Value) :
    child (toString index) (.array items) = items[index]? := by
  rw [child, Pointer.arrayIndex_toString, Option.bind_some]

theorem child_array_eq_some_iff {token : String} {items : List Value} {v : Value} :
    child token (.array items) = some v ↔ ∃ index : Nat, token = toString index ∧ items[index]? = some v := by
  constructor
  · intro found
    obtain ⟨index, read, inside⟩ := Option.bind_eq_some_iff.1 found
    exact ⟨index, Pointer.toString_of_arrayIndex read, inside⟩
  · rintro ⟨index, rfl, inside⟩
    rwa [child_array_toString]

@[simp] theorem resolve_nil (v : Value) : resolve [] v = some v := rfl

@[simp] theorem bind_resolve_nil (v : Option Value) : v.bind (resolve []) = v := by cases v <;> rfl

@[simp] theorem resolve_cons (token : String) (rest : List String) (v : Value) :
    resolve (token :: rest) v = (v.child token).bind (resolve rest) := rfl

theorem pointer_text (path : List String) (v : Value) : v.pointer (Pointer.text path) = v.resolve path := by
  simp [pointer]

/-- Induction over a tree, with the hypothesis for what tokens lead to. -/
theorem induction_on_child {motive : Value → Prop}
    (step : ∀ v, (∀ token child, v.child token = some child → motive child) → motive v) (v : Value) : motive v := by
  induction v using Value.children with
  | array items ih =>
    refine step _ fun token child found => ?_
    obtain ⟨index, -, inside⟩ := child_array_eq_some_iff.1 found
    exact ih child (List.mem_of_getElem? inside)
  | object fields ih => exact step _ fun token child found => ih (token, child) (mem_of_lookup found)
  | _ => exact step _ fun token child found => by cases found

/-- What is in a tree of a well-formed value is well formed. -/
theorem wellFormed_child {v child : Value} (formed : v.wellFormed = true) {token : String}
    (found : v.child token = some child) : child.wellFormed = true := by
  cases v with
  | array items =>
    obtain ⟨index, -, inside⟩ := child_array_eq_some_iff.1 found
    exact (wellFormedItems_iff items).1 formed child (List.mem_of_getElem? inside)
  | object fields => exact (wellFormed_object formed).2 (token, child) (mem_of_lookup found)
  | _ => cases found

end Value

end McpTracer.Json
