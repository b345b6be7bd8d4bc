import McpTracer.Foundation.Separated
import McpTracer.Storage.Merge

/-! The canonical text of a tree determines the tree.

Numbers and strings are printed by the text library. A number is a run of plain
characters, and a string is a literal that ends at its first quote without a
backslash. So neither can be continued in front of what may follow a value.
-/

set_option autoImplicit false

namespace McpTracer.Storage
open McpTracer.Foundation McpTracer.Json

/-! ## What is expected of the leaves -/

/-- The characters that numbers are written with. -/
def isNumberChar (c : Char) : Bool := c.isDigit || ['+', '-', '.', 'e', 'E'].contains c

/-- What follows the literal that a text is in, which may begin behind a backslash. -/
def literalRest (escaped : Bool) : List Char → Option (List Char)
  | [] => none
  | c :: rest =>
    if escaped then literalRest false rest
    else if c = '"' then some rest
    else literalRest (c == '\\') rest

/-- How a text library prints numbers and strings. -/
structure PrintsLeaves (codec : Codec) : Prop where
  number : ∀ n, ∃ c tail, (codec.toString (.number n)).toList = c :: tail ∧ ∀ d ∈ c :: tail, isNumberChar d = true
  string : ∀ s, ∃ tail, (codec.toString (.string s)).toList = '"' :: tail ∧
    ∀ rest, literalRest false (tail ++ rest) = some rest

/-! ## Leaves -/

/-- What may follow a value. -/
def EndsValue (rest : List Char) : Prop := ∀ c, rest.head? = some c → c = ',' ∨ c = ']' ∨ c = '\x7d'

theorem EndsValue.notNumber {rest : List Char} (ends : EndsValue rest) {c : Char} (first : rest.head? = some c) :
    isNumberChar c = false := by
  rcases ends c first with rfl | rfl | rfl <;> rfl

/-- A run of characters of a kind ends where the kind does. -/
theorem run_unique {p : Char → Bool} {a b r s : List Char} (left : ∀ c ∈ a, p c = true) (right : ∀ c ∈ b, p c = true)
    (endLeft : ∀ c, r.head? = some c → p c = false) (endRight : ∀ c, s.head? = some c → p c = false)
    (same : a ++ r = b ++ s) : a = b ∧ r = s := by
  induction a generalizing b with
  | nil =>
      cases b with
      | nil => exact ⟨rfl, same⟩
      | cons d b =>
          have plain := right d List.mem_cons_self
          rw [endLeft d (by rw [← List.nil_append r, same]; rfl)] at plain
          cases plain
  | cons c a ih =>
      cases b with
      | nil =>
          have plain := left c List.mem_cons_self
          rw [endRight c (by rw [← List.nil_append s, ← same]; rfl)] at plain
          cases plain
      | cons d b =>
          obtain ⟨rfl, tails⟩ := List.cons.inj same
          obtain ⟨rfl, rest⟩ := ih (List.forall_mem_cons.1 left).2 (List.forall_mem_cons.1 right).2 tails
          exact ⟨rfl, rest⟩

section Leaves
variable {codec : Codec} (leaves : PrintsLeaves codec)
include leaves

theorem number_unique {m n : Number} {r s : List Char} (endLeft : EndsValue r) (endRight : EndsValue s)
    (same : (codec.toString (.number m)).toList ++ r = (codec.toString (.number n)).toList ++ s) : m = n ∧ r = s := by
  obtain ⟨c, tail, left, plain⟩ := leaves.number m
  obtain ⟨d, other, right, plain'⟩ := leaves.number n
  obtain ⟨texts, rest⟩ := run_unique (left ▸ plain) (right ▸ plain') (fun _ => endLeft.notNumber)
    (fun _ => endRight.notNumber) same
  exact ⟨Value.number.inj (codec.toString_injective rfl rfl (String.toList_injective texts)), rest⟩

theorem string_unique {a b : String} {r s : List Char}
    (same : (codec.toString (.string a)).toList ++ r = (codec.toString (.string b)).toList ++ s) : a = b ∧ r = s := by
  obtain ⟨tail, left, ends⟩ := leaves.string a
  obtain ⟨other, right, ends'⟩ := leaves.string b
  rw [left, right, List.cons_append, List.cons_append] at same
  have rests := (ends r).symm.trans ((congrArg (literalRest false) (List.cons.inj same).2).trans (ends' s))
  obtain rfl := Option.some.inj rests
  have texts : codec.toString (.string a) = codec.toString (.string b) := by
    apply String.toList_injective
    rw [left, right]
    exact List.append_cancel_right same
  exact ⟨Value.string.inj (codec.toString_injective rfl rfl texts), rfl⟩

end Leaves

/-! ## Trees -/

/-- The kinds of values that a first character tells apart. -/
inductive ValueKind where
  | null
  | bool
  | number
  | string
  | array
  | object
  deriving DecidableEq

def kindOfValue : Value → ValueKind
  | .null => .null
  | .bool _ => .bool
  | .number _ => .number
  | .string _ => .string
  | .array _ => .array
  | .object _ => .object

def kindOfChar (c : Char) : ValueKind :=
  if c = 'n' then .null
  else if c = 't' ∨ c = 'f' then .bool
  else if c = '"' then .string
  else if c = '[' then .array
  else if c = '\x7b' then .object
  else .number

theorem numberChar_ne {c : Char} (plain : isNumberChar c = true) :
    c ≠ 'n' ∧ c ≠ 't' ∧ c ≠ 'f' ∧ c ≠ '"' ∧ c ≠ '[' ∧ c ≠ '\x7b' ∧ c ≠ ']' := by
  have apart {d : Char} (other : isNumberChar d = false) : c ≠ d := by
    rintro rfl
    rw [other] at plain
    cases plain
  exact ⟨apart rfl, apart rfl, apart rfl, apart rfl, apart rfl, apart rfl, apart rfl⟩

theorem kindOfChar_number {c : Char} (plain : isNumberChar c = true) : kindOfChar c = .number := by
  obtain ⟨null, true', false', quote, bracket, brace, -⟩ := numberChar_ne plain
  simp [kindOfChar, null, true', false', quote, bracket, brace]

/-- The members of an object that is in order, with the texts of their values. -/
theorem canonicalFields_sorted (codec : Codec) {fields : List (String × Value)}
    (formed : Value.wellFormed (.object fields) = true) :
    (canonicalFields codec fields).insertionSort (fun a b => a.1 ≤ b.1) =
      fields.map fun field => (field.1, canonicalJson codec field.2) := by
  have mapped : canonicalFields codec fields = fields.map fun field => (field.1, canonicalJson codec field.2) := by
    clear formed
    induction fields with
    | nil => rfl
    | cons field rest ih => rw [canonicalFields, ih, List.map_cons]
  rw [mapped]
  refine List.Pairwise.insertionSort_eq ?_
  simp only [Value.wellFormed, Bool.and_eq_true, decide_eq_true_eq] at formed
  exact List.pairwise_map.2 ((List.pairwise_map.1 formed.1).imp fun less => le_of_lt less)

theorem canonicalItems_eq (codec : Codec) (items : List Value) :
    canonicalItems codec items = items.map (canonicalJson codec) := by
  induction items with
  | nil => rfl
  | cons item rest ih => rw [canonicalItems, ih, List.map_cons]

def canonicalChars (codec : Codec) (v : Value) : List Char := (canonicalJson codec v).toList

/-- A member of an object, its key as a literal. -/
def memberChars (codec : Codec) (field : String × Value) : List Char :=
  (codec.toString (.string field.1)).toList ++ ':' :: canonicalChars codec field.2

theorem canonicalChars_array (codec : Codec) (items : List Value) :
    canonicalChars codec (.array items) = '[' :: ([','].intercalate (items.map (canonicalChars codec)) ++ [']']) := by
  simp [canonicalChars, canonicalJson, canonicalItems_eq, String.toList_intercalate, Function.comp_def]
  rfl

theorem canonicalChars_object (codec : Codec) {fields : List (String × Value)}
    (formed : Value.wellFormed (.object fields) = true) :
    canonicalChars codec (.object fields) =
      '\x7b' :: ([','].intercalate (fields.map (memberChars codec)) ++ ['\x7d']) := by
  simp [canonicalChars, canonicalJson, canonicalFields_sorted codec formed, String.toList_intercalate,
    Function.comp_def]
  rfl

theorem canonicalChars_null (codec : Codec) : canonicalChars codec .null = ['n', 'u', 'l', 'l'] := by
  simp [canonicalChars, canonicalJson]

theorem canonicalChars_true (codec : Codec) : canonicalChars codec (.bool true) = ['t', 'r', 'u', 'e'] := by
  simp [canonicalChars, canonicalJson, toString]

theorem canonicalChars_false (codec : Codec) : canonicalChars codec (.bool false) = ['f', 'a', 'l', 's', 'e'] := by
  simp [canonicalChars, canonicalJson, toString]

theorem canonicalChars_number (codec : Codec) (n : Number) :
    canonicalChars codec (.number n) = (codec.toString (.number n)).toList := by
  rw [canonicalChars, canonicalJson]

theorem canonicalChars_string (codec : Codec) (s : String) :
    canonicalChars codec (.string s) = (codec.toString (.string s)).toList := by
  rw [canonicalChars, canonicalJson]

/-- The first character of a text tells the kind of the value, and closes no array. -/
theorem canonicalChars_first {codec : Codec} (leaves : PrintsLeaves codec) {v : Value} (formed : v.wellFormed = true) :
    ∃ c tail, canonicalChars codec v = c :: tail ∧ kindOfChar c = kindOfValue v ∧ c ≠ ']' := by
  cases v with
  | null => exact ⟨_, _, canonicalChars_null codec, rfl, by decide⟩
  | bool b =>
      cases b with
      | false => exact ⟨_, _, canonicalChars_false codec, rfl, by decide⟩
      | true => exact ⟨_, _, canonicalChars_true codec, rfl, by decide⟩
  | number n =>
      obtain ⟨c, tail, text, plain⟩ := leaves.number n
      have first := plain c List.mem_cons_self
      exact ⟨c, tail, canonicalChars_number codec n ▸ text, kindOfChar_number first,
        (numberChar_ne first).2.2.2.2.2.2⟩
  | string s =>
      obtain ⟨tail, text, -⟩ := leaves.string s
      exact ⟨'"', tail, canonicalChars_string codec s ▸ text, rfl, by decide⟩
  | array items => exact ⟨_, _, canonicalChars_array codec items, rfl, by decide⟩
  | object fields => exact ⟨_, _, canonicalChars_object codec formed, rfl, by decide⟩

theorem kind_unique {codec : Codec} (leaves : PrintsLeaves codec) {v w : Value} (left : v.wellFormed = true)
    (right : w.wellFormed = true) {r s : List Char} (same : canonicalChars codec v ++ r = canonicalChars codec w ++ s) :
    kindOfValue v = kindOfValue w := by
  obtain ⟨c, tail, text, kind, -⟩ := canonicalChars_first leaves left
  obtain ⟨d, tail', text', kind', -⟩ := canonicalChars_first leaves right
  rw [text, text'] at same
  obtain rfl := (List.cons.inj same).1
  rw [← kind, kind']

theorem endsValue_cons {c : Char} (ends : c = ',' ∨ c = ']' ∨ c = '\x7d') (rest : List Char) : EndsValue (c :: rest) := by
  intro d first
  obtain rfl : c = d := Option.some.inj first
  exact ends

theorem canonicalChars_opens {codec : Codec} (leaves : PrintsLeaves codec) {v : Value} {rest : List Char}
    (formed : v.wellFormed = true) : (canonicalChars codec v ++ rest).head? ≠ some ']' := by
  obtain ⟨c, tail, text, -, opens⟩ := canonicalChars_first leaves formed
  rw [text]
  exact fun closing => opens (Option.some.inj closing)

theorem memberChars_opens {codec : Codec} (leaves : PrintsLeaves codec) (field : String × Value) (rest : List Char) :
    (memberChars codec field ++ rest).head? ≠ some '\x7d' := by
  obtain ⟨tail, text, -⟩ := leaves.string field.1
  rw [memberChars, text]
  exact fun closing => absurd (Option.some.inj closing) (by decide)

theorem wellFormed_fields {fields : List (String × Value)} (formed : Value.wellFormed (.object fields) = true) :
    ∀ field ∈ fields, field.2.wellFormed = true := by
  simp only [Value.wellFormed, Bool.and_eq_true, Value.wellFormedFields_iff] at formed
  exact formed.2

/-- A member is told apart when its value is: the key ends at its quote. -/
theorem memberChars_toldApart {codec : Codec} (leaves : PrintsLeaves codec) {field : String × Value}
    (value : ToldApart (fun w => w.wellFormed = true) EndsValue (canonicalChars codec) field.2) :
    ToldApart (fun other : String × Value => other.2.wellFormed = true) EndsValue (memberChars codec) field := by
  intro other r s formed endLeft endRight same
  rw [memberChars, memberChars, List.append_assoc, List.append_assoc] at same
  obtain ⟨key, values⟩ := string_unique leaves same
  simp only [List.cons_append, List.cons.injEq, true_and] at values
  obtain ⟨tree, rest⟩ := value other.2 r s formed endLeft endRight values
  exact ⟨Prod.ext key tree, rest⟩

/-- The text of a tree, followed by an ending, determines the tree. -/
theorem canonicalChars_toldApart {codec : Codec} (leaves : PrintsLeaves codec) (v : Value) :
    v.wellFormed = true → ToldApart (fun w => w.wellFormed = true) EndsValue (canonicalChars codec) v := by
  induction v using Value.children with
  | null =>
      intro _ w r s formed _ _ same
      cases w with
      | null => exact ⟨rfl, List.append_cancel_left same⟩
      | _ => cases kind_unique leaves rfl formed same
  | bool b =>
      intro _ w r s formed _ _ same
      cases w with
      | bool c =>
          cases b with
          | false =>
              cases c with
              | false => exact ⟨rfl, List.append_cancel_left same⟩
              | true =>
                  rw [canonicalChars_false, canonicalChars_true] at same
                  exact absurd (List.cons.inj same).1 (by decide)
          | true =>
              cases c with
              | true => exact ⟨rfl, List.append_cancel_left same⟩
              | false =>
                  rw [canonicalChars_false, canonicalChars_true] at same
                  exact absurd (List.cons.inj same).1 (by decide)
      | _ => cases kind_unique leaves rfl formed same
  | number n =>
      intro _ w r s formed endLeft endRight same
      cases w with
      | number m =>
          rw [canonicalChars_number, canonicalChars_number] at same
          obtain ⟨rfl, rest⟩ := number_unique leaves endLeft endRight same
          exact ⟨rfl, rest⟩
      | _ => cases kind_unique leaves rfl formed same
  | string t =>
      intro _ w r s formed _ _ same
      cases w with
      | string u =>
          rw [canonicalChars_string, canonicalChars_string] at same
          obtain ⟨rfl, rest⟩ := string_unique leaves same
          exact ⟨rfl, rest⟩
      | _ => cases kind_unique leaves rfl formed same
  | array items ih =>
      intro own w r s formed _ _ same
      cases w with
      | array others =>
          have left := (Value.wellFormedItems_iff items).1 own
          have right := (Value.wellFormedItems_iff others).1 formed
          rw [canonicalChars_array, canonicalChars_array] at same
          simp only [List.cons_append, List.append_assoc, List.nil_append, List.cons.injEq, true_and] at same
          obtain ⟨rfl, rest⟩ := intercalate_unique (by decide) (endsValue_cons (.inl rfl)) (endsValue_cons (.inr (.inl rfl)))
            (fun item rest => canonicalChars_opens leaves) (fun item member => ih item member (left item member)) left right same
          exact ⟨rfl, rest⟩
      | _ => cases kind_unique leaves own formed same
  | object fields ih =>
      intro own w r s formed _ _ same
      cases w with
      | object others =>
          have left := wellFormed_fields own
          have right := wellFormed_fields formed
          rw [canonicalChars_object codec own, canonicalChars_object codec formed] at same
          simp only [List.cons_append, List.append_assoc, List.nil_append, List.cons.injEq, true_and] at same
          have members : ∀ field ∈ fields, ToldApart (fun other : String × Value => other.2.wellFormed = true) EndsValue
              (memberChars codec) field := by
            intro field member
            exact memberChars_toldApart leaves (ih field member (left field member))
          obtain ⟨rfl, rest⟩ := intercalate_unique (by decide) (endsValue_cons (.inl rfl)) (endsValue_cons (.inr (.inr rfl)))
            (fun field rest _ => memberChars_opens leaves field rest) members left right same
          exact ⟨rfl, rest⟩
      | _ => cases kind_unique leaves own formed same

/-- Trees with one canonical text are the same tree. -/
theorem canonicalJson_injective {codec : Codec} (leaves : PrintsLeaves codec) {v w : Value} (left : v.wellFormed = true)
    (right : w.wellFormed = true) (same : canonicalJson codec v = canonicalJson codec w) : v = w := by
  have ended : EndsValue [] := by
    intro c first
    cases first
  have chars : canonicalChars codec v ++ [] = canonicalChars codec w ++ [] := by
    rw [canonicalChars, canonicalChars, same]
  exact (canonicalChars_toldApart leaves v left w [] [] right ended ended chars).1

/-! ## The compact text form -/

/-- An escaped character leaves a reader inside of the literal. -/
theorem literalRest_escapeChar (c : Char) (rest : List Char) :
    literalRest false (Compact.escapeChar c ++ rest) = literalRest false rest := by
  unfold Compact.escapeChar
  split_ifs with quotes slash newline carriage tab back form control
  · rfl
  · rfl
  · rfl
  · rfl
  · rfl
  · rfl
  · rfl
  · -- The digits of a code neither close the literal nor escape.
    have plain : ∀ n < 16, Compact.hexDigit n ≠ '"' ∧ Compact.hexDigit n ≠ '\\' := by decide
    have high := plain (c.toNat / 16) (by omega)
    have low := plain (c.toNat % 16) (by omega)
    simp [literalRest, high, beq_eq_false_iff_ne.2 high.2, low, beq_eq_false_iff_ne.2 low.2]
  · simp [literalRest, quotes, beq_eq_false_iff_ne.2 slash]

theorem printsLeaves_compact : PrintsLeaves Compact.codec where
  number n := by
    have digits (k : Nat) : ∀ d ∈ Nat.toDigits 10 k, isNumberChar d = true := by
      intro d member
      have digit : d.isDigit = true := Nat.isDigit_of_mem_toDigits (by omega) (by omega) member
      rw [isNumberChar, digit, Bool.true_or]
    rw [show (Compact.codec.toString (.number n)).toList = Compact.printNumber n from String.toList_ofList]
    cases n with
    | posInt n =>
        obtain ⟨c, tail, shape⟩ := List.exists_cons_of_ne_nil (Nat.toDigits_ne_nil (n := n.toNat) (b := 10))
        exact ⟨c, tail, shape, shape ▸ digits _⟩
    | negInt n => exact ⟨'-', _, rfl, List.forall_mem_cons.2 ⟨rfl, digits _⟩⟩
    | float x => exact ⟨'+', _, rfl, List.forall_mem_cons.2 ⟨rfl, digits _⟩⟩
  string s := by
    refine ⟨s.toList.flatMap Compact.escapeChar ++ ['"'], String.toList_ofList, fun rest => ?_⟩
    rw [List.append_assoc]
    induction s.toList with
    | nil => rfl
    | cons c tail ih => rw [List.flatMap_cons, List.append_assoc, literalRest_escapeChar, ih]

end McpTracer.Storage
