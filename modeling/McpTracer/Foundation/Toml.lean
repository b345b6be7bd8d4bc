import Mathlib.Algebra.Group.Int.Defs
import Mathlib.Data.List.Basic
import Mathlib.Data.List.TakeWhile

/-! The strings of a TOML document.

A basic string stands between quotation marks, a multi-line one between three of them. What a string says is
never longer than its text, and it is the text itself only when every character stands for itself.
-/

set_option autoImplicit false

namespace McpTracer.Foundation.Toml

/-- A character that stands for itself in a string on one line: no quotation mark, backslash or control character
other than the tab. -/
def isPlainChar (c : Char) : Bool := c ≠ '"' && c ≠ '\\' && (c = '\t' || (32 ≤ c.toNat && c.toNat ≠ 127))

def isBareKeyChar (c : Char) : Bool := c.isAlphanum || c = '_' || c = '-'

def isHexDigit (c : Char) : Bool := c.isDigit || ('a' ≤ c && c ≤ 'f') || ('A' ≤ c && c ≤ 'F')

def hexValue (digits : List Char) : Nat :=
  let digit (c : Char) : Nat := if c.isDigit then c.toNat - 48 else if 'a' ≤ c then c.toNat - 87 else c.toNat - 55
  digits.foldl (fun n c => 16 * n + digit c) 0

/-- Blanks and line ends, which a backslash at the end of a line takes away. -/
def isBlank (c : Char) : Bool := c = ' ' || c = '\t' || c = '\n' || c = '\r'

/-- What follows a backslash, the character it stands for, and what is left. -/
inductive Escape : List Char → Char → List Char → Prop where
  | backspace (rest : List Char) : Escape ('b' :: rest) '\x08' rest
  | tab (rest : List Char) : Escape ('t' :: rest) '\t' rest
  | newline (rest : List Char) : Escape ('n' :: rest) '\n' rest
  | formFeed (rest : List Char) : Escape ('f' :: rest) '\x0c' rest
  | carriageReturn (rest : List Char) : Escape ('r' :: rest) '\r' rest
  | quote (rest : List Char) : Escape ('"' :: rest) '"' rest
  | backslash (rest : List Char) : Escape ('\\' :: rest) '\\' rest
  | unicode (digits : List Char) (c : Char) (rest : List Char) (length : digits.length = 4)
      (hex : ∀ d ∈ digits, isHexDigit d = true) (value : c.toNat = hexValue digits) :
      Escape ('u' :: (digits ++ rest)) c rest
  | wideUnicode (digits : List Char) (c : Char) (rest : List Char) (length : digits.length = 8)
      (hex : ∀ d ∈ digits, isHexDigit d = true) (value : c.toNat = hexValue digits) :
      Escape ('U' :: (digits ++ rest)) c rest

/-- The text after an opening quotation mark, the string that it says, and what follows the closing mark. -/
inductive Basic : List Char → List Char → List Char → Prop where
  | close (rest : List Char) : Basic ('"' :: rest) [] rest
  | plain {text value rest : List Char} (c : Char) (plain : isPlainChar c = true) (more : Basic text value rest) :
      Basic (c :: text) (c :: value) rest
  | escaped {text after value rest : List Char} {c : Char} (escape : Escape text c after)
      (more : Basic after value rest) : Basic ('\\' :: text) (c :: value) rest

/-- The same after three opening marks. Line ends are part of the string, and so are marks that do not close it;
which of the marks in a row close it is left open. -/
inductive Multiline : List Char → List Char → List Char → Prop where
  | close (rest : List Char) : Multiline ('"' :: '"' :: '"' :: rest) [] rest
  | plain {text value rest : List Char} (c : Char) (plain : isPlainChar c = true ∨ c = '\n' ∨ c = '"')
      (more : Multiline text value rest) : Multiline (c :: text) (c :: value) rest
  | lineEnd {text value rest : List Char} (more : Multiline text value rest) :
      Multiline ('\r' :: '\n' :: text) ('\n' :: value) rest
  | escaped {text after value rest : List Char} {c : Char} (escape : Escape text c after)
      (more : Multiline after value rest) : Multiline ('\\' :: text) (c :: value) rest
  | continued {blanks text value rest : List Char} (blank : ∀ c ∈ blanks, isBlank c = true)
      (more : Multiline text value rest) : Multiline ('\\' :: (blanks ++ text)) value rest

/-- The text starts with a string, and this is what it says. A line end right after three marks is left out. -/
inductive StringAt : List Char → List Char → Prop where
  | basic {text value rest : List Char} (more : Basic text value rest) : StringAt ('"' :: text) value
  | multiline {text value rest : List Char} (more : Multiline text value rest) :
      StringAt ('"' :: '"' :: '"' :: text) value
  | trimmed {text value rest : List Char} (lineEnd : List Char) (trimmed : lineEnd = ['\n'] ∨ lineEnd = ['\r', '\n'])
      (more : Multiline text value rest) : StringAt ('"' :: '"' :: '"' :: (lineEnd ++ text)) value

/-! ## What a string takes of the text -/

theorem Escape.longer {text rest : List Char} {c : Char} (escape : Escape text c rest) :
    ∃ raw, text = raw ++ rest ∧ 1 ≤ raw.length := by
  cases escape with
  | unicode digits => exact ⟨'u' :: digits, rfl, Nat.succ_pos _⟩
  | wideUnicode digits => exact ⟨'U' :: digits, rfl, Nat.succ_pos _⟩
  | _ => exact ⟨[_], rfl, Nat.le_refl 1⟩

theorem Basic.longer {text value rest : List Char} (read : Basic text value rest) :
    ∃ raw, text = raw ++ '"' :: rest ∧ value.length ≤ raw.length ∧
      (value.length = raw.length → ∀ c ∈ value, isPlainChar c = true) := by
  induction read with
  | close rest => exact ⟨[], rfl, Nat.le_refl 0, fun _ c member => by cases member⟩
  | plain c plain _ ih =>
    obtain ⟨raw, rfl, longer, whole⟩ := ih
    refine ⟨c :: raw, rfl, Nat.succ_le_succ longer, fun same => List.forall_mem_cons.2 ⟨plain, whole ?_⟩⟩
    simpa using same
  | escaped escape _ ih =>
    obtain ⟨raw, rfl, longer, -⟩ := ih
    obtain ⟨taken, rfl, more⟩ := escape.longer
    -- The backslash makes the text longer than what it says.
    refine ⟨'\\' :: (taken ++ raw), by simp, ?_, fun same => ?_⟩
    · simp only [List.length_cons, List.length_append]
      omega
    · simp only [List.length_cons, List.length_append] at same
      omega

theorem Multiline.longer {text value rest : List Char} (read : Multiline text value rest) :
    ∃ raw, text = raw ++ '"' :: '"' :: '"' :: rest ∧ value.length ≤ raw.length := by
  induction read with
  | close rest => exact ⟨[], rfl, Nat.le_refl 0⟩
  | plain c _ _ ih =>
    obtain ⟨raw, rfl, longer⟩ := ih
    exact ⟨c :: raw, rfl, Nat.succ_le_succ longer⟩
  | lineEnd _ ih =>
    obtain ⟨raw, rfl, longer⟩ := ih
    refine ⟨'\r' :: '\n' :: raw, rfl, ?_⟩
    simp only [List.length_cons]
    omega
  | escaped escape _ ih =>
    obtain ⟨raw, rfl, longer⟩ := ih
    obtain ⟨taken, rfl, more⟩ := escape.longer
    refine ⟨'\\' :: (taken ++ raw), by simp, ?_⟩
    simp only [List.length_cons, List.length_append]
    omega
  | @continued blanks _ _ _ _ _ ih =>
    obtain ⟨raw, rfl, longer⟩ := ih
    refine ⟨'\\' :: (blanks ++ raw), by simp, ?_⟩
    simp only [List.length_cons, List.length_append]
    omega

/-- A mark in the whole text stands before what follows the pasted string. -/
theorem length_le_of_mark (front : List Char) {back text after : List Char}
    (same : text ++ '"' :: after = front ++ '"' :: back) (quiet : '"' ∉ after) : front.length ≤ text.length := by
  by_contra longer
  have found : '"' ∈ (text ++ '"' :: after).drop (text.length + 1) := by
    rw [same, List.drop_append_of_le_length (by omega)]
    exact List.mem_append_right _ List.mem_cons_self
  rw [List.drop_append, List.drop_eq_nil_of_le (by omega)] at found
  exact quiet (by simpa using found)

/-- Pasted between marks, a text is read back only when every character of it stands for itself. -/
theorem plain_of_stringAt {text after : List Char} (quiet : '"' ∉ after)
    (read : StringAt ('"' :: (text ++ '"' :: after)) text) : ∀ c ∈ text, isPlainChar c = true := by
  generalize whole : '"' :: (text ++ '"' :: after) = document at read
  cases read with
  | basic more =>
    obtain ⟨raw, rfl, longer, plain⟩ := more.longer
    have bound := length_le_of_mark raw (List.cons.inj whole).2 quiet
    exact plain (Nat.le_antisymm longer bound)
  | multiline more =>
    obtain ⟨raw, rfl, longer⟩ := more.longer
    have bound := length_le_of_mark ('"' :: '"' :: (raw ++ ['"', '"'])) (by simpa using (List.cons.inj whole).2) quiet
    simp only [List.length_cons, List.length_append] at bound
    omega
  | trimmed lineEnd trimmed more =>
    obtain ⟨raw, rfl, longer⟩ := more.longer
    have bound := length_le_of_mark ('"' :: '"' :: (lineEnd ++ raw ++ ['"', '"']))
      (by simpa using (List.cons.inj whole).2) quiet
    simp only [List.length_cons, List.length_append] at bound
    omega

/-- A text of plain characters is what the string between the marks says. -/
theorem basic_plain {text : List Char} (plain : ∀ c ∈ text, isPlainChar c = true) (after : List Char) :
    Basic (text ++ '"' :: after) text after := by
  induction text with
  | nil => exact .close after
  | cons c rest ih =>
    obtain ⟨first, others⟩ := List.forall_mem_cons.1 plain
    exact .plain c first (ih others)

/-! ## Tables on plain lines -/

/-- A value that is written on one line as it is. -/
inductive Scalar where
  | text (s : String)
  | integer (n : Int)
  deriving DecidableEq

def Scalar.print : Scalar → String
  | .text s => "\"" ++ s ++ "\""
  | .integer n => toString n

/-- Characters that stand for themselves, or an integer of 64 bits. -/
def Scalar.Valid : Scalar → Prop
  | .text s => ∀ c ∈ s.toList, isPlainChar c = true
  | .integer n => -2 ^ 63 ≤ n ∧ n < 2 ^ 63

def IsBareKey (key : String) : Prop := key ≠ "" ∧ ∀ c ∈ key.toList, isBareKeyChar c = true

def printLine (entry : String × Scalar) : String := entry.1 ++ " = " ++ entry.2.print

/-- One table of an array of tables, a line for each entry. -/
def printTable (name : String) (entries : List (String × Scalar)) : String :=
  entries.foldl (fun text entry => text ++ "\n" ++ printLine entry) ("[[" ++ name ++ "]]")

/-- The name and the entries of a table that can be printed. -/
structure Printable (name : String) (entries : List (String × Scalar)) : Prop where
  name : IsBareKey name
  keys : ∀ entry ∈ entries, IsBareKey entry.1
  values : ∀ entry ∈ entries, entry.2.Valid
  distinct : (entries.map Prod.fst).Nodup

theorem sign_or_digit_of_mem {n : Int} {c : Char} (member : c ∈ (toString n).toList) : c = '-' ∨ c.isDigit = true := by
  have digits (m : Nat) (inside : c ∈ (toString m).toList) : c.isDigit = true := by
    rw [Nat.toString_eq_ofList_toDigits, String.toList_ofList] at inside
    exact Nat.isDigit_of_mem_toDigits (by decide) (by decide) inside
  cases n with
  | ofNat m => exact .inr (digits m member)
  | negSucc m =>
    change c ∈ ("-" ++ toString (m + 1)).toList at member
    rw [String.toList_append, List.mem_append] at member
    exact member.imp List.mem_singleton.1 (digits (m + 1))

/-! ## A reader of plain lines -/

def readInteger (text : List Char) : Option Int :=
  let n : Int :=
    if text.head? = some '-' then -(Nat.ofDigitChars 10 text.tail 0 : Int) else (Nat.ofDigitChars 10 text 0 : Int)
  if text = (toString n).toList then some n else none

def readScalar (value : List Char) : Option Scalar :=
  let text := value.tail.dropLast
  if value = '"' :: (text ++ ['"']) ∧ text.all isPlainChar = true then some (.text (String.ofList text))
  else (readInteger value).map .integer

def readLine (line : List Char) : Option (String × Scalar) :=
  let key := line.takeWhile isBareKeyChar
  let value := line.drop (key.length + 3)
  if line = key ++ (" = ".toList ++ value) then (readScalar value).map fun scalar => (String.ofList key, scalar)
  else none

def readHeader (line : List Char) : Option String :=
  let name := (line.drop 2).dropLast.dropLast
  if line = "[[".toList ++ (name ++ "]]".toList) then some (String.ofList name) else none

def lines (text : List Char) : List (List Char) := text.splitOnP (· == '\n')

/-- The name and the entries of a table on plain lines. -/
def readTable (text : String) : Option (String × List (String × Scalar)) :=
  match lines text.toList with
  | header :: rest => (readHeader header).bind fun name => (rest.mapM readLine).map fun entries => (name, entries)
  | [] => none

theorem readInteger_toString (n : Int) : readInteger (toString n).toList = some n := by
  have guess : (if (toString n).toList.head? = some '-' then -(Nat.ofDigitChars 10 (toString n).toList.tail 0 : Int)
      else (Nat.ofDigitChars 10 (toString n).toList 0 : Int)) = n := by
    cases n with
    | ofNat m =>
      change (if (toString m).toList.head? = some '-' then -(Nat.ofDigitChars 10 (toString m).toList.tail 0 : Int)
        else (Nat.ofDigitChars 10 (toString m).toList 0 : Int)) = m
      rw [Nat.toString_eq_ofList_toDigits, String.toList_ofList, Nat.ofDigitChars_ten_toDigits, if_neg]
      intro signed
      have digit : '-'.isDigit = true :=
        Nat.isDigit_of_mem_toDigits (by decide) (by decide) (List.mem_of_mem_head? signed)
      exact absurd digit (by decide)
    | negSucc m =>
      change (if ("-" ++ toString (m + 1)).toList.head? = some '-' then
          -(Nat.ofDigitChars 10 ("-" ++ toString (m + 1)).toList.tail 0 : Int)
        else (Nat.ofDigitChars 10 ("-" ++ toString (m + 1)).toList 0 : Int)) = _
      rw [String.toList_append, show "-".toList = ['-'] from rfl, List.singleton_append, List.head?_cons, if_pos rfl,
        List.tail_cons, Nat.toString_eq_ofList_toDigits, String.toList_ofList, Nat.ofDigitChars_ten_toDigits]
      rfl
  rw [readInteger, guess, if_pos rfl]

theorem eq_of_readInteger {text : List Char} {n : Int} (read : readInteger text = some n) :
    text = (toString n).toList := by
  rw [readInteger] at read
  generalize (if text.head? = some '-' then _ else _ : Int) = guess at read
  split_ifs at read with canonical
  rw [← Option.some.inj read]
  exact canonical

theorem readScalar_print {scalar : Scalar} (valid : scalar.Valid) : readScalar scalar.print.toList = some scalar := by
  cases scalar with
  | text s =>
    have printed : (Scalar.text s).print.toList = '"' :: (s.toList ++ ['"']) := by
      simp [Scalar.print]
    rw [readScalar, printed, List.tail_cons, List.dropLast_concat, if_pos ⟨rfl, List.all_eq_true.2 valid⟩,
      String.ofList_toList]
  | integer n =>
    rw [readScalar, if_neg, Scalar.print, readInteger_toString, Option.map_some]
    rintro ⟨quoted, -⟩
    have mark : '"' ∈ (toString n).toList := by
      rw [Scalar.print] at quoted
      rw [quoted]
      exact List.mem_cons_self
    rcases sign_or_digit_of_mem mark with sign | digit
    · exact absurd sign (by decide)
    · exact absurd digit (by decide)

theorem bare_not_blank {key : String} (bare : IsBareKey key) (value : List Char) :
    (key.toList ++ (" = ".toList ++ value)).takeWhile isBareKeyChar = key.toList := by
  rw [List.takeWhile_append_of_pos fun c member => bare.2 c member]
  have stops : (" = ".toList ++ value).takeWhile isBareKeyChar = [] := by
    rw [show " = ".toList = [' ', '=', ' '] from rfl]
    rfl
  rw [stops, List.append_nil]

theorem readLine_eq {key : String} (bare : IsBareKey key) (value : List Char) :
    readLine (key.toList ++ (" = ".toList ++ value)) = (readScalar value).map fun scalar => (key, scalar) := by
  have rest : (key.toList ++ (" = ".toList ++ value)).drop (key.toList.length + 3) = value := by
    rw [← List.append_assoc, List.drop_left']
    simp
  rw [readLine, bare_not_blank bare, rest, if_pos rfl, String.ofList_toList]

theorem readLine_printLine {entry : String × Scalar} (bare : IsBareKey entry.1) (valid : entry.2.Valid) :
    readLine (printLine entry).toList = some entry := by
  rw [printLine, String.toList_append, String.toList_append, List.append_assoc, readLine_eq bare,
    readScalar_print valid]
  rfl

theorem readHeader_print (name : String) : readHeader ("[[" ++ name ++ "]]").toList = some name := by
  have inside : (("[[" ++ name ++ "]]").toList.drop 2).dropLast.dropLast = name.toList := by
    simp
  rw [readHeader, inside, if_pos, String.ofList_toList]
  simp

/-! ## The lines of a printed table -/

theorem lines_cons {line : List Char} (whole : '\n' ∉ line) (rest : List Char) :
    lines (line ++ '\n' :: rest) = line :: lines rest := by
  have plain : ∀ c ∈ line, (c == '\n') = false := fun c member => by
    rw [beq_eq_false_iff_ne]
    rintro rfl
    exact whole member
  rw [lines, List.splitOnP_append_cons _ _ (by rfl), List.splitOnP_eq_singleton plain]
  rfl

theorem lines_single {line : List Char} (whole : '\n' ∉ line) : lines line = [line] := by
  refine List.splitOnP_eq_singleton fun c member => ?_
  rw [beq_eq_false_iff_ne]
  rintro rfl
  exact whole member

theorem lines_flatMap {first : List Char} {others : List (List Char)} (whole : ∀ line ∈ first :: others, '\n' ∉ line)
    (more : List Char) : lines (first ++ (others.flatMap (fun line => '\n' :: line) ++ '\n' :: more)) =
      first :: (others ++ lines more) := by
  obtain ⟨firstWhole, othersWhole⟩ := List.forall_mem_cons.1 whole
  induction others generalizing first with
  | nil => exact lines_cons firstWhole more
  | cons next rest ih =>
    have later := ih othersWhole (List.forall_mem_cons.1 othersWhole).1 (List.forall_mem_cons.1 othersWhole).2
    rw [List.flatMap_cons, List.append_assoc, List.cons_append, lines_cons firstWhole, later]
    rfl

/-- The last line ends with the text. -/
theorem lines_flatMap_end {first : List Char} {others : List (List Char)}
    (whole : ∀ line ∈ first :: others, '\n' ∉ line) :
    lines (first ++ others.flatMap fun line => '\n' :: line) = first :: others := by
  rcases List.eq_nil_or_concat others with rfl | ⟨front, last, rfl⟩
  · rw [List.flatMap_nil, List.append_nil]
    exact lines_single (whole first List.mem_cons_self)
  · have earlier : ∀ line ∈ first :: front, '\n' ∉ line := fun line member => whole line (by
      rcases List.mem_cons.1 member with rfl | inside
      · exact List.mem_cons_self
      · simp [inside])
    have split := lines_flatMap earlier last
    rw [lines_single (whole last (by simp))] at split
    simpa using split

theorem toList_printTable (name : String) (entries : List (String × Scalar)) : (printTable name entries).toList =
    ("[[" ++ name ++ "]]").toList ++
      (entries.map fun entry => (printLine entry).toList).flatMap fun line => '\n' :: line := by
  have start (text : String) : (entries.foldl (fun text entry => text ++ "\n" ++ printLine entry) text).toList =
      text.toList ++ (entries.map fun entry => (printLine entry).toList).flatMap fun line => '\n' :: line := by
    induction entries generalizing text with
    | nil => simp
    | cons entry rest ih => simp [ih]
  exact start _

theorem not_mem_of_bare {key : String} (bare : IsBareKey key) : '\n' ∉ key.toList := fun member =>
  absurd (bare.2 _ member) (by decide)

theorem not_mem_of_valid {scalar : Scalar} (valid : scalar.Valid) : '\n' ∉ scalar.print.toList := by
  cases scalar with
  | text s =>
    rw [Scalar.print, String.toList_append, String.toList_append, List.mem_append, List.mem_append, not_or, not_or]
    exact ⟨⟨by decide, fun member => absurd (valid _ member) (by decide)⟩, by decide⟩
  | integer n =>
    intro member
    rcases sign_or_digit_of_mem member with sign | digit
    · exact absurd sign (by decide)
    · exact absurd digit (by decide)

/-- No line of a printed table is broken. -/
theorem Printable.whole {name : String} {entries : List (String × Scalar)} (printable : Printable name entries) :
    ∀ line ∈ ("[[" ++ name ++ "]]").toList :: entries.map (fun entry => (printLine entry).toList), '\n' ∉ line := by
  refine List.forall_mem_cons.2 ⟨?_, fun line member => ?_⟩
  · rw [String.toList_append, String.toList_append, List.mem_append, List.mem_append, not_or, not_or]
    exact ⟨⟨by decide, not_mem_of_bare printable.name⟩, by decide⟩
  · obtain ⟨entry, inside, rfl⟩ := List.mem_map.1 member
    rw [printLine, String.toList_append, String.toList_append, List.mem_append, List.mem_append, not_or, not_or]
    exact ⟨⟨not_mem_of_bare (printable.keys entry inside), by decide⟩, not_mem_of_valid (printable.values entry inside)⟩

theorem mapM_readLine {entries : List (String × Scalar)} (keys : ∀ entry ∈ entries, IsBareKey entry.1)
    (values : ∀ entry ∈ entries, entry.2.Valid) :
    (entries.map fun entry => (printLine entry).toList).mapM readLine = some entries := by
  induction entries with
  | nil => rfl
  | cons entry rest ih =>
    obtain ⟨key, otherKeys⟩ := List.forall_mem_cons.1 keys
    obtain ⟨value, otherValues⟩ := List.forall_mem_cons.1 values
    rw [List.map_cons, List.mapM_cons, readLine_printLine key value, ih otherKeys otherValues]
    rfl

/-- A printed table is read back. -/
theorem readTable_printTable {name : String} {entries : List (String × Scalar)} (printable : Printable name entries) :
    readTable (printTable name entries) = some (name, entries) := by
  rw [readTable, toList_printTable, lines_flatMap_end printable.whole]
  dsimp only
  rw [readHeader_print, mapM_readLine printable.keys printable.values]
  rfl

/-- The first line of a text that begins without a line end. -/
theorem exists_first_line {front : List Char} (whole : '\n' ∉ front) (text : List Char) :
    ∃ word after others, text = word ++ after ∧ lines (front ++ text) = (front ++ word) :: others := by
  have parts : text.takeWhile (· ≠ '\n') ++ text.dropWhile (· ≠ '\n') = text := List.takeWhile_append_dropWhile
  have inside : '\n' ∉ front ++ text.takeWhile (· ≠ '\n') := by
    rw [List.mem_append, not_or]
    exact ⟨whole, fun member => by simpa using List.mem_takeWhile_imp member⟩
  cases rest : text.dropWhile (· ≠ '\n') with
  | nil =>
    rw [rest, List.append_nil] at parts
    rw [parts] at inside
    exact ⟨text, [], [], (List.append_nil text).symm, lines_single inside⟩
  | cons c after =>
    obtain rfl : c = '\n' := by
      have stop := List.head?_dropWhile_not (· ≠ '\n') text
      rw [rest] at stop
      simpa using stop
    rw [rest] at parts
    refine ⟨_, _, lines after, parts.symm, ?_⟩
    rw [← lines_cons inside, List.append_assoc, parts]

theorem readScalar_quoted {word : List Char} {scalar : Scalar} (read : readScalar ('"' :: word) = some scalar) :
    ∃ s : String, scalar = .text s ∧ word = s.toList ++ ['"'] ∧ ∀ c ∈ s.toList, isPlainChar c = true := by
  rw [readScalar] at read
  split_ifs at read with quoted
  · obtain rfl := Option.some.inj read
    refine ⟨_, rfl, ?_, ?_⟩
    · rw [String.toList_ofList]
      exact (List.cons.inj quoted.1).2
    · rw [String.toList_ofList]
      exact List.all_eq_true.1 quoted.2
  · -- An integer has no quotation mark.
    obtain ⟨n, found, -⟩ := Option.map_eq_some_iff.1 read
    have mark : '"' ∈ (toString n).toList := eq_of_readInteger found ▸ List.mem_cons_self
    rcases sign_or_digit_of_mem mark with sign | digit
    · exact absurd sign (by decide)
    · exact absurd digit (by decide)

/-- When a table is read that goes on with a pasted string, the string is what the grammar says. -/
theorem readTable_pasted {name key rest : String} {entries read : List (String × Scalar)} {header : String}
    (printable : Printable name entries) (bare : IsBareKey key)
    (found : readTable (printTable name entries ++ "\n" ++ key ++ " = \"" ++ rest) = some (header, read)) :
    header = name ∧ ∃ s more after, read = entries ++ (key, .text s) :: more ∧ Basic rest.toList s.toList after := by
  have front : '\n' ∉ key.toList ++ (" = ".toList ++ ['"']) := by
    rw [List.mem_append, not_or]
    exact ⟨not_mem_of_bare bare, by decide⟩
  obtain ⟨word, after, others, whole, first⟩ := exists_first_line front rest.toList
  have text : (printTable name entries ++ "\n" ++ key ++ " = \"" ++ rest).toList = ("[[" ++ name ++ "]]").toList ++
      ((entries.map fun entry => (printLine entry).toList).flatMap (fun line => '\n' :: line) ++
        '\n' :: (key.toList ++ (" = ".toList ++ ['"']) ++ rest.toList)) := by
    rw [String.toList_append, String.toList_append, String.toList_append, String.toList_append, toList_printTable,
      show " = \"".toList = " = ".toList ++ ['"'] from rfl, show "\n".toList = ['\n'] from rfl]
    simp only [List.append_assoc, List.cons_append, List.nil_append]
  rw [readTable, text, lines_flatMap printable.whole, first] at found
  dsimp only at found
  rw [readHeader_print, List.mapM_append, mapM_readLine printable.keys printable.values, List.mapM_cons,
    List.append_assoc, List.append_assoc, readLine_eq bare] at found
  obtain ⟨all, listed, same⟩ := Option.map_eq_some_iff.1 found
  obtain ⟨rfl, rfl⟩ := Prod.mk.inj same
  obtain ⟨earlier, before, afterwards⟩ := Option.bind_eq_some_iff.1 listed
  obtain rfl := Option.some.inj before
  obtain ⟨later, rest', joined⟩ := Option.bind_eq_some_iff.1 afterwards
  obtain rfl := Option.some.inj joined
  obtain ⟨entry, pasted, others'⟩ := Option.bind_eq_some_iff.1 rest'
  obtain ⟨more, -, joined'⟩ := Option.bind_eq_some_iff.1 others'
  obtain rfl := Option.some.inj joined'
  obtain ⟨scalar, quoted, rfl⟩ := Option.map_eq_some_iff.1 pasted
  obtain ⟨s, rfl, rfl, plain⟩ := readScalar_quoted quoted
  refine ⟨rfl, s, more, after, rfl, ?_⟩
  rw [whole, List.append_assoc, List.singleton_append]
  exact basic_plain plain after

end McpTracer.Foundation.Toml
