import Mathlib.Data.List.Basic

/-! A reader for XML 1.0 documents.

The reader takes a document character by character, with the elements that are open on a stack. It knows the
declaration at the start, elements with their attributes, and references to characters and to the five
predefined entities. A document type, comments, processing instructions and sections of plain text it refuses.
-/

set_option autoImplicit false

namespace McpTracer.Foundation.Xml

/-! ## Characters -/

def inRanges (ranges : List (Nat × Nat)) (c : Char) : Bool :=
  ranges.any fun range => range.1 ≤ c.toNat && c.toNat ≤ range.2

/-- The characters that a document may have. -/
def isXmlChar : Char → Bool :=
  inRanges [(0x9, 0xA), (0xD, 0xD), (0x20, 0xD7FF), (0xE000, 0xFFFD), (0x10000, 0x10FFFF)]

def isBlank (c : Char) : Bool := [' ', '\t', '\n', '\r'].contains c

def isNameStart : Char → Bool :=
  inRanges [(0x3A, 0x3A), (0x41, 0x5A), (0x5F, 0x5F), (0x61, 0x7A), (0xC0, 0xD6), (0xD8, 0xF6), (0xF8, 0x2FF),
    (0x370, 0x37D), (0x37F, 0x1FFF), (0x200C, 0x200D), (0x2070, 0x218F), (0x2C00, 0x2FEF), (0x3001, 0xD7FF),
    (0xF900, 0xFDCF), (0xFDF0, 0xFFFD), (0x10000, 0xEFFFF)]

def isNameChar (c : Char) : Bool :=
  isNameStart c ||
    inRanges [(0x2D, 0x2E), (0x30, 0x39), (0xB7, 0xB7), (0x300, 0x36F), (0x203F, 0x2040)] c

/-- Both other ways to end a line are read as a line feed. -/
@[grind] def endOfLines : List Char → List Char
  | [] => []
  | '\r' :: '\n' :: rest => '\n' :: endOfLines rest
  | c :: rest => (if c = '\r' then '\n' else c) :: endOfLines rest

/-- Blanks in the value of an attribute are read as spaces. -/
def attributeChar (c : Char) : Char := if isBlank c then ' ' else c

/-! ## References -/

def predefinedEntities : List (List Char × Char) :=
  [("lt".toList, '<'), ("gt".toList, '>'), ("amp".toList, '&'), ("quot".toList, '"'), ("apos".toList, '\'')]

def hexDigit (c : Char) : Option Nat :=
  if c.isDigit then some (c.toNat - 48)
  else if 'a' ≤ c ∧ c ≤ 'f' then some (c.toNat - 87)
  else if 'A' ≤ c ∧ c ≤ 'F' then some (c.toNat - 55)
  else none

def digit (c : Char) : Option Nat := if c.isDigit then some (c.toNat - 48) else none

def readNumber (base : Nat) (value : Char → Option Nat) (digits : List Char) : Option Nat :=
  if digits = [] then none else (digits.mapM value).map (List.foldl (fun n d => base * n + d) 0)

/-- The character that a number refers to. -/
def charAt (n : Nat) : Option Char :=
  if n.isValidChar then (some (Char.ofNat n)).filter isXmlChar else none

/-- What is between an ampersand and a semicolon. -/
def resolve : List Char → Option Char
  | '#' :: 'x' :: digits => (readNumber 16 hexDigit digits).bind charAt
  | '#' :: digits => (readNumber 10 digit digits).bind charAt
  | name => predefinedEntities.lookup name

/-! ## Documents -/

abbrev Attributes := List (List Char × List Char)

/-- Character data is kept character by character. -/
inductive Node where
  | char (c : Char)
  | element (name : List Char) (attributes : Attributes) (children : List Node)

namespace Node

def name : Node → List Char
  | char _ => []
  | element name _ _ => name

def valueOf (key : List Char) : Node → Option (List Char)
  | char _ => none
  | element _ attributes _ => attributes.lookup key

def isElement : Node → Bool
  | char _ => false
  | element _ _ _ => true

/-- The elements among the children. -/
def elements : Node → List Node
  | char _ => []
  | element _ _ children => children.filter isElement

end Node

/-- A tag that is being read; the declaration has no name. -/
structure Tag where
  name : Option (List Char)
  attributes : Attributes

/-- An element whose end has not been read. -/
structure Unclosed where
  name : List Char
  attributes : Attributes
  children : List Node

def Unclosed.add (parent : Unclosed) (added : List Node) : Unclosed :=
  { parent with children := parent.children ++ added }

inductive Mode where
  | start
  /-- In character data, after this many closing brackets. -/
  | content (brackets : Nat)
  | reference (entity : List Char)
  /-- After an opening bracket, which may be the first character of all. -/
  | tagStart (first : Bool)
  | declaration (read : List Char)
  | tagName (read : List Char)
  | blanks (tag : Tag)
  | attributeName (tag : Tag) (read : List Char)
  | equals (tag : Tag) (key : List Char)
  | beforeValue (tag : Tag) (key : List Char)
  | value (tag : Tag) (key : List Char) (quote : Char) (read : List Char)
  | valueReference (tag : Tag) (key : List Char) (quote : Char) (read entity : List Char)
  | afterValue (tag : Tag)
  /-- What ends a tag has been begun with a slash or a question mark. -/
  | closing (tag : Tag)
  | endName (read : List Char)
  | endBlanks (read : List Char)

structure State where
  mode : Mode
  /-- The innermost element first. -/
  stack : List Unclosed
  root : Option Node

def State.initial : State := ⟨.start, [], none⟩

/-- A child of the innermost open element, or the root. -/
def State.add (state : State) (child : Node) : Option State :=
  match state.stack, state.root, child with
  | parent :: rest, _, _ => some { state with mode := .content 0, stack := parent.add [child] :: rest }
  | [], none, .element name attributes children =>
    some { state with mode := .content 0, root := some (.element name attributes children) }
  | [], _, .char c => if isBlank c then some { state with mode := .content 0 } else none
  | [], some _, .element _ _ _ => none

def State.openTag (state : State) (name : List Char) (attributes : Attributes) : State :=
  { state with mode := .content 0, stack := ⟨name, attributes, []⟩ :: state.stack }

def State.closeTag (state : State) (name : List Char) : Option State :=
  match state.stack with
  | [] => none
  | top :: rest =>
    if top.name = name then State.add { state with stack := rest } (.element name top.attributes top.children)
    else none

/-- A declaration of the version, and then of the encoding and of whether other entities matter. -/
def declares (attributes : Attributes) : Bool :=
  [["version"], ["version", "encoding"], ["version", "standalone"], ["version", "encoding", "standalone"]].contains
      (attributes.map fun entry => String.ofList entry.1) &&
    attributes.lookup "version".toList == some "1.0".toList &&
    (attributes.lookup "encoding".toList).all (· == "UTF-8".toList) &&
    (attributes.lookup "standalone".toList).all ["yes".toList, "no".toList].contains

/-- In a tag, where no attribute begins. -/
def State.endTag (state : State) (tag : Tag) (c : Char) : Option State :=
  match tag.name with
  | none => if c = '?' then some { state with mode := .closing tag } else none
  | some name =>
    if c = '>' then some (state.openTag name tag.attributes)
    else if c = '/' then some { state with mode := .closing tag }
    else none

def State.inContent (state : State) (brackets : Nat) (first : Bool) (c : Char) : Option State :=
  if c = '<' then some { state with mode := .tagStart first }
  else if c = '&' then
    if state.stack.isEmpty then none else some { state with mode := .reference [] }
  else if c = '>' ∧ 2 ≤ brackets then none
  else (state.add (.char c)).map fun state => { state with mode := .content (if c = ']' then brackets + 1 else 0) }

/-- One character of a document whose lines end with line feeds. -/
def step (state : State) (c : Char) : Option State :=
  if !isXmlChar c then none
  else
    match state.mode with
    | .start => state.inContent 0 true c
    | .content brackets => state.inContent brackets false c
    | .reference entity =>
      if c = ';' then (resolve entity).bind fun c => state.add (.char c)
      else some { state with mode := .reference (entity ++ [c]) }
    | .tagStart first =>
      if c = '/' then some { state with mode := .endName [] }
      else if c = '?' ∧ first then some { state with mode := .declaration [] }
      else if isNameStart c then some { state with mode := .tagName [c] }
      else none
    | .declaration read =>
      if isBlank c then
        if read = "xml".toList then some { state with mode := .blanks ⟨none, []⟩ } else none
      else some { state with mode := .declaration (read ++ [c]) }
    | .tagName read =>
      if isNameChar c then some { state with mode := .tagName (read ++ [c]) }
      else if isBlank c then some { state with mode := .blanks ⟨some read, []⟩ }
      else state.endTag ⟨some read, []⟩ c
    | .blanks tag =>
      if isBlank c then some state
      else if isNameStart c then some { state with mode := .attributeName tag [c] }
      else state.endTag tag c
    | .attributeName tag read =>
      if isNameChar c then some { state with mode := .attributeName tag (read ++ [c]) }
      else if isBlank c then some { state with mode := .equals tag read }
      else if c = '=' then some { state with mode := .beforeValue tag read }
      else none
    | .equals tag key =>
      if isBlank c then some state
      else if c = '=' then some { state with mode := .beforeValue tag key }
      else none
    | .beforeValue tag key =>
      if isBlank c then some state
      else if c = '"' ∨ c = '\'' then some { state with mode := .value tag key c [] }
      else none
    | .value tag key quote read =>
      if c = quote then
        if key ∈ tag.attributes.map Prod.fst then none
        else some { state with mode := .afterValue { tag with attributes := tag.attributes ++ [(key, read)] } }
      else if c = '<' then none
      else if c = '&' then
        if tag.name.isNone then none else some { state with mode := .valueReference tag key quote read [] }
      else some { state with mode := .value tag key quote (read ++ [attributeChar c]) }
    | .valueReference tag key quote read entity =>
      if c = ';' then (resolve entity).map fun c => { state with mode := .value tag key quote (read ++ [c]) }
      else some { state with mode := .valueReference tag key quote read (entity ++ [c]) }
    | .afterValue tag =>
      if isBlank c then some { state with mode := .blanks tag } else state.endTag tag c
    | .closing tag =>
      if c = '>' then
        match tag.name with
        | none => if declares tag.attributes then some { state with mode := .content 0 } else none
        | some name => state.add (.element name tag.attributes [])
      else none
    | .endName read =>
      if isNameChar c then some { state with mode := .endName (read ++ [c]) }
      else if isBlank c then some { state with mode := .endBlanks read }
      else if c = '>' then state.closeTag read
      else none
    | .endBlanks read =>
      if isBlank c then some state
      else if c = '>' then state.closeTag read
      else none

def run (state : State) (text : List Char) : Option State := text.foldlM step state

/-- The root element, when everything is closed at the end. -/
def State.finish (state : State) : Option Node :=
  match state.mode, state.stack with
  | .content _, [] => state.root
  | _, _ => none

def read (state : State) (text : List Char) : Option State := run state (endOfLines text)

def parse (text : String) : Option Node := (read .initial text.toList).bind State.finish

/-! ## Reading pieces of a document -/

theorem run_append (state : State) (first second : List Char) :
    run state (first ++ second) = (run state first).bind fun state => run state second :=
  List.foldlM_append

theorem step_eq_none {state : State} {c : Char} (bad : isXmlChar c = false) : step state c = none := by
  rw [step, bad]
  rfl

theorem endOfLines_return {rest : List Char} (alone : rest.head? ≠ some '\n') :
    endOfLines ('\r' :: rest) = '\n' :: endOfLines rest := by
  rw [endOfLines, if_pos rfl]
  exact fun following _ starts => alone (by rw [starts]; rfl)

/-- Lines end as they do in their parts, unless one of them ends between the parts. -/
theorem endOfLines_append {first second : List Char} (apart : second.head? ≠ some '\n') :
    endOfLines (first ++ second) = endOfLines first ++ endOfLines second := by
  fun_induction endOfLines first with
  | case1 => rfl
  | case2 rest ih => rw [List.cons_append, List.cons_append, endOfLines, ih, List.cons_append]
  | case3 c rest other ih =>
    rw [List.cons_append, endOfLines, ih, List.cons_append]
    intro following carriage starts
    cases rest with
    | nil => exact apart (by rw [← List.nil_append second, starts]; rfl)
    | cons head tail =>
      obtain ⟨rfl, -⟩ := List.cons.inj starts
      exact other _ carriage rfl

/-- Only a carriage return is read as something else. -/
theorem endOfLines_append_of_plain {first : List Char} (plain : '\r' ∉ first) (second : List Char) :
    endOfLines (first ++ second) = first ++ endOfLines second := by
  induction first with
  | nil => rfl
  | cons c rest ih =>
    obtain ⟨other, plain⟩ := not_or.1 (List.mem_cons.not.1 plain)
    rw [List.cons_append, endOfLines, ih plain, if_neg (Ne.symm other), List.cons_append]
    exact fun _ here => absurd here.symm other

theorem endOfLines_eq_self {text : List Char} (plain : '\r' ∉ text) : endOfLines text = text := by
  have read := endOfLines_append_of_plain plain []
  rwa [List.append_nil, endOfLines, List.append_nil] at read
theorem read_literal {first : List Char} (plain : '\r' ∉ first) (state : State) (second : List Char) :
    read state (first ++ second) = (run state first).bind fun state => read state second := by
  rw [read, endOfLines_append_of_plain plain, run_append]
  rfl

theorem Unclosed.add_add (parent : Unclosed) (first second : List Node) :
    (parent.add first).add second = parent.add (first ++ second) := by
  rw [Unclosed.add, Unclosed.add, Unclosed.add, List.append_assoc]

/-! ## Values of attributes -/

/-- What an attribute has as its value when a text is written between its quotation marks. -/
def attributeValue (text : List Char) : List Char := (endOfLines text).map attributeChar

/-- A way to write each character of a value, which leaves the ends of lines as they are. -/
structure WritesValue (write : Char → List Char) : Prop where
  lineFeed : write '\n' = ['\n']
  carriageReturn : write '\r' = ['\r']
  others : ∀ c, c ≠ '\n' → c ≠ '\r' → write c ≠ [] ∧ '\n' ∉ write c ∧ '\r' ∉ write c
  reads : ∀ name attributes key value stack root c,
    run ⟨.value ⟨some name, attributes⟩ key '"' value, stack, root⟩ (write c) =
      if isXmlChar c then some ⟨.value ⟨some name, attributes⟩ key '"' (value ++ [attributeChar c]), stack, root⟩
      else none

theorem all_isXmlChar_endOfLines (text : List Char) : (endOfLines text).all isXmlChar = text.all isXmlChar := by
  fun_induction endOfLines text with
  | case1 => rfl
  | case2 rest ih =>
    rw [List.all_cons, ih]
    rfl
  | case3 c rest other ih =>
    rw [List.all_cons, List.all_cons, ih]
    split_ifs with here
    · rw [here]
      rfl
    · rfl

theorem attributeChar_ne (c : Char) : attributeChar c ≠ '\t' ∧ attributeChar c ≠ '\n' ∧ attributeChar c ≠ '\r' := by
  rw [attributeChar]
  split_ifs with blank
  · decide
  · refine ⟨?_, ?_, ?_⟩ <;> rintro rfl <;> exact blank rfl

theorem attributeChar_eq_self {c : Char} (kept : c ≠ '\t' ∧ c ≠ '\n' ∧ c ≠ '\r') : attributeChar c = c := by
  rw [attributeChar]
  split_ifs with blank
  · simp only [isBlank, List.contains_iff_mem, List.mem_cons, List.not_mem_nil, or_false, kept.1, kept.2.1, kept.2.2]
      at blank
    exact blank.symm
  · rfl

/-- A value is the text that was written just when no blank of it is read as another. -/
theorem attributeValue_eq_self_iff {text : List Char} :
    attributeValue text = text ↔ ∀ c ∈ text, c ≠ '\t' ∧ c ≠ '\n' ∧ c ≠ '\r' := by
  constructor
  · intro same c member
    rw [← same] at member
    obtain ⟨d, -, rfl⟩ := List.mem_map.1 member
    exact attributeChar_ne d
  · intro kept
    rw [attributeValue, endOfLines_eq_self fun member => (kept _ member).2.2 rfl]
    exact (List.map_congr_left fun c member => attributeChar_eq_self (kept c member)).trans (List.map_id text)

namespace WritesValue
variable {write : Char → List Char}

theorem head_flatMap (writes : WritesValue write) (text : List Char) :
    (text.flatMap write).head? = some '\n' ↔ text.head? = some '\n' := by
  cases text with
  | nil => exact Iff.rfl
  | cons c rest =>
    rw [List.flatMap_cons]
    by_cases feed : c = '\n'
    · rw [feed, writes.lineFeed]
      exact iff_of_true rfl rfl
    · rw [List.head?_cons, Option.some.injEq, iff_false_right feed]
      by_cases carriage : c = '\r'
      · rw [carriage, writes.carriageReturn]
        exact fun starts => absurd (Option.some.inj starts) (by decide)
      · obtain ⟨nonempty, noFeed, -⟩ := writes.others c feed carriage
        rw [List.head?_append_of_ne_nil _ nonempty]
        exact fun starts => noFeed (List.mem_of_head? starts)

theorem endOfLines_flatMap (writes : WritesValue write) (text : List Char) :
    endOfLines (text.flatMap write) = (endOfLines text).flatMap write := by
  fun_induction endOfLines text with
  | case1 => rfl
  | case2 rest ih =>
    rw [List.flatMap_cons, List.flatMap_cons, writes.carriageReturn, writes.lineFeed, List.flatMap_cons,
      writes.lineFeed, ← ih]
    rfl
  | case3 c rest other ih =>
    rw [List.flatMap_cons, List.flatMap_cons, ← ih]
    by_cases carriage : c = '\r'
    · subst carriage
      have alone : (rest.flatMap write).head? ≠ some '\n' := by
        rw [Ne, writes.head_flatMap]
        intro starts
        cases rest with
        | nil => cases starts
        | cons head tail => exact other tail rfl (by rw [Option.some.inj starts])
      rw [writes.carriageReturn, if_pos rfl, writes.lineFeed]
      exact endOfLines_return alone
    · rw [if_neg carriage]
      by_cases feed : c = '\n'
      · rw [feed, writes.lineFeed]
        rfl
      · exact endOfLines_append_of_plain (writes.others c feed carriage).2.2 _

theorem run_flatMap (writes : WritesValue write) (name : List Char) (attributes : Attributes) (key value : List Char)
    (stack : List Unclosed) (root : Option Node) (text : List Char) :
    run ⟨.value ⟨some name, attributes⟩ key '"' value, stack, root⟩ (text.flatMap write) =
      if text.all isXmlChar then
        some ⟨.value ⟨some name, attributes⟩ key '"' (value ++ text.map attributeChar), stack, root⟩
      else none := by
  induction text generalizing value with
  | nil => rw [List.map_nil, List.append_nil]; rfl
  | cons c rest ih =>
    rw [List.flatMap_cons, run_append, writes.reads, List.all_cons, List.map_cons]
    cases isXmlChar c with
    | false => rfl
    | true =>
      rw [if_pos rfl, Option.bind_some, ih, Bool.true_and, List.append_assoc, List.singleton_append]

/-- What is written is read up to the quotation mark, when the reader knows all of its characters. -/
theorem read_flatMap (writes : WritesValue write) {literal : List Char} (quoted : literal.head? = some '"')
    (name : List Char) (attributes : Attributes) (key : List Char) (stack : List Unclosed) (root : Option Node)
    (text rest : List Char) :
    read ⟨.value ⟨some name, attributes⟩ key '"' [], stack, root⟩ (text.flatMap write ++ (literal ++ rest)) =
      if text.all isXmlChar then
        read ⟨.value ⟨some name, attributes⟩ key '"' (attributeValue text), stack, root⟩ (literal ++ rest)
      else none := by
  have apart : (literal ++ rest).head? ≠ some '\n' := by
    rw [List.head?_append, quoted]
    exact fun starts => absurd (Option.some.inj starts) (by decide)
  rw [read, endOfLines_append apart, writes.endOfLines_flatMap, run_append, writes.run_flatMap,
    all_isXmlChar_endOfLines]
  split_ifs
  · rfl
  · rfl

end WritesValue

end McpTracer.Foundation.Xml
