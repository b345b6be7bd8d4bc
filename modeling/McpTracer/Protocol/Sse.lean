import McpTracer.Foundation.Transducer

/-! The decoder for the data fields of a server-sent event stream.

Bytes arrive in chunks. The decoder keeps the unfinished line and the data gathered
for the current event, within a limit for each; a line or an event above its limit is
reported once and its bytes are not kept.
-/

set_option autoImplicit false

namespace McpTracer.Protocol
open McpTracer.Foundation

def maxFrameBytes : Nat := 8 * 1024 * 1024

/-- The longest physical line, with room for the field name and a carriage return. -/
def maxLineBytes : Nat := maxFrameBytes + 7

def lf : UInt8 := 10
def cr : UInt8 := 13
def space : UInt8 := 32

/-- The bytes of the field name and its colon. -/
def dataField : List UInt8 := [100, 97, 116, 97, 58]

structure SseDecoder where
  line : List UInt8
  data : List UInt8
  oversized : Bool
  discardingLine : Bool
  deriving DecidableEq

attribute [ext] SseDecoder

inductive SseEvent where
  | json (payload : List UInt8)
  | oversized
  | incomplete
  deriving DecidableEq

/-- The pieces of a chunk, each with the line feed that ends it; the last piece may lack one. -/
def splitInclusive : List UInt8 → List (List UInt8)
  | [] => []
  | byte :: rest =>
    if byte = lf then [byte] :: splitInclusive rest
    else
      match splitInclusive rest with
      | [] => [[byte]]
      | fragment :: fragments => (byte :: fragment) :: fragments

def dropTrailingCr (line : List UInt8) : List UInt8 :=
  if line.getLast? = some cr then line.dropLast else line

def dropLeadingSpace : List UInt8 → List UInt8
  | [] => []
  | byte :: rest => if byte = space then rest else byte :: rest

/-- The value of a data line; other lines have none. -/
def dataValue (line : List UInt8) : Option (List UInt8) :=
  if dataField <+: line then some (dropLeadingSpace (line.drop dataField.length)) else none

namespace SseDecoder

def default : SseDecoder where
  line := []
  data := []
  oversized := false
  discardingLine := false

def hasPendingEvent (decoder : SseDecoder) : Bool :=
  !decoder.line.isEmpty || !decoder.data.isEmpty || decoder.oversized || decoder.discardingLine

def finishEvent (decoder : SseDecoder) : SseDecoder × List SseEvent :=
  ({ decoder with data := [], oversized := false },
    if decoder.oversized then [.oversized]
    else if decoder.data ≠ [] then [.json decoder.data]
    else [])

def appendValue (decoder : SseDecoder) (value : List UInt8) : SseDecoder :=
  let separator := if decoder.data.isEmpty then 0 else 1
  if decoder.data.length + separator + value.length > maxFrameBytes then
    { decoder with data := [], oversized := true }
  else
    { decoder with data := decoder.data ++ (if separator = 1 then [lf] else []) ++ value }

def processLine (decoder : SseDecoder) (line : List UInt8) : SseDecoder × List SseEvent :=
  if line.isEmpty then decoder.finishEvent
  else
    match dataValue line with
    | none => (decoder, [])
    | some value => if decoder.oversized then (decoder, []) else (decoder.appendValue value, [])

/-- The data with one more value. -/
def grown (decoder : SseDecoder) (value : List UInt8) : List UInt8 :=
  if decoder.data = [] then value else decoder.data ++ [lf] ++ value

theorem appendValue_eq (decoder : SseDecoder) (value : List UInt8) :
    decoder.appendValue value =
      if maxFrameBytes < (decoder.grown value).length then { decoder with data := [], oversized := true }
      else { decoder with data := decoder.grown value } := by
  unfold appendValue grown
  by_cases empty : decoder.data = []
  · simp [empty]
  · simp [empty, Nat.add_assoc, Nat.add_comm 1]

theorem appendValue_keeps (decoder : SseDecoder) (value : List UInt8) :
    (decoder.appendValue value).line = decoder.line ∧
      (decoder.appendValue value).discardingLine = decoder.discardingLine := by
  rw [appendValue_eq]
  split <;> exact ⟨rfl, rfl⟩

/-- Processing a line leaves the line buffer alone. -/
theorem processLine_keeps (decoder : SseDecoder) (line : List UInt8) :
    (decoder.processLine line).1.line = decoder.line ∧
      (decoder.processLine line).1.discardingLine = decoder.discardingLine := by
  unfold processLine
  split
  · exact ⟨rfl, rfl⟩
  · split
    · exact ⟨rfl, rfl⟩
    · split
      · exact ⟨rfl, rfl⟩
      · exact decoder.appendValue_keeps _

/-- Bytes of the current line, before its end. -/
def accept (decoder : SseDecoder) (bytes : List UInt8) : SseDecoder :=
  if decoder.discardingLine then decoder
  else if decoder.line.length + bytes.length > maxFrameBytes + 7 then
    { line := [], data := [], oversized := true, discardingLine := true }
  else { decoder with line := decoder.line ++ bytes }

/-- The end of the current line. -/
def endLine (decoder : SseDecoder) : SseDecoder × List SseEvent :=
  if decoder.discardingLine then ({ decoder with discardingLine := false }, [])
  else { decoder with line := [] }.processLine (dropTrailingCr decoder.line)

def pushFragment (decoder : SseDecoder) (fragment : List UInt8) : SseDecoder × List SseEvent :=
  if fragment.getLast? = some lf then (decoder.accept fragment.dropLast).endLine
  else (decoder.accept fragment, [])

def push (decoder : SseDecoder) (chunk : List UInt8) : SseDecoder × List SseEvent :=
  feed pushFragment decoder (splitInclusive chunk)

def finish (decoder : SseDecoder) : SseDecoder × List SseEvent :=
  (default,
    if decoder.oversized then [.oversized]
    else if decoder.hasPendingEvent then [.incomplete]
    else [])

/-! ## One byte at a time -/

def pushByte (decoder : SseDecoder) (byte : UInt8) : SseDecoder × List SseEvent :=
  decoder.pushFragment [byte]

theorem pushByte_lf (decoder : SseDecoder) : decoder.pushByte lf = (decoder.accept []).endLine := rfl

theorem pushByte_other (decoder : SseDecoder) {byte : UInt8} (other : byte ≠ lf) :
    decoder.pushByte byte = (decoder.accept [byte], []) := by
  simp [pushByte, pushFragment, other]

/-- Overflowing in the first part or in the second leaves the same state behind. -/
theorem accept_append (decoder : SseDecoder) (first second : List UInt8) :
    decoder.accept (first ++ second) = (decoder.accept first).accept second := by
  unfold accept
  cases discarding : decoder.discardingLine with
  | true => simp [discarding]
  | false =>
    by_cases early : decoder.line.length + first.length > maxFrameBytes + 7
    · have overall : maxFrameBytes + 7 < decoder.line.length + (first.length + second.length) := by
        omega
      simp [early, overall]
    · simp [early, Nat.add_assoc]

/-- The head of a fragment may be read on its own. -/
theorem pushFragment_cons (decoder : SseDecoder) {byte : UInt8} {fragment : List UInt8}
    (nonempty : fragment ≠ []) :
    decoder.pushFragment (byte :: fragment) = (decoder.accept [byte]).pushFragment fragment := by
  have last : (byte :: fragment).getLast? = fragment.getLast? := by
    rw [List.getLast?_cons]
    simp [List.getLast?_eq_some_getLast nonempty]
  have whole : decoder.accept (byte :: fragment) = (decoder.accept [byte]).accept fragment :=
    accept_append decoder [byte] fragment
  have upToEnd : decoder.accept (byte :: fragment.dropLast) =
      (decoder.accept [byte]).accept fragment.dropLast := accept_append decoder [byte] fragment.dropLast
  rw [pushFragment, pushFragment, last, List.dropLast_cons_of_ne_nil nonempty, whole, upToEnd]

theorem splitInclusive_ne_nil {chunk fragment : List UInt8} (piece : fragment ∈ splitInclusive chunk) :
    fragment ≠ [] := by
  induction chunk generalizing fragment with
  | nil => simp [splitInclusive] at piece
  | cons byte rest ih =>
    rw [splitInclusive] at piece
    split at piece
    · rcases List.mem_cons.1 piece with rfl | later
      · simp
      · exact ih later
    · split at piece
      · simp_all
      · rename_i first others split
        rcases List.mem_cons.1 piece with rfl | later
        · simp
        · exact ih (by simp [split, later])

/-- Reading a chunk by its lines is reading it byte by byte. -/
theorem push_eq_feed (decoder : SseDecoder) (chunk : List UInt8) :
    decoder.push chunk = feed pushByte decoder chunk := by
  unfold push
  induction chunk generalizing decoder with
  | nil => rfl
  | cons byte rest ih =>
    rw [splitInclusive, feed]
    by_cases ends : byte = lf
    · simp only [ends, ↓reduceIte, feed]
      rw [ih]
      rfl
    · simp only [ends, ↓reduceIte, pushByte_other decoder ends, List.nil_append, ← ih]
      cases pieces : splitInclusive rest with
      | nil => simp [feed, pushFragment, ends]
      | cons fragment fragments =>
        have piece : fragment ∈ splitInclusive rest := by simp [pieces]
        have nonempty : fragment ≠ [] := splitInclusive_ne_nil piece
        simp only [feed, pushFragment_cons decoder nonempty]

/-! ## Whole streams -/

/-- Every chunk in order, and then the end of the stream. -/
def decode (chunks : List (List UInt8)) : List SseEvent :=
  let pushed := feed push default chunks
  pushed.2 ++ pushed.1.finish.2

/-- The chunks matter through their concatenation alone. -/
theorem decode_eq (chunks : List (List UInt8)) :
    decode chunks =
      let pushed := feed pushByte default chunks.flatten
      pushed.2 ++ pushed.1.finish.2 := by
  rw [decode, feed_flatten push_eq_feed]

end SseDecoder

end McpTracer.Protocol
