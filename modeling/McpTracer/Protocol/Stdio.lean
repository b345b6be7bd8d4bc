import Mathlib.Data.List.TakeWhile
import McpTracer.Json.Codec
import McpTracer.Protocol.Sse

/-! The frames of the stdio transport: one line for each message.

The parser takes the first line off a buffer. The lines of a whole stream, and what the stream ends
with, say what a sequence of such calls can find in it.
-/

set_option autoImplicit false

namespace McpTracer.Protocol
open McpTracer.Foundation McpTracer.Json

/-- A line, with and without the bytes that end it. -/
structure StdioFrame where
  jsonBytes : List UInt8
  wireBytes : List UInt8
  consumed : Nat
  filled : jsonBytes ≠ []
  payload : jsonBytes = dropTrailingCr wireBytes.dropLast
  counted : consumed = wireBytes.length

/-- The first line of the buffer, if that has a line. -/
def parseStdioFrame (buf : List UInt8) : Except String (Option StdioFrame) :=
  match found : buf.findIdx? (· == lf) with
  | none => .ok none
  | some newlineIdx =>
    if filled : dropTrailingCr (buf.take newlineIdx) = [] then .error "empty stdio frame"
    else
      have within : newlineIdx < buf.length := (List.findIdx?_eq_some_iff_findIdx_eq.1 found).1
      .ok (some
        { jsonBytes := dropTrailingCr (buf.take newlineIdx)
          wireBytes := buf.take (newlineIdx + 1)
          consumed := newlineIdx + 1
          filled := filled
          payload := by rw [List.take_succ_eq_append_getElem within, List.dropLast_concat]
          counted := by rw [List.length_take, Nat.min_eq_left within] })

def encodeStdioFrame (codec : Codec) (payload : Value) : List UInt8 := (codec.toString payload).toUTF8.data.toList ++ [lf]

/-- The bytes of a JSON text are those of a UTF-8 string. -/
def parseJsonPayload (codec : Codec) (bytes : List UInt8) : Option Value :=
  (String.fromUTF8? bytes.toByteArray).bind codec.fromStr

/-! ## The lines of a stream -/

/-- What ends with the first newline. -/
def IsLine (line : List UInt8) : Prop := ∃ body, Open (· == lf) body ∧ line = body ++ [lf]

def frameLines (stream : List UInt8) : List (List UInt8) :=
  (closedGroups (· == lf) stream).map (· ++ [lf])

/-- What follows the last newline. -/
def unterminated (stream : List UInt8) : List UInt8 := openGroup (· == lf) stream

theorem frameLines_of_open {stream : List UInt8} (isOpen : Open (· == lf) stream) : frameLines stream = [] := by
  rw [frameLines, closedGroups_of_open isOpen, List.map_nil]

theorem frameLines_line {body : List UInt8} (isOpen : Open (· == lf) body) (rest : List UInt8) :
    frameLines (body ++ lf :: rest) = (body ++ [lf]) :: frameLines rest := by
  rw [frameLines, closedGroups_group isOpen rfl, List.map_cons, frameLines]

theorem unterminated_line (body rest : List UInt8) : unterminated (body ++ lf :: rest) = unterminated rest :=
  openGroup_group body rfl rest

theorem frameLines_append (first second : List UInt8) :
    frameLines (first ++ second) = frameLines first ++ frameLines (unterminated first ++ second) := by
  rw [frameLines, closedGroups_append, List.map_append, frameLines, frameLines, unterminated]

theorem unterminated_append (first second : List UInt8) :
    unterminated (first ++ second) = unterminated (unterminated first ++ second) := openGroup_append first second

theorem open_unterminated (stream : List UInt8) : Open (· == lf) (unterminated stream) := open_openGroup stream

theorem isLine_of_mem_frameLines {stream line : List UInt8} (member : line ∈ frameLines stream) : IsLine line := by
  obtain ⟨body, closed, rfl⟩ := List.mem_map.1 member
  exact ⟨body, open_of_mem_closedGroups closed, rfl⟩

/-- What was left open stays open, or becomes a line that is longer. -/
theorem frameLines_begun {begun : List UInt8} (isOpen : Open (· == lf) begun) (more : List UInt8) :
    (frameLines (begun ++ more) = [] ∧ unterminated (begun ++ more) = begun ++ more) ∨
      ∃ line others, frameLines (begun ++ more) = line :: others ∧ begun.length < line.length := by
  induction more using induction_on_groups (· == lf) with
  | unfinished items openItems =>
    have together := isOpen.append openItems
    exact .inl ⟨frameLines_of_open together, openGroup_of_open together⟩
  | group body closing rest openBody closes =>
    obtain rfl : closing = lf := by simpa using closes
    rw [← List.append_assoc, frameLines_line (isOpen.append openBody)]
    refine .inr ⟨_, _, rfl, ?_⟩
    simp only [List.length_append, List.length_singleton]
    omega

section
variable {wanted : List UInt8 → Bool} {first : List UInt8}

/-- The wanted lines at the front of a stream of which all lines so far are wanted. -/
theorem takeWhile_frameLines_append (all : ∀ line ∈ frameLines first, wanted line = true) (second : List UInt8) :
    (frameLines (first ++ second)).takeWhile wanted =
      frameLines first ++ (frameLines (unterminated first ++ second)).takeWhile wanted := by
  rw [frameLines_append, List.takeWhile_append_of_pos all]

/-- What follows an unwanted line makes no difference. -/
theorem takeWhile_frameLines_stopped {line : List UInt8} (member : line ∈ frameLines first)
    (unwanted : wanted line = false) (second : List UInt8) :
    (frameLines (first ++ second)).takeWhile wanted = (frameLines first).takeWhile wanted := by
  have short : (frameLines first).takeWhile wanted ≠ frameLines first := by
    intro all
    have kept := List.takeWhile_eq_self_iff.1 all line member
    simp [unwanted] at kept
  rw [frameLines_append, List.takeWhile_append, if_neg]
  intro length
  exact short ((List.takeWhile_prefix _).eq_of_length length)

end

/-- A stream is its lines and what follows them. -/
theorem stream_eq_lines (stream : List UInt8) : stream = (frameLines stream).flatten ++ unterminated stream := by
  induction stream using induction_on_groups (· == lf) with
  | unfinished items isOpen =>
    rw [frameLines_of_open isOpen, unterminated, openGroup_of_open isOpen, List.flatten_nil, List.nil_append]
  | group body closing rest isOpen closes ih =>
    obtain rfl : closing = lf := by simpa using closes
    rw [frameLines_line isOpen, unterminated_line, List.flatten_cons, List.append_assoc, ← ih, List.append_assoc,
      List.singleton_append]

/-- The only way to cut a stream into lines and an open rest. -/
theorem frameLines_unique {lines : List (List UInt8)} (areLines : ∀ line ∈ lines, IsLine line) {rest : List UInt8}
    (isOpen : Open (· == lf) rest) :
    frameLines (lines.flatten ++ rest) = lines ∧ unterminated (lines.flatten ++ rest) = rest := by
  induction lines with
  | nil => exact ⟨frameLines_of_open isOpen, openGroup_of_open isOpen⟩
  | cons line others ih =>
    obtain ⟨⟨body, openBody, rfl⟩, otherLines⟩ := List.forall_mem_cons.1 areLines
    obtain ⟨lines, tail⟩ := ih otherLines
    rw [List.flatten_cons, List.append_assoc, List.append_assoc, List.singleton_append, frameLines_line openBody,
      unterminated_line, lines, tail]
    exact ⟨rfl, rfl⟩

/-! ## What the parser finds -/

theorem dropTrailingCr_eq_nil_iff (line : List UInt8) : dropTrailingCr line = [] ↔ line = [] ∨ line = [cr] := by
  unfold dropTrailingCr
  split
  case isTrue ended =>
    obtain ⟨front, rfl⟩ := List.getLast?_eq_some_iff.1 ended
    simp
  case isFalse other =>
    constructor
    · exact .inl
    · rintro (rfl | rfl)
      · rfl
      · exact absurd rfl other

theorem parseStdioFrame_of_open {buf : List UInt8} (isOpen : Open (· == lf) buf) : parseStdioFrame buf = .ok none := by
  have absent : buf.findIdx? (· == lf) = none := List.findIdx?_eq_none_iff.2 isOpen
  unfold parseStdioFrame
  split
  case h_1 => rfl
  case h_2 newlineIdx found =>
    rw [absent] at found
    cases found

theorem findIdx?_line {body : List UInt8} (isOpen : Open (· == lf) body) (rest : List UInt8) :
    (body ++ lf :: rest).findIdx? (· == lf) = some body.length := by
  have here : (lf :: rest).findIdx? (· == lf) = some 0 := by rw [List.findIdx?_cons]; rfl
  rw [List.findIdx?_append, List.findIdx?_eq_none_iff.2 isOpen, here]
  simp

theorem parseStdioFrame_line {body : List UInt8} (isOpen : Open (· == lf) body) (rest : List UInt8) :
    (parseStdioFrame (body ++ lf :: rest) = .error "empty stdio frame" ∧ (body = [] ∨ body = [cr])) ∨
    ∃ frame, parseStdioFrame (body ++ lf :: rest) = .ok (some frame) ∧ frame.wireBytes = body ++ [lf] ∧
      body ≠ [] ∧ body ≠ [cr] := by
  have first := findIdx?_line isOpen rest
  have front : (body ++ lf :: rest).take body.length = body := List.take_left' rfl
  have line : (body ++ lf :: rest).take (body.length + 1) = body ++ [lf] := by
    rw [List.append_cons]
    exact List.take_left' (by simp)
  unfold parseStdioFrame
  split
  case h_1 found =>
    rw [first] at found
    cases found
  case h_2 newlineIdx found =>
    obtain rfl : body.length = newlineIdx := Option.some.inj (first.symm.trans found)
    split
    case isTrue empty =>
      rw [front, dropTrailingCr_eq_nil_iff] at empty
      exact .inl ⟨rfl, empty⟩
    case isFalse filled =>
      rw [front, dropTrailingCr_eq_nil_iff, not_or] at filled
      exact .inr ⟨_, rfl, line, filled⟩

theorem parseStdioFrame_consumed {buf : List UInt8} {frame : StdioFrame}
    (parsed : parseStdioFrame buf = .ok (some frame)) : 0 < frame.consumed ∧ frame.consumed ≤ buf.length := by
  unfold parseStdioFrame at parsed
  split at parsed
  case h_1 => cases parsed
  case h_2 newlineIdx found =>
    have within : newlineIdx < buf.length := (List.findIdx?_eq_some_iff_findIdx_eq.1 found).1
    split at parsed
    case isTrue => cases parsed
    case isFalse filled =>
      cases parsed
      exact ⟨Nat.succ_pos _, within⟩

end McpTracer.Protocol
