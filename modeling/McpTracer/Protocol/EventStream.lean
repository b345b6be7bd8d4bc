import McpTracer.Foundation.Pointwise
import McpTracer.Protocol.Sse

/-! What an event stream means when it is read in one piece, and the decoder against it.

A stream is cut at line feeds into lines, and at blank lines into segments; the last
segment has no blank line. A segment gives at most one event, by its data values and
by the limits.
-/

set_option autoImplicit false

namespace McpTracer.Protocol
open McpTracer.Foundation

inductive Segment where
  | closed (lines : List (List UInt8))
  | unfinished (lines : List (List UInt8)) (line : List UInt8)
  deriving DecidableEq

def isBlank (line : List UInt8) : Bool := (dropTrailingCr line).isEmpty

/-- The segments of a stream, in order. -/
def segments (stream : List UInt8) : List Segment :=
  let lines := closedGroups (· == lf) stream
  (closedGroups isBlank lines).map .closed ++
    [.unfinished (openGroup isBlank lines) (openGroup (· == lf) stream)]

def dataValues (lines : List (List UInt8)) : List (List UInt8) :=
  (lines.map dropTrailingCr).filterMap dataValue

/-- The values, one after another, with line feeds between them. -/
def joined (values : List (List UInt8)) : List UInt8 := [lf].intercalate values

def isOverlong (line : List UInt8) : Bool := maxLineBytes < line.length

namespace Segment

def lines : Segment → List (List UInt8)
  | closed lines => lines
  | unfinished lines line => lines ++ [line]

def values : Segment → List (List UInt8)
  | closed lines => dataValues lines
  | unfinished lines _ => dataValues lines

/-- The event of a segment when its data is what a given rule makes of its values. -/
def eventBy (join : List (List UInt8) → List UInt8) (segment : Segment) : Option SseEvent :=
  if segment.lines.any isOverlong ∨ maxFrameBytes < (join segment.values).length then some .oversized
  else
    match segment with
    | closed _ => if join segment.values = [] then none else some (.json (join segment.values))
    | unfinished _ line => if line = [] ∧ join segment.values = [] then none else some .incomplete

def event (segment : Segment) : Option SseEvent := segment.eventBy joined

theorem eventBy_closed (join : List (List UInt8) → List UInt8) (lines : List (List UInt8)) :
    (closed lines).eventBy join =
      if lines.any isOverlong ∨ maxFrameBytes < (join (dataValues lines)).length then some .oversized
      else if join (dataValues lines) = [] then none
      else some (.json (join (dataValues lines))) := rfl

theorem eventBy_unfinished (join : List (List UInt8) → List UInt8) (lines : List (List UInt8))
    (line : List UInt8) :
    (unfinished lines line).eventBy join =
      if (lines ++ [line]).any isOverlong ∨ maxFrameBytes < (join (dataValues lines)).length then
        some .oversized
      else if line = [] ∧ join (dataValues lines) = [] then none
      else some .incomplete := rfl

end Segment

/-- The events of a whole stream. -/
def streamEvents (stream : List UInt8) : List SseEvent := (segments stream).filterMap Segment.event

/-! ## The data the decoder gathers -/

/-- Empty values ahead of the first other value leave no trace in the decoder. -/
def gathered (values : List (List UInt8)) : List UInt8 := joined (values.dropWhile List.isEmpty)

@[simp] theorem joined_nil : joined [] = [] := rfl

@[simp] theorem joined_singleton (value : List UInt8) : joined [value] = value := by
  simp [joined]

theorem joined_cons_cons (first second : List UInt8) (rest : List (List UInt8)) :
    joined (first :: second :: rest) = first ++ lf :: joined (second :: rest) := by
  simp [joined]

theorem joined_concat {values : List (List UInt8)} (nonempty : values ≠ []) (last : List UInt8) :
    joined (values ++ [last]) = joined values ++ [lf] ++ last := by
  induction values with
  | nil => contradiction
  | cons first rest ih =>
    cases rest with
    | nil => simp [joined_cons_cons]
    | cons second rest =>
      have tail : joined (second :: rest ++ [last]) = joined (second :: rest) ++ [lf] ++ last :=
        ih (by simp)
      rw [List.cons_append] at tail
      simp only [List.cons_append, joined_cons_cons, tail, List.append_assoc]

@[simp] theorem gathered_nil : gathered [] = [] := rfl

@[simp] theorem gathered_cons_empty (values : List (List UInt8)) : gathered ([] :: values) = gathered values := by
  simp [gathered]

theorem gathered_cons {first : List UInt8} (nonempty : first ≠ []) (rest : List (List UInt8)) :
    gathered (first :: rest) = joined (first :: rest) := by
  simp [gathered, List.isEmpty_eq_false_iff.2 nonempty]

theorem joined_ne_nil {first : List UInt8} (nonempty : first ≠ []) (rest : List (List UInt8)) :
    joined (first :: rest) ≠ [] := by
  cases rest with
  | nil => simpa
  | cons second rest => simp [joined_cons_cons]

/-- A value is set off by a line feed exactly when data was gathered before it. -/
theorem gathered_concat (values : List (List UInt8)) (last : List UInt8) :
    gathered (values ++ [last]) =
      if gathered values = [] then last else gathered values ++ [lf] ++ last := by
  induction values with
  | nil =>
    cases last with
    | nil => simp
    | cons byte rest => simp [gathered_cons]
  | cons first rest ih =>
    cases first with
    | nil => simpa using ih
    | cons byte others =>
      have first : byte :: others ≠ [] := by simp
      rw [List.cons_append, gathered_cons first, gathered_cons first, if_neg (joined_ne_nil first rest),
        ← List.cons_append, joined_concat (by simp)]

theorem gathered_length_le (values : List (List UInt8)) :
    (gathered values).length ≤ (joined values).length := by
  induction values with
  | nil => simp
  | cons first rest ih =>
    cases first with
    | cons byte others => rw [gathered_cons (by simp)]
    | nil =>
      rw [gathered_cons_empty]
      cases rest with
      | nil => simp
      | cons second rest =>
        rw [joined_cons_cons]
        simp only [List.nil_append, List.length_cons]
        omega

/-- The data of a segment whose first value is empty lacks the line feed after that value. -/
def OpensEmpty (values : List (List UInt8)) : Prop := values.head? = some [] ∧ 1 < values.length

theorem gathered_eq_joined {values : List (List UInt8)} (opens : ¬ OpensEmpty values) :
    gathered values = joined values := by
  cases values with
  | nil => rfl
  | cons first rest =>
    cases first with
    | cons byte others => exact gathered_cons (by simp) rest
    | nil =>
      cases rest with
      | nil => simp
      | cons second rest => simp [OpensEmpty] at opens

theorem gathered_length_lt {values : List (List UInt8)} (opens : OpensEmpty values) :
    (gathered values).length < (joined values).length := by
  obtain ⟨first, several⟩ := opens
  match values, first, several with
  | _ :: second :: rest, first, _ =>
    obtain rfl : _ = [] := by simpa using first
    rw [gathered_cons_empty, joined_cons_cons]
    have shorter := gathered_length_le (second :: rest)
    simp only [List.nil_append, List.length_cons]
    omega

/-! ## The decoder between two lines -/

theorem dropTrailingCr_length (line : List UInt8) : line.length ≤ (dropTrailingCr line).length + 1 := by
  unfold dropTrailingCr
  split
  · rw [List.length_dropLast]
    omega
  · omega

theorem fits_of_isBlank {line : List UInt8} (blank : isBlank line = true) : isOverlong line = false := by
  have empty : dropTrailingCr line = [] := List.isEmpty_iff.1 blank
  have short := dropTrailingCr_length line
  rw [empty, List.length_nil] at short
  refine decide_eq_false ?_
  simp only [maxLineBytes, maxFrameBytes]
  omega

/-- What the decoder carries from one line to the next. -/
structure Held where
  data : List UInt8
  oversized : Bool

def Held.decoder (held : Held) : SseDecoder where
  line := []
  data := held.data
  oversized := held.oversized
  discardingLine := false

/-- The decoder inside a line. -/
def Held.reading (held : Held) (line : List UInt8) : SseDecoder := held.decoder.accept line

/-- A whole line read and ended. -/
def Held.consume (held : Held) (line : List UInt8) : Held × List SseEvent :=
  let ended := (held.reading line).endLine
  ({ data := ended.1.data, oversized := ended.1.oversized }, ended.2)

namespace Held

theorem reading_overlong (held : Held) {line : List UInt8} (overlong : isOverlong line = true) :
    held.reading line = { line := [], data := [], oversized := true, discardingLine := true } := by
  have above : maxFrameBytes + 7 < line.length := of_decide_eq_true overlong
  simp [reading, SseDecoder.accept, decoder, above]

theorem reading_fits (held : Held) {line : List UInt8} (fits : isOverlong line = false) :
    held.reading line = { held.decoder with line := line } := by
  have within : ¬ maxFrameBytes + 7 < line.length := of_decide_eq_false fits
  simp [reading, SseDecoder.accept, decoder, within]

theorem reading_nil (held : Held) : held.reading [] = held.decoder :=
  held.reading_fits rfl

theorem consume_overlong (held : Held) {line : List UInt8} (overlong : isOverlong line = true) :
    held.consume line = (⟨[], true⟩, []) := by
  simp [consume, held.reading_overlong overlong, SseDecoder.endLine]

theorem endLine_fits (held : Held) {line : List UInt8} (fits : isOverlong line = false) :
    (held.reading line).endLine = held.decoder.processLine (dropTrailingCr line) := by
  simp [held.reading_fits fits, SseDecoder.endLine, decoder]

theorem consume_fits (held : Held) {line : List UInt8} (fits : isOverlong line = false) :
    held.consume line =
      let processed := held.decoder.processLine (dropTrailingCr line)
      (⟨processed.1.data, processed.1.oversized⟩, processed.2) := by
  rw [consume, held.endLine_fits fits]

/-- No line in progress is left behind by the end of a line. -/
theorem endLine_reading (held : Held) (line : List UInt8) :
    (held.reading line).endLine = ((held.consume line).1.decoder, (held.consume line).2) := by
  cases long : isOverlong line with
  | true => simp [consume, held.reading_overlong long, SseDecoder.endLine, decoder]
  | false =>
    rw [held.endLine_fits long, held.consume_fits long]
    have keeps := held.decoder.processLine_keeps (dropTrailingCr line)
    exact Prod.ext (SseDecoder.ext keeps.1 rfl rfl keeps.2) rfl

theorem consume_blank (held : Held) {line : List UInt8} (blank : isBlank line = true) :
    held.consume line =
      (⟨[], false⟩, if held.oversized then [.oversized] else if held.data ≠ [] then [.json held.data] else []) := by
  have empty : (dropTrailingCr line).isEmpty = true := blank
  rw [held.consume_fits (fits_of_isBlank blank), SseDecoder.processLine, if_pos empty]
  rfl

/-- Inside an event a line adds its value, unless the event is already too large. -/
theorem consume_inside (held : Held) {line : List UInt8} (fits : isOverlong line = false)
    (inside : isBlank line = false) :
    held.consume line =
      (match dataValue (dropTrailingCr line) with
        | none => held
        | some value =>
          if held.oversized then held
          else if maxFrameBytes < (held.decoder.grown value).length then ⟨[], true⟩
          else ⟨held.decoder.grown value, false⟩, []) := by
  have nonempty : ¬ (dropTrailingCr line).isEmpty = true := by
    simpa [isBlank] using inside
  rw [held.consume_fits fits, SseDecoder.processLine, if_neg nonempty]
  cases dataValue (dropTrailingCr line) with
  | none => rfl
  | some value =>
    cases large : held.oversized with
    | true =>
      simp only [decoder, large, ↓reduceIte]
      rw [← large]
    | false =>
      simp only [decoder, large, Bool.false_eq_true, ↓reduceIte, SseDecoder.appendValue_eq]
      split <;> rfl

end Held

/-- Bytes read from a line boundary hand whole lines over. -/
theorem feed_pushByte (held : Held) (bytes : List UInt8) :
    feed SseDecoder.pushByte held.decoder bytes =
      let consumed := feed Held.consume held (closedGroups (· == lf) bytes)
      (consumed.1.reading (openGroup (· == lf) bytes), consumed.2) := by
  rw [← held.reading_nil]
  refine feed_groups ?_ ?_ held bytes
  · intro held line byte other
    have inside : byte ≠ lf := by simpa using other
    rw [SseDecoder.pushByte_other _ inside, Held.reading, Held.reading, SseDecoder.accept_append]
  · intro held line byte ending
    obtain rfl : byte = lf := by simpa using ending
    rw [SseDecoder.pushByte_lf, Held.reading_nil, ← Held.endLine_reading, Held.reading,
      ← SseDecoder.accept_append, List.append_nil]

/-! ## The decoder between two blank lines -/

/-- What the lines since the last blank one leave behind. -/
def heldAfter (lines : List (List UInt8)) : Held :=
  if lines.any isOverlong ∨ maxFrameBytes < (gathered (dataValues lines)).length then ⟨[], true⟩
  else ⟨gathered (dataValues lines), false⟩

theorem dataValues_concat (lines : List (List UInt8)) (line : List UInt8) :
    dataValues (lines ++ [line]) = dataValues lines ++ (dataValue (dropTrailingCr line)).toList := by
  cases value : dataValue (dropTrailingCr line) <;> simp [dataValues, value]

/-- The data grows, so an event above the limit stays above it. -/
theorem gathered_length_concat (values : List (List UInt8)) (last : List UInt8) :
    (gathered values).length ≤ (gathered (values ++ [last])).length := by
  rw [gathered_concat]
  split <;> simp_all

theorem heldAfter_over {lines : List (List UInt8)}
    (exceeded : lines.any isOverlong ∨ maxFrameBytes < (gathered (dataValues lines)).length) :
    heldAfter lines = ⟨[], true⟩ := if_pos exceeded

theorem heldAfter_within {lines : List (List UInt8)}
    (within : ¬ (lines.any isOverlong ∨ maxFrameBytes < (gathered (dataValues lines)).length)) :
    heldAfter lines = ⟨gathered (dataValues lines), false⟩ := if_neg within

theorem consume_heldAfter_inside (lines : List (List UInt8)) {line : List UInt8}
    (inside : isBlank line = false) :
    (heldAfter lines).consume line = (heldAfter (lines ++ [line]), []) := by
  cases long : isOverlong line with
  | true =>
    have exceeded : (lines ++ [line]).any isOverlong = true := by simp [long]
    rw [Held.consume_overlong _ long, heldAfter_over (.inl exceeded)]
  | false =>
    rw [Held.consume_inside _ long inside]
    cases value : dataValue (dropTrailingCr line) with
    | none => simp [heldAfter, dataValues_concat, value, long]
    | some last =>
      have values : dataValues (lines ++ [line]) = dataValues lines ++ [last] := by
        rw [dataValues_concat, value, Option.toList_some]
      have grows := gathered_length_concat (dataValues lines) last
      by_cases exceeded : lines.any isOverlong ∨ maxFrameBytes < (gathered (dataValues lines)).length
      · have stays : (lines ++ [line]).any isOverlong ∨
            maxFrameBytes < (gathered (dataValues (lines ++ [line]))).length := by
          rcases exceeded with some | large
          · exact .inl (by simp [some])
          · exact .inr (by rw [values]; omega)
        rw [heldAfter_over exceeded, heldAfter_over stays]
        rfl
      · have fitting : (lines ++ [line]).any isOverlong = false := by
          simp_all
        have grown : (Held.mk (gathered (dataValues lines)) false).decoder.grown last =
            gathered (dataValues (lines ++ [line])) := by
          rw [values, gathered_concat]
          rfl
        rw [heldAfter_within exceeded]
        simp only [grown, Bool.false_eq_true, ↓reduceIte, heldAfter, fitting, false_or]

/-- The event of a closed segment leaves the decoder when the blank line is read. -/
theorem consume_heldAfter_blank (lines : List (List UInt8)) {line : List UInt8} (blank : isBlank line = true) :
    (heldAfter lines).consume line =
      (heldAfter [], ((Segment.closed lines).eventBy gathered).toList) := by
  rw [Held.consume_blank _ blank]
  refine Prod.ext rfl ?_
  by_cases exceeded : lines.any isOverlong ∨ maxFrameBytes < (gathered (dataValues lines)).length
  · rw [heldAfter_over exceeded, Segment.eventBy_closed, if_pos exceeded]
    rfl
  · rw [heldAfter_within exceeded, Segment.eventBy_closed, if_neg exceeded]
    by_cases empty : gathered (dataValues lines) = [] <;> simp [empty]

/-- Lines read from a blank line on hand whole segments over. -/
theorem feed_consume (lines : List (List UInt8)) :
    feed Held.consume (heldAfter []) lines =
      (heldAfter (openGroup isBlank lines),
        (closedGroups isBlank lines).flatMap fun block =>
          ((Segment.closed block).eventBy gathered).toList) := by
  let state : Unit → List (List UInt8) → Held := fun _ block => heldAfter block
  let close : Unit → List (List UInt8) → Unit × List SseEvent := fun _ block =>
    ((), ((Segment.closed block).eventBy gathered).toList)
  have gathers (held : Unit) (block : List (List UInt8)) (line : List UInt8) (inside : isBlank line = false) :
      (state held block).consume line = (state held (block ++ [line]), []) :=
    consume_heldAfter_inside block inside
  have closes (held : Unit) (block : List (List UInt8)) (line : List UInt8) (blank : isBlank line = true) :
      (state held block).consume line = (state (close held block).1 [], (close held block).2) :=
    consume_heldAfter_blank block blank
  have read := feed_groups gathers closes () lines
  rw [feed_stateless] at read
  exact read

/-- The end of the stream reports what the last segment left behind. -/
theorem finish_reading (lines : List (List UInt8)) (line : List UInt8) :
    ((heldAfter lines).reading line).finish.2 =
      ((Segment.unfinished lines line).eventBy gathered).toList := by
  rw [Segment.eventBy_unfinished]
  cases long : isOverlong line with
  | true => simp [SseDecoder.finish, Held.reading_overlong _ long, long]
  | false =>
    have others : (lines ++ [line]).any isOverlong = lines.any isOverlong := by simp [long]
    rw [Held.reading_fits _ long, others]
    by_cases exceeded : lines.any isOverlong ∨ maxFrameBytes < (gathered (dataValues lines)).length
    · rw [heldAfter_over exceeded, if_pos exceeded]
      rfl
    · rw [heldAfter_within exceeded, if_neg exceeded]
      by_cases empty : line = [] ∧ gathered (dataValues lines) = []
      · simp [SseDecoder.finish, Held.decoder, SseDecoder.hasPendingEvent, empty]
      · have pending : ¬ line = [] ∨ ¬ gathered (dataValues lines) = [] := by tauto
        simp [SseDecoder.finish, Held.decoder, SseDecoder.hasPendingEvent, empty, pending]

/-- The decoder gives the events of the segments, with the data it gathers for each. -/
theorem decode_eq_segments (chunks : List (List UInt8)) :
    SseDecoder.decode chunks = (segments chunks.flatten).filterMap (Segment.eventBy gathered) := by
  have start : SseDecoder.default = (heldAfter []).decoder := rfl
  rw [SseDecoder.decode_eq, start, feed_pushByte, feed_consume]
  simp only [finish_reading, segments, List.filterMap_eq_flatMap_toList, List.flatMap_append,
    List.flatMap_map, List.flatMap_singleton]

/-! ## Where the gathered data is the data of the stream -/

/-- The segment is over a limit anyway, or its data does not open with an empty value. At the
end of a stream only the presence and the size of the data matter. -/
def Segment.JoinsAsWritten (segment : Segment) : Prop :=
  segment.lines.any isOverlong ∨ maxFrameBytes < (gathered segment.values).length ∨
    ¬ OpensEmpty segment.values ∨
    match segment with
    | closed _ => False
    | unfinished _ line =>
      (joined segment.values).length ≤ maxFrameBytes ∧ (line ≠ [] ∨ gathered segment.values ≠ [])

theorem joined_nil_gathered {values : List (List UInt8)} (empty : joined values = []) :
    gathered values = [] := by
  have shorter := gathered_length_le values
  rw [empty] at shorter
  exact List.length_eq_zero_iff.1 (Nat.le_zero.1 shorter)

/-- Gathering reports no event where the stream has none. -/
theorem eventBy_gathered_eq_none {segment : Segment} (none : segment.event = none) :
    segment.eventBy gathered = Option.none := by
  have shorter := gathered_length_le segment.values
  unfold Segment.event Segment.eventBy at none
  unfold Segment.eventBy
  split at none
  · contradiction
  · rename_i within
    have below : ¬ (segment.lines.any isOverlong ∨ maxFrameBytes < (gathered segment.values).length) := by
      rintro (long | large)
      · exact within (.inl long)
      · exact within (.inr (by omega))
    rw [if_neg below]
    cases segment with
    | closed lines =>
      have empty : joined (Segment.closed lines).values = [] := by simpa using none
      exact if_pos (joined_nil_gathered empty)
    | unfinished lines line =>
      have empty : line = [] ∧ joined (Segment.unfinished lines line).values = [] := by simpa using none
      exact if_pos ⟨empty.1, joined_nil_gathered empty.2⟩

/-- A closed segment reports its data, so the two readings part over the missing line feed. -/
theorem closed_eventBy_gathered_ne {lines : List (List UInt8)} (opens : OpensEmpty (dataValues lines))
    (fits : lines.any isOverlong = false) (small : (gathered (dataValues lines)).length ≤ maxFrameBytes) :
    (Segment.closed lines).eventBy gathered ≠ (Segment.closed lines).event := by
  have less := gathered_length_lt opens
  have written : joined (dataValues lines) ≠ [] := List.ne_nil_of_length_pos (by omega)
  have differ : gathered (dataValues lines) ≠ joined (dataValues lines) := fun same => by
    rw [same] at less
    omega
  have within : ¬ maxFrameBytes < (gathered (dataValues lines)).length := by omega
  simp only [Segment.event, Segment.eventBy_closed, fits, within, written, Bool.false_eq_true, false_or,
    ↓reduceIte]
  split_ifs <;> simp [differ]

/-- An unfinished segment reports only that there is data and whether it is too large. -/
theorem unfinished_eventBy_gathered_iff {lines : List (List UInt8)} {line : List UInt8}
    (opens : OpensEmpty (dataValues lines)) (fits : (lines ++ [line]).any isOverlong = false)
    (small : (gathered (dataValues lines)).length ≤ maxFrameBytes) :
    (Segment.unfinished lines line).eventBy gathered = (Segment.unfinished lines line).event ↔
      (joined (dataValues lines)).length ≤ maxFrameBytes ∧
        (line ≠ [] ∨ gathered (dataValues lines) ≠ []) := by
  have less := gathered_length_lt opens
  have written : joined (dataValues lines) ≠ [] := List.ne_nil_of_length_pos (by omega)
  have within : ¬ maxFrameBytes < (gathered (dataValues lines)).length := by omega
  simp only [Segment.event, Segment.eventBy_unfinished, fits, within, written, Bool.false_eq_true, false_or,
    and_false, ↓reduceIte]
  by_cases large : maxFrameBytes < (joined (dataValues lines)).length
  · have above : ¬ (joined (dataValues lines)).length ≤ maxFrameBytes := by omega
    simp only [large, above, ↓reduceIte, false_and, iff_false]
    split_ifs <;> simp
  · have below : (joined (dataValues lines)).length ≤ maxFrameBytes := by omega
    simp only [large, below, ↓reduceIte, true_and]
    by_cases nothing : line = [] ∧ gathered (dataValues lines) = []
    · simp [nothing]
    · rw [if_neg nothing]
      simp only [true_iff]
      tauto

theorem eventBy_gathered_eq_iff (segment : Segment) :
    segment.eventBy gathered = segment.event ↔ segment.JoinsAsWritten := by
  have shorter := gathered_length_le segment.values
  by_cases exceeded : segment.lines.any isOverlong ∨ maxFrameBytes < (gathered segment.values).length
  · have larger : segment.lines.any isOverlong ∨ maxFrameBytes < (joined segment.values).length := by
      rcases exceeded with long | large
      · exact .inl long
      · exact .inr (by omega)
    have joins : segment.JoinsAsWritten := by
      rcases exceeded with long | large
      · exact .inl long
      · exact .inr (.inl large)
    unfold Segment.event Segment.eventBy
    rw [if_pos exceeded, if_pos larger]
    exact iff_of_true rfl joins
  · obtain ⟨fits, small⟩ := not_or.1 exceeded
    have fits : segment.lines.any isOverlong = false := Bool.eq_false_iff.2 fits
    have small : (gathered segment.values).length ≤ maxFrameBytes := Nat.le_of_not_lt small
    by_cases opens : OpensEmpty segment.values
    · have within : ¬ maxFrameBytes < (gathered segment.values).length := by omega
      unfold Segment.JoinsAsWritten
      simp only [fits, within, opens, Bool.false_eq_true, not_true_eq_false, false_or]
      cases segment with
      | closed lines => exact iff_of_false (closed_eventBy_gathered_ne opens fits small) id
      | unfinished lines line => exact unfinished_eventBy_gathered_iff opens fits small
    · have same : segment.eventBy gathered = segment.event := by
        unfold Segment.event Segment.eventBy
        rw [gathered_eq_joined opens]
      exact iff_of_true same (.inr (.inr (.inl opens)))

/-- Both readings of a stream agree exactly where every segment joins its values as written. -/
theorem decode_eq_streamEvents_iff (chunks : List (List UInt8)) :
    SseDecoder.decode chunks = streamEvents chunks.flatten ↔
      ∀ segment ∈ segments chunks.flatten, segment.JoinsAsWritten := by
  rw [decode_eq_segments, streamEvents, filterMap_eq_iff fun segment _ => eventBy_gathered_eq_none]
  simp only [eventBy_gathered_eq_iff]

/-- However a stream is cut, the decoder answers the same, and it answers with the events of the
stream exactly where every segment joins its values as written. -/
theorem decode_every_cut_iff (stream : List UInt8) :
    ((∀ chunks chunks' : List (List UInt8), chunks.flatten = stream → chunks'.flatten = stream →
        SseDecoder.decode chunks = SseDecoder.decode chunks') ∧
      ∀ chunks : List (List UInt8), chunks.flatten = stream →
        SseDecoder.decode chunks = streamEvents stream) ↔
      ∀ segment ∈ segments stream, segment.JoinsAsWritten := by
  constructor
  · rintro ⟨-, faithful⟩
    have whole : [stream].flatten = stream := by simp
    have same := faithful [stream] whole
    have joins := decode_eq_streamEvents_iff [stream]
    rw [whole] at joins
    exact joins.1 same
  · intro joins
    have answers : ∀ chunks : List (List UInt8), chunks.flatten = stream →
        SseDecoder.decode chunks = streamEvents stream := by
      rintro chunks rfl
      exact (decode_eq_streamEvents_iff chunks).2 joins
    refine ⟨fun chunks chunks' cut cut' => ?_, answers⟩
    rw [answers chunks cut, answers chunks' cut']

/-- An event whose first data line is empty: `data:`, `data: x`, and a blank line. -/
def emptyFirstLine : List UInt8 :=
  [100, 97, 116, 97, 58, 10, 100, 97, 116, 97, 58, 32, 120, 10, 10]

/-- The decoder loses the line feed that the empty first value contributes. -/
theorem decode_emptyFirstLine :
    ¬ ∀ stream : List UInt8,
      (∀ chunks chunks' : List (List UInt8), chunks.flatten = stream → chunks'.flatten = stream →
        SseDecoder.decode chunks = SseDecoder.decode chunks') ∧
      ∀ chunks : List (List UInt8), chunks.flatten = stream →
        SseDecoder.decode chunks = streamEvents stream := by
  intro faithful
  have same := (faithful emptyFirstLine).2 [emptyFirstLine] (by simp)
  have decoded : SseDecoder.decode [emptyFirstLine] = [.json [120]] := by decide
  have written : streamEvents emptyFirstLine = [.json [10, 120]] := by decide
  rw [decoded, written] at same
  exact absurd same (by decide)

end McpTracer.Protocol
