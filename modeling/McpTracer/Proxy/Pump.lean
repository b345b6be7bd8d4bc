import McpTracer.Protocol.Message
import McpTracer.Protocol.Stdio
import McpTracer.Proxy.StorageQueue

/-! The pumps of the stdio relay.

A pump reads its side in small chunks, forwards every complete frame and hands it to the recorder
under a number from the counter that both pumps share. What it forwards depends on the bytes that
it reads and not on where the reads were cut.
-/

set_option autoImplicit false

namespace McpTracer.Proxy
open McpTracer.Foundation McpTracer.Protocol

/-- What happens around a pump, by the number of frames it has recorded before. -/
structure PumpSurroundings where
  /-- How many numbers the other pump takes first. -/
  taken : Nat → Nat
  nowNs : Nat → Int
  /-- Forwarding fails after this many bytes. -/
  failsAfter : Nat → Option Nat

structure CaptureStamp where
  seq : Nat
  timestampNs : Int

/-- A frame as the recorder gets it. -/
structure RecordedFrame where
  frame : Protocol.StdioFrame
  direction : Direction
  stamp : CaptureStamp
  capped : frame.consumed ≤ maxFrameBytes

def RecordedFrame.wire (recorded : RecordedFrame) : List UInt8 := recorded.frame.wireBytes

structure Pump where
  buf : List UInt8
  seq : Nat
  written : List UInt8
  recorded : List RecordedFrame

namespace Pump

def start (seq : Nat) : Pump where
  buf := []
  seq := seq
  written := []
  recorded := []

def reserveCaptureStamp (around : PumpSurroundings) (pump : Pump) : CaptureStamp where
  seq := pump.seq + around.taken pump.recorded.length
  timestampNs := around.nowNs pump.recorded.length

/-- A frame has been forwarded and recorded. -/
def relay (around : PumpSurroundings) (direction : Direction) (pump : Pump) (frame : Protocol.StdioFrame)
    (capped : frame.consumed ≤ maxFrameBytes) : Pump where
  buf := pump.buf.drop frame.consumed
  seq := (pump.reserveCaptureStamp around).seq + 1
  written := pump.written ++ frame.wireBytes
  recorded := pump.recorded ++ [⟨frame, direction, pump.reserveCaptureStamp around, capped⟩]

/-- The number has been reserved, but only a part of the frame has been forwarded. -/
def breakOff (around : PumpSurroundings) (pump : Pump) (frame : Protocol.StdioFrame) (bytes : Nat) : Pump :=
  { pump with
    seq := (pump.reserveCaptureStamp around).seq + 1
    written := pump.written ++ frame.wireBytes.take bytes }

/-- Relay the complete frames of the buffer; false if forwarding should stop. -/
def drainFrames (around : PumpSurroundings) (direction : Direction) (pump : Pump) : Pump × Bool :=
  match _parsed : parseStdioFrame pump.buf with
  | .error _ => (pump, false)
  | .ok none => (pump, true)
  | .ok (some frame) =>
    if capped : frame.consumed ≤ maxFrameBytes then
      match around.failsAfter pump.recorded.length with
      | some bytes => (pump.breakOff around frame bytes, false)
      | none => drainFrames around direction (pump.relay around direction frame capped)
    else (pump, false)
termination_by pump.buf.length
decreasing_by
  have progress := parseStdioFrame_consumed ‹_›
  simp only [relay, List.length_drop]
  omega

end Pump

/-! ## The read loop -/

def readBytes : Nat := 4096

/-- What a read that is not the end of the input returns. -/
inductive PumpRead where
  | data (bytes : List UInt8) (some : bytes ≠ []) (fits : bytes.length ≤ readBytes)
  | failed (err : String)

def PumpRead.bytes : PumpRead → List UInt8
  | .data bytes _ _ => bytes
  | .failed _ => []

/-- In what the two pumps differ. -/
structure PumpSide where
  direction : Direction
  stopped : String
  exceeded : String
  unreadable : String

def clientSide : PumpSide where
  direction := .clientToServer
  stopped := "client-to-server forwarding stopped"
  exceeded := s!"client frame exceeded {maxFrameBytes} bytes without a newline; stopping client->server pump"
  unreadable := "failed to read client stdin: "

def serverSide : PumpSide where
  direction := .serverToClient
  stopped := "server-to-client forwarding stopped"
  exceeded := s!"server frame exceeded {maxFrameBytes} bytes without a newline; stopping server->client pump"
  unreadable := "failed to read server stdout: "

namespace Pump

/-- Only a chunk with a newline can complete a frame. -/
def receive (around : PumpSurroundings) (side : PumpSide) (pump : Pump) (bytes : List UInt8) :
    Pump × Except String Unit :=
  let pump := { pump with buf := pump.buf ++ bytes }
  let drained := if bytes.contains lf then pump.drainFrames around side.direction else (pump, true)
  if !drained.2 then (drained.1, .error side.stopped)
  else if maxFrameBytes < drained.1.buf.length then (drained.1, .error side.exceeded)
  else (drained.1, .ok ())

/-- The reads up to the end of the input. -/
def pumpReads (around : PumpSurroundings) (side : PumpSide) : Pump → List PumpRead → Pump × Except String Unit
  | pump, [] => (pump, .ok ())
  | pump, .failed err :: _ => (pump, .error (side.unreadable ++ err))
  | pump, .data bytes _ _ :: rest =>
    match pump.receive around side bytes with
    | (pump, .error stopped) => (pump, .error stopped)
    | (pump, .ok ()) => pumpReads around side pump rest

end Pump

def proxyClientToServer (around : PumpSurroundings) (seq : Nat) (reads : List PumpRead) : Pump × Except String Unit :=
  (Pump.start seq).pumpReads around clientSide reads

def proxyServerToClient (around : PumpSurroundings) (seq : Nat) (reads : List PumpRead) : Pump × Except String Unit :=
  (Pump.start seq).pumpReads around serverSide reads

def proxyFrames : Direction → PumpSurroundings → Nat → List PumpRead → Pump × Except String Unit
  | .clientToServer => proxyClientToServer
  | .serverToClient => proxyServerToClient

/-! ## What the lines say -/

/-- A line that is neither empty nor above the limit. -/
def Relayable (line : List UInt8) : Prop := line ≠ [lf] ∧ line ≠ [cr, lf] ∧ line.length ≤ maxFrameBytes

instance (line : List UInt8) : Decidable (Relayable line) := inferInstanceAs (Decidable (_ ∧ _ ∧ _))

/-- The lines before the first that must not be relayed. -/
def relayedLines (stream : List UInt8) : List (List UInt8) :=
  (frameLines stream).takeWhile fun line => decide (Relayable line)

theorem relayedLines_of_open {stream : List UInt8} (isOpen : Open (· == lf) stream) : relayedLines stream = [] := by
  rw [relayedLines, frameLines_of_open isOpen, List.takeWhile_nil]

theorem relayedLines_relayable {body : List UInt8} (isOpen : Open (· == lf) body)
    (relayable : Relayable (body ++ [lf])) (rest : List UInt8) :
    relayedLines (body ++ lf :: rest) = (body ++ [lf]) :: relayedLines rest := by
  rw [relayedLines, frameLines_line isOpen, List.takeWhile_cons_of_pos (by simpa using relayable), relayedLines]

theorem relayedLines_refused {body : List UInt8} (isOpen : Open (· == lf) body)
    (refused : ¬ Relayable (body ++ [lf])) (rest : List UInt8) : relayedLines (body ++ lf :: rest) = [] := by
  rw [relayedLines, frameLines_line isOpen, List.takeWhile_cons_of_neg (by simpa using refused)]

/-- The lines of a stream of which only relayable lines have been read. -/
theorem relayedLines_append {first : List UInt8} (relayable : ∀ line ∈ frameLines first, Relayable line)
    (second : List UInt8) :
    relayedLines (first ++ second) = frameLines first ++ relayedLines (unterminated first ++ second) :=
  takeWhile_frameLines_append (fun line member => decide_eq_true (relayable line member)) second

/-- What follows a line that is not relayed makes no difference. -/
theorem relayedLines_append_refused {first line : List UInt8} (member : line ∈ frameLines first)
    (refused : ¬ Relayable line) (second : List UInt8) : relayedLines (first ++ second) = relayedLines first :=
  takeWhile_frameLines_stopped member (decide_eq_false refused) second

/-- An open rest above the limit can only become a line that is not relayed. -/
theorem frameLines_of_long {tail : List UInt8} (isOpen : Open (· == lf) tail) (long : maxFrameBytes < tail.length)
    (more : List UInt8) :
    (frameLines (tail ++ more) = [] ∧ maxFrameBytes < (unterminated (tail ++ more)).length) ∨
      ∃ line others, frameLines (tail ++ more) = line :: others ∧ ¬ Relayable line := by
  rcases frameLines_begun isOpen more with ⟨none, left⟩ | ⟨line, others, lines, longer⟩
  · refine .inl ⟨none, ?_⟩
    rw [left, List.length_append]
    omega
  · refine .inr ⟨line, others, lines, fun relayable => ?_⟩
    have capped := relayable.2.2
    omega

/-! ## Draining the buffer -/

namespace Pump

/-- The recorded numbers increase, and the counter is past them. -/
def Numbered (pump : Pump) : Prop :=
  (pump.recorded.map (·.stamp.seq)).Pairwise (· < ·) ∧ ∀ recorded ∈ pump.recorded, recorded.stamp.seq < pump.seq

theorem Numbered.relay {pump : Pump} (numbered : pump.Numbered) (around : PumpSurroundings) (direction : Direction)
    (frame : Protocol.StdioFrame) (capped : frame.consumed ≤ maxFrameBytes) :
    (pump.relay around direction frame capped).Numbered := by
  obtain ⟨increasing, below⟩ := numbered
  constructor
  · simp only [Pump.relay, List.map_append, List.map_cons, List.map_nil]
    refine List.pairwise_append.2 ⟨increasing, List.pairwise_singleton _ _, fun seq member fresh isFresh => ?_⟩
    obtain ⟨recorded, before, rfl⟩ := List.mem_map.1 member
    obtain rfl := List.mem_singleton.1 isFresh
    exact Nat.lt_of_lt_of_le (below recorded before) (Nat.le_add_right _ _)
  · intro recorded member
    rcases List.mem_append.1 member with before | fresh
    · have := below recorded before
      simp only [Pump.relay, reserveCaptureStamp]
      omega
    · obtain rfl := List.mem_singleton.1 fresh
      exact Nat.lt_succ_self _

/-- How draining changes the pump, if every write succeeds. -/
structure Drained (direction : Direction) (before : Pump) (after : Pump × Bool) : Prop where
  written : after.1.written = before.written ++ (relayedLines before.buf).flatten
  recorded : ∃ fresh, after.1.recorded = before.recorded ++ fresh ∧
    fresh.map RecordedFrame.wire = relayedLines before.buf ∧ ∀ frame ∈ fresh, frame.direction = direction
  numbered : before.Numbered → after.1.Numbered
  goesOn : after.2 = true ↔ ∀ line ∈ frameLines before.buf, Relayable line
  left : after.2 = true → after.1.buf = unterminated before.buf

theorem drained_nothing {direction : Direction} {pump : Pump} {goesOn : Bool} (nothing : relayedLines pump.buf = [])
    (verdict : goesOn = true ↔ ∀ line ∈ frameLines pump.buf, Relayable line)
    (left : goesOn = true → pump.buf = unterminated pump.buf) : Drained direction pump (pump, goesOn) where
  written := by rw [nothing, List.flatten_nil, List.append_nil]
  recorded := ⟨[], by rw [List.append_nil], by rw [nothing, List.map_nil], by simp⟩
  numbered := id
  goesOn := verdict
  left := left

theorem drained_refused {direction : Direction} {pump : Pump} {body rest : List UInt8} (isOpen : Open (· == lf) body)
    (buffered : pump.buf = body ++ lf :: rest) (refused : ¬ Relayable (body ++ [lf])) :
    Drained direction pump (pump, false) := by
  refine drained_nothing (buffered ▸ relayedLines_refused isOpen refused rest) (iff_of_false (by simp) fun all => ?_)
    (by simp)
  rw [buffered, frameLines_line isOpen] at all
  exact refused (all _ List.mem_cons_self)

section
variable {around : PumpSurroundings} {direction : Direction} {pump : Pump}

theorem drainFrames_none (parsed : parseStdioFrame pump.buf = .ok none) :
    pump.drainFrames around direction = (pump, true) := by
  rw [drainFrames]
  split <;> simp_all

theorem drainFrames_error {err : String} (parsed : parseStdioFrame pump.buf = .error err) :
    pump.drainFrames around direction = (pump, false) := by
  rw [drainFrames]
  split <;> simp_all

theorem drainFrames_exceeded {frame : Protocol.StdioFrame} (parsed : parseStdioFrame pump.buf = .ok (some frame))
    (exceeded : ¬ frame.consumed ≤ maxFrameBytes) : pump.drainFrames around direction = (pump, false) := by
  rw [drainFrames]
  split <;> simp_all

theorem drainFrames_relay {frame : Protocol.StdioFrame} (parsed : parseStdioFrame pump.buf = .ok (some frame))
    (capped : frame.consumed ≤ maxFrameBytes) (works : around.failsAfter pump.recorded.length = none) :
    pump.drainFrames around direction = (pump.relay around direction frame capped).drainFrames around direction := by
  rw [drainFrames]
  split <;> simp_all

/-- What was relayed leaves the buffer. -/
theorem relay_buf {frame : Protocol.StdioFrame} (capped : frame.consumed ≤ maxFrameBytes) {body rest : List UInt8}
    (buffered : pump.buf = body ++ lf :: rest) (wire : frame.wireBytes = body ++ [lf]) :
    (pump.relay around direction frame capped).buf = rest := by
  have whole : pump.buf = (body ++ [lf]) ++ rest := buffered.trans (List.append_cons body lf rest)
  simp only [Pump.relay]
  rw [whole, frame.counted, wire, List.drop_left]

theorem Drained.relay {frame : Protocol.StdioFrame} (capped : frame.consumed ≤ maxFrameBytes) {body rest : List UInt8}
    (isOpen : Open (· == lf) body) (buffered : pump.buf = body ++ lf :: rest) (wire : frame.wireBytes = body ++ [lf])
    (relayable : Relayable (body ++ [lf])) {after : Pump × Bool}
    (others : Drained direction (pump.relay around direction frame capped) after) :
    Drained direction pump after := by
  have left : (pump.relay around direction frame capped).buf = rest := relay_buf capped buffered wire
  have lines : relayedLines pump.buf = frame.wireBytes :: relayedLines rest := by
    rw [buffered, relayedLines_relayable isOpen relayable, wire]
  obtain ⟨written, ⟨fresh, recorded, wires, directed⟩, numbered, goesOn, unread⟩ := others
  rw [left] at written wires goesOn unread
  refine ⟨?_, ⟨⟨frame, direction, pump.reserveCaptureStamp around, capped⟩ :: fresh, ?_, ?_, ?_⟩, ?_, ?_, ?_⟩
  · rw [written, lines, List.flatten_cons, Pump.relay, List.append_assoc]
  · rw [recorded, Pump.relay, List.append_assoc, List.singleton_append]
  · rw [List.map_cons, wires, lines]
    rfl
  · exact List.forall_mem_cons.2 ⟨rfl, directed⟩
  · exact fun start => numbered (start.relay around direction frame capped)
  · rw [goesOn, buffered, frameLines_line isOpen, List.forall_mem_cons]
    exact ⟨fun all => ⟨relayable, all⟩, And.right⟩
  · rw [buffered, unterminated_line]
    exact unread

end

theorem drainFrames_drained {around : PumpSurroundings} (works : ∀ index, around.failsAfter index = none)
    (direction : Direction) (pump : Pump) : Drained direction pump (pump.drainFrames around direction) := by
  generalize buffered : pump.buf = buf
  induction buf using induction_on_groups (· == lf) generalizing pump with
  | unfinished items isOpen =>
    subst buffered
    rw [drainFrames_none (parseStdioFrame_of_open isOpen)]
    refine drained_nothing (relayedLines_of_open isOpen) (iff_of_true rfl ?_) fun _ => (openGroup_of_open isOpen).symm
    rw [frameLines_of_open isOpen]
    simp
  | group body closing rest isOpen closes ih =>
    obtain rfl : closing = lf := by simpa using closes
    rcases parseStdioFrame_line isOpen rest with ⟨parsed, empty⟩ | ⟨frame, parsed, wire, filled⟩ <;>
      rw [← buffered] at parsed
    · rw [drainFrames_error parsed]
      refine drained_refused isOpen buffered fun relayable => ?_
      rcases empty with rfl | rfl
      · exact relayable.1 rfl
      · exact relayable.2.1 rfl
    · have counted : frame.consumed = (body ++ [lf]).length := by rw [frame.counted, wire]
      by_cases capped : frame.consumed ≤ maxFrameBytes
      · have relayable : Relayable (body ++ [lf]) := by
          refine ⟨fun same => filled.1 ?_, fun same => filled.2 ?_, counted ▸ capped⟩
          · exact List.append_cancel_right (same.trans rfl : body ++ [lf] = [] ++ [lf])
          · exact List.append_cancel_right (same.trans rfl : body ++ [lf] = [cr] ++ [lf])
        rw [drainFrames_relay parsed capped (works _)]
        exact Drained.relay capped isOpen buffered wire relayable (ih _ (relay_buf capped buffered wire))
      · rw [drainFrames_exceeded parsed capped]
        exact drained_refused isOpen buffered fun relayable => capped (counted ▸ relayable.2.2)

/-! ## Reading to the end -/

/-- What a pump that is still running has done with what it read. -/
structure Relayed (direction : Direction) (stream : List UInt8) (pump : Pump) : Prop where
  buffered : pump.buf = unterminated stream
  small : pump.buf.length ≤ maxFrameBytes
  relayable : ∀ line ∈ frameLines stream, Relayable line
  written : pump.written = (frameLines stream).flatten
  recorded : pump.recorded.map RecordedFrame.wire = frameLines stream
  directed : ∀ frame ∈ pump.recorded, frame.direction = direction
  numbered : pump.Numbered

/-- What a pump has done by the time it returns. -/
structure Returned (direction : Direction) (stream : List UInt8) (pump : Pump) (result : Except String Unit) :
    Prop where
  written : pump.written = (relayedLines stream).flatten
  recorded : pump.recorded.map RecordedFrame.wire = relayedLines stream
  directed : ∀ frame ∈ pump.recorded, frame.direction = direction
  increasing : (pump.recorded.map (·.stamp.seq)).Pairwise (· < ·)
  stops : (∃ err, result = .error err) ↔
    (∃ line ∈ frameLines stream, ¬ Relayable line) ∨ maxFrameBytes < (unterminated stream).length
  left : result = .ok () → pump.buf = unterminated stream ∧ lf ∉ pump.buf

theorem lf_notMem_of_open {items : List UInt8} (isOpen : Open (· == lf) items) : lf ∉ items := by
  intro member
  cases isOpen lf member

theorem open_of_lf_notMem {items : List UInt8} (absent : lf ∉ items) : Open (· == lf) items := by
  intro item member
  rw [beq_eq_false_iff_ne]
  rintro rfl
  exact absent member

theorem relayed_start (direction : Direction) (seq : Nat) : Relayed direction [] (start seq) where
  buffered := rfl
  small := Nat.zero_le _
  relayable := by simp [frameLines_of_open (Open.nil _)]
  written := rfl
  recorded := rfl
  directed := by simp [start]
  numbered := ⟨List.Pairwise.nil, by simp [start]⟩

/-- Without a newline in the chunk there is nothing to drain, so that scanning may be skipped. -/
theorem drainFrames_skipped {around : PumpSurroundings} {direction : Direction} {pump : Pump} {bytes : List UInt8}
    (isOpen : Open (· == lf) pump.buf) :
    (if bytes.contains lf then drainFrames around direction { pump with buf := pump.buf ++ bytes }
      else ({ pump with buf := pump.buf ++ bytes }, true)) =
      drainFrames around direction { pump with buf := pump.buf ++ bytes } := by
  split
  case isTrue => rfl
  case isFalse absent =>
    have openBytes : Open (· == lf) bytes := open_of_lf_notMem (by simpa using absent)
    exact (drainFrames_none (parseStdioFrame_of_open (isOpen.append openBytes))).symm

section
variable {around : PumpSurroundings} {side : PumpSide} {stream : List UInt8} {pump : Pump}

/-- The buffer, drained after another chunk, together with what was relayed before. -/
structure Advanced (direction : Direction) (stream : List UInt8) (after : Pump × Bool) : Prop where
  written : after.1.written = (relayedLines stream).flatten
  recorded : after.1.recorded.map RecordedFrame.wire = relayedLines stream
  directed : ∀ frame ∈ after.1.recorded, frame.direction = direction
  numbered : after.1.Numbered
  goesOn : after.2 = true ↔ ∀ line ∈ frameLines stream, Relayable line
  left : after.2 = true → after.1.buf = unterminated stream

theorem Relayed.drained (relayed : Relayed side.direction stream pump) {bytes : List UInt8} {after : Pump × Bool}
    (drained : Drained side.direction { pump with buf := pump.buf ++ bytes } after) :
    Advanced side.direction (stream ++ bytes) after := by
  obtain ⟨written, ⟨fresh, recorded, wires, directed⟩, numbered, goesOn, left⟩ := drained
  simp only [relayed.buffered] at written wires goesOn left
  refine ⟨?_, ?_, ?_, numbered relayed.numbered, ?_, ?_⟩
  · rw [written, relayed.written, relayedLines_append relayed.relayable, List.flatten_append]
  · rw [recorded, List.map_append, relayed.recorded, wires, relayedLines_append relayed.relayable]
  · rw [recorded]
    exact fun frame member => (List.mem_append.1 member).elim (relayed.directed frame) (directed frame)
  · rw [goesOn, frameLines_append stream bytes, List.forall_mem_append]
    exact (and_iff_right relayed.relayable).symm
  · rw [unterminated_append]
    exact left

theorem relayedLines_eq {stream : List UInt8} (relayable : ∀ line ∈ frameLines stream, Relayable line) :
    relayedLines stream = frameLines stream :=
  List.takeWhile_eq_self_iff.2 fun line member => decide_eq_true (relayable line member)

/-- A chunk is relayed, or the pump has returned whatever follows. -/
theorem Relayed.receive (relayed : Relayed side.direction stream pump)
    (works : ∀ index, around.failsAfter index = none) (bytes : List UInt8) :
    (∃ after, pump.receive around side bytes = (after, .ok ()) ∧ Relayed side.direction (stream ++ bytes) after) ∨
    ∃ after err, pump.receive around side bytes = (after, .error err) ∧
      ∀ more, Returned side.direction (stream ++ bytes ++ more) after (.error err) := by
  have isOpen : Open (· == lf) pump.buf := relayed.buffered ▸ open_unterminated stream
  have advanced := relayed.drained (drainFrames_drained works side.direction { pump with buf := pump.buf ++ bytes })
  unfold Pump.receive
  simp only [drainFrames_skipped isOpen]
  generalize drainFrames around side.direction { pump with buf := pump.buf ++ bytes } = drained at advanced ⊢
  obtain ⟨after, goesOn⟩ := drained
  obtain ⟨written, recorded, directed, numbered, verdict, left⟩ := advanced
  cases goesOn with
  | false =>
    obtain ⟨line, member, refused⟩ : ∃ line ∈ frameLines (stream ++ bytes), ¬ Relayable line := by
      simpa using verdict
    refine .inr ⟨after, side.stopped, rfl, fun more => ⟨?_, ?_, directed, numbered.1, ?_, by simp⟩⟩
    · rw [relayedLines_append_refused member refused, written]
    · rw [relayedLines_append_refused member refused, recorded]
    · refine iff_of_true ⟨_, rfl⟩ (.inl ⟨line, ?_, refused⟩)
      rw [frameLines_append]
      exact List.mem_append_left _ member
  | true =>
    have relayable := verdict.1 rfl
    have unread : after.buf = unterminated (stream ++ bytes) := left rfl
    by_cases small : after.buf.length ≤ maxFrameBytes
    · refine .inl ⟨after, ?_, unread, small, relayable, ?_, ?_, directed, numbered⟩
      · simp [Nat.not_lt.2 small]
      · rw [written, relayedLines_eq relayable]
      · rw [recorded, relayedLines_eq relayable]
    · have long : maxFrameBytes < (unterminated (stream ++ bytes)).length := unread ▸ Nat.lt_of_not_le small
      have outcome := frameLines_of_long (open_unterminated _) long
      have nothing : ∀ more, relayedLines (unterminated (stream ++ bytes) ++ more) = [] := by
        intro more
        rcases outcome more with ⟨none, _⟩ | ⟨line, others, lines, refused⟩
        · rw [relayedLines, none, List.takeWhile_nil]
        · rw [relayedLines, lines, List.takeWhile_cons_of_neg (by simpa using refused)]
      refine .inr ⟨after, side.exceeded, ?_, fun more => ⟨?_, ?_, directed, numbered.1, ?_, by simp⟩⟩
      · simp [Nat.lt_of_not_le small]
      · rw [relayedLines_append relayable, nothing, List.append_nil, written, relayedLines_eq relayable]
      · rw [relayedLines_append relayable, nothing, List.append_nil, recorded, relayedLines_eq relayable]
      · refine iff_of_true ⟨_, rfl⟩ ?_
        rw [unterminated_append, frameLines_append]
        rcases outcome more with ⟨_, still⟩ | ⟨line, others, lines, refused⟩
        · exact .inr still
        · exact .inl ⟨line, by simp [lines], refused⟩

/-- At the end of the input. -/
theorem Relayed.returned (relayed : Relayed side.direction stream pump) :
    Returned side.direction stream pump (.ok ()) where
  written := by rw [relayed.written, relayedLines_eq relayed.relayable]
  recorded := by rw [relayed.recorded, relayedLines_eq relayed.relayable]
  directed := relayed.directed
  increasing := relayed.numbered.1
  stops := by
    refine iff_of_false (by simp) ?_
    rintro (⟨line, member, refused⟩ | long)
    · exact refused (relayed.relayable line member)
    · exact absurd relayed.small (by rw [relayed.buffered]; omega)
  left := fun _ => ⟨relayed.buffered, relayed.buffered ▸ lf_notMem_of_open (open_unterminated stream)⟩

theorem Relayed.pumpReads (relayed : Relayed side.direction stream pump)
    (works : ∀ index, around.failsAfter index = none) {reads : List PumpRead}
    (readable : ∀ err, PumpRead.failed err ∉ reads) :
    Returned side.direction (stream ++ reads.flatMap PumpRead.bytes) (pump.pumpReads around side reads).1
      (pump.pumpReads around side reads).2 := by
  induction reads generalizing stream pump with
  | nil =>
    rw [List.flatMap_nil, List.append_nil]
    exact relayed.returned
  | cons read rest ih =>
    cases read with
    | failed err => exact absurd List.mem_cons_self (readable err)
    | data bytes some fits =>
      have others : ∀ err, PumpRead.failed err ∉ rest := fun err member => readable err (.tail _ member)
      rw [List.flatMap_cons, ← List.append_assoc, Pump.pumpReads]
      rcases relayed.receive works bytes with ⟨after, received, later⟩ | ⟨after, err, received, returned⟩
      · rw [received]
        exact ih later others
      · rw [received]
        exact returned _

end

end Pump

/-- Whatever the reads are cut into, what is relayed are the lines of the stream before the first that is empty or
above the limit. -/
theorem stdio_relay_exact (around : PumpSurroundings) (works : ∀ index, around.failsAfter index = none)
    (direction : Direction) (seq : Nat) (reads : List PumpRead) (readable : ∀ err, PumpRead.failed err ∉ reads) :
    Pump.Returned direction (reads.flatMap PumpRead.bytes) (proxyFrames direction around seq reads).1
      (proxyFrames direction around seq reads).2 := by
  cases direction with
  | clientToServer => exact (Pump.relayed_start clientSide.direction seq).pumpReads works readable
  | serverToClient => exact (Pump.relayed_start serverSide.direction seq).pumpReads works readable

/-- Two reads of a frame, a line that is empty and a frame after that. -/
def cutReads : List PumpRead :=
  [.data [123] (by decide) (by decide), .data [125, 10, 13, 10, 120, 10] (by decide) (by decide)]

def quietSurroundings : PumpSurroundings where
  taken := fun _ => 0
  nowNs := fun _ => 0
  failsAfter := fun _ => none

theorem stdio_relay_exact_cut :
    (proxyFrames .serverToClient quietSurroundings 7 cutReads).1.written = [123, 125, 10] ∧
      ∃ err, (proxyFrames .serverToClient quietSurroundings 7 cutReads).2 = .error err := by
  have returned := stdio_relay_exact quietSurroundings (fun _ => rfl) .serverToClient 7 cutReads
    (by simp [cutReads])
  refine ⟨returned.written.trans (by decide), returned.stops.2 (.inl ⟨[13, 10], by decide, by decide⟩)⟩

end McpTracer.Proxy
