import McpTracer.Proxy.Pump
import McpTracer.Proxy.ReplayCommand

/-! Waiting for a frame of the server.

A wait takes the frames off the buffer, looks at each and stops at the one that it waits for. When the
buffer holds no more frames, it reads on. As long as no read brings more than the buffer may hold, the
lines of the stream tell what a run of waits finds.
-/

set_option autoImplicit false

namespace McpTracer.Proxy
open McpTracer.Foundation McpTracer.Protocol McpTracer.Proxy.Replay

/-- What becomes of a wait at a frame. -/
inductive Verdict where
  | goesOn
  | found
  | failed (err : String)
  deriving DecidableEq

def frameExceeded : String := s!"server frame exceeded {maxFrameBytes} bytes without a newline"

/-- The payload of a line. -/
def lineJson (line : List UInt8) : List UInt8 := dropTrailingCr line.dropLast

section
variable {State : Type}

/-! ## A wait on its buffer -/

/-- Look at the complete frames of the buffer, up to one at which the wait ends. -/
@[grind] def lookAtFrames (look : List UInt8 → State → State × Verdict) (buf : List UInt8) (state : State) :
    List UInt8 × State × Verdict :=
  match _parsed : parseStdioFrame buf with
  | .error err => (buf, state, .failed err)
  | .ok none => (buf, state, .goesOn)
  | .ok (some frame) =>
    match look frame.jsonBytes state with
    | (state, .goesOn) => lookAtFrames look (buf.drop frame.consumed) state
    | (state, verdict) => (buf.drop frame.consumed, state, verdict)
termination_by buf.length
decreasing_by
  have progress := parseStdioFrame_consumed ‹_›
  simp only [List.length_drop]
  omega

/-- Look and read until the wait ends. The reads that it has not made are left. -/
@[grind] def lookAtReads (look : List UInt8 → State → State × Verdict) :
    List ServerRead → List UInt8 → State → List ServerRead × List UInt8 × State × Verdict
  | reads, buf, state =>
    match lookAtFrames look buf state with
    | (buf, state, .goesOn) =>
      match reads with
      | [] => ([], buf, state, .goesOn)
      | .closed :: rest => (rest, buf, state, .goesOn)
      | .failed err :: rest => (rest, buf, state, .failed ("failed to read server stdout: " ++ err))
      | .data bytes :: rest =>
        if maxFrameBytes < (buf ++ bytes).length then (rest, buf ++ bytes, state, .failed frameExceeded)
        else lookAtReads look rest (buf ++ bytes) state
    | (buf, state, verdict) => (reads, buf, state, verdict)

/-! ## A wait on lines -/

/-- Look at lines one after the other. Those behind the last one looked at are left. -/
@[grind] def lookThrough (look : List UInt8 → State → State × Verdict) :
    List (List UInt8) → State → List (List UInt8) × State × Verdict
  | [], state => ([], state, .goesOn)
  | line :: rest, state =>
    match look (lineJson line) state with
    | (state, .goesOn) => lookThrough look rest state
    | (state, verdict) => (rest, state, verdict)

variable {look : List UInt8 → State → State × Verdict}

theorem lookThrough_append (first second : List (List UInt8)) (state : State) :
    lookThrough look (first ++ second) state =
      match lookThrough look first state with
      | (_, state, .goesOn) => lookThrough look second state
      | (left, state, verdict) => (left ++ second, state, verdict) := by
  induction first generalizing state with
  | nil => rfl
  | cons line rest ih =>
    rw [List.cons_append, lookThrough, lookThrough]
    rcases look (lineJson line) state with ⟨after, _ | _ | err⟩
    · exact ih after
    · rfl
    · rfl

/-- A wait that goes on has looked at all lines. -/
theorem lookThrough_goesOn {lines left : List (List UInt8)} {state after : State}
    (looked : lookThrough look lines state = (left, after, .goesOn)) : left = [] := by
  induction lines generalizing state with
  | nil =>
    cases looked
    rfl
  | cons line rest ih =>
    rw [lookThrough] at looked
    split at looked
    case h_1 => exact ih looked
    case h_2 other _ =>
      cases looked
      exact absurd rfl other

theorem lookThrough_nothing {lines : List (List UInt8)}
    (nothing : ∀ line ∈ lines, ∀ state, (look (lineJson line) state).2 = .goesOn) (state : State) :
    ∃ after, lookThrough look lines state = ([], after, .goesOn) := by
  induction lines generalizing state with
  | nil => exact ⟨state, rfl⟩
  | cons line rest ih =>
    obtain ⟨here, later⟩ := List.forall_mem_cons.1 nothing
    rw [lookThrough]
    split
    case h_1 after _ => exact ih later after
    case h_2 other same =>
      have verdict := here state
      rw [same] at verdict
      exact absurd verdict other

/-- The lines that are left are the last ones. -/
theorem lookThrough_left (lines : List (List UInt8)) (state : State) :
    (lookThrough look lines state).1 <:+ lines := by
  induction lines generalizing state with
  | nil => exact List.suffix_rfl
  | cons line rest ih =>
    rw [lookThrough]
    split
    case h_1 => exact (ih _).trans (List.suffix_cons line rest)
    case h_2 => exact List.suffix_cons line rest

/-! ## Frames are lines -/

theorem lookAtFrames_of_open {buf : List UInt8} (isOpen : Open (· == lf) buf) (state : State) :
    lookAtFrames look buf state = (buf, state, .goesOn) := by
  have parsed := parseStdioFrame_of_open isOpen
  rw [lookAtFrames]
  split <;> simp_all

theorem lookAtFrames_line {body : List UInt8} (isOpen : Open (· == lf) body) (filled : Relayable (body ++ [lf]))
    (rest : List UInt8) (state : State) :
    lookAtFrames look (body ++ lf :: rest) state =
      match look (lineJson (body ++ [lf])) state with
      | (state, .goesOn) => lookAtFrames look rest state
      | (state, verdict) => (rest, state, verdict) := by
  rcases parseStdioFrame_line isOpen rest with ⟨_, empty⟩ | ⟨frame, parsed, wire, _⟩
  · rcases empty with rfl | rfl
    · exact absurd rfl filled.1
    · exact absurd rfl filled.2.1
  · have payload : frame.jsonBytes = lineJson (body ++ [lf]) := by rw [frame.payload, wire, lineJson]
    have behind : (body ++ lf :: rest).drop frame.consumed = rest := by
      rw [List.append_cons, frame.counted, wire, List.drop_left]
    rw [lookAtFrames]
    split
    case h_1 other => simp_all
    case h_2 other => simp_all
    case h_3 other same =>
      obtain rfl : frame = other := by simpa [parsed] using same
      rw [payload, behind]

variable (look) in
/-- On a buffer of lines that may be relayed, a wait looks at the lines. -/
theorem lookAtFrames_eq (buf : List UInt8) (filled : ∀ line ∈ frameLines buf, Relayable line) (state : State) :
    lookAtFrames look buf state =
      ((lookThrough look (frameLines buf) state).1.flatten ++ unterminated buf,
        (lookThrough look (frameLines buf) state).2) := by
  induction buf using induction_on_groups (· == lf) generalizing state with
  | unfinished items isOpen =>
    rw [lookAtFrames_of_open isOpen, frameLines_of_open isOpen, unterminated, openGroup_of_open isOpen]
    rfl
  | group body closing rest isOpen closes ih =>
    obtain rfl : closing = lf := by simpa using closes
    rw [frameLines_line isOpen] at filled ⊢
    obtain ⟨here, later⟩ := List.forall_mem_cons.1 filled
    rw [lookAtFrames_line isOpen here, unterminated_line, lookThrough]
    rcases look (lineJson (body ++ [lf])) state with ⟨after, _ | _ | err⟩
    · exact ih later after
    · dsimp only
      rw [← stream_eq_lines]
    · dsimp only
      rw [← stream_eq_lines]

/-! ## Reads that fit -/

/-- No read brings more than the buffer may hold behind what was left open. -/
def ReadsFit : List UInt8 → List (List UInt8) → Prop
  | _, [] => True
  | begun, bytes :: rest =>
    begun.length + bytes.length ≤ maxFrameBytes ∧ ReadsFit (unterminated (begun ++ bytes)) rest

theorem readsFit_append {begun : List UInt8} {first second : List (List UInt8)} :
    ReadsFit (unterminated begun) (first ++ second) ↔
      ReadsFit (unterminated begun) first ∧ ReadsFit (unterminated (begun ++ first.flatten)) second := by
  induction first generalizing begun with
  | nil => simp [ReadsFit]
  | cons bytes rest ih =>
    rw [List.cons_append, ReadsFit, ReadsFit, ← unterminated_append, ih, List.flatten_cons, and_assoc,
      ← List.append_assoc]

def waitOutcome (left : List UInt8) (state : State) : Verdict → Except String (List UInt8 × State × Bool)
  | .goesOn => .ok (left, state, false)
  | .found => .ok (left, state, true)
  | .failed err => .error err

/-- What a wait that looks at the frames gives back. -/
def looking (look : List UInt8 → State → State × Verdict) (reads : List ServerRead) (buf : List UInt8) (state : State) :
    Except String (List UInt8 × State × Bool) :=
  match lookAtReads look reads buf state with
  | (_, left, after, verdict) => waitOutcome left after verdict

/-- The reads that a wait leaves: those behind the first ones with which it has ended. -/
def leftUnread (wait : List (List UInt8) → Except String (List UInt8 × State × Bool)) :
    List (List UInt8) → List (List UInt8)
  | [] => []
  | bytes :: rest =>
    match wait [] with
    | .ok (_, _, false) => leftUnread (fun more => wait (bytes :: more)) rest
    | _ => bytes :: rest

section
variable {buf left : List UInt8} {state after : State} {verdict : Verdict}

theorem lookAtReads_nil : lookAtReads look [] buf state = ([], lookAtFrames look buf state) := by
  rw [lookAtReads]
  rcases lookAtFrames look buf state with ⟨left, after, _ | _ | err⟩ <;> rfl

theorem lookAtReads_ended (looked : lookAtFrames look buf state = (left, after, verdict)) (ended : verdict ≠ .goesOn)
    (reads : List ServerRead) : lookAtReads look reads buf state = (reads, left, after, verdict) := by
  rw [lookAtReads, looked]
  cases verdict with
  | goesOn => exact absurd rfl ended
  | found => rfl
  | failed err => rfl

theorem lookAtReads_data (looked : lookAtFrames look buf state = (left, after, .goesOn)) {bytes : List UInt8}
    (fits : left.length + bytes.length ≤ maxFrameBytes) (rest : List ServerRead) :
    lookAtReads look (.data bytes :: rest) buf state = lookAtReads look rest (left ++ bytes) after := by
  rw [lookAtReads, looked]
  exact if_neg (by rw [List.length_append]; omega)

theorem lookAtReads_exceeded (looked : lookAtFrames look buf state = (left, after, .goesOn)) {bytes : List UInt8}
    (exceeds : ¬ left.length + bytes.length ≤ maxFrameBytes) (rest : List ServerRead) :
    lookAtReads look (.data bytes :: rest) buf state = (rest, left ++ bytes, after, .failed frameExceeded) := by
  rw [lookAtReads, looked]
  exact if_pos (by rw [List.length_append]; omega)

end

variable (look) in
/-- What a wait finds, and what it leaves for the next. -/
theorem lookAtReads_eq {reads : List (List UInt8)} {buf : List UInt8} (fits : ReadsFit (unterminated buf) reads)
    (filled : ∀ line ∈ frameLines (buf ++ reads.flatten), Relayable line) (state : State) :
    ∃ unread left, lookAtReads look (reads.map .data) buf state =
        (unread.map .data, left, (lookThrough look (frameLines (buf ++ reads.flatten)) state).2) ∧
      leftUnread (fun reads => looking look (reads.map .data) buf state) reads = unread ∧
      ReadsFit (unterminated left) unread ∧
      frameLines (left ++ unread.flatten) = (lookThrough look (frameLines (buf ++ reads.flatten)) state).1 ∧
      unterminated (left ++ unread.flatten) = unterminated (buf ++ reads.flatten) := by
  induction reads generalizing buf state with
  | nil =>
    rw [List.flatten_nil, List.append_nil] at filled ⊢
    have looked := lookAtFrames_eq look buf filled state
    have leftLines : ∀ line ∈ (lookThrough look (frameLines buf) state).1, IsLine line :=
      fun line member => isLine_of_mem_frameLines ((lookThrough_left _ _).subset member)
    obtain ⟨lines, tail⟩ := frameLines_unique leftLines (open_unterminated buf)
    refine ⟨[], _, by rw [List.map_nil, lookAtReads_nil, looked], rfl, trivial, ?_, ?_⟩
    · rw [List.flatten_nil, List.append_nil, lines]
    · rw [List.flatten_nil, List.append_nil, tail]
  | cons bytes rest ih =>
    obtain ⟨here, later⟩ := fits
    have whole : frameLines (buf ++ (bytes :: rest).flatten) =
        frameLines buf ++ frameLines (unterminated buf ++ bytes ++ rest.flatten) := by
      rw [List.flatten_cons, frameLines_append, List.append_assoc]
    have tailed : unterminated (buf ++ (bytes :: rest).flatten) =
        unterminated (unterminated buf ++ bytes ++ rest.flatten) := by
      rw [List.flatten_cons, unterminated_append, List.append_assoc]
    rw [whole] at filled ⊢
    rw [tailed, lookThrough_append]
    have filledHere : ∀ line ∈ frameLines buf, Relayable line :=
      fun line member => filled line (List.mem_append_left _ member)
    have looked := lookAtFrames_eq look buf filledHere state
    have leftLines : ∀ line ∈ (lookThrough look (frameLines buf) state).1, IsLine line :=
      fun line member => isLine_of_mem_frameLines ((lookThrough_left _ _).subset member)
    rcases through : lookThrough look (frameLines buf) state with ⟨left, after, verdict⟩
    rw [through] at looked leftLines
    by_cases goesOn : verdict = .goesOn
    · -- Nothing was found on the buffer, so the next read is made.
      subst goesOn
      obtain rfl := lookThrough_goesOn through
      rw [List.flatten_nil, List.nil_append] at looked
      obtain ⟨unread, left, read, unreadEq, unreadFit, leftEq, tailEq⟩ :=
        ih later (fun line member => filled line (List.mem_append_right _ member)) after
      refine ⟨unread, left, ?_, ?_, unreadFit, leftEq, tailEq⟩
      · rw [List.map_cons, lookAtReads_data looked here, read]
      · have onward : (fun more => looking look ((bytes :: more).map .data) buf state) =
            fun more => looking look (more.map .data) (unterminated buf ++ bytes) after := by
          funext more
          rw [looking, looking, List.map_cons, lookAtReads_data looked here]
        have first : looking look (([] : List (List UInt8)).map .data) buf state = .ok (unterminated buf, after, false) := by
          rw [looking, List.map_nil, lookAtReads_nil, looked]
          rfl
        rw [leftUnread, first]
        dsimp only
        rw [onward, unreadEq]
    · -- The wait has ended, so no read is made.
      have alone : looking look (([] : List (List UInt8)).map .data) buf state =
          waitOutcome (left.flatten ++ unterminated buf) after verdict := by
        rw [looking, List.map_nil, lookAtReads_nil, looked]
      obtain ⟨lines, tail⟩ := frameLines_unique leftLines (open_unterminated buf)
      have ended : (match (left, after, verdict) with
          | (_, state, .goesOn) =>
            lookThrough look (frameLines (unterminated buf ++ bytes ++ rest.flatten)) state
          | (left, state, verdict) =>
            (left ++ frameLines (unterminated buf ++ bytes ++ rest.flatten), state, verdict)) =
          (left ++ frameLines (unterminated buf ++ bytes ++ rest.flatten), after, verdict) := by
        cases verdict with
        | goesOn => exact absurd rfl goesOn
        | found => rfl
        | failed err => rfl
      rw [ended]
      refine ⟨bytes :: rest, _, lookAtReads_ended looked goesOn _, ?_, ?_, ?_, ?_⟩
      · rw [leftUnread, alone]
        cases verdict with
        | goesOn => exact absurd rfl goesOn
        | found => rfl
        | failed err => rfl
      · rw [tail]
        exact ⟨here, later⟩
      · rw [frameLines_append, lines, tail, List.flatten_cons, List.append_assoc]
      · rw [unterminated_append, tail, List.flatten_cons, List.append_assoc]

/-- A read that does not fit ends a wait that finds nothing. -/
theorem lookAtReads_unfit {reads : List (List UInt8)} {buf : List UInt8}
    (filled : ∀ line ∈ frameLines (buf ++ reads.flatten), Relayable line)
    (nothing : ∀ line ∈ frameLines (buf ++ reads.flatten), ∀ state, (look (lineJson line) state).2 = .goesOn)
    (unfit : ¬ ReadsFit (unterminated buf) reads) (state : State) :
    ∃ unread left after, lookAtReads look (reads.map .data) buf state = (unread, left, after, .failed frameExceeded) := by
  induction reads generalizing buf state with
  | nil => exact absurd trivial unfit
  | cons bytes rest ih =>
    have whole : frameLines (buf ++ (bytes :: rest).flatten) =
        frameLines buf ++ frameLines (unterminated buf ++ bytes ++ rest.flatten) := by
      rw [List.flatten_cons, frameLines_append, List.append_assoc]
    rw [whole] at filled nothing
    have looked := lookAtFrames_eq look buf (fun line member => filled line (List.mem_append_left _ member)) state
    obtain ⟨after, through⟩ := lookThrough_nothing (fun line member => nothing line (List.mem_append_left _ member)) state
    rw [through, List.flatten_nil, List.nil_append] at looked
    by_cases here : (unterminated buf).length + bytes.length ≤ maxFrameBytes
    · rw [List.map_cons, lookAtReads_data looked here]
      exact ih (fun line member => filled line (List.mem_append_right _ member))
        (fun line member => nothing line (List.mem_append_right _ member)) (fun later => unfit ⟨here, later⟩) after
    · exact ⟨_, _, _, lookAtReads_exceeded looked here _⟩

/-! ## What looking preserves -/

/-- The invariant holds, or the failure has left the state in some way. -/
def LeavesSound (holds : State → Prop) (leaves : String → State → Prop) : State × Verdict → Prop
  | (after, .failed err) => leaves err after
  | (after, _) => holds after

section
variable {holds : State → Prop} {leaves : String → State → Prop}

theorem lookAtFrames_keeps (step : ∀ json state, holds state → LeavesSound holds leaves (look json state))
    (undisturbed : ∀ err state, holds state → leaves err state) (buf : List UInt8) {state : State}
    (before : holds state) : LeavesSound holds leaves (lookAtFrames look buf state).2 := by
  induction size : buf.length using Nat.strong_induction_on generalizing buf state with
  | _ _ ih =>
    subst size
    rw [lookAtFrames]
    split
    case h_1 err _ => exact undisturbed err state before
    case h_2 => exact before
    case h_3 frame parsed =>
      have progress := parseStdioFrame_consumed parsed
      have shorter : (buf.drop frame.consumed).length < buf.length := by
        rw [List.length_drop]
        omega
      have after := step frame.jsonBytes state before
      split
      case h_1 next same =>
        rw [same] at after
        exact ih _ shorter _ after rfl
      case h_2 => rwa [‹look _ _ = _›] at after

theorem lookAtReads_keeps (step : ∀ json state, holds state → LeavesSound holds leaves (look json state))
    (undisturbed : ∀ err state, holds state → leaves err state) (reads : List ServerRead) (buf : List UInt8)
    {state : State} (before : holds state) : LeavesSound holds leaves (lookAtReads look reads buf state).2.2 := by
  induction reads generalizing buf state with
  | nil =>
    rw [lookAtReads_nil]
    exact lookAtFrames_keeps step undisturbed buf before
  | cons read rest ih =>
    have drained := lookAtFrames_keeps step undisturbed buf before
    rw [lookAtReads]
    split
    case h_1 left after looked =>
      rw [looked] at drained
      cases read with
      | closed => exact drained
      | failed err => exact undisturbed _ after drained
      | data bytes =>
        dsimp only
        split
        · exact undisturbed _ after drained
        · exact ih (left ++ bytes) drained
    case h_2 => rwa [‹lookAtFrames _ _ _ = _›] at drained

end

/-! ## A run of waits -/

/-- A wait, and the reads that return before its deadline besides those that an earlier wait has left. -/
structure TimedWait (State : Type) where
  wait : List ServerRead → List UInt8 → Except String (List UInt8 × State × Bool)
  reads : List (List UInt8)

/-- What successive waits on one buffer give back, up to one that fails. -/
def outcomes : List (TimedWait State) → List (List UInt8) → List UInt8 → List (Except String (State × Bool))
  | [], _, _ => []
  | timed :: rest, unread, buf =>
    let reads := unread ++ timed.reads
    match timed.wait (reads.map .data) buf with
    | .error err => [.error err]
    | .ok (left, state, found) =>
      .ok (state, found) ::
        outcomes rest (leftUnread (fun reads => timed.wait (reads.map .data) buf) reads) left

/-- A wait, and the bytes that arrive before its deadline. -/
structure FramedWait (State : Type) where
  look : List UInt8 → State → State × Verdict
  state : State
  bytes : List UInt8

/-- What waits find when each looks at the lines that have arrived and that no wait has looked at. -/
def answers : List (FramedWait State) → List (List UInt8) → List UInt8 → List (Except String (State × Bool))
  | [], _, _ => []
  | framed :: rest, lines, tail =>
    match lookThrough framed.look (lines ++ frameLines (tail ++ framed.bytes)) framed.state with
    | (_, _, .failed err) => [.error err]
    | (left, state, .found) => .ok (state, true) :: answers rest left (unterminated (tail ++ framed.bytes))
    | (left, state, .goesOn) => .ok (state, false) :: answers rest left (unterminated (tail ++ framed.bytes))

def Serves (timed : TimedWait State) (framed : FramedWait State) : Prop :=
  (∀ reads buf, timed.wait reads buf = looking framed.look reads buf framed.state) ∧
    framed.bytes = timed.reads.flatten

section
variable {Wait : Type} {timed : Wait → TimedWait State} {framed : Wait → FramedWait State}

/-- Waits whose reads fit find what the lines tell, wherever the reads were cut. -/
theorem outcomes_eq_answers (serves : ∀ wait, Serves (timed wait) (framed wait)) {waits : List Wait}
    {unread : List (List UInt8)} {buf : List UInt8}
    (fits : ReadsFit (unterminated buf) (unread ++ waits.flatMap fun wait => (timed wait).reads))
    (filled : ∀ line ∈ frameLines (buf ++ (unread ++ waits.flatMap fun wait => (timed wait).reads).flatten),
      Relayable line) :
    outcomes (waits.map timed) unread buf =
      answers (waits.map framed) (frameLines (buf ++ unread.flatten)) (unterminated (buf ++ unread.flatten)) := by
  induction waits generalizing unread buf with
  | nil => rfl
  | cons wait rest ih =>
    obtain ⟨sameWait, sameBytes⟩ := serves wait
    rw [List.flatMap_cons, ← List.append_assoc] at fits filled
    obtain ⟨fitsHere, fitsLater⟩ := readsFit_append.1 fits
    rw [List.flatten_append, ← List.append_assoc, frameLines_append] at filled
    have filledHere := fun line member => filled line (List.mem_append_left _ member)
    obtain ⟨unread', left, read, unreadEq, unreadFit, leftEq, tailEq⟩ :=
      lookAtReads_eq (framed wait).look fitsHere filledHere (framed wait).state
    have available : frameLines (buf ++ unread.flatten) ++
        frameLines (unterminated (buf ++ unread.flatten) ++ (framed wait).bytes) =
        frameLines (buf ++ (unread ++ (timed wait).reads).flatten) := by
      rw [← frameLines_append, sameBytes, List.flatten_append, List.append_assoc]
    have tail : unterminated (unterminated (buf ++ unread.flatten) ++ (framed wait).bytes) =
        unterminated (buf ++ (unread ++ (timed wait).reads).flatten) := by
      rw [← unterminated_append, sameBytes, List.flatten_append, List.append_assoc]
    have goesOnWith : outcomes (rest.map timed) unread' left =
        answers (rest.map framed) (lookThrough (framed wait).look
          (frameLines (buf ++ (unread ++ (timed wait).reads).flatten)) (framed wait).state).1
          (unterminated (buf ++ (unread ++ (timed wait).reads).flatten)) := by
      rw [← leftEq, ← tailEq]
      apply ih
      · exact readsFit_append.2 ⟨unreadFit, tailEq ▸ fitsLater⟩
      · intro line member
        rw [List.flatten_append, ← List.append_assoc, frameLines_append, leftEq, tailEq] at member
        apply filled
        rcases List.mem_append.1 member with member | member
        · exact List.mem_append_left _ ((lookThrough_left _ _).subset member)
        · exact List.mem_append_right _ member
    rw [List.map_cons, List.map_cons, outcomes, answers, available, tail]
    simp only [sameWait] at unreadEq ⊢
    rw [looking, read]
    rcases through : lookThrough (framed wait).look (frameLines (buf ++ (unread ++ (timed wait).reads).flatten))
      (framed wait).state with ⟨lines, after, verdict⟩
    rw [through] at goesOnWith
    cases verdict with
    | goesOn =>
      dsimp only [waitOutcome]
      rw [unreadEq, goesOnWith]
    | found =>
      dsimp only [waitOutcome]
      rw [unreadEq, goesOnWith]
    | failed err => rfl

/-- From the start, what a run of waits finds is told by the lines of its reads. -/
theorem outcomes_eq_answers_start (serves : ∀ wait, Serves (timed wait) (framed wait)) {waits : List Wait}
    (fits : ReadsFit [] (waits.flatMap fun wait => (timed wait).reads))
    (filled : ∀ line ∈ frameLines (waits.flatMap fun wait => (timed wait).reads).flatten, Relayable line) :
    outcomes (waits.map timed) [] [] = answers (waits.map framed) [] [] :=
  outcomes_eq_answers serves fits filled

end

/-- A read that does not fit fails a wait that the lines would let go on. -/
theorem outcomes_ne_answers {timed : TimedWait State} {framed : FramedWait State} (serves : Serves timed framed)
    (filled : ∀ line ∈ frameLines timed.reads.flatten, Relayable line)
    (nothing : ∀ line ∈ frameLines timed.reads.flatten, ∀ state, (framed.look (lineJson line) state).2 = .goesOn)
    (unfit : ¬ ReadsFit [] timed.reads) : outcomes [timed] [] [] ≠ answers [framed] [] [] := by
  obtain ⟨sameWait, sameBytes⟩ := serves
  obtain ⟨unread, left, after, read⟩ := @lookAtReads_unfit State framed.look timed.reads [] filled nothing unfit framed.state
  obtain ⟨state, through⟩ := lookThrough_nothing nothing framed.state
  have available : [] ++ frameLines ([] ++ framed.bytes) = frameLines timed.reads.flatten := by
    rw [List.nil_append, List.nil_append, sameBytes]
  rw [outcomes, answers, available, through, List.nil_append, sameWait, looking, read]
  simp [waitOutcome]

end

end McpTracer.Proxy
