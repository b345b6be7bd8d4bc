import McpTracer.Proxy.FrameReader

/-! Waiting for the response to a request.

Replay and bench wait for the response with the id of the request that they have sent. Replay records what it
sees meanwhile and answers the requests of the server, bench passes them by. A read that brings the end of a
long frame and the beginning of the next one may fill the buffer above the limit, where the relay would only
look at the frames.
-/

set_option autoImplicit false

namespace McpTracer.Proxy.Bench
open McpTracer.Foundation McpTracer.Json McpTracer.Protocol McpTracer.Proxy.Replay

inductive ResponseOutcome where
  | ok (isError : Bool)
  | timeout
  deriving DecidableEq

/-- What the frames of the server are read with. -/
structure BenchSurroundings where
  codec : Codec
  fromSlice : List UInt8 → Option Value

def isResponseTo (codec : Codec) (expectedRpcId : String) (payload : Value) : Bool :=
  (payload.get "id").isSome && (payload.get "method").isNone &&
    (payload.get "id").map codec.toString = some expectedRpcId

def isErrorResponse (payload : Value) : Bool :=
  (payload.get "error").isSome || (payload.getPath ["result", "isError"]).bind Value.asBool = some true

/-- Take the complete frames off the buffer, up to the response with the expected id. -/
def drainResponses (around : BenchSurroundings) (expectedRpcId : String) (buf : List UInt8) :
    Except String (List UInt8 × ResponseOutcome) :=
  match _parsed : parseStdioFrame buf with
  | .error err => .error err
  | .ok none => .ok (buf, .timeout)
  | .ok (some frame) =>
    match around.fromSlice frame.jsonBytes with
    | none => .error "frame is not valid JSON"
    | some payload =>
      if isResponseTo around.codec expectedRpcId payload then
        .ok (buf.drop frame.consumed, .ok (isErrorResponse payload))
      else drainResponses around expectedRpcId (buf.drop frame.consumed)
termination_by buf.length
decreasing_by
  have progress := parseStdioFrame_consumed ‹_›
  simp only [List.length_drop]
  omega

/-- The reads up to the deadline. -/
def waitForResponse (around : BenchSurroundings) (expectedRpcId : String) :
    List ServerRead → List UInt8 → Except String (List UInt8 × ResponseOutcome)
  | reads, buf =>
    match drainResponses around expectedRpcId buf with
    | .error err => .error err
    | .ok (buf, .ok isError) => .ok (buf, .ok isError)
    | .ok (buf, .timeout) =>
      match reads with
      | [] => .ok (buf, .timeout)
      | .closed :: _ => .ok (buf, .timeout)
      | .failed err :: _ => .error ("failed to read server stdout: " ++ err)
      | .data bytes :: rest =>
        if maxFrameBytes < (buf ++ bytes).length then
          .error s!"server frame exceeded {maxFrameBytes} bytes without a newline"
        else waitForResponse around expectedRpcId rest (buf ++ bytes)

/-! ## Bench looks at frames -/

def responseFrame (around : BenchSurroundings) (expectedRpcId : String) (json : List UInt8)
    (outcome : ResponseOutcome) : ResponseOutcome × Verdict :=
  match around.fromSlice json with
  | none => (outcome, .failed "frame is not valid JSON")
  | some payload =>
    if isResponseTo around.codec expectedRpcId payload then (.ok (isErrorResponse payload), .found)
    else (outcome, .goesOn)

/-- Whether the response was found, as its outcome says it. -/
def ResponseOutcome.found : ResponseOutcome → Bool
  | .ok _ => true
  | .timeout => false

def withFound (waited : List UInt8 × ResponseOutcome) : List UInt8 × ResponseOutcome × Bool :=
  (waited.1, waited.2, waited.2.found)

section
variable {around : BenchSurroundings} {expectedRpcId : String}

variable (around expectedRpcId) in
theorem drainResponses_eq (buf : List UInt8) :
    (drainResponses around expectedRpcId buf).map withFound =
      match lookAtFrames (responseFrame around expectedRpcId) buf .timeout with
      | (left, outcome, verdict) => waitOutcome left outcome verdict := by
  induction size : buf.length using Nat.strong_induction_on generalizing buf with
  | _ _ ih =>
    subst size
    rw [drainResponses, lookAtFrames]
    cases parsed : parseStdioFrame buf with
    | error err => rfl
    | ok found =>
      cases found with
      | none => rfl
      | some frame =>
        have progress := parseStdioFrame_consumed parsed
        have shorter : (buf.drop frame.consumed).length < buf.length := by
          rw [List.length_drop]
          omega
        have later := ih _ shorter _ rfl
        cases read : around.fromSlice frame.jsonBytes with
        | none => simp [responseFrame, read, waitOutcome, Except.map]
        | some payload =>
          cases own : isResponseTo around.codec expectedRpcId payload with
          | true => simp [responseFrame, read, own, waitOutcome, Except.map, withFound, ResponseOutcome.found]
          | false => simpa [responseFrame, read, own] using later

/-- What bench has drained, by the verdict on it. -/
theorem drainResponses_cases {buf left : List UInt8} {outcome : ResponseOutcome} {verdict : Verdict}
    (looked : lookAtFrames (responseFrame around expectedRpcId) buf .timeout = (left, outcome, verdict)) :
    (verdict = .goesOn ∧ outcome = .timeout ∧ drainResponses around expectedRpcId buf = .ok (left, .timeout)) ∨
      (verdict = .found ∧ ∃ isError, outcome = .ok isError ∧
        drainResponses around expectedRpcId buf = .ok (left, .ok isError)) ∨
      ∃ err, verdict = .failed err ∧ drainResponses around expectedRpcId buf = .error err := by
  have same := drainResponses_eq around expectedRpcId buf
  rw [looked] at same
  rcases drained : drainResponses around expectedRpcId buf with err | ⟨rest, isError | _⟩ <;> rw [drained] at same <;>
    cases verdict <;> simp_all [Except.map, waitOutcome, withFound, ResponseOutcome.found]
  cases isError <;> simp [← same.2]

theorem waitForResponse_eq (reads : List ServerRead) (buf : List UInt8) :
    (waitForResponse around expectedRpcId reads buf).map withFound =
      looking (responseFrame around expectedRpcId) reads buf .timeout := by
  induction reads generalizing buf with
  | nil =>
    rcases looked : lookAtFrames (responseFrame around expectedRpcId) buf .timeout with ⟨left, outcome, verdict⟩
    rw [waitForResponse, looking, lookAtReads_nil, looked]
    rcases drainResponses_cases looked with ⟨rfl, rfl, drained⟩ | ⟨rfl, isError, rfl, drained⟩ | ⟨err, rfl, drained⟩ <;>
      rw [drained] <;> rfl
  | cons read rest ih =>
    rcases looked : lookAtFrames (responseFrame around expectedRpcId) buf .timeout with ⟨left, outcome, verdict⟩
    rw [waitForResponse, looking, lookAtReads, looked]
    rcases drainResponses_cases looked with ⟨rfl, rfl, drained⟩ | ⟨rfl, isError, rfl, drained⟩ | ⟨err, rfl, drained⟩ <;>
      rw [drained]
    · cases read with
      | closed => rfl
      | failed err => rfl
      | data bytes =>
        dsimp only
        split
        · rfl
        · exact ih (left ++ bytes)
    · rfl
    · rfl

end

end McpTracer.Proxy.Bench

namespace McpTracer.Proxy.Replay
open McpTracer.Foundation McpTracer.Json McpTracer.Protocol

/-! ## Replay looks at frames -/

/-- What replay does with a frame: it is recorded, and answered if it is a request. -/
def serverFrame (around : ReplaySurroundings) (lookaside : Table String String) (strict : Bool) (expected : String)
    (json : List UInt8) (state : ReplayState) : ReplayState × Verdict :=
  match around.fromSlice json with
  | none => (state, .failed "frame is not valid JSON")
  | some value =>
    let message := state.message around .serverToClient value json.length
    let state := state.tryRecord message
    let handled :=
      if message.kind = .request then handleServerRequest around lookaside strict state value else .ok state
    match handled with
    | .error err => (state, .failed err)
    | .ok after =>
      (after, if message.kind = .response ∧ message.idJson around.codec = some expected then .found else .goesOn)

section
variable {around : ReplaySurroundings} {lookaside : Table String String} {strict : Bool} {expected : String}

theorem drainServer_eq (buf : List UInt8) (state : ReplayState) :
    drainServer around lookaside strict expected buf state =
      match lookAtFrames (serverFrame around lookaside strict expected) buf state with
      | (left, after, verdict) => waitOutcome left after verdict := by
  induction size : buf.length using Nat.strong_induction_on generalizing buf state with
  | _ _ ih =>
    subst size
    rw [drainServer, lookAtFrames]
    cases parsed : parseStdioFrame buf with
    | error err => rfl
    | ok found =>
      cases found with
      | none => rfl
      | some frame =>
        have progress := parseStdioFrame_consumed parsed
        have shorter : (buf.drop frame.consumed).length < buf.length := by
          rw [List.length_drop]
          omega
        have later := fun state => ih _ shorter (buf.drop frame.consumed) state rfl
        dsimp only [serverFrame]
        cases read : around.fromSlice frame.jsonBytes with
        | none => rfl
        | some value =>
          dsimp only
          generalize (state.message around .serverToClient value frame.jsonBytes.length) = message
          cases handled : (if message.kind = .request then
              handleServerRequest around lookaside strict (state.tryRecord message) value
            else .ok (state.tryRecord message)) with
          | error err => rfl
          | ok after =>
            dsimp only
            split
            · rfl
            · exact later after

theorem waitReads_eq (reads : List ServerRead) (buf : List UInt8) (state : ReplayState) :
    waitReads around lookaside strict expected reads buf state =
      looking (serverFrame around lookaside strict expected) reads buf state := by
  induction reads generalizing buf state with
  | nil =>
    rw [waitReads, looking, lookAtReads_nil, drainServer_eq]
    rcases lookAtFrames (serverFrame around lookaside strict expected) buf state with ⟨left, after, _ | _ | err⟩ <;> rfl
  | cons read rest ih =>
    rw [waitReads, looking, lookAtReads, drainServer_eq]
    rcases lookAtFrames (serverFrame around lookaside strict expected) buf state with ⟨left, after, _ | _ | err⟩
    · cases read with
      | closed => rfl
      | failed err => rfl
      | data bytes =>
        dsimp only [waitOutcome]
        split
        · rfl
        · exact ih (left ++ bytes) after
    · rfl
    · rfl

end

/-! ## Runs of waits -/

/-- A wait of replay: what it waits for, the state that it starts in, and the reads that return meanwhile. -/
structure ReplayWait where
  lookaside : Table String String
  strict : Bool
  expected : String
  state : ReplayState
  reads : List (List UInt8)

def ReplayWait.timed (around : ReplaySurroundings) (wait : ReplayWait) : TimedWait ReplayState where
  wait := fun reads buf => waitReads around wait.lookaside wait.strict wait.expected reads buf wait.state
  reads := wait.reads

def ReplayWait.framed (around : ReplaySurroundings) (wait : ReplayWait) : FramedWait ReplayState where
  look := serverFrame around wait.lookaside wait.strict wait.expected
  state := wait.state
  bytes := wait.reads.flatten

/-- A wait of bench. -/
structure BenchWait where
  expected : String
  reads : List (List UInt8)

def BenchWait.timed (around : Bench.BenchSurroundings) (wait : BenchWait) : TimedWait Bench.ResponseOutcome where
  wait := fun reads buf => (Bench.waitForResponse around wait.expected reads buf).map Bench.withFound
  reads := wait.reads

def BenchWait.framed (around : Bench.BenchSurroundings) (wait : BenchWait) : FramedWait Bench.ResponseOutcome where
  look := Bench.responseFrame around wait.expected
  state := .timeout
  bytes := wait.reads.flatten

/-- Replay finds in every run of waits over these reads what the lines tell. -/
def ReplayFollows (codec : Codec) (fromSlice : List UInt8 → Option Value) (reads : List (List UInt8)) : Prop :=
  ∀ (around : ReplaySurroundings) (waits : List ReplayWait), around.codec = codec → around.fromSlice = fromSlice →
    waits.flatMap ReplayWait.reads = reads →
      outcomes (waits.map (ReplayWait.timed around)) [] [] = answers (waits.map (ReplayWait.framed around)) [] []

/-- So does bench. -/
def BenchFollows (codec : Codec) (fromSlice : List UInt8 → Option Value) (reads : List (List UInt8)) : Prop :=
  ∀ waits : List BenchWait, waits.flatMap BenchWait.reads = reads →
    outcomes (waits.map (BenchWait.timed ⟨codec, fromSlice⟩)) [] [] =
      answers (waits.map (BenchWait.framed ⟨codec, fromSlice⟩)) [] []

/-- A line with a JSON text that the relay would forward. -/
def IsJsonFrame (fromSlice : List UInt8 → Option Value) (frame : List UInt8) : Prop :=
  IsLine frame ∧ Relayable frame ∧ (fromSlice (lineJson frame)).isSome = true

/-- A wait for no response at all. -/
theorem exists_unknown (known : List String) : ∃ expected, expected ∉ known := by
  obtain ⟨expected, unknown⟩ := Infinite.exists_notMem_finset known.toFinset
  exact ⟨expected, by simpa using unknown⟩

theorem replay_serves (around : ReplaySurroundings) (wait : ReplayWait) :
    Serves (wait.timed around) (wait.framed around) := ⟨fun reads buf => waitReads_eq reads buf wait.state, rfl⟩

theorem bench_serves (around : Bench.BenchSurroundings) (wait : BenchWait) :
    Serves (wait.timed around) (wait.framed around) := ⟨Bench.waitForResponse_eq, rfl⟩

/-- Where nothing is strict and every write succeeds, replay waits on at a frame without the expected id. -/
theorem serverFrame_goesOn {around : ReplaySurroundings} {lookaside : Table String String} {expected : String}
    (works : around.writes = fun _ => true) (nothing : ∀ id, lookaside id = none) {json : List UInt8} {value : Value}
    (read : around.fromSlice json = some value)
    (other : ∀ id, value.get "id" = some id → around.codec.toString id ≠ expected) (state : ReplayState) :
    (serverFrame around lookaside false expected json state).2 = .goesOn := by
  have handled : ∀ state, ∃ after, handleServerRequest around lookaside false state value = .ok after := by
    intro state
    unfold handleServerRequest
    cases value.get "id" with
    | none => exact ⟨state, rfl⟩
    | some id => simp [responseTo, nothing, ReplayState.sendRecorded, ReplayState.sendFrame, works]
  have differs : ∀ message : McpMessage, message.payload = value →
      message.idJson around.codec ≠ some expected := by
    intro message same own
    obtain ⟨id, found, printed⟩ := Option.map_eq_some_iff.1 own
    exact other id (same ▸ found) printed
  rw [serverFrame, read]
  dsimp only
  split
  case h_1 err failed =>
    split at failed
    · obtain ⟨after, done⟩ := handled (state.tryRecord (state.message around .serverToClient value json.length))
      rw [done] at failed
      cases failed
    · cases failed
  case h_2 after _ => exact if_neg fun own => differs _ rfl own.2

theorem responseFrame_goesOn {around : Bench.BenchSurroundings} {expected : String} {json : List UInt8} {value : Value}
    (read : around.fromSlice json = some value)
    (other : ∀ id, value.get "id" = some id → around.codec.toString id ≠ expected) (outcome : Bench.ResponseOutcome) :
    (Bench.responseFrame around expected json outcome).2 = .goesOn := by
  have differs : Bench.isResponseTo around.codec expected value = false := by
    rw [Bench.isResponseTo]
    cases own : value.get "id" with
    | none => rfl
    | some id => simp [other id own]
  rw [Bench.responseFrame, read]
  dsimp only
  rw [differs]
  rfl

section
variable {codec : Codec} {fromSlice : List UInt8 → Option Value} {frames reads : List (List UInt8)}

def frameIds (codec : Codec) (fromSlice : List UInt8 → Option Value) (frames : List (List UInt8)) : List String :=
  frames.filterMap fun frame => ((fromSlice (lineJson frame)).bind (Value.get "id")).map codec.toString

/-- An id that no frame has is not that of one of them. -/
theorem id_ne_of_unknown {expected : String} (unknown : expected ∉ frameIds codec fromSlice frames) {line : List UInt8}
    (listed : line ∈ frames) {value : Value} (read : fromSlice (lineJson line) = some value) (id : Value)
    (own : value.get "id" = some id) : codec.toString id ≠ expected := by
  rintro rfl
  exact unknown (List.mem_filterMap.2 ⟨line, listed, by rw [read, Option.bind_some, own, Option.map_some]⟩)

theorem frameLines_frames (json : ∀ frame ∈ frames, IsJsonFrame fromSlice frame)
    (cut : reads.flatten = frames.flatten) : frameLines reads.flatten = frames := by
  have lines := (frameLines_unique (fun frame member => (json frame member).1) (Open.nil (· == lf))).1
  rwa [List.append_nil, ← cut] at lines

theorem replayFollows_iff (json : ∀ frame ∈ frames, IsJsonFrame fromSlice frame)
    (cut : reads.flatten = frames.flatten) : ReplayFollows codec fromSlice reads ↔ ReadsFit [] reads := by
  have lines := frameLines_frames json cut
  constructor
  · intro follows
    by_contra unfit
    obtain ⟨expected, unknown⟩ := exists_unknown (frameIds codec fromSlice frames)
    let around : ReplaySurroundings := ⟨codec, fromSlice, fun _ => [], fun _ => true, fun _ => 0⟩
    let wait : ReplayWait := ⟨Table.empty, false, expected, .start, reads⟩
    refine outcomes_ne_answers (replay_serves around wait) ?_ ?_ unfit (follows around [wait] rfl rfl (by simp [wait]))
    · intro line member
      exact (json line (lines ▸ member)).2.1
    · intro line member state
      have listed : line ∈ frames := lines ▸ member
      obtain ⟨value, read⟩ := Option.isSome_iff_exists.1 (json line listed).2.2
      exact serverFrame_goesOn rfl (fun id => rfl) read (id_ne_of_unknown unknown listed read) state
  · rintro fits around waits rfl rfl rfl
    refine outcomes_eq_answers_start (replay_serves around) fits fun line member => ?_
    exact (json line (lines ▸ member)).2.1

theorem benchFollows_iff (json : ∀ frame ∈ frames, IsJsonFrame fromSlice frame)
    (cut : reads.flatten = frames.flatten) : BenchFollows codec fromSlice reads ↔ ReadsFit [] reads := by
  have lines := frameLines_frames json cut
  constructor
  · intro follows
    by_contra unfit
    obtain ⟨expected, unknown⟩ := exists_unknown (frameIds codec fromSlice frames)
    let wait : BenchWait := ⟨expected, reads⟩
    refine outcomes_ne_answers (bench_serves ⟨codec, fromSlice⟩ wait) ?_ ?_ unfit (follows [wait] (by simp [wait]))
    · intro line member
      exact (json line (lines ▸ member)).2.1
    · intro line member state
      have listed : line ∈ frames := lines ▸ member
      obtain ⟨value, read⟩ := Option.isSome_iff_exists.1 (json line listed).2.2
      exact responseFrame_goesOn read (id_ne_of_unknown unknown listed read) state
  · rintro fits waits rfl
    refine outcomes_eq_answers_start (bench_serves _) fits fun line member => ?_
    exact (json line (lines ▸ member)).2.1

/-- Over frames that the relay would forward, replay and bench find what the lines tell, wherever the reads are
cut and whatever is waited for, if and only if no read brings too much. -/
theorem waits_follow_iff (json : ∀ frame ∈ frames, IsJsonFrame fromSlice frame)
    (cut : reads.flatten = frames.flatten) :
    (ReplayFollows codec fromSlice reads ↔ ReadsFit [] reads) ∧
      (BenchFollows codec fromSlice reads ↔ ReadsFit [] reads) :=
  ⟨replayFollows_iff json cut, benchFollows_iff json cut⟩

end

/-! ## A frame of the full length -/

/-- JSON texts, with blanks between their tokens. -/
def fromSpaced (bytes : List UInt8) : Option Value := parseJsonPayload Compact.codec (bytes.filter (· ≠ 0x20))

theorem waits_follow_pair :
    (ReplayFollows Compact.codec fromSpaced [[0x31], [lf, 0x32], [lf]] ↔ ReadsFit [] [[0x31], [lf, 0x32], [lf]]) ∧
      (BenchFollows Compact.codec fromSpaced [[0x31], [lf, 0x32], [lf]] ↔ ReadsFit [] [[0x31], [lf, 0x32], [lf]]) := by
  have first : IsJsonFrame fromSpaced [0x31, lf] :=
    ⟨⟨[0x31], by simp [Open, lf], rfl⟩, by decide +kernel, by decide +kernel⟩
  have second : IsJsonFrame fromSpaced [0x32, lf] :=
    ⟨⟨[0x32], by simp [Open, lf], rfl⟩, by decide +kernel, by decide +kernel⟩
  have cut : [[0x31], [lf, 0x32], [lf]].flatten = [[0x31, lf], [0x32, lf]].flatten := rfl
  exact waits_follow_iff (by simp [first, second]) cut

def blanks (count : Nat) : List UInt8 := List.replicate count 0x20

theorem blanks_append (first second : Nat) : blanks first ++ blanks second = blanks (first + second) :=
  List.replicate_append_replicate

theorem length_blanks (count : Nat) : (blanks count).length = count := List.length_replicate

theorem open_blanks (count : Nat) : Open (· == lf) (blanks count) := by
  intro item member
  rw [List.eq_of_mem_replicate member]
  rfl

/-- A number, and blanks up to the end of the line. -/
def spacedFrame (count : Nat) : List UInt8 := 0x31 :: blanks count ++ [lf]

theorem isJsonFrame_spacedFrame {count : Nat} (capped : count + 2 ≤ maxFrameBytes) :
    IsJsonFrame fromSpaced (spacedFrame count) := by
  have isOpen : Open (· == lf) (0x31 :: blanks count) := List.forall_mem_cons.2 ⟨rfl, open_blanks count⟩
  have line : lineJson (spacedFrame count) = 0x31 :: blanks count := by
    rw [lineJson, spacedFrame, List.dropLast_concat, dropTrailingCr, if_neg]
    intro ended
    rcases List.mem_cons.1 (List.mem_of_getLast? ended) with same | member
    · cases same
    · cases List.eq_of_mem_replicate member
  have number : (0x31 :: blanks count).filter (· ≠ 0x20) = [0x31] := by
    simp [blanks]
  refine ⟨⟨_, isOpen, rfl⟩, ⟨?_, ?_, ?_⟩, ?_⟩
  · simp [spacedFrame]
  · simp [spacedFrame, cr]
  · simp only [spacedFrame, List.length_append, List.length_cons, length_blanks, List.length_nil]
    omega
  · rw [line, fromSpaced, number]
    decide +kernel

/-- All of the frame but its end, in full reads. -/
def fullReads : List (List UInt8) := (0x31 :: blanks 4095) :: List.replicate 2046 (blanks 4096) ++ [blanks 4095]

theorem fullReads_flatten : fullReads.flatten = 0x31 :: blanks (maxFrameBytes - 2) := by
  have middle : (List.replicate 2046 (blanks 4096)).flatten = blanks (2046 * 4096) := List.flatten_replicate_replicate
  rw [fullReads, List.flatten_append, List.flatten_cons, middle, List.flatten_singleton, List.cons_append,
    List.cons_append, blanks_append, blanks_append]
  rfl

/-- The read that ends the frame also brings the next one, and neither replay nor bench gets to look at them. -/
theorem full_frame_fails : ¬ ∀ (codec : Codec) (fromSlice : List UInt8 → Option Value) (frames reads : List (List UInt8)),
    (∀ frame ∈ frames, IsJsonFrame fromSlice frame) → reads.flatten = frames.flatten →
      (∀ bytes ∈ reads, bytes ≠ [] ∧ bytes.length ≤ readBytes) →
        ReplayFollows codec fromSlice reads ∧ BenchFollows codec fromSlice reads := by
  intro follows
  have json : ∀ frame ∈ [spacedFrame (maxFrameBytes - 2), [0x32, lf]], IsJsonFrame fromSpaced frame := by
    have second : IsJsonFrame fromSpaced [0x32, lf] :=
      ⟨⟨[0x32], by simp [Open, lf], rfl⟩, by decide +kernel, by decide +kernel⟩
    have first : IsJsonFrame fromSpaced (spacedFrame (maxFrameBytes - 2)) := isJsonFrame_spacedFrame (by decide)
    simp [first, second]
  have cut : (fullReads ++ [[lf, 0x32, lf]]).flatten = [spacedFrame (maxFrameBytes - 2), [0x32, lf]].flatten := by
    rw [List.flatten_append, fullReads_flatten]
    simp [spacedFrame]
  have sized : ∀ bytes ∈ fullReads ++ [[lf, 0x32, lf]], bytes ≠ [] ∧ bytes.length ≤ readBytes := by
    intro bytes member
    simp only [fullReads, List.mem_append, List.mem_cons, List.mem_replicate, List.not_mem_nil, or_false] at member
    rcases member with ((rfl | ⟨-, rfl⟩) | rfl) | rfl
    · simp [length_blanks, readBytes]
    · exact ⟨fun none => by simpa [length_blanks] using congrArg List.length none, by simp [length_blanks, readBytes]⟩
    · exact ⟨fun none => by simpa [length_blanks] using congrArg List.length none, by simp [length_blanks, readBytes]⟩
    · simp [readBytes]
  have fits : ReadsFit (unterminated []) (fullReads ++ [[lf, 0x32, lf]]) :=
    (replayFollows_iff json cut).1 (follows Compact.codec fromSpaced _ _ json cut sized).1
  have begun : unterminated ([] ++ fullReads.flatten) = 0x31 :: blanks (maxFrameBytes - 2) := by
    rw [List.nil_append, fullReads_flatten]
    exact openGroup_of_open (List.forall_mem_cons.2 ⟨rfl, open_blanks _⟩)
  have last := (readsFit_append.1 fits).2.1
  rw [begun, List.length_cons, length_blanks] at last
  exact absurd last (by decide)

end McpTracer.Proxy.Replay
