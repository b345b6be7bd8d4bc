import McpTracer.Json.Members
import McpTracer.Model.Replay
import McpTracer.Protocol.Stdio

/-! The loop of the mock server: client frames in, recorded responses out.

The loop reads its input in chunks, takes the complete frames off a buffer and answers those
that are requests. What it writes depends on the requests of the stream and not on where the
reads were cut.
-/

set_option autoImplicit false

namespace McpTracer.Proxy
open McpTracer.Foundation McpTracer.Json McpTracer.Protocol McpTracer.Model McpTracer.Storage

/-- What the loop keeps besides its buffer. -/
structure Serving where
  mock : MockSession
  stdout : List UInt8

def responseWithId (response id : Value) : Except String Value :=
  if response.isObject then .ok (response.insert "id" id) else .error "stored response is not a JSON object"

def unmatchedResponse (id : Value) (method : String) : Value :=
  .object [
    ("error", .object [
      ("code", .number (.negInt 32600)),
      ("message", .string s!"No recorded response for method: {method}")]),
    ("id", id),
    ("jsonrpc", .string "2.0")]

namespace Serving

def sendFrame (codec : Codec) (serving : Serving) (value : Value) : Serving :=
  { serving with stdout := serving.stdout ++ encodeStdioFrame codec value }

def handleRequest (codec : Codec) (strict : Bool) (serving : Serving) (request : Value) :
    Serving × Except String Unit :=
  match methodOf request, request.get "id" with
  | none, _ => (serving, if strict then .error "received client frame without a JSON-RPC method" else .ok ())
  -- A notification never receives a response.
  | some _, none => (serving, .ok ())
  | some method, some id =>
    let matched := serving.mock.matchRequest codec request
    let serving := { serving with mock := matched.1 }
    match matched.2 with
    | some selected =>
      match responseWithId selected.response id with
      | .ok response => (serving.sendFrame codec response, .ok ())
      | .error err => (serving, .error err)
    | none =>
      (serving.sendFrame codec (unmatchedResponse id method),
        if strict then .error s!"no recorded response matched client request method={method}; --strict is set"
        else .ok ())

def handleFrame (codec : Codec) (strict : Bool) (serving : Serving) (frame : Protocol.StdioFrame) :
    Serving × Except String Unit :=
  match parseJsonPayload codec frame.jsonBytes with
  | some request => serving.handleRequest codec strict request
  | none => (serving, if strict then .error "received malformed client JSON-RPC frame" else .ok ())

/-- Handle the complete frames of the buffer; what is left of it is returned if the loop goes on. -/
def drainFrames (codec : Codec) (strict : Bool) (serving : Serving) (buf : List UInt8) :
    Serving × Except String (List UInt8) :=
  match _parsed : parseStdioFrame buf with
  | .error err => (serving, .error err)
  | .ok none => (serving, .ok buf)
  | .ok (some frame) =>
    match serving.handleFrame codec strict frame with
    | (serving, .error err) => (serving, .error err)
    | (serving, .ok ()) => drainFrames codec strict serving (buf.drop frame.consumed)
termination_by buf.length
decreasing_by
  have progress := parseStdioFrame_consumed ‹_›
  rw [List.length_drop]
  omega

/-- The reads until the input ends; an empty read says that it has ended. -/
def readLoop (codec : Codec) (strict : Bool) : Serving → List UInt8 → List (List UInt8) → Serving × Except String Unit
  | serving, _, [] => (serving, .ok ())
  | serving, buf, read :: rest =>
    if read = [] then (serving, .ok ())
    else
      match serving.drainFrames codec strict (buf ++ read) with
      | (serving, .error err) => (serving, .error err)
      | (serving, .ok buf) =>
        if maxFrameBytes < buf.length then
          (serving, .error s!"client frame exceeded {maxFrameBytes} bytes without a newline")
        else readLoop codec strict serving buf rest

end Serving

inductive ServeFailure where
  /-- The response inventory could not be built from the session. -/
  | inventory (failure : MockSessionFailure)
  | refused (err : String)
  deriving DecidableEq

/-- Serve the messages that the store holds of a session. -/
def serve (codec : Codec) (sessionId : String) (messages : List StoredMessage) (strategy : MatchStrategy)
    (strict : Bool) (reads : List (List UInt8)) : Except ServeFailure (Serving × Except String Unit) := do
  let mock ← (MockSession.fromMessagesWithStrategy codec messages strategy).mapError .inventory
  ensure (!mock.isEmpty) (.refused s!"session {sessionId} has no answered client-originated requests to serve")
  return Serving.readLoop codec strict ⟨mock, []⟩ [] reads

/-! ## Requests and their answers -/

/-- A JSON object with a string method and an id. -/
def isClientRequest (payload : Value) : Bool :=
  payload.isObject && (methodOf payload).isSome && (payload.get "id").isSome

/-- The payload of a line, without the bytes that end it. -/
def linePayload (line : List UInt8) : List UInt8 := dropTrailingCr line.dropLast

def requestOf (codec : Codec) (line : List UInt8) : Option Value :=
  (parseJsonPayload codec (linePayload line)).filter isClientRequest

/-- The lines up to the first empty frame. -/
def servedLines (stream : List UInt8) : List (List UInt8) :=
  (frameLines stream).takeWhile fun line => linePayload line ≠ []

def clientRequests (codec : Codec) (stream : List UInt8) : List Value :=
  (servedLines stream).filterMap (requestOf codec)

/-- The frame that answers a request for which the inventory selects this. -/
def answerOf (request : Value) (selected : Option MockResponse) : Value :=
  let id := (request.get "id").getD .null
  match selected with
  | some selected => selected.response.insert "id" id
  | none => unmatchedResponse id ((methodOf request).getD "")

/-- The answer has the id of the request; for the rest it is what was recorded, or an error. -/
def Answers (request : Value) (selected : Option MockResponse) (answer : Value) : Prop :=
  answer.isObject = true ∧ answer.get "id" = request.get "id" ∧
    match selected with
    | some selected => answer.remove "id" = selected.response.remove "id"
    | none => answer.get "result" = none ∧
        (answer.getPath ["error", "code"]).bind Value.asI64 = some (-32601)

/-! ## What the mock selects -/

/-- Every recorded response is an object, so it can be given an id. -/
def Answerable (mock : MockSession) : Prop := ∀ recorded ∈ mock.exchanges, recorded.response.isObject = true

section
variable {codec : Codec} {mock : MockSession}

theorem Answerable.matched (answerable : Answerable mock) (request : Value) :
    Answerable (mock.matchRequest codec request).1 := by
  have kept : (mock.matchRequest codec request).1.exchanges.map RecordedExchange.response =
      mock.exchanges.map RecordedExchange.response := MockSession.matchRequest_kept (fun _ => rfl) _ _ _
  intro recorded member
  have response : recorded.response ∈ mock.exchanges.map RecordedExchange.response := kept ▸ List.mem_map_of_mem member
  obtain ⟨entry, inside, same⟩ := List.mem_map.1 response
  exact same ▸ answerable entry inside

theorem Answerable.after (answerable : Answerable mock) (requests : List Value) :
    Answerable (mock.after codec requests) := by
  induction requests generalizing mock with
  | nil => exact answerable
  | cons request rest ih => exact ih (answerable.matched request)

theorem Answerable.selected (answerable : Answerable mock) {request : Value} {selected : MockResponse}
    (matched : (mock.matchRequest codec request).2 = some selected) : selected.response.isObject = true := by
  obtain ⟨entry, member, rfl⟩ := MockSession.matchRequest_selects matched
  exact answerable entry member

end

/-! ## One frame -/

namespace Serving

/-- A request has been answered. -/
def answer (codec : Codec) (serving : Serving) (request : Value) : Serving :=
  let matched := serving.mock.matchRequest codec request
  { mock := matched.1, stdout := serving.stdout ++ encodeStdioFrame codec (answerOf request matched.2) }

theorem handleRequest_request (codec : Codec) {serving : Serving} (answerable : Answerable serving.mock) {request : Value}
    (asks : isClientRequest request = true) :
    serving.handleRequest codec false request = (serving.answer codec request, .ok ()) := by
  simp only [isClientRequest, Bool.and_eq_true, Option.isSome_iff_exists] at asks
  obtain ⟨⟨-, method, named⟩, id, numbered⟩ := asks
  rw [handleRequest, named, numbered]
  dsimp only
  cases matched : (serving.mock.matchRequest codec request).2 with
  | none => simp [Serving.answer, sendFrame, answerOf, matched, named, numbered]
  | some selected =>
    have isObject : selected.response.isObject = true := answerable.selected matched
    simp [Serving.answer, sendFrame, answerOf, responseWithId, matched, numbered, isObject]

theorem handleRequest_other (codec : Codec) (serving : Serving) {payload : Value}
    (other : isClientRequest payload = false) : serving.handleRequest codec false payload = (serving, .ok ()) := by
  unfold handleRequest
  split
  case h_1 => rfl
  case h_2 => rfl
  case h_3 method id named numbered =>
    simp [isClientRequest, named, numbered, Value.isObject_of_get numbered] at other

/-- What a line does to the loop. -/
def receive (codec : Codec) (serving : Serving) (line : List UInt8) : Serving :=
  (requestOf codec line).elim serving (serving.answer codec)

theorem handleFrame_eq (codec : Codec) {serving : Serving} (answerable : Answerable serving.mock) (frame : Protocol.StdioFrame) :
    serving.handleFrame codec false frame = (serving.receive codec frame.wireBytes, .ok ()) := by
  rw [handleFrame, receive, requestOf, linePayload, ← frame.payload]
  cases parsed : parseJsonPayload codec frame.jsonBytes with
  | none => rfl
  | some payload =>
    cases asks : isClientRequest payload with
    | true => simp [Option.filter, handleRequest_request codec answerable asks, asks]
    | false => simp [Option.filter, handleRequest_other codec serving asks, asks]

theorem answerable_receive {codec : Codec} {serving : Serving} (answerable : Answerable serving.mock) (line : List UInt8) :
    Answerable (serving.receive codec line).mock := by
  rw [receive]
  cases requestOf codec line with
  | none => exact answerable
  | some request => exact answerable.matched request

theorem answerable_receive_all {codec : Codec} {serving : Serving} (answerable : Answerable serving.mock)
    (lines : List (List UInt8)) : Answerable (lines.foldl (receive codec) serving).mock := by
  induction lines generalizing serving with
  | nil => exact answerable
  | cons line rest ih => exact ih (answerable_receive answerable line)

/-! ## Draining the buffer -/

section
variable {codec : Codec} {strict : Bool} {serving : Serving} {buf : List UInt8}

theorem drainFrames_error {err : String} (parsed : parseStdioFrame buf = .error err) :
    serving.drainFrames codec strict buf = (serving, .error err) := by
  rw [drainFrames]
  split <;> simp_all

theorem drainFrames_none (parsed : parseStdioFrame buf = .ok none) :
    serving.drainFrames codec strict buf = (serving, .ok buf) := by
  rw [drainFrames]
  split <;> simp_all

theorem drainFrames_frame {frame : Protocol.StdioFrame} (parsed : parseStdioFrame buf = .ok (some frame)) {next : Serving}
    (handled : serving.handleFrame codec strict frame = (next, .ok ())) :
    serving.drainFrames codec strict buf = next.drainFrames codec strict (buf.drop frame.consumed) := by
  rw [drainFrames]
  split <;> simp_all

end

theorem servedLines_of_open {stream : List UInt8} (isOpen : Open (· == lf) stream) : servedLines stream = [] := by
  rw [servedLines, frameLines_of_open isOpen, List.takeWhile_nil]

theorem linePayload_line (body : List UInt8) : linePayload (body ++ [lf]) = dropTrailingCr body := by
  rw [linePayload, List.dropLast_concat]

/-- How draining the buffer changes the loop. -/
structure Drained (codec : Codec) (serving : Serving) (buf : List UInt8)
    (after : Serving × Except String (List UInt8)) : Prop where
  served : after.1 = (servedLines buf).foldl (receive codec) serving
  goesOn : (∀ line ∈ frameLines buf, linePayload line ≠ []) → after.2 = .ok (unterminated buf)
  stops : ¬ (∀ line ∈ frameLines buf, linePayload line ≠ []) → ∃ err, after.2 = .error err

theorem drainFrames_drained (codec : Codec) {serving : Serving} (answerable : Answerable serving.mock) (buf : List UInt8) :
    Drained codec serving buf (serving.drainFrames codec false buf) := by
  induction buf using induction_on_groups (· == lf) generalizing serving with
  | unfinished items isOpen =>
    rw [drainFrames_none (parseStdioFrame_of_open isOpen)]
    refine ⟨by rw [servedLines_of_open isOpen, List.foldl_nil], fun _ => ?_, fun empty => absurd ?_ empty⟩
    · rw [unterminated, openGroup_of_open isOpen]
    · rw [frameLines_of_open isOpen]
      simp
  | group body closing rest isOpen closes ih =>
    obtain rfl : closing = lf := by simpa using closes
    rcases parseStdioFrame_line isOpen rest with ⟨parsed, empty⟩ | ⟨frame, parsed, wire, filled⟩
    · rw [drainFrames_error parsed]
      have bare : linePayload (body ++ [lf]) = [] := by rwa [linePayload_line, dropTrailingCr_eq_nil_iff]
      refine ⟨?_, fun all => absurd bare (all _ ?_), fun _ => ⟨_, rfl⟩⟩
      · simp [servedLines, frameLines_line isOpen, bare]
      · rw [frameLines_line isOpen]
        exact List.mem_cons_self
    · have payload : linePayload (body ++ [lf]) ≠ [] := by
        rw [linePayload_line, Ne, dropTrailingCr_eq_nil_iff, not_or]
        exact filled
      have left : (body ++ lf :: rest).drop frame.consumed = rest := by
        rw [frame.counted, wire, List.append_cons body lf rest, List.drop_left]
      rw [drainFrames_frame parsed (handleFrame_eq codec answerable frame), left, wire]
      obtain ⟨served, goesOn, stops⟩ := ih (answerable_receive answerable (body ++ [lf]))
      refine ⟨?_, ?_, ?_⟩
      · rw [served, servedLines, servedLines, frameLines_line isOpen, List.takeWhile_cons_of_pos (by simpa using payload),
          List.foldl_cons]
      · rw [frameLines_line isOpen, List.forall_mem_cons, unterminated_line]
        exact fun all => goesOn all.2
      · rw [frameLines_line isOpen, List.forall_mem_cons]
        exact fun empty => stops fun all => empty ⟨payload, all⟩

/-! ## The read loop -/

/-- What the loop does with a stream does not depend on the reads that it came in. -/
theorem readLoop_eq (codec : Codec) {serving : Serving} (answerable : Answerable serving.mock) {buf : List UInt8}
    (isOpen : Open (· == lf) buf) {reads : List (List UInt8)} (filled : ∀ read ∈ reads, read ≠ [])
    (short : ∀ line ∈ frameLines (buf ++ reads.flatten), line.length ≤ maxFrameBytes) :
    (serving.readLoop codec false buf reads).1 =
      (servedLines (buf ++ reads.flatten)).foldl (receive codec) serving := by
  induction reads generalizing serving buf with
  | nil => rw [readLoop, List.flatten_nil, List.append_nil, servedLines_of_open isOpen, List.foldl_nil]
  | cons read rest ih =>
    obtain ⟨some, others⟩ := List.forall_mem_cons.1 filled
    rw [List.flatten_cons, ← List.append_assoc] at short ⊢
    obtain ⟨served, goesOn, stops⟩ := drainFrames_drained codec answerable (buf ++ read)
    rw [readLoop, if_neg some]
    by_cases all : ∀ line ∈ frameLines (buf ++ read), linePayload line ≠ []
    case pos =>
      have lines : servedLines (buf ++ read ++ rest.flatten) =
          frameLines (buf ++ read) ++ servedLines (unterminated (buf ++ read) ++ rest.flatten) :=
        takeWhile_frameLines_append (fun line member => decide_eq_true (all line member)) rest.flatten
      have front : servedLines (buf ++ read) = frameLines (buf ++ read) :=
        List.takeWhile_eq_self_iff.2 fun line member => decide_eq_true (all line member)
      have left := open_unterminated (buf ++ read)
      rw [front] at served
      have drained : serving.drainFrames codec false (buf ++ read) =
          ((frameLines (buf ++ read)).foldl (receive codec) serving, .ok (unterminated (buf ++ read))) :=
        Prod.ext served (goesOn all)
      rw [drained, lines, List.foldl_append]
      dsimp only
      rw [frameLines_append] at short
      split_ifs with long
      · -- no line of the stream is longer than the limit, so none is left to come
        rcases frameLines_begun left rest.flatten with ⟨none, -⟩ | ⟨line, more, next, longer⟩
        · rw [servedLines, none, List.takeWhile_nil, List.foldl_nil]
        · have capped := short line (List.mem_append_right _ (next ▸ List.mem_cons_self))
          omega
      · exact ih (answerable_receive_all answerable _) left others fun line member => short line (List.mem_append_right _ member)
    case neg =>
      obtain ⟨err, stopped⟩ := stops all
      obtain ⟨line, member, empty⟩ : ∃ line ∈ frameLines (buf ++ read), linePayload line = [] := by simpa using all
      have lines : servedLines (buf ++ read ++ rest.flatten) = servedLines (buf ++ read) :=
        takeWhile_frameLines_stopped member (decide_eq_false (not_not.2 empty)) rest.flatten
      have drained : serving.drainFrames codec false (buf ++ read) =
          ((servedLines (buf ++ read)).foldl (receive codec) serving, .error err) := Prod.ext served stopped
      rw [drained, lines]

end Serving

/-! ## The answers -/

def answersOf (codec : Codec) (mock : MockSession) (requests : List Value) : List Value :=
  List.zipWith answerOf requests (mock.replay codec requests)

theorem answersOf_getElem? (codec : Codec) (mock : MockSession) (requests : List Value) (k : Nat) :
    (answersOf codec mock requests)[k]? = requests[k]?.map fun request =>
      answerOf request ((mock.after codec (requests.take k)).matchRequest codec request).2 := by
  rw [answersOf, List.getElem?_zipWith, MockSession.replay_getElem?]
  cases requests[k]? <;> rfl

theorem foldl_answer (codec : Codec) (serving : Serving) (requests : List Value) :
    requests.foldl (Serving.answer codec) serving =
      { mock := serving.mock.after codec requests
        stdout := serving.stdout ++ (answersOf codec serving.mock requests).flatMap (encodeStdioFrame codec) } := by
  induction requests generalizing serving with
  | nil => simp [answersOf, MockSession.after]
  | cons request rest ih =>
    rw [List.foldl_cons, ih]
    simp [answersOf, MockSession.replay_cons, MockSession.after, Serving.answer]

/-- The lines of a stream act through the requests among them. -/
theorem foldl_receive (codec : Codec) (serving : Serving) (stream : List UInt8) :
    (servedLines stream).foldl (Serving.receive codec) serving =
      (clientRequests codec stream).foldl (Serving.answer codec) serving := by
  rw [clientRequests, List.foldl_filterMap]
  congr 1
  funext serving line
  rw [Serving.receive]
  cases requestOf codec line <;> rfl

theorem isClientRequest_of_mem {codec : Codec} {stream : List UInt8} {request : Value}
    (member : request ∈ clientRequests codec stream) : isClientRequest request = true := by
  obtain ⟨line, -, parsed⟩ := List.mem_filterMap.1 member
  exact (Option.filter_eq_some_iff.1 parsed).2

theorem answers_answerOf {request : Value} (asks : isClientRequest request = true) {selected : Option MockResponse}
    (isObject : ∀ recorded, selected = some recorded → recorded.response.isObject = true) :
    Answers request selected (answerOf request selected) := by
  simp only [isClientRequest, Bool.and_eq_true, Option.isSome_iff_exists] at asks
  obtain ⟨-, id, numbered⟩ := asks
  cases selected with
  | none => exact ⟨rfl, by rw [answerOf, numbered]; rfl, rfl, rfl⟩
  | some recorded =>
    have shape := isObject recorded rfl
    refine ⟨?_, ?_, ?_⟩
    · simpa [answerOf] using shape
    · simp [answerOf, Value.get_insert _ _ _ shape, numbered]
    · simp [answerOf]

/-! ## The inventory of a stored session -/

/-- What a store holds of a session: one message for a number, and responses are objects. -/
structure StoredSession (codec : Codec) (messages : List StoredMessage) : Prop where
  distinct : (messages.map StoredMessage.seq).Nodup
  responses : ∀ message ∈ messages, message.messageKind = "response" →
    ∀ payload, codec.fromStr message.payload = some payload → payload.isObject = true

/-- A message is taken for a response because it has an id, which only an object can have. -/
theorem isObject_of_response {message : McpMessage} (response : message.kind.asDbStr = "response") :
    message.payload.isObject = true := by
  unfold McpMessage.kind McpMessage.isResponse McpMessage.id at response
  split_ifs at response with answers
  · obtain ⟨id, numbered⟩ := Option.isSome_iff_exists.1 (Bool.and_eq_true_iff.1 answers).1
    exact Value.isObject_of_get numbered
  · simp [MessageKind.asDbStr] at response
  · simp [MessageKind.asDbStr] at response

/-- What the recorder stores, as far as its payloads are read back. -/
theorem storedSession_ofMessage {codec : Codec} {recorded : List McpMessage}
    (distinct : (recorded.map McpMessage.seq).Nodup)
    (readBack : ∀ message ∈ recorded, codec.fromStr (codec.toString message.payload) = some message.payload) :
    StoredSession codec (recorded.map (StoredMessage.ofMessage codec)) where
  distinct := by
    rw [List.map_map]
    exact distinct
  responses := by
    intro stored member response payload decoded
    obtain ⟨message, inside, rfl⟩ := List.mem_map.1 member
    obtain rfl : message.payload = payload := Option.some.inj ((readBack message inside).symm.trans decoded)
    exact isObject_of_response response

theorem answerable_of_built {codec : Codec} {messages : List StoredMessage} (stored : StoredSession codec messages)
    {strategy : MatchStrategy} {mock : MockSession}
    (built : MockSession.fromMessagesWithStrategy codec messages strategy = .ok mock) :
    Answerable mock := by
  intro entry member
  have described := (fromMessagesWithStrategy_describes stored.distinct built).2
  obtain ⟨exchange, listed, describes⟩ := exists_of_forall₂_right described member
  obtain ⟨message, inside, same, decoded⟩ := describes.response
  -- The number is that of a response, and no other message has it.
  have numbered : entry.sourceResponseSeq ∈ seqsOf "response" messages :=
    (correlate_responses codec messages).mem_iff.1
      (List.mem_filterMap.2 ⟨exchange, (List.mem_filter.1 listed).1, describes.responseSeq⟩)
  obtain ⟨response, known, kind, number⟩ := mem_seqsOf_iff.1 numbered
  obtain rfl : response = message := List.inj_on_of_nodup_map stored.distinct known inside (number.trans same.symm)
  exact stored.responses response inside kind.2 entry.response decoded

/-! ## The whole run -/

/-- Every request of the stream up to the first empty frame is answered once, in order: under its own id with
what the mock selects for it after the requests before it, or with an error. Nothing else is written, and
nothing else uses a recorded response up. -/
theorem serve_answers_every_request (codec : Codec) {messages : List StoredMessage}
    (stored : StoredSession codec messages) {strategy : MatchStrategy} {mock : MockSession}
    (built : MockSession.fromMessagesWithStrategy codec messages strategy = .ok mock) (answered : mock.isEmpty = false)
    (sessionId : String) {reads : List (List UInt8)} (filled : ∀ read ∈ reads, read ≠ [])
    (short : ∀ line ∈ frameLines reads.flatten, line.length ≤ maxFrameBytes) :
    let requests := clientRequests codec reads.flatten
    ∃ (served : Serving) (outcome : Except String Unit) (answers : List Value),
      serve codec sessionId messages strategy false reads = .ok (served, outcome) ∧
      served.stdout = answers.flatMap (encodeStdioFrame codec) ∧ served.mock = mock.after codec requests ∧
      answers.length = requests.length ∧
      ∀ k request answer, requests[k]? = some request → answers[k]? = some answer →
        Answers request ((mock.after codec (requests.take k)).matchRequest codec request).2 answer := by
  intro requests
  have answerable := answerable_of_built stored built
  have started : serve codec sessionId messages strategy false reads =
      .ok (Serving.readLoop codec false ⟨mock, []⟩ [] reads) := by
    simp [serve, built, Except.mapError, ensure, answered]
  have run : (Serving.readLoop codec false ⟨mock, []⟩ [] reads).1 =
      ⟨mock.after codec requests, (answersOf codec mock requests).flatMap (encodeStdioFrame codec)⟩ := by
    rw [Serving.readLoop_eq codec answerable (.nil _) filled short, List.nil_append, foldl_receive, foldl_answer,
      List.nil_append]
  refine ⟨_, _, answersOf codec mock requests, started, ?_, ?_, ?_, ?_⟩
  · rw [run]
  · rw [run]
  · rw [answersOf, List.length_zipWith, MockSession.replay_length, Nat.min_self]
  · intro k request answer asked given
    have asks : isClientRequest request = true := isClientRequest_of_mem (List.mem_of_getElem? asked)
    rw [answersOf_getElem?, asked, Option.map_some, Option.some.injEq] at given
    subst given
    exact answers_answerOf asks fun selected matched => (answerable.after _).selected matched

/-- A malformed frame and then a call, which comes in two reads. -/
def brokenReads : List (List UInt8) :=
  [[110, 10, 123], (encodeStdioFrame Compact.codec echoCall).tail]

theorem serve_answers_every_request_echoed :
    let requests := clientRequests Compact.codec brokenReads.flatten
    ∃ (served : Serving) (outcome : Except String Unit) (answers : List Value),
      serve Compact.codec "echo" (echoed []) .methodAndParams false brokenReads = .ok (served, outcome) ∧
      served.stdout = answers.flatMap (encodeStdioFrame Compact.codec) ∧
      served.mock = echoMock.after Compact.codec requests ∧ answers.length = requests.length ∧
      ∀ k request answer, requests[k]? = some request → answers[k]? = some answer →
        Answers request ((echoMock.after Compact.codec (requests.take k)).matchRequest Compact.codec request).2 answer :=
  serve_answers_every_request Compact.codec
    ⟨by decide, by decide +kernel⟩ (by decide +kernel) rfl "echo" (by decide +kernel) (by decide +kernel)

end McpTracer.Proxy
