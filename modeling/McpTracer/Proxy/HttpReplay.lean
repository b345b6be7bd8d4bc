import McpTracer.Model.Plan
import McpTracer.Proxy.ReplayCommand
import McpTracer.Proxy.RequestHeaders
import McpTracer.Proxy.SubscriptionFrames

/-! Replaying a recorded session against a server over HTTP.

The driven messages are posted one after the other. A target that requires more input is answered
with the recorded retry, which is the driven message after. What the target does is given from
outside, one outcome for each post; what replay records of it is left out.
-/

set_option autoImplicit false

namespace McpTracer.Proxy.HttpReplay
open McpTracer.Foundation McpTracer.Json McpTracer.Model McpTracer.Protocol McpTracer.Storage

/-- What is fixed for a run. -/
structure HttpReplaySettings where
  codec : Codec
  fromSlice : List UInt8 → Option Value
  fromUtf8Lossy : List UInt8 → String
  library : HttpLibrary
  extraHeaders : HeaderMap
  sourceMessages : List StoredMessage
  allowTool : List String
  denyTool : List String

def HttpReplaySettings.driven (settings : HttpReplaySettings) : List StoredMessage :=
  allowedMessages settings.sourceMessages settings.allowTool settings.denyTool

/-! ## Responses -/

structure HttpResponse where
  status : Nat
  /-- The status as it is displayed. -/
  statusText : String
  sessionId : Option String
  /-- In lower case. -/
  contentType : Option String
  chunks : List (List UInt8)
  /-- Reading failed after the chunks. -/
  readFails : Bool

inductive HttpOutcome where
  | failed
  | answered (response : HttpResponse)
  /-- The headers may have been read before the time was over. -/
  | timedOut (sessionId : Option String)

def readCapped (cap : Nat) (readFails : Bool) : List (List UInt8) → List UInt8 → Except String (List UInt8 × Bool)
  | [], buf => if readFails then .error "failed to read response body" else .ok (buf, false)
  | chunk :: rest, buf =>
    if cap < buf.length + chunk.length then .ok (buf, true) else readCapped cap readFails rest (buf ++ chunk)

def truncateForError (body : String) : String :=
  if 500 < body.length then String.ofList (body.toList.take 500) ++ "... (truncated)" else body

def captureJsonResponse (settings : HttpReplaySettings) (response : HttpResponse) :
    Except String (Option InputRequired) :=
  match readCapped maxFrameBytes response.readFails response.chunks [] with
  | .error _ => .error "failed to read JSON response body"
  | .ok (_, true) => .ok none
  | .ok (bytes, false) => if bytes.isEmpty then .ok none else inputRequiredFromBytes settings.fromSlice bytes

def collectInputRequired (settings : HttpReplaySettings) (observed : Option InputRequired) (event : SseEvent) :
    Except String (Option InputRequired) :=
  match event with
  | .json bytes => do
    let next ← inputRequiredFromBytes settings.fromSlice bytes
    ensure (next.isNone || observed.isNone) "target response contains more than one input_required result"
    return next.or observed
  | _ => .ok observed

def captureSseResponse (settings : HttpReplaySettings) (response : HttpResponse) :
    Except String (Option InputRequired) := do
  let decoded := feed SseDecoder.push .default response.chunks
  let observed ← decoded.2.foldlM (collectInputRequired settings) none
  ensure (!response.readFails) "failed to read SSE response body"
  decoded.1.finish.2.foldlM (collectInputRequired settings) observed

def unsupportedEnvelope (contentType : String) (rpcId : Option String) : String :=
  let envelope := if contentType = "" then "<none>" else contentType
  s!"server returned an unsupported response envelope '{envelope}' for request id={Replay.debugText rpcId}; MCP " ++
    "Streamable HTTP requires application/json or text/event-stream"

def isSuccess (status : Nat) : Bool := 200 ≤ status && status < 300

def handleResponse (settings : HttpReplaySettings) (isRequest : Bool) (rpcId : Option String)
    (response : HttpResponse) : Except String (Option InputRequired) :=
  let contentType := response.contentType.getD ""
  if !isSuccess response.status then
    let body := match readCapped maxFrameBytes response.readFails response.chunks [] with
      | .ok (bytes, _) => settings.fromUtf8Lossy bytes
      | .error _ => ""
    .error s!"target rejected replayed message with status {response.statusText}: {truncateForError body}"
  else if "text/event-stream".toList.isPrefixOf contentType.toList then captureSseResponse settings response
  else if "application/json".toList.isPrefixOf contentType.toList then captureJsonResponse settings response
  else if !isRequest || response.status = 202 then .ok none
  else .error (unsupportedEnvelope contentType rpcId)

namespace HttpOutcome

/-- The session id that the target assigns. -/
def sessionId : HttpOutcome → Option String
  | .failed => none
  | .answered response => response.sessionId
  | .timedOut sessionId => sessionId

/-- The demand for input that the target makes in answer to a body; a timeout is no answer. -/
def inputRequired (settings : HttpReplaySettings) (body : Value) : HttpOutcome → Except String (Option InputRequired)
  | .failed => .error "HTTP replay request failed"
  | .answered response =>
    handleResponse settings (body.get "id").isSome ((body.get "id").map settings.codec.toString) response
  | .timedOut _ => .ok none

end HttpOutcome

/-- What the target and its subscription streams do at a step of the run. -/
structure TargetOutcome where
  response : HttpOutcome
  /-- Whether a subscription that is started here is acknowledged as recorded. -/
  listening : Except String Unit
  /-- What is found of the active subscriptions after a driven message. -/
  checked : Except String Unit
  /-- What is found of them at the end. -/
  waited : Except String Unit

/-! ## The run -/

structure HttpPost where
  body : Value
  headers : HeaderMap

/-- A driven request with the retries of it so far. -/
structure MrtrChain where
  firstSeq : Nat
  sourceSeq : Nat
  sourceRequest : Value
  replayRequest : Value
  rounds : Nat

structure Drive where
  drivenIndex : Nat
  replayRetryId : Nat
  subscriptionIds : List Value
  establishedSessionId : Option String
  chain : Option MrtrChain
  posts : List HttpPost
  result : Option (Except String Unit)

def invalidJson (seq : Nat) : String := s!"source message seq {seq} is not valid JSON"

def replayId (n : Nat) : Value := .string s!"mcptracer-replay-mrtr-{n}"

/-- A driven request that begins a chain. -/
def MrtrChain.begin (message : StoredMessage) (request : Value) : MrtrChain where
  firstSeq := message.seq
  sourceSeq := message.seq
  sourceRequest := request
  replayRequest := request
  rounds := 0

/-- The headers of the next request of a chain. -/
def MrtrChain.headers (settings : HttpReplaySettings) (establishedSessionId : Option String) (chain : MrtrChain) :
    Except String HeaderMap :=
  match modernToolName chain.replayRequest with
  | .error err => .error err
  | .ok none =>
    buildRequestHeaders settings.library settings.extraHeaders establishedSessionId chain.replayRequest []
  | .ok (some toolName) =>
    match toolHeaderBindingsAt settings.library settings.codec settings.sourceMessages chain.sourceSeq toolName with
    | .error err => .error err
    | .ok toolHeaders =>
      buildRequestHeaders settings.library settings.extraHeaders establishedSessionId chain.replayRequest toolHeaders

namespace Drive

def start : Drive where
  drivenIndex := 0
  replayRetryId := 1
  subscriptionIds := []
  establishedSessionId := none
  chain := none
  posts := []
  result := none

def finish (drive : Drive) (result : Except String Unit) : Drive := { drive with result := some result }

def fail (drive : Drive) (err : String) : Drive := drive.finish (.error err)

def post (drive : Drive) (body : Value) (headers : HeaderMap) : Drive :=
  { drive with posts := drive.posts ++ [⟨body, headers⟩] }

/-- A driven message is done, with its retries. -/
def advance (drive : Drive) (checked : Except String Unit) : Drive :=
  let next := { drive with drivenIndex := drive.drivenIndex + 1, chain := none }
  match checked with
  | .ok () => next
  | .error err => next.fail err

/-- The target requires input, and the next driven message has to be the recorded retry. -/
def retry (settings : HttpReplaySettings) (drive : Drive) (chain : MrtrChain) (inputRequired : InputRequired) : Drive :=
  if !isMrtrCapableRequest chain.replayRequest then
    drive.fail (s!"target returned resultType=input_required for source seq {chain.sourceSeq}; only modern " ++
      "tools/call, prompts/get, and resources/read support MRTR replay")
  else if maxMrtrRounds < chain.rounds + 1 then
    drive.fail (s!"target requested more than {maxMrtrRounds} multi-round-trip retries for source seq " ++
      s!"{chain.firstSeq}")
  else
    match settings.driven[drive.drivenIndex + 1]? with
    | none => drive.fail (s!"target returned resultType=input_required for source seq {chain.sourceSeq}, but the " ++
        "recording has no following retry request")
    | some retryMessage =>
      match settings.codec.fromStr retryMessage.payload with
      | none => drive.fail (invalidJson retryMessage.seq)
      | some recordedRetry =>
        match buildMrtrRetryRequest chain.sourceRequest recordedRetry inputRequired (replayId drive.replayRetryId) with
        | .error err => drive.fail err
        | .ok replayRequest =>
          { drive with
            drivenIndex := drive.drivenIndex + 1
            replayRetryId := drive.replayRetryId + 1
            chain := some {
              firstSeq := chain.firstSeq
              sourceSeq := retryMessage.seq
              sourceRequest := recordedRetry
              replayRequest := replayRequest
              rounds := chain.rounds + 1 } }

/-- One round of a chain: the request is posted, and the answer ends the chain or asks for a retry. -/
def round (settings : HttpReplaySettings) (drive : Drive) (chain : MrtrChain) (outcome : TargetOutcome) : Drive :=
  match chain.headers settings drive.establishedSessionId with
  | .error err => drive.fail err
  | .ok headers =>
    let sent := drive.post chain.replayRequest headers
    let sent := { sent with establishedSessionId := drive.establishedSessionId.or outcome.response.sessionId }
    match outcome.response.inputRequired settings chain.replayRequest with
    | .error err => sent.fail err
    | .ok none => sent.advance outcome.checked
    | .ok (some inputRequired) => sent.retry settings chain inputRequired

def listen (settings : HttpReplaySettings) (drive : Drive) (message : StoredMessage) (request : Value)
    (outcome : TargetOutcome) : Drive :=
  match subscriptionExpectation settings.codec settings.sourceMessages message.seq request with
  | .error err => drive.fail err
  | .ok expectation =>
    if drive.subscriptionIds.any fun id => id.beq expectation.subscriptionId then
      drive.fail s!"source seq {message.seq} reuses an active subscriptions/listen JSON-RPC id"
    else
      match buildRequestHeaders settings.library settings.extraHeaders none request [] with
      | .error err => drive.fail err
      | .ok headers =>
        let sent := drive.post request headers
        match outcome.listening with
        | .error err => sent.fail err
        | .ok () =>
          { sent with subscriptionIds := drive.subscriptionIds ++ [expectation.subscriptionId] }.advance outcome.checked

/-- The run up to the next post and the outcome of it, or to its end. -/
def step (settings : HttpReplaySettings) (drive : Drive) (outcome : TargetOutcome) : Drive :=
  match drive.result, drive.chain with
  | some _, _ => drive
  | none, some chain => drive.round settings chain outcome
  | none, none =>
    match settings.driven[drive.drivenIndex]? with
    | none => drive.finish outcome.waited
    | some message =>
      match settings.codec.fromStr message.payload with
      | none => drive.fail (invalidJson message.seq)
      | some request =>
        if isModernSubscriptionListen request then drive.listen settings message request outcome
        else drive.round settings (MrtrChain.begin message request) outcome

def run (settings : HttpReplaySettings) (outcomes : List TargetOutcome) : Drive :=
  outcomes.foldl (step settings) start

end Drive

end McpTracer.Proxy.HttpReplay
