import McpTracer.Foundation.Outcome
import McpTracer.Model.Correlate
import McpTracer.Model.Plan
import McpTracer.Model.Serve
import McpTracer.Protocol.Stdio
import McpTracer.Proxy.StorageQueue

/-! Replaying a recorded session against a server over stdio.

The client's messages are written one after the other, each request followed by a wait for its
response. What the server asks meanwhile is answered from the recording. A recorded cancellation is
written right behind its request. What the server does, what a write does and the time are given
from outside.
-/

set_option autoImplicit false

namespace McpTracer.Proxy.Replay
open McpTracer.Foundation McpTracer.Json McpTracer.Model McpTracer.Protocol McpTracer.Storage

structure ReplayArgs where
  sessionId : String
  realtime : Bool
  strictServerRequests : Bool
  allowTool : List String
  denyTool : List String

/-- What a read of the server's output returns before the deadline. -/
inductive ServerRead where
  | data (bytes : List UInt8)
  | closed
  | failed (err : String)

/-- What replay meets: libraries, the server, the pipe to it and the clock. -/
structure ReplaySurroundings where
  codec : Codec
  fromSlice : List UInt8 → Option Value
  /-- The reads of each wait, up to its deadline. -/
  reads : Nat → List ServerRead
  writes : Nat → Bool
  nowNs : Nat → Int

/-! ## What the recording tells -/

/-- The client cancels the request with this number and id. -/
def isCancellationOf (codec : Codec) (requestSeq : Nat) (rpcId : Value) (message : StoredMessage) : Bool :=
  requestSeq < message.seq && message.direction = "c2s" && message.messageKind = "notification" &&
    message.method = some "notifications/cancelled" &&
    (((codec.fromStr message.payload).bind (Value.getPath ["params", "requestId"])).any fun id => id.beq rpcId)

/-- The notification that terminated the request of a cancelled exchange. -/
def cancellationOf (codec : Codec) (messages : List StoredMessage) (exchange : Exchange) :
    Option (Nat × StoredMessage) := do
  guard (exchange.status = .cancelled)
  let requestSeq ← exchange.requestSeq
  let rpcId ← exchange.rpcId.bind codec.fromStr
  let cancellation ← messages.find? (isCancellationOf codec requestSeq rpcId)
  return (requestSeq, cancellation)

/-- The cancellations by the numbers of the requests, which are distinct. -/
def cancellationNotifications (codec : Codec) (messages : List StoredMessage) : List (Nat × StoredMessage) :=
  (correlate codec messages).exchanges.filterMap (cancellationOf codec messages)

/-- What the client answered to the server, by the id. -/
def serverInitiatedResponses (codec : Codec) (source : List StoredMessage) : Table String String :=
  Table.ofList <| (correlate codec source).exchanges.filterMap fun exchange => do
    guard (exchange.origin = .serverToClient)
    let rpcId ← exchange.rpcId
    let responseSeq ← exchange.responseSeq
    let message ← source.find? fun message => message.seq = responseSeq
    return (rpcId, message.payload)

def concurrentReplay (requestSeq : Nat) : String :=
  s!"cannot replay cancellation for request seq {requestSeq} because another client message precedes " ++
    "the cancellation; concurrent request replay is not supported"

/-- The cancellations of driven requests, each of which has to be driven right behind its request. -/
def linkCancellations (driven : List StoredMessage) :
    List (Nat × StoredMessage) → Except String (List (Nat × StoredMessage))
  | [] => .ok []
  | (requestSeq, cancellation) :: rest =>
    match driven.findIdx? fun message => message.seq = requestSeq with
    | none => linkCancellations driven rest
    | some position =>
      if (driven[position + 1]?).map StoredMessage.seq = some cancellation.seq then do
        let others ← linkCancellations driven rest
        return (requestSeq, cancellation) :: others
      else .error (concurrentReplay requestSeq)

/-! ## Writing and reading -/

/-- What is written to the server, and for which recorded message. -/
inductive WrittenFrame where
  | source (message : StoredMessage) (value : Value)
  | answer (value : Value)

def WrittenFrame.sourceSeq : WrittenFrame → Option Nat
  | .source message _ => some message.seq
  | .answer _ => none

structure ReplayState where
  seq : Nat
  waits : Nat
  written : List WrittenFrame
  recorded : List McpMessage

namespace ReplayState

def start : ReplayState where
  seq := 0
  waits := 0
  written := []
  recorded := []

/-- The numbers of the recorded messages that have been written. -/
def sent (state : ReplayState) : List Nat := state.written.filterMap WrittenFrame.sourceSeq

def sendFrame (around : ReplaySurroundings) (state : ReplayState) (frame : WrittenFrame) :
    Except String ReplayState :=
  if around.writes state.written.length then .ok { state with written := state.written ++ [frame] }
  else .error "failed to write to server stdin (server may have exited)"

def message (around : ReplaySurroundings) (state : ReplayState) (direction : Direction) (payload : Value)
    (payloadBytes : Nat) : McpMessage where
  seq := state.seq
  timestampNs := around.nowNs state.seq
  direction := direction
  payload := payload
  payloadBytes := payloadBytes

def tryRecord (state : ReplayState) (message : McpMessage) : ReplayState :=
  { state with
    seq := state.seq + 1
    recorded := state.recorded ++ [message] }

/-- A frame of the client is written, then recorded. -/
def sendRecorded (around : ReplaySurroundings) (state : ReplayState) (frame : WrittenFrame) (value : Value) :
    Except String ReplayState := do
  let state ← state.sendFrame around frame
  return state.tryRecord
    (state.message around .clientToServer value (around.codec.toString value).utf8ByteSize)

end ReplayState

def notSupported (id : Value) : Value := .object [
  ("error", .object [("code", .number (.negInt ⟨32600, by decide⟩)),
    ("message", .string "method not supported by mcptracer replay")]),
  ("id", id), ("jsonrpc", .string "2.0")]

/-- An optional text as the debug format prints it. -/
def debugText : Option String → String
  | none => "None"
  | some text => s!"Some({text.quote})"

/-- What the recorded client answered, or that it did not. -/
def responseTo (around : ReplaySurroundings) (lookaside : Table String String) (strict : Bool) (request id : Value) :
    Except String Value :=
  match lookaside (around.codec.toString id) with
  | some payload => require (around.codec.fromStr payload) "stored source response is not valid JSON"
  | none =>
    if strict then
      .error ("server sent a request the source session never answered " ++
        s!"(method={debugText (methodOf request)}, id={around.codec.toString id}) and " ++
        "--strict-server-requests is set")
    else .ok (notSupported id)

/-- A request of the server is answered, if it has an id. -/
def handleServerRequest (around : ReplaySurroundings) (lookaside : Table String String) (strict : Bool)
    (state : ReplayState) (request : Value) : Except String ReplayState :=
  match request.get "id" with
  | none => .ok state
  | some id => do
    let response ← responseTo around lookaside strict request id
    state.sendRecorded around (.answer response) response

/-- Take the complete frames off the buffer, up to the response with the expected id. -/
def drainServer (around : ReplaySurroundings) (lookaside : Table String String) (strict : Bool) (expected : String)
    (buf : List UInt8) (state : ReplayState) : Except String (List UInt8 × ReplayState × Bool) :=
  match _parsed : parseStdioFrame buf with
  | .error err => .error err
  | .ok none => .ok (buf, state, false)
  | .ok (some frame) =>
    match around.fromSlice frame.jsonBytes with
    | none => .error "frame is not valid JSON"
    | some value =>
      let message := state.message around .serverToClient value frame.jsonBytes.length
      let state := state.tryRecord message
      let handled :=
        if message.kind = .request then handleServerRequest around lookaside strict state value else .ok state
      match handled with
      | .error err => .error err
      | .ok state =>
        if message.kind = .response ∧ message.idJson around.codec = some expected then
          .ok (buf.drop frame.consumed, state, true)
        else drainServer around lookaside strict expected (buf.drop frame.consumed) state
termination_by buf.length
decreasing_by
  have progress := parseStdioFrame_consumed ‹_›
  simp only [List.length_drop]
  omega

/-- Read until the response is there, the deadline passes or the server closes its output. -/
def waitReads (around : ReplaySurroundings) (lookaside : Table String String) (strict : Bool) (expected : String) :
    List ServerRead → List UInt8 → ReplayState → Except String (List UInt8 × ReplayState × Bool)
  | reads, buf, state =>
    match drainServer around lookaside strict expected buf state with
    | .error err => .error err
    | .ok (buf, state, true) => .ok (buf, state, true)
    | .ok (buf, state, false) =>
      match reads with
      | [] => .ok (buf, state, false)
      | .closed :: _ => .ok (buf, state, false)
      | .failed err :: _ => .error ("failed to read server stdout: " ++ err)
      | .data bytes :: rest =>
        if maxFrameBytes < (buf ++ bytes).length then
          .error s!"server frame exceeded {maxFrameBytes} bytes without a newline"
        else waitReads around lookaside strict expected rest (buf ++ bytes) state

def waitForResponse (around : ReplaySurroundings) (lookaside : Table String String) (strict : Bool)
    (expected : String) (buf : List UInt8) (state : ReplayState) :
    Except String (List UInt8 × ReplayState × Bool) :=
  waitReads around lookaside strict expected (around.reads state.waits) buf { state with waits := state.waits + 1 }

/-! ## The run -/

/-- What stays the same while the messages are driven. -/
structure ReplayPlan where
  realtime : Bool
  strict : Bool
  cancellations : List (Nat × StoredMessage)
  lookaside : Table String String

/-- At the recorded pace, the server has the recorded time before its request is cancelled. -/
def waitForCancellation (around : ReplaySurroundings) (plan : ReplayPlan) (message cancel : StoredMessage)
    (rpcId : String) (buf : List UInt8) (state : ReplayState) : Except String (List UInt8 × ReplayState × Bool) :=
  if plan.realtime ∧ 0 < cancel.tsNs - message.tsNs then
    waitForResponse around plan.lookaside plan.strict rpcId buf state
  else .ok (buf, state, false)

/-- Replay the messages in order; a cancellation that was sent with its request is not sent again. -/
def drive (around : ReplaySurroundings) (plan : ReplayPlan) :
    List StoredMessage → List Nat → List UInt8 → ReplayState → Except String ReplayState
  | [], _, _, state => .ok state
  | message :: rest, sentCancellations, buf, state =>
    if sentCancellations.contains message.seq then drive around plan rest sentCancellations buf state
    else do
      let value ← require (around.codec.fromStr message.payload) s!"source message seq {message.seq} is not valid JSON"
      let sent := state.message around .clientToServer value (around.codec.toString value).utf8ByteSize
      let state ← state.sendRecorded around (.source message value) value
      match sent.kind, sent.idJson around.codec with
      | .request, some rpcId =>
        match plan.cancellations.lookup message.seq with
        | some cancel =>
          let (buf, state, _) ← waitForCancellation around plan message cancel rpcId buf state
          let cancelValue ← require (around.codec.fromStr cancel.payload)
            s!"cancellation message seq {cancel.seq} is not valid JSON"
          let state ← state.sendRecorded around (.source cancel cancelValue) cancelValue
          drive around plan rest (cancel.seq :: sentCancellations) buf state
        | none =>
          let (buf, state, _) ← waitForResponse around plan.lookaside plan.strict rpcId buf state
          drive around plan rest sentCancellations buf state
      | _, _ => drive around plan rest sentCancellations buf state

/-- Of the cancellations, only the linked ones are driven. -/
def isReplayed (cancellations : List (Nat × StoredMessage)) (message : StoredMessage) : Bool :=
  message.method ≠ some "notifications/cancelled" ||
    (cancellations.map fun linked => linked.2.seq).contains message.seq

def run (around : ReplaySurroundings) (args : ReplayArgs) (source : List StoredMessage) :
    Except String ReplayState :=
  if source.isEmpty then .error s!"source session has no recorded messages: {args.sessionId}"
  else do
    let allowed := allowedMessages source args.allowTool args.denyTool
    let cancellations ← linkCancellations allowed (cancellationNotifications around.codec source)
    let driven := allowed.filter (isReplayed cancellations)
    if driven.isEmpty then
      .error ("source session has no client-originated requests or notifications to replay " ++
        "(after any --allow-tool/--deny-tool filtering)")
    else
      drive around ⟨args.realtime, args.strictServerRequests, cancellations,
        serverInitiatedResponses around.codec source⟩ driven [] [] .start

end McpTracer.Proxy.Replay
