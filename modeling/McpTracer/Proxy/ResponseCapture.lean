import McpTracer.Protocol.Sse
import McpTracer.Proxy.Pump

/-! The capture of a response body.

The tap sits in the forwarded body: it counts the chunks and offers each one to a bounded channel,
without ever waiting. The reader behind the channel records what the chunks say. Both may find that
something is missing; a flag tells the reader what the tap knows, and whatever is missing is counted.
-/

set_option autoImplicit false

namespace McpTracer.Proxy
open McpTracer.Foundation McpTracer.Json McpTracer.Protocol

inductive ResponseCaptureKind where
  | json
  | sse
  deriving DecidableEq

def responseCaptureChannelCapacity : Nat := 64

/-- The largest value of the counter for the observed bytes. -/
def maxObservedLength : Nat := 2 ^ 64 - 1

/-- What is fixed for an exchange. -/
structure ResponseSettings where
  kind : ResponseCaptureKind
  expectedLength : Option Nat
  fromSlice : List UInt8 → Option Value
  /-- The number and the time that each call of the recorder draws. -/
  stamps : Nat → CaptureStamp

def ResponseSettings.framedStream (settings : ResponseSettings) : Bool := settings.kind = .sse

def ResponseSettings.decodeMessage (settings : ResponseSettings) (bytes : List UInt8) (direction : Direction)
    (stamp : CaptureStamp) : Option McpMessage :=
  (settings.fromSlice bytes).map fun payload =>
    { seq := stamp.seq
      timestampNs := stamp.timestampNs
      direction := direction
      payload := payload
      payloadBytes := bytes.length }

/-! ## The session -/

/-- What an exchange does to its session. -/
structure ResponseSession where
  drawn : Nat
  handed : List McpMessage
  droppedMessages : Nat

namespace ResponseSession

def start : ResponseSession where
  drawn := 0
  handed := []
  droppedMessages := 0

def drop (session : ResponseSession) : ResponseSession :=
  { session with droppedMessages := session.droppedMessages + 1 }

def recordMessage (settings : ResponseSettings) (session : ResponseSession) (bytes : List UInt8) : ResponseSession :=
  let stamp := settings.stamps session.drawn
  let session := { session with drawn := session.drawn + 1 }
  match settings.decodeMessage bytes .serverToClient stamp with
  | some message => { session with handed := session.handed ++ [message] }
  | none => session.drop

def recordSseEvent (settings : ResponseSettings) (session : ResponseSession) : SseEvent → ResponseSession
  | .json bytes => session.recordMessage settings bytes
  | .oversized => session.drop
  | .incomplete => session.drop

def recordSseEvents (settings : ResponseSettings) (session : ResponseSession) (events : List SseEvent) :
    ResponseSession := events.foldl (recordSseEvent settings) session

end ResponseSession

/-! ## Tap and reader -/

inductive TapPhase where
  | polling
  /-- The chunk has been counted and not yet been offered to the channel. -/
  | sending (bytes : List UInt8)
  | ended
  /-- The tap has told what is missing, and the channel is still open. -/
  | dropped
  | closed
  deriving DecidableEq

inductive ReaderPhase where
  | receiving
  | holding (bytes : List UInt8)
  | returned
  deriving DecidableEq

structure ResponseCapture where
  phase : TapPhase
  complete : Bool
  observedLength : Nat
  overflowed : Bool
  channel : List (List UInt8)
  reader : ReaderPhase
  captured : List UInt8
  tooLarge : Bool
  decoder : SseDecoder
  session : ResponseSession
  /-- The chunks that the downstream was given. -/
  forwarded : List (List UInt8)
  /-- Which of them never came into the channel. -/
  lost : List Nat
  /-- The upstream body has ended. -/
  ended : Bool

inductive ResponseStep where
  | chunk (bytes : List UInt8)
  | failure
  | eof
  | send
  /-- The stream and its tap go away, after the end of the body or before. -/
  | dropBody
  | closeChannel
  | receive
  | handle
  | finish

namespace ResponseCapture

def start (settings : ResponseSettings) : ResponseCapture where
  phase := .polling
  complete := settings.expectedLength = some 0
  observedLength := 0
  overflowed := false
  channel := []
  reader := .receiving
  captured := []
  tooLarge := false
  decoder := .default
  session := .start
  forwarded := []
  lost := []
  ended := false

def markIncomplete (capture : ResponseCapture) : ResponseCapture :=
  if capture.overflowed then capture
  else { capture with overflowed := true, session := capture.session.drop }

/-- The first half of observing a chunk. -/
def count (settings : ResponseSettings) (capture : ResponseCapture) (bytes : List UInt8) : ResponseCapture :=
  let observed := min (capture.observedLength + bytes.length) maxObservedLength
  let counted := { capture with
    phase := .sending bytes
    observedLength := observed
    forwarded := capture.forwarded ++ [bytes] }
  match settings.expectedLength with
  | none => counted
  | some expected =>
    let counted := { counted with complete := decide (observed = expected) }
    if expected < observed then counted.markIncomplete else counted

/-- A chunk that is forwarded and not offered to the channel any more. -/
def forwardOnly (capture : ResponseCapture) (bytes : List UInt8) : ResponseCapture :=
  { capture with forwarded := capture.forwarded ++ [bytes], lost := capture.lost ++ [capture.forwarded.length] }

/-- The second half: the channel may be full, or nobody may be left to receive. -/
def trySend (capture : ResponseCapture) (bytes : List UInt8) : ResponseCapture :=
  if capture.reader ≠ .returned ∧ capture.channel.length < responseCaptureChannelCapacity then
    { capture with phase := .polling, channel := capture.channel ++ [bytes] }
  else
    { capture with phase := .polling, lost := capture.lost ++ [capture.forwarded.length - 1] }.markIncomplete

def reachEof (settings : ResponseSettings) (capture : ResponseCapture) : ResponseCapture :=
  { capture with
    phase := .ended
    ended := true
    complete := settings.expectedLength.all (· == capture.observedLength) }

def dropTap (settings : ResponseSettings) (capture : ResponseCapture) : ResponseCapture :=
  let dropped := { capture with phase := .dropped }
  if !capture.complete && (!settings.framedStream || settings.expectedLength.isSome) then dropped.markIncomplete
  else dropped

/-- The reader returns, and its end of the channel goes away. -/
def leave (capture : ResponseCapture) : ResponseCapture := { capture with reader := .returned, channel := [] }

def handleJson (capture : ResponseCapture) (bytes : List UInt8) : ResponseCapture :=
  let capture := { capture with reader := .receiving }
  if !capture.tooLarge && !capture.overflowed then
    if capture.captured.length + bytes.length ≤ maxFrameBytes then
      { capture with captured := capture.captured ++ bytes }
    else { capture with tooLarge := true, captured := [] }
  else capture

def handleSse (settings : ResponseSettings) (capture : ResponseCapture) (bytes : List UInt8) : ResponseCapture :=
  if capture.overflowed then capture.leave
  else
    let pushed := capture.decoder.push bytes
    { capture with
      reader := .receiving
      decoder := pushed.1
      session := capture.session.recordSseEvents settings pushed.2 }

def finishJson (settings : ResponseSettings) (capture : ResponseCapture) : ResponseCapture :=
  let session :=
    if !capture.tooLarge && !capture.overflowed && !capture.captured.isEmpty then
      capture.session.recordMessage settings capture.captured
    else if capture.tooLarge then capture.session.drop
    else capture.session
  { capture with session := session }.leave

def finishSse (settings : ResponseSettings) (capture : ResponseCapture) : ResponseCapture :=
  let session :=
    if !capture.overflowed then capture.session.recordSseEvents settings capture.decoder.finish.2
    else capture.session
  { capture with session := session }.leave

/-- A step that is not possible changes nothing. -/
@[grind] def perform (settings : ResponseSettings) (capture : ResponseCapture) : ResponseStep → ResponseCapture
  | .chunk bytes =>
    if capture.phase = .polling then
      if capture.overflowed then capture.forwardOnly bytes else capture.count settings bytes
    else capture
  | .failure => if capture.phase = .polling then capture.markIncomplete else capture
  | .eof => if capture.phase = .polling then capture.reachEof settings else capture
  | .send =>
    match capture.phase with
    | .sending bytes => capture.trySend bytes
    | _ => capture
  | .dropBody => if capture.phase = .polling ∨ capture.phase = .ended then capture.dropTap settings else capture
  | .closeChannel => if capture.phase = .dropped then { capture with phase := .closed } else capture
  | .receive =>
    match capture.reader, capture.channel with
    | .receiving, bytes :: rest => { capture with reader := .holding bytes, channel := rest }
    | _, _ => capture
  | .handle =>
    match capture.reader, settings.kind with
    | .holding bytes, .json => capture.handleJson bytes
    | .holding bytes, .sse => capture.handleSse settings bytes
    | _, _ => capture
  | .finish =>
    if capture.reader = .receiving ∧ capture.channel = [] ∧ capture.phase = .closed then
      match settings.kind with
      | .json => capture.finishJson settings
      | .sse => capture.finishSse settings
    else capture

def run (settings : ResponseSettings) (steps : List ResponseStep) : ResponseCapture :=
  steps.foldl (perform settings) (start settings)

/-! ## What is under way -/

/-- The chunk that has been counted and not yet been offered. -/
def pending (capture : ResponseCapture) : List (List UInt8) :=
  match capture.phase with
  | .sending bytes => [bytes]
  | _ => []

/-- The chunks in front of the reader. -/
def queued (capture : ResponseCapture) : List (List UInt8) :=
  match capture.reader with
  | .receiving => capture.channel
  | .holding bytes => bytes :: capture.channel
  | .returned => []

/-- The declared length has been counted, or without one the end has been seen. -/
def AtEnd (settings : ResponseSettings) (capture : ResponseCapture) : Prop :=
  match settings.expectedLength with
  | none => capture.ended = true
  | some expected => capture.observedLength = expected

/-- What the downstream was given is the whole body. -/
def ReachedEnd (settings : ResponseSettings) (capture : ResponseCapture) : Prop :=
  match settings.expectedLength with
  | none => capture.ended = true
  | some expected => capture.forwarded.flatten.length = expected

end ResponseCapture

end McpTracer.Proxy
