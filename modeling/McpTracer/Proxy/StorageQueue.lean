import McpTracer.Foundation.Reorder
import McpTracer.Proxy.SessionWriter
import McpTracer.Storage.Database

/-! The queue between the forwarding pumps and the storage writer, and the writer itself.

A pump reserves a sequence number, forwards a frame and then records it, without ever waiting for
the writer. The writer restores the order of the numbers in a bounded window, redacts, and stores
in batches. Whatever is given up on the way is counted. Numbers and counters are natural numbers
that stay below the word size.
-/

set_option autoImplicit false

namespace McpTracer.Proxy
open McpTracer.Foundation McpTracer.Json McpTracer.Protocol McpTracer.Redact McpTracer.Storage

def maxFrameBytes : Nat := 8 * 1024 * 1024

def storageQueueMaxBytes : Nat := 16 * 1024 * 1024

def storageEventOverheadBytes : Nat := 1024

def storageWriteBatchMessages : Nat := 128

def storageReorderMaxMessages : Nat := 4096

/-- What is fixed for a session: libraries, policy and limits. -/
structure CaptureSettings where
  codec : Codec
  fromSlice : List UInt8 → Option Value
  redactor : Redactor
  maxBytes : Nat
  capacity : Nat
  roomy : 0 < capacity

/-! ## Recording a frame -/

/-- A complete frame that a pump does not refuse. -/
structure StdioFrame where
  jsonBytes : List UInt8
  filled : jsonBytes ≠ []
  capped : jsonBytes.length < maxFrameBytes

/-- A frame with the direction it goes in, the number that was reserved for it and the time of that. -/
structure StampedFrame where
  seq : Nat
  timestampNs : Int
  direction : Direction
  frame : StdioFrame

def StampedFrame.decodeMessage (settings : CaptureSettings) (stamped : StampedFrame) : Option McpMessage :=
  (settings.fromSlice stamped.frame.jsonBytes).map fun payload =>
    { seq := stamped.seq
      timestampNs := stamped.timestampNs
      direction := stamped.direction
      payload := payload
      payloadBytes := stamped.frame.jsonBytes.length }

/-- A message on its way to the store, with the bytes that are reserved for it. -/
structure QueuedMessage where
  message : McpMessage
  reservation : Nat

def QueuedMessage.seq (queued : QueuedMessage) : Nat := queued.message.seq

inductive StorageEvent where
  | message (queued : QueuedMessage)
  | close (endedAtNs : Int) (droppedMessages : Nat)

/-- What the pumps and the writer share. -/
structure StorageQueue where
  seq : Nat
  droppedMessages : Nat
  queuedBytes : Nat
  channel : List StorageEvent

namespace StorageQueue

def start : StorageQueue where
  seq := 0
  droppedMessages := 0
  queuedBytes := 0
  channel := []

def drop (queue : StorageQueue) : StorageQueue := { queue with droppedMessages := queue.droppedMessages + 1 }

def giveBack (queue : StorageQueue) (bytes : Nat) : StorageQueue :=
  { queue with queuedBytes := queue.queuedBytes - bytes }

def tryReserve (settings : CaptureSettings) (queue : StorageQueue) (bytes : Nat) : Option StorageQueue :=
  if settings.maxBytes < bytes then none
  else if settings.maxBytes - bytes < queue.queuedBytes then none
  else some { queue with queuedBytes := queue.queuedBytes + bytes }

/-- Recording up to the reservation: the frame is decoded, and counted as dropped if that fails. -/
def reserveEvent (settings : CaptureSettings) (queue : StorageQueue) (stamped : StampedFrame) :
    StorageQueue × Option QueuedMessage :=
  match stamped.decodeMessage settings with
  | none => (queue.drop, none)
  | some message =>
    let reservedBytes := message.payloadBytes + storageEventOverheadBytes
    match queue.tryReserve settings reservedBytes with
    | none => (queue.drop, none)
    | some queue => (queue, some ⟨message, reservedBytes⟩)

/-- The rest of recording: the event is sent if there is room and somebody to receive it. -/
def trySend (settings : CaptureSettings) (connected : Bool) (queue : StorageQueue) (queued : QueuedMessage) :
    StorageQueue :=
  if connected && decide (queue.channel.length < settings.capacity) then
    { queue with channel := queue.channel ++ [.message queued] }
  else queue.drop.giveBack queued.reservation

end StorageQueue

/-! ## The session in the store -/

structure SessionTable where
  messages : List StoredMessage
  droppedMessages : Int
  totalMessages : Nat
  endedAtNs : Option Int

namespace SessionTable

def start : SessionTable where
  messages := []
  droppedMessages := 0
  totalMessages := 0
  endedAtNs := none

/-- One transaction, which fails as a whole: because the database refuses it, or because a number
is taken. -/
def writeMessages (codec : Codec) (refused : Bool) (table : SessionTable) (batch : List McpMessage) :
    Option SessionTable :=
  let messages := table.messages ++ batch.map (StoredMessage.ofMessage codec)
  if refused then none
  else if (messages.map StoredMessage.seq).Nodup then some { table with messages := messages }
  else none

def incrementDroppedMessages (table : SessionTable) (count : Nat) : SessionTable :=
  { table with droppedMessages := table.droppedMessages + wrapI64 count }

def closeSession (table : SessionTable) (endedAtNs : Int) : SessionTable :=
  { table with
    totalMessages := table.messages.length
    endedAtNs := some endedAtNs }

end SessionTable

/-! ## The writer -/

namespace WriterState

/-- A batch that could not be written. -/
def failBatch (state : WriterState) (count : Nat) : WriterState :=
  { state with
    failedMessageRecords := min (state.failedMessageRecords + count) maxFailedRecords
    firstFailure := some (state.firstFailure.getD "failed to persist one or more MCP message records") }

/-- A failure that is not the loss of a message. -/
def reportError (state : WriterState) (failure : String) : WriterState :=
  { state with firstFailure := some (state.firstFailure.getD failure) }

end WriterState

/-- Which of the last two writes the database refuses. -/
structure FinalRefusals where
  count : Bool
  close : Bool

inductive WriterPhase where
  | receiving
  | handling (messages : List QueuedMessage) (close : Option (Int × Nat))
  | releasing (bytes : Nat) (close : Option (Int × Nat))
  | stopped

structure StorageWriter where
  phase : WriterPhase
  pending : List QueuedMessage
  nextSeq : Nat
  state : WriterState
  table : SessionTable

namespace StorageWriter

def start : StorageWriter where
  phase := .receiving
  pending := []
  nextSeq := 0
  state := .start
  table := .start

/-- The events that one round takes from the channel; nothing is taken behind a close. -/
def collectEvents : Nat → List StorageEvent → List QueuedMessage × Option (Int × Nat) × List StorageEvent
  | 0, channel => ([], none, channel)
  | _ + 1, [] => ([], none, [])
  | count + 1, .message queued :: rest =>
    let others := collectEvents count rest
    (queued :: others.1, others.2)
  | _ + 1, .close endedAtNs droppedMessages :: rest => ([], some (endedAtNs, droppedMessages), rest)

def writeBatches (codec : Codec) (refused : Nat → Bool) :
    Nat → WriterState → SessionTable → List (List McpMessage) → WriterState × SessionTable
  | _, state, table, [] => (state, table)
  | index, state, table, batch :: rest =>
    match table.writeMessages codec (refused index) batch with
    | some table => writeBatches codec refused (index + 1) state table rest
    | none => writeBatches codec refused (index + 1) (state.failBatch batch.length) table rest

/-- The window after a round has put its messages into it, and what may leave it. -/
def released (writer : StorageWriter) (messages : List QueuedMessage) (closing : Bool) : Released QueuedMessage :=
  release QueuedMessage.seq storageReorderMaxMessages closing writer.nextSeq
    (messages.foldl (fun pending queued => insertNumbered QueuedMessage.seq queued pending) writer.pending)

/-- Reorder, redact and write; the window reports the first time that it was pressed. -/
def handle (settings : CaptureSettings) (refused : Nat → Bool) (writer : StorageWriter)
    (messages : List QueuedMessage) (close : Option (Int × Nat)) : StorageWriter :=
  let released := writer.released messages close.isSome
  let state :=
    if released.pressed && !writer.state.contextLossReported then
      writer.state.reportFailure "redaction sequence context was incomplete"
    else writer.state
  let redacted := state.redactMessages settings.codec settings.redactor (released.items.map QueuedMessage.message)
  let written := writeBatches settings.codec refused 0 redacted.1 writer.table
    (chunks storageWriteBatchMessages redacted.2)
  { phase := .releasing (released.items.map QueuedMessage.reservation).sum close
    pending := released.waiting
    nextSeq := released.next
    state := written.1
    table := written.2 }

def countLoss (refused : Bool) (writer : StorageWriter) (totalDropped : Nat) : StorageWriter :=
  if refused then { writer with state := writer.state.reportError "failed to persist dropped-message accounting" }
  else { writer with
    table := writer.table.incrementDroppedMessages totalDropped
    state := writer.state.reportError s!"capture lost {totalDropped} message record(s)" }

def closeSession (refused : Bool) (writer : StorageWriter) (endedAtNs : Int) : StorageWriter :=
  if refused then { writer with state := writer.state.reportError "failed to finalize the recorded session" }
  else { writer with table := writer.table.closeSession endedAtNs }

/-- The loss is stored with the session before that is closed. -/
def finish (refused : FinalRefusals) (writer : StorageWriter) (endedAtNs : Int) (droppedMessages : Nat) :
    StorageWriter :=
  let totalDropped := min (droppedMessages + writer.state.failedMessageRecords) WriterState.maxFailedRecords
  let counted := if 0 < totalDropped then writer.countLoss refused.count totalDropped else writer
  { counted.closeSession refused.close endedAtNs with phase := .stopped }

end StorageWriter

/-! ## The whole -/

/-- Frames that are being forwarded or recorded, the queue, and the writer. -/
structure Capture where
  queue : StorageQueue
  forwarding : List StampedFrame
  sending : List QueuedMessage
  /-- The pumps are gone and the close has been sent. -/
  finished : Bool
  writer : StorageWriter

/-- What one of the parties does next; a step for which it is not the time does nothing. -/
inductive CaptureStep where
  | stamp (direction : Direction) (timestampNs : Int) (frame : StdioFrame)
  /-- Forwarding fails, or the pump is dropped. -/
  | abandon (seq : Nat)
  | record (seq : Nat)
  | send (seq : Nat)
  | close (endedAtNs : Int)
  /-- The writer receives this many events at most. -/
  | collect (count : Nat)
  | handle (refused : Nat → Bool)
  | giveBack (refused : FinalRefusals)

namespace Capture

def start : Capture where
  queue := .start
  forwarding := []
  sending := []
  finished := false
  writer := .start

def stamp (capture : Capture) (direction : Direction) (timestampNs : Int) (frame : StdioFrame) : Capture :=
  if capture.finished then capture
  else { capture with
    queue := { capture.queue with seq := capture.queue.seq + 1 }
    forwarding := capture.forwarding ++ [⟨capture.queue.seq, timestampNs, direction, frame⟩] }

def abandon (capture : Capture) (seq : Nat) : Capture :=
  { capture with forwarding := capture.forwarding.filter fun stamped => stamped.seq ≠ seq }

def record (settings : CaptureSettings) (capture : Capture) (seq : Nat) : Capture :=
  match capture.forwarding.find? fun stamped => stamped.seq = seq with
  | none => capture
  | some stamped =>
    let reserved := capture.queue.reserveEvent settings stamped
    { capture with
      queue := reserved.1
      forwarding := capture.forwarding.filter fun stamped => stamped.seq ≠ seq
      sending := capture.sending ++ reserved.2.toList }

def connected (capture : Capture) : Bool :=
  match capture.writer.phase with
  | .stopped => false
  | _ => true

def send (settings : CaptureSettings) (capture : Capture) (seq : Nat) : Capture :=
  match capture.sending.find? fun queued => queued.seq = seq with
  | none => capture
  | some queued => { capture with
      queue := capture.queue.trySend settings capture.connected queued
      sending := capture.sending.filter fun queued => queued.seq ≠ seq }

/-- The session is closed when both pumps are gone; the close itself waits for room. -/
def close (settings : CaptureSettings) (capture : Capture) (endedAtNs : Int) : Capture :=
  if capture.finished || !capture.forwarding.isEmpty || !capture.sending.isEmpty ||
      decide (settings.capacity ≤ capture.queue.channel.length) then capture
  else { capture with
    queue := { capture.queue with
      channel := capture.queue.channel ++ [.close endedAtNs capture.queue.droppedMessages] }
    finished := true }

def collect (capture : Capture) (count : Nat) : Capture :=
  match capture.writer.phase with
  | .receiving =>
    let collected := StorageWriter.collectEvents (min count storageWriteBatchMessages) capture.queue.channel
    if collected.1.isEmpty && collected.2.1.isNone then capture
    else { capture with
      queue := { capture.queue with channel := collected.2.2 }
      writer := { capture.writer with phase := .handling collected.1 collected.2.1 } }
  | _ => capture

def handle (settings : CaptureSettings) (capture : Capture) (refused : Nat → Bool) : Capture :=
  match capture.writer.phase with
  | .handling messages close => { capture with writer := capture.writer.handle settings refused messages close }
  | _ => capture

def giveBack (capture : Capture) (refused : FinalRefusals) : Capture :=
  match capture.writer.phase with
  | .releasing bytes close =>
    { capture with
      queue := capture.queue.giveBack bytes
      writer := match close with
        | none => { capture.writer with phase := .receiving }
        | some (endedAtNs, droppedMessages) => capture.writer.finish refused endedAtNs droppedMessages }
  | _ => capture

def perform (settings : CaptureSettings) (capture : Capture) : CaptureStep → Capture
  | .stamp direction timestampNs frame => capture.stamp direction timestampNs frame
  | .abandon seq => capture.abandon seq
  | .record seq => capture.record settings seq
  | .send seq => capture.send settings seq
  | .close endedAtNs => capture.close settings endedAtNs
  | .collect count => capture.collect count
  | .handle refused => capture.handle settings refused
  | .giveBack refused => capture.giveBack refused

def run (settings : CaptureSettings) (capture : Capture) (steps : List CaptureStep) : Capture :=
  steps.foldl (perform settings) capture

end Capture

end McpTracer.Proxy
