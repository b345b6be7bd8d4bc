import McpTracer.Proxy.Recording
import McpTracer.Proxy.StorageQueue

/-! What happens to a frame between recording and the store.

A frame that is handed to recording is dropped and counted, or it is queued: on its way into the
channel, in the channel, with the writer, or in the writer's window. From there it is redacted.
-/

set_option autoImplicit false

namespace McpTracer.Proxy
open McpTracer.Foundation McpTracer.Protocol McpTracer.Redact McpTracer.Storage

/-- The frames that were forwarded and handed to recording, and the numbers in the order of their
redaction. -/
structure CaptureLog where
  handed : List StampedFrame
  redacted : List Nat
  /-- Something left the window before its turn because the window was full. -/
  pressed : Bool

namespace Capture

def observe (capture : Capture) (log : CaptureLog) : CaptureStep → CaptureLog
  | .record seq =>
    match capture.forwarding.find? fun stamped => stamped.seq = seq with
    | none => log
    | some stamped => { log with handed := log.handed ++ [stamped] }
  | .handle _ =>
    match capture.writer.phase with
    | .handling messages close =>
      let released := capture.writer.released messages close.isSome
      { log with
        redacted := log.redacted ++ released.items.map QueuedMessage.seq
        pressed := log.pressed || released.pressed }
    | _ => log
  | _ => log

/-- A run together with its log. -/
def observed (settings : CaptureSettings) : Capture × CaptureLog → List CaptureStep → Capture × CaptureLog :=
  List.foldl fun both step => (both.1.perform settings step, both.1.observe both.2 step)

def begin : Capture × CaptureLog := (.start, { handed := [], redacted := [], pressed := false })

theorem observed_fst (settings : CaptureSettings) (both : Capture × CaptureLog) (steps : List CaptureStep) :
    (observed settings both steps).1 = both.1.run settings steps := by
  induction steps generalizing both with
  | nil => rfl
  | cons step rest ih => exact ih _

theorem observed_append (settings : CaptureSettings) (both : Capture × CaptureLog) (before after : List CaptureStep) :
    observed settings both (before ++ after) = observed settings (observed settings both before) after :=
  List.foldl_append ..

/-- What holds at the start and is preserved by a step holds after every run. -/
theorem observed_induct {settings : CaptureSettings} (invariant : Capture × CaptureLog → Prop)
    {steps : List CaptureStep} {both : Capture × CaptureLog} (start : invariant both)
    (preserved : ∀ both, ∀ step ∈ steps, invariant both →
      invariant (both.1.perform settings step, both.1.observe both.2 step)) :
    invariant (observed settings both steps) := by
  induction steps generalizing both with
  | nil => exact start
  | cons step rest ih =>
    exact ih (preserved both step List.mem_cons_self start) fun both later member =>
      preserved both later (List.mem_cons_of_mem step member)

end Capture

/-! ## What is queued -/

def StorageEvent.queued? : StorageEvent → Option QueuedMessage
  | .message queued => some queued
  | .close .. => none

def WriterPhase.messages : WriterPhase → List QueuedMessage
  | .handling messages _ => messages
  | _ => []

def Capture.queued (capture : Capture) : List QueuedMessage :=
  capture.sending ++ (capture.queue.channel.filterMap StorageEvent.queued? ++
    (capture.writer.phase.messages ++ capture.writer.pending))

/-- A close on its way through the channel. -/
def closeEvents (close : Option (Int × Nat)) : List StorageEvent :=
  (close.map fun close => StorageEvent.close close.1 close.2).toList

@[simp] theorem filterMap_queued_closeEvents (close : Option (Int × Nat)) :
    (closeEvents close).filterMap StorageEvent.queued? = [] := by
  cases close <;> rfl

@[simp] theorem filterMap_queued_map (messages : List QueuedMessage) :
    (messages.map StorageEvent.message).filterMap StorageEvent.queued? = messages := by
  rw [List.filterMap_map]
  exact List.filterMap_some

/-- What a frame takes of the budget. -/
def StampedFrame.reservation (stamped : StampedFrame) : Nat :=
  stamped.frame.jsonBytes.length + storageEventOverheadBytes

/-! ## One lemma for each operation -/

namespace StorageQueue

variable (settings : CaptureSettings) (queue : StorageQueue)

/-- A frame is dropped if it does not decode or does not fit, and else reserved for. -/
theorem reserveEvent_cases (stamped : StampedFrame) :
    (stamped.decodeMessage settings = none ∨ settings.maxBytes < queue.queuedBytes + stamped.reservation) ∧
        queue.reserveEvent settings stamped = (queue.drop, none) ∨
      ∃ message, stamped.decodeMessage settings = some message ∧
        queue.queuedBytes + stamped.reservation ≤ settings.maxBytes ∧
        queue.reserveEvent settings stamped = ({ queue with queuedBytes := queue.queuedBytes + stamped.reservation },
          some ⟨message, stamped.reservation⟩) := by
  unfold reserveEvent
  cases decoded : stamped.decodeMessage settings with
  | none => exact .inl ⟨.inl rfl, rfl⟩
  | some message =>
    obtain ⟨payload, -, rfl⟩ := Option.map_eq_some_iff.1 decoded
    unfold StampedFrame.reservation tryReserve
    dsimp only
    split_ifs with whole rest
    · exact .inl ⟨.inr (by omega), rfl⟩
    · exact .inl ⟨.inr (by omega), rfl⟩
    · exact .inr ⟨_, rfl, by omega, rfl⟩

theorem trySend_cases (connected : Bool) (queued : QueuedMessage) :
    (connected = false ∨ settings.capacity ≤ queue.channel.length) ∧
        queue.trySend settings connected queued = queue.drop.giveBack queued.reservation ∨
      queue.trySend settings connected queued = { queue with channel := queue.channel ++ [.message queued] } := by
  unfold trySend
  split_ifs with possible
  · exact .inr rfl
  · refine .inl ⟨?_, rfl⟩
    rwa [Bool.and_eq_true, not_and_or, Bool.not_eq_true, decide_eq_true_eq, not_lt] at possible

end StorageQueue

theorem StampedFrame.decodeMessage_seq {settings : CaptureSettings} {stamped : StampedFrame} {message : McpMessage}
    (decoded : stamped.decodeMessage settings = some message) : message.seq = stamped.seq := by
  obtain ⟨payload, -, rfl⟩ := Option.map_eq_some_iff.1 decoded
  rfl

namespace StorageWriter

/-- A round takes messages from the front of the channel, and the close behind them if it gets there. -/
theorem collectEvents_spec (count : Nat) (channel : List StorageEvent) :
    channel = (collectEvents count channel).1.map .message ++ closeEvents (collectEvents count channel).2.1 ++
      (collectEvents count channel).2.2 := by
  induction count generalizing channel with
  | zero => rfl
  | succ count ih =>
    rcases channel with - | ⟨queued | ⟨endedAtNs, droppedMessages⟩, rest⟩
    · rfl
    · exact congrArg (StorageEvent.message queued :: ·) (ih rest)
    · rfl

/-- Every batch is written or counted. -/
theorem writeBatches_spec (codec : Json.Codec) (refused : Nat → Bool) (index : Nat) (state : WriterState)
    (table : SessionTable) (batches : List (List McpMessage)) {failed : Nat}
    (counted : min failed WriterState.maxFailedRecords ≤ state.failedMessageRecords) :
    ∃ kept lost : List McpMessage, batches.flatten.Perm (kept ++ lost) ∧
      (writeBatches codec refused index state table batches).2 =
        { table with messages := table.messages ++ kept.map (StoredMessage.ofMessage codec) } ∧
      min (failed + lost.length) WriterState.maxFailedRecords ≤
        (writeBatches codec refused index state table batches).1.failedMessageRecords := by
  induction batches generalizing index state table failed with
  | nil => exact ⟨[], [], List.Perm.refl _, by simp [writeBatches], counted⟩
  | cons batch rest ih =>
    unfold writeBatches
    cases outcome : table.writeMessages codec (refused index) batch with
    | some written =>
      have rows : written =
          { table with messages := table.messages ++ batch.map (StoredMessage.ofMessage codec) } := by
        unfold SessionTable.writeMessages at outcome
        dsimp only at outcome
        split_ifs at outcome
        exact (Option.some.inj outcome).symm
      obtain ⟨kept, lost, split, rest, admitted⟩ := ih (index + 1) state written counted
      refine ⟨batch ++ kept, lost, ?_, ?_, admitted⟩
      · rw [List.flatten_cons, List.append_assoc]
        exact split.append_left batch
      · rw [rest, rows, List.map_append, List.append_assoc]
    | none =>
      have raised : min (failed + batch.length) WriterState.maxFailedRecords ≤
          (state.failBatch batch.length).failedMessageRecords := by
        unfold WriterState.failBatch
        dsimp only
        omega
      obtain ⟨kept, lost, split, rest, admitted⟩ := ih (index + 1) (state.failBatch batch.length) table raised
      refine ⟨kept, batch ++ lost, ?_, rest, ?_⟩
      · rw [List.flatten_cons]
        exact (split.append_left batch).trans (List.perm_append_comm_assoc batch kept lost)
      · rw [List.length_append, ← Nat.add_assoc]
        exact admitted

variable (writer : StorageWriter) (messages : List QueuedMessage)

section
variable (refused : FinalRefusals) (endedAtNs : Int) (droppedMessages : Nat)

@[simp] theorem finish_phase : (writer.finish refused endedAtNs droppedMessages).phase = .stopped := rfl

@[simp] theorem finish_pending : (writer.finish refused endedAtNs droppedMessages).pending = writer.pending := by
  unfold finish closeSession countLoss
  dsimp only
  split_ifs <;> rfl

/-- The session ends without another message. -/
theorem finish_messages :
    (writer.finish refused endedAtNs droppedMessages).table.messages = writer.table.messages := by
  unfold finish closeSession countLoss
  dsimp only
  split_ifs <;> rfl

@[simp] theorem finish_failedMessageRecords :
    (writer.finish refused endedAtNs droppedMessages).state.failedMessageRecords = writer.state.failedMessageRecords := by
  unfold finish closeSession countLoss
  dsimp only
  split_ifs <;> rfl

/-- Unless the database refuses it, the loss is stored whatever its amount. -/
theorem finish_droppedMessages (accepted : refused.count = false) :
    (writer.finish refused endedAtNs droppedMessages).table.droppedMessages =
      writer.table.droppedMessages +
        wrapI64 (min (droppedMessages + writer.state.failedMessageRecords) WriterState.maxFailedRecords) := by
  have session (writer : StorageWriter) :
      (writer.closeSession refused.close endedAtNs).table.droppedMessages = writer.table.droppedMessages := by
    unfold closeSession
    split_ifs <;> rfl
  unfold finish
  dsimp only
  rw [session]
  split_ifs with lossy
  · unfold countLoss
    rw [accepted]
    rfl
  · rw [Nat.eq_zero_of_not_pos lossy]
    exact (Int.add_zero _).symm

end

/-- The window only reorders. -/
theorem released_perm (closing : Bool) :
    ((writer.released messages closing).items ++ (writer.released messages closing).waiting).Perm
      (messages ++ writer.pending) := by
  unfold released
  rw [release_append]
  exact foldl_insertNumbered_perm messages writer.pending

end StorageWriter

namespace WriterState

variable (codec : Json.Codec) (redactor : Redactor)

/-- Redaction masks every message and counts nothing away. -/
theorem redactMessages_spec (state : WriterState) (messages : List McpMessage) {failed : Nat}
    (counted : min failed maxFailedRecords ≤ state.failedMessageRecords) :
    (state.redactMessages codec redactor messages).2.map McpMessage.seq = messages.map McpMessage.seq ∧
      (∀ written ∈ (state.redactMessages codec redactor messages).2,
        ∃ message ∈ messages, ∃ context, written = masked redactor message context) ∧
      min failed maxFailedRecords ≤ (state.redactMessages codec redactor messages).1.failedMessageRecords := by
  induction messages generalizing state with
  | nil => exact ⟨rfl, fun _ member => absurd member List.not_mem_nil, counted⟩
  | cons message rest ih =>
    have raised : min failed maxFailedRecords ≤ (state.redactMessage codec redactor message).1.failedMessageRecords := by
      unfold redactMessage reportFailure
      dsimp only
      split_ifs
      · dsimp only
        omega
      · exact counted
    obtain ⟨seqs, sources, admitted⟩ := ih _ raised
    refine ⟨congrArg (message.seq :: ·) seqs, ?_, admitted⟩
    intro written member
    rcases List.mem_cons.1 member with rfl | later
    · exact ⟨message, List.mem_cons_self, _, rfl⟩
    · obtain ⟨source, inside, context, same⟩ := sources written later
      exact ⟨source, List.mem_cons_of_mem message inside, context, same⟩

end WriterState

/-- A round redacts what leaves the window, and stores or counts each message of it. -/
theorem StorageWriter.handle_spec (settings : CaptureSettings) (refused : Nat → Bool) (writer : StorageWriter)
    (messages : List QueuedMessage) (close : Option (Int × Nat)) {failed : Nat}
    (counted : min failed WriterState.maxFailedRecords ≤ writer.state.failedMessageRecords) :
    ∃ kept lost : List McpMessage,
      ((writer.released messages close.isSome).items.map QueuedMessage.seq).Perm
        (kept.map McpMessage.seq ++ lost.map McpMessage.seq) ∧
      (∀ written ∈ kept, ∃ queued ∈ (writer.released messages close.isSome).items, ∃ context,
        written = masked settings.redactor queued.message context) ∧
      (writer.handle settings refused messages close).table = { writer.table with
        messages := writer.table.messages ++ kept.map (StoredMessage.ofMessage settings.codec) } ∧
      min (failed + lost.length) WriterState.maxFailedRecords ≤
        (writer.handle settings refused messages close).state.failedMessageRecords := by
  unfold handle
  dsimp only
  have reported (state : WriterState) (pressed : Bool) (failure : String)
      (counted : min failed WriterState.maxFailedRecords ≤ state.failedMessageRecords) :
      min failed WriterState.maxFailedRecords ≤
        (if pressed = true then state.reportFailure failure else state).failedMessageRecords := by
    unfold WriterState.reportFailure
    split_ifs
    · dsimp only
      omega
    · exact counted
  obtain ⟨seqs, sources, redacted⟩ := WriterState.redactMessages_spec settings.codec settings.redactor _
    ((writer.released messages close.isSome).items.map QueuedMessage.message)
    (reported writer.state ((writer.released messages close.isSome).pressed && !writer.state.contextLossReported)
      "redaction sequence context was incomplete" counted)
  obtain ⟨kept, lost, split, stored, admitted⟩ := writeBatches_spec settings.codec refused 0 _ writer.table
    (chunks storageWriteBatchMessages _) redacted
  rw [flatten_chunks (by decide)] at split
  refine ⟨kept, lost, ?_, ?_, stored, admitted⟩
  · have numbers := split.map McpMessage.seq
    rw [seqs, List.map_map, List.map_append] at numbers
    exact numbers
  · intro written member
    obtain ⟨message, inside, context, same⟩ := sources written (split.symm.subset (List.mem_append_left lost member))
    obtain ⟨queued, left, rfl⟩ := List.mem_map.1 inside
    exact ⟨queued, left, context, same⟩

/-! ## One lemma for each step that can be out of place -/

namespace Capture

variable (settings : CaptureSettings) (capture : Capture) (log : CaptureLog)

theorem record_cases (seq : Nat) :
    ((∀ other ∈ capture.forwarding, other.seq ≠ seq) ∧ capture.record settings seq = capture ∧
        capture.observe log (.record seq) = log) ∨
      ∃ stamped ∈ capture.forwarding, stamped.seq = seq ∧
        capture.observe log (.record seq) = { log with handed := log.handed ++ [stamped] } ∧
        ((stamped.decodeMessage settings = none ∨
            settings.maxBytes < capture.queue.queuedBytes + stamped.reservation) ∧
            capture.record settings seq = { capture with
              queue := capture.queue.drop
              forwarding := capture.forwarding.filter fun other => other.seq ≠ seq } ∨
          ∃ message, stamped.decodeMessage settings = some message ∧
            capture.queue.queuedBytes + stamped.reservation ≤ settings.maxBytes ∧
            capture.record settings seq = { capture with
              queue := { capture.queue with queuedBytes := capture.queue.queuedBytes + stamped.reservation }
              forwarding := capture.forwarding.filter fun other => other.seq ≠ seq
              sending := capture.sending ++ [⟨message, stamped.reservation⟩] }) := by
  unfold record observe
  cases found : capture.forwarding.find? fun stamped => stamped.seq = seq with
  | none =>
    refine .inl ⟨fun other member => ?_, rfl, by simp only [found]⟩
    simpa using List.find?_eq_none.1 found other member
  | some stamped =>
    refine .inr ⟨stamped, List.mem_of_find?_eq_some found, by simpa using List.find?_some found,
      by simp only [found], ?_⟩
    rcases capture.queue.reserveEvent_cases settings stamped with
      ⟨reason, lost⟩ | ⟨message, decoded, room, kept⟩
    · exact .inl ⟨reason, by simp [lost]⟩
    · exact .inr ⟨message, decoded, room, by simp [kept]⟩

theorem send_cases (seq : Nat) :
    capture.send settings seq = capture ∨ ∃ queued ∈ capture.sending, queued.seq = seq ∧
      ((capture.connected = false ∨ settings.capacity ≤ capture.queue.channel.length) ∧
          capture.send settings seq = { capture with
            queue := capture.queue.drop.giveBack queued.reservation
            sending := capture.sending.filter fun other => other.seq ≠ seq } ∨
        capture.send settings seq = { capture with
          queue := { capture.queue with channel := capture.queue.channel ++ [.message queued] }
          sending := capture.sending.filter fun other => other.seq ≠ seq }) := by
  unfold send
  cases found : capture.sending.find? fun queued => queued.seq = seq with
  | none => exact .inl rfl
  | some queued =>
    refine .inr ⟨queued, List.mem_of_find?_eq_some found, by simpa using List.find?_some found, ?_⟩
    rcases capture.queue.trySend_cases settings capture.connected queued with ⟨reason, lost⟩ | kept
    · exact .inl ⟨reason, by simp only [lost]⟩
    · exact .inr (by simp only [kept])

theorem close_cases (endedAtNs : Int) :
    capture.close settings endedAtNs = capture ∨
      (capture.finished = false ∧ capture.forwarding = [] ∧ capture.sending = []) ∧
        capture.close settings endedAtNs = { capture with
          queue := { capture.queue with
            channel := capture.queue.channel ++ [.close endedAtNs capture.queue.droppedMessages] }
          finished := true } := by
  unfold close
  split_ifs with refused
  · exact .inl rfl
  · simp only [Bool.or_eq_true, not_or, Bool.not_eq_true, Bool.not_eq_false', List.isEmpty_iff] at refused
    exact .inr ⟨⟨refused.1.1.1, refused.1.1.2, refused.1.2⟩, rfl⟩

theorem collect_cases (count : Nat) :
    capture.collect count = capture ∨ capture.writer.phase = .receiving ∧ ∃ messages close rest,
      capture.queue.channel = messages.map .message ++ closeEvents close ++ rest ∧
      capture.collect count = { capture with
        queue := { capture.queue with channel := rest }
        writer := { capture.writer with phase := .handling messages close } } := by
  unfold collect
  cases phase : capture.writer.phase with
  | receiving =>
    dsimp only
    split_ifs
    · exact .inl rfl
    · exact .inr ⟨rfl, _, _, _, StorageWriter.collectEvents_spec _ _, rfl⟩
  | handling messages close => exact .inl rfl
  | releasing bytes close => exact .inl rfl
  | stopped => exact .inl rfl

theorem handle_cases (refused : Nat → Bool) :
    (capture.handle settings refused = capture ∧ capture.observe log (.handle refused) = log) ∨
      ∃ messages close, capture.writer.phase = .handling messages close ∧
        capture.handle settings refused =
          { capture with writer := capture.writer.handle settings refused messages close } ∧
        capture.observe log (.handle refused) = { log with
          redacted := log.redacted ++ (capture.writer.released messages close.isSome).items.map QueuedMessage.seq
          pressed := log.pressed || (capture.writer.released messages close.isSome).pressed } := by
  unfold handle observe
  cases phase : capture.writer.phase with
  | handling messages close => exact .inr ⟨messages, close, rfl, rfl, rfl⟩
  | receiving => exact .inl ⟨rfl, rfl⟩
  | releasing bytes close => exact .inl ⟨rfl, rfl⟩
  | stopped => exact .inl ⟨rfl, rfl⟩

theorem giveBack_cases (refused : FinalRefusals) :
    capture.giveBack refused = capture ∨ ∃ bytes,
      (capture.writer.phase = .releasing bytes none ∧ capture.giveBack refused = { capture with
          queue := capture.queue.giveBack bytes
          writer := { capture.writer with phase := .receiving } }) ∨
      ∃ endedAtNs droppedMessages, capture.writer.phase = .releasing bytes (some (endedAtNs, droppedMessages)) ∧
        capture.giveBack refused = { capture with
          queue := capture.queue.giveBack bytes
          writer := capture.writer.finish refused endedAtNs droppedMessages } := by
  unfold giveBack
  cases phase : capture.writer.phase with
  | releasing bytes close =>
    refine .inr ⟨bytes, ?_⟩
    cases close with
    | none => exact .inl ⟨rfl, rfl⟩
    | some close => exact .inr ⟨close.1, close.2, rfl, rfl⟩
  | receiving => exact .inl rfl
  | handling messages close => exact .inl rfl
  | stopped => exact .inl rfl

/-- The end of a round moves no message. -/
theorem giveBack_queued (refused : FinalRefusals) : (capture.giveBack refused).queued = capture.queued := by
  rcases capture.giveBack_cases refused with
    same | ⟨bytes, ⟨phase, next⟩ | ⟨endedAtNs, droppedMessages, phase, next⟩⟩
  · rw [same]
  all_goals
    rw [next]
    simp [queued, phase, WriterPhase.messages, StorageQueue.giveBack]

/-- Nor does the close. -/
theorem close_queued (endedAtNs : Int) : (capture.close settings endedAtNs).queued = capture.queued := by
  rcases capture.close_cases settings endedAtNs with same | ⟨-, sent⟩
  · rw [same]
  · rw [sent]
    unfold queued
    rw [List.filterMap_append]
    simp [StorageEvent.queued?]

theorem collect_queued (count : Nat) : (capture.collect count).queued.Perm capture.queued := by
  rcases capture.collect_cases count with same | ⟨phase, messages, close, rest, taken, next⟩
  · rw [same]
  · rw [next]
    unfold queued
    rw [taken, phase]
    simp only [List.filterMap_append, filterMap_queued_map, filterMap_queued_closeEvents, WriterPhase.messages,
      List.nil_append, List.append_assoc]
    exact (List.perm_append_comm_assoc _ _ _).append_left _

end Capture

end McpTracer.Proxy
