import McpTracer.Proxy.CaptureClose

/-! What one lost record costs.

A frame that is no JSON leaves a number for which the writer waits, and what it holds back until then
keeps its bytes reserved. A later frame is stored if and only if it still fits beside that.
-/

set_option autoImplicit false

namespace McpTracer.Proxy
open McpTracer.Foundation McpTracer.Protocol McpTracer.Redact McpTracer.Storage

variable {settings : CaptureSettings} {capture : Capture} {log : CaptureLog}

/-! ## The byte budget -/

def WriterPhase.bytes : WriterPhase → Nat
  | .releasing bytes _ => bytes
  | _ => 0

def reservations (queued : List QueuedMessage) : Nat := (queued.map QueuedMessage.reservation).sum

theorem reservations_append (queued others : List QueuedMessage) :
    reservations (queued ++ others) = reservations queued + reservations others := by
  unfold reservations
  rw [List.map_append, List.sum_append]

theorem reservations_perm {queued others : List QueuedMessage} (moved : queued.Perm others) :
    reservations queued = reservations others := (moved.map _).sum_eq

/-- The reserved bytes are those of the queued messages, and what the writer is about to give back. -/
def Budgeted (capture : Capture) : Prop :=
  capture.queue.queuedBytes = reservations capture.queued + capture.writer.phase.bytes

namespace Budgeted

theorem record (budgeted : Budgeted capture) (seq : Nat) : Budgeted (capture.record settings seq) := by
  unfold Budgeted at budgeted ⊢
  rcases capture.record_cases settings { handed := [], redacted := [], pressed := false } seq with
    ⟨-, same, -⟩ | ⟨stamped, -, -, -, ⟨-, lost⟩ | ⟨message, -, -, kept⟩⟩
  · rwa [same]
  · rw [lost]
    exact budgeted
  · rw [kept]
    simp only [Capture.queued, reservations_append] at budgeted ⊢
    have one : reservations [⟨message, stamped.reservation⟩] = stamped.reservation := Nat.add_zero _
    omega

theorem send (budgeted : Budgeted capture) {dropped : List Nat} (conserved : Conserved capture log dropped)
    (seq : Nat) : Budgeted (capture.send settings seq) := by
  unfold Budgeted at budgeted ⊢
  rcases capture.send_cases settings seq with same | ⟨queued, member, number, outcome⟩
  · rwa [same]
  · have out := reservations_perm (perm_cons_filter_ne conserved.sending_nodup member)
    rw [number] at out
    have first (others : List QueuedMessage) :
        reservations (queued :: others) = queued.reservation + reservations others := List.sum_cons
    rcases outcome with ⟨-, lost⟩ | kept
    · rw [lost]
      simp only [Capture.queued, StorageQueue.drop, StorageQueue.giveBack, reservations_append] at budgeted ⊢
      rw [out, first] at budgeted
      omega
    · rw [kept]
      simp only [Capture.queued, List.filterMap_append, reservations_append] at budgeted ⊢
      have sent : reservations ([StorageEvent.message queued].filterMap StorageEvent.queued?) = queued.reservation :=
        Nat.add_zero _
      rw [out, first] at budgeted
      omega

theorem handle (budgeted : Budgeted capture) (refused : Nat → Bool) : Budgeted (capture.handle settings refused) := by
  unfold Budgeted at budgeted ⊢
  rcases capture.handle_cases settings { handed := [], redacted := [], pressed := false } refused with
    ⟨same, -⟩ | ⟨messages, close, phase, next, -⟩
  · rwa [same]
  · rw [next]
    have window := reservations_perm (capture.writer.released_perm messages close.isSome)
    have released : ((capture.writer.released messages close.isSome).items.map QueuedMessage.reservation).sum =
        reservations (capture.writer.released messages close.isSome).items := rfl
    simp only [Capture.queued, phase, WriterPhase.messages, WriterPhase.bytes, StorageWriter.handle,
      reservations_append, List.nil_append] at budgeted window ⊢
    omega

theorem giveBack (budgeted : Budgeted capture) (refused : FinalRefusals) : Budgeted (capture.giveBack refused) := by
  unfold Budgeted at budgeted ⊢
  rw [capture.giveBack_queued]
  rcases capture.giveBack_cases refused with
    same | ⟨bytes, ⟨phase, next⟩ | ⟨endedAtNs, droppedMessages, phase, next⟩⟩
  · rwa [same]
  all_goals
    rw [phase] at budgeted
    rw [next]
    simp only [StorageQueue.giveBack, WriterPhase.bytes, StorageWriter.finish_phase] at budgeted ⊢
    omega

theorem perform (budgeted : Budgeted capture) {dropped : List Nat} (conserved : Conserved capture log dropped)
    (step : CaptureStep) : Budgeted (capture.perform settings step) := by
  cases step with
  | stamp direction timestampNs frame =>
    change Budgeted (capture.stamp direction timestampNs frame)
    unfold Capture.stamp
    split_ifs <;> exact budgeted
  | abandon seq => exact budgeted
  | record seq => exact budgeted.record seq
  | send seq => exact budgeted.send conserved seq
  | close endedAtNs =>
    change Budgeted (capture.close settings endedAtNs)
    unfold Budgeted at budgeted ⊢
    rw [capture.close_queued]
    rcases capture.close_cases settings endedAtNs with same | ⟨-, sent⟩
    · rwa [same]
    · rwa [sent]
  | collect count =>
    change Budgeted (capture.collect count)
    unfold Budgeted at budgeted ⊢
    rw [reservations_perm (capture.collect_queued count)]
    rcases capture.collect_cases count with same | ⟨phase, messages, close, rest, -, next⟩
    · rwa [same]
    · rw [phase] at budgeted
      rwa [next]
  | handle refused => exact budgeted.handle refused
  | giveBack refused => exact budgeted.giveBack refused

end Budgeted

theorem budgeted_observed (settings : CaptureSettings) (steps : List CaptureStep) :
    Budgeted (Capture.observed settings Capture.begin steps).1 := by
  refine (Capture.observed_induct (fun both => Sound settings both ∧ Budgeted both.1) ⟨sound_begin, rfl⟩ ?_).2
  rintro both step - ⟨sound, budgeted⟩
  obtain ⟨⟨dropped, conserved⟩, -, -, -⟩ := id sound
  exact ⟨sound.perform step, budgeted.perform conserved step⟩

/-! ## Frames that do not decode -/

/-- How many of the frames that were handed over are no JSON. -/
def CaptureLog.undecoded (settings : CaptureSettings) (log : CaptureLog) : Nat :=
  log.handed.countP fun stamped => (stamped.decodeMessage settings).isNone

theorem undecoded_concat (stamped : StampedFrame) :
    CaptureLog.undecoded settings { log with handed := log.handed ++ [stamped] } =
      log.undecoded settings + if stamped.decodeMessage settings = none then 1 else 0 := by
  unfold CaptureLog.undecoded
  rw [List.countP_append, List.countP_singleton]
  simp only [Option.isNone_iff_eq_none]

/-- The two ways to lose a frame that does decode. -/
def Lossy (settings : CaptureSettings) (capture : Capture) (step : CaptureStep) : Prop :=
  (∃ stamped ∈ capture.forwarding, step = .record stamped.seq ∧ stamped.decodeMessage settings ≠ none ∧
      settings.maxBytes < capture.queue.queuedBytes + stamped.reservation) ∨
    ∃ queued ∈ capture.sending, step = .send queued.seq ∧
      (capture.connected = false ∨ settings.capacity ≤ capture.queue.channel.length)

/-- What a step adds to the drops, next to frames that are no JSON. -/
theorem dropped_cases (settings : CaptureSettings) (capture : Capture) (log : CaptureLog) (step : CaptureStep) :
    ∃ undecoded lost, (capture.observe log step).undecoded settings = log.undecoded settings + undecoded ∧
      (capture.perform settings step).queue.droppedMessages = capture.queue.droppedMessages + undecoded + lost ∧
      (lost = 0 ∨ Lossy settings capture step) := by
  cases step with
  | stamp direction timestampNs frame =>
    refine ⟨0, 0, rfl, ?_, .inl rfl⟩
    change (capture.stamp direction timestampNs frame).queue.droppedMessages = _
    unfold Capture.stamp
    split_ifs <;> rfl
  | abandon seq => exact ⟨0, 0, rfl, rfl, .inl rfl⟩
  | record seq =>
    rcases capture.record_cases settings log seq with
      ⟨-, same, unlogged⟩ | ⟨stamped, member, rfl, logged, ⟨reason, lost⟩ | ⟨message, decoded, -, kept⟩⟩
    · refine ⟨0, 0, congrArg _ unlogged, ?_, .inl rfl⟩
      rw [Capture.perform, same]
      rfl
    · rw [Capture.perform, lost, logged, undecoded_concat]
      by_cases invalid : stamped.decodeMessage settings = none
      · exact ⟨1, 0, by rw [if_pos invalid], rfl, .inl rfl⟩
      · refine ⟨0, 1, by rw [if_neg invalid], rfl, .inr (.inl ⟨stamped, member, rfl, invalid, ?_⟩)⟩
        exact reason.resolve_left invalid
    · rw [Capture.perform, kept, logged, undecoded_concat, if_neg (by simp [decoded])]
      exact ⟨0, 0, rfl, rfl, .inl rfl⟩
  | send seq =>
    rcases capture.send_cases settings seq with same | ⟨queued, member, rfl, ⟨reason, lost⟩ | kept⟩
    · refine ⟨0, 0, rfl, ?_, .inl rfl⟩
      rw [Capture.perform, same]
      rfl
    · rw [Capture.perform, lost]
      exact ⟨0, 1, rfl, rfl, .inr (.inr ⟨queued, member, rfl, reason⟩)⟩
    · rw [Capture.perform, kept]
      exact ⟨0, 0, rfl, rfl, .inl rfl⟩
  | close endedAtNs =>
    refine ⟨0, 0, rfl, ?_, .inl rfl⟩
    rcases capture.close_cases settings endedAtNs with same | ⟨-, sent⟩
    · rw [Capture.perform, same]
      rfl
    · rw [Capture.perform, sent]
      rfl
  | collect count =>
    refine ⟨0, 0, rfl, ?_, .inl rfl⟩
    rcases capture.collect_cases count with same | ⟨-, messages, close, rest, -, next⟩
    · rw [Capture.perform, same]
      rfl
    · rw [Capture.perform, next]
      rfl
  | handle refused =>
    rcases capture.handle_cases settings log refused with ⟨same, unlogged⟩ | ⟨messages, close, -, next, logged⟩
    · refine ⟨0, 0, congrArg _ unlogged, ?_, .inl rfl⟩
      rw [Capture.perform, same]
      rfl
    · refine ⟨0, 0, (congrArg (CaptureLog.undecoded settings) logged).trans rfl, ?_, .inl rfl⟩
      rw [Capture.perform, next]
      rfl
  | giveBack refused =>
    refine ⟨0, 0, rfl, ?_, .inl rfl⟩
    rcases capture.giveBack_cases refused with
      same | ⟨bytes, ⟨-, next⟩ | ⟨endedAtNs, droppedMessages, -, next⟩⟩
    · rw [Capture.perform, same]
      rfl
    · rw [Capture.perform, next]
      rfl
    · rw [Capture.perform, next]
      rfl

/-- Apart from frames that are no JSON, at least this many have been dropped. -/
def Spared (settings : CaptureSettings) (dropped : Nat) (both : Capture × CaptureLog) : Prop :=
  both.2.undecoded settings + dropped ≤ both.1.queue.droppedMessages

/-- What has been dropped stays dropped. -/
theorem Spared.observed {dropped : Nat} {both : Capture × CaptureLog} (spared : Spared settings dropped both)
    (steps : List CaptureStep) : Spared settings dropped (Capture.observed settings both steps) := by
  refine Capture.observed_induct (Spared settings dropped) spared ?_
  intro both step _ before
  obtain ⟨undecoded, lost, logged, counted, -⟩ := dropped_cases settings both.1 both.2 step
  unfold Spared at before ⊢
  rw [logged, counted]
  omega

/-! ## A writer that keeps up -/

/-- Everything that was recorded has been handled. -/
structure Capture.CaughtUp (capture : Capture) : Prop where
  sending : capture.sending = []
  channel : capture.queue.channel = []
  phase : capture.writer.phase = .receiving

/-- In such a state only the window has bytes reserved. -/
theorem Capture.CaughtUp.queuedBytes (caught : capture.CaughtUp) (budgeted : Budgeted capture) :
    capture.queue.queuedBytes = reservations capture.writer.pending := by
  unfold Budgeted Capture.queued at budgeted
  rw [caught.sending, caught.channel, caught.phase] at budgeted
  exact budgeted

/-- This holds whenever a frame is recorded. -/
def AtRecords (settings : CaptureSettings) (holds : Capture → StampedFrame → Prop) : Capture → List CaptureStep → Prop
  | _, [] => True
  | capture, step :: rest =>
    (∀ stamped ∈ capture.forwarding, step = .record stamped.seq → holds capture stamped) ∧
      AtRecords settings holds (capture.perform settings step) rest

theorem atRecords_append {holds : Capture → StampedFrame → Prop} {steps others : List CaptureStep}
    (first : AtRecords settings holds capture steps) (second : AtRecords settings holds (capture.run settings steps) others) :
    AtRecords settings holds capture (steps ++ others) := by
  induction steps generalizing capture with
  | nil => exact second
  | cons step rest ih => exact ⟨first.1, ih first.2 second⟩

/-- Nothing is claimed of the other steps. -/
theorem atRecords_of_ne_record {holds : Capture → StampedFrame → Prop} {steps : List CaptureStep}
    (other : ∀ step ∈ steps, ∀ seq, step ≠ .record seq) : AtRecords settings holds capture steps := by
  induction steps generalizing capture with
  | nil => trivial
  | cons step rest ih =>
    obtain ⟨head, tail⟩ := List.forall_mem_cons.1 other
    exact ⟨fun stamped _ same => absurd same (head stamped.seq), ih tail⟩

/-- The writer handles each event before the next frame is recorded. -/
def Prompt (settings : CaptureSettings) (steps : List CaptureStep) : Prop :=
  AtRecords settings (fun capture _ => capture.CaughtUp) .start steps

/-- What is left of the budget next to the messages that the writer holds back, because a number before
them is missing, is enough for the frame. -/
def FitsBeside (settings : CaptureSettings) (capture : Capture) (stamped : StampedFrame) : Prop :=
  stamped.decodeMessage settings ≠ none →
    reservations capture.writer.pending + stamped.reservation ≤ settings.maxBytes

def KeepsRoom (settings : CaptureSettings) (steps : List CaptureStep) : Prop :=
  AtRecords settings (FitsBeside settings) .start steps

/-- The database refuses nothing. -/
def CaptureStep.Reliable : CaptureStep → Prop
  | .handle refused => ∀ index, refused index = false
  | .giveBack refused => refused.count = false ∧ refused.close = false
  | _ => True

/-- At most one message is on its way, and then the writer waits for it. -/
def Capture.InTurn (capture : Capture) : Prop :=
  capture.sending = [] ∨ ∃ queued, capture.sending = [queued] ∧ capture.queue.channel = [] ∧
    capture.writer.phase = .receiving

theorem Capture.InTurn.perform (turn : capture.InTurn) {step : CaptureStep}
    (prompt : ∀ seq, step = .record seq → (∃ stamped ∈ capture.forwarding, stamped.seq = seq) → capture.CaughtUp) :
    (capture.perform settings step).InTurn := by
  cases step with
  | stamp direction timestampNs frame =>
    change (capture.stamp direction timestampNs frame).InTurn
    unfold Capture.stamp
    split_ifs <;> exact turn
  | abandon seq => exact turn
  | record seq =>
    change (capture.record settings seq).InTurn
    rcases capture.record_cases settings { handed := [], redacted := [], pressed := false } seq with
      ⟨-, same, -⟩ | ⟨stamped, member, number, -, outcome⟩
    · rwa [same]
    · have caught := prompt seq rfl ⟨stamped, member, number⟩
      rcases outcome with ⟨-, lost⟩ | ⟨message, -, -, kept⟩
      · rw [lost]
        exact .inl caught.sending
      · rw [kept]
        exact .inr ⟨_, congrArg (· ++ _) caught.sending, caught.channel, caught.phase⟩
  | send seq =>
    change (capture.send settings seq).InTurn
    rcases capture.send_cases settings seq with same | ⟨queued, member, number, outcome⟩
    · rwa [same]
    · have empty : capture.sending.filter (fun other => other.seq ≠ seq) = [] := by
        rcases turn with none | ⟨only, one, -⟩
        · rw [none] at member
          cases member
        · rw [one] at member ⊢
          obtain rfl := List.mem_singleton.1 member
          simp [number]
      rcases outcome with ⟨-, lost⟩ | kept
      · rw [lost]
        exact .inl empty
      · rw [kept]
        exact .inl empty
  | close endedAtNs =>
    change (capture.close settings endedAtNs).InTurn
    rcases capture.close_cases settings endedAtNs with same | ⟨⟨-, -, sending⟩, sent⟩
    · rwa [same]
    · rw [sent]
      exact .inl sending
  | collect count =>
    change (capture.collect count).InTurn
    rcases turn with none | ⟨only, one, channel, phase⟩
    · rcases capture.collect_cases count with same | ⟨-, messages, close, rest, -, next⟩
      · rw [same]
        exact .inl none
      · rw [next]
        exact .inl none
    · -- There is nothing to collect.
      have idle : capture.collect count = capture := by
        unfold Capture.collect
        rw [phase, channel]
        cases min count storageWriteBatchMessages <;> rfl
      rw [idle]
      exact .inr ⟨only, one, channel, phase⟩
  | handle refused =>
    change (capture.handle settings refused).InTurn
    rcases capture.handle_cases settings { handed := [], redacted := [], pressed := false } refused with
      ⟨same, -⟩ | ⟨messages, close, busy, next, -⟩
    · rwa [same]
    · rcases turn with none | ⟨only, one, channel, phase⟩
      · rw [next]
        exact .inl none
      · cases busy.symm.trans phase
  | giveBack refused =>
    change (capture.giveBack refused).InTurn
    rcases capture.giveBack_cases refused with
      same | ⟨bytes, ⟨busy, next⟩ | ⟨endedAtNs, droppedMessages, busy, next⟩⟩
    · rwa [same]
    all_goals
      rcases turn with none | ⟨only, one, channel, phase⟩
      · rw [next]
        exact .inl none
      · cases busy.symm.trans phase

/-- Without refusals everything that is redacted is stored. -/
theorem StorageWriter.writeBatches_accepted (codec : Json.Codec) {refused : Nat → Bool}
    (accepted : ∀ index, refused index = false) (index : Nat) (state : WriterState) {table : SessionTable}
    {batches : List (List McpMessage)}
    (distinct : (table.messages.map StoredMessage.seq ++ batches.flatten.map McpMessage.seq).Nodup) :
    (writeBatches codec refused index state table batches).2.messages =
      table.messages ++ batches.flatten.map (StoredMessage.ofMessage codec) := by
  induction batches generalizing index table with
  | nil => exact (List.append_nil _).symm
  | cons batch rest ih =>
    have rows (messages : List McpMessage) :
        (messages.map (StoredMessage.ofMessage codec)).map StoredMessage.seq = messages.map McpMessage.seq :=
      List.map_map ..
    rw [List.flatten_cons, List.map_append, ← List.append_assoc] at distinct
    have unique : ((table.messages ++ batch.map (StoredMessage.ofMessage codec)).map StoredMessage.seq).Nodup := by
      rw [List.map_append, rows]
      exact (List.nodup_append.1 distinct).1
    have written : table.writeMessages codec (refused index) batch =
        some { table with messages := table.messages ++ batch.map (StoredMessage.ofMessage codec) } := by
      unfold SessionTable.writeMessages
      simp only [accepted index, Bool.false_eq_true, if_false, if_pos unique]
    unfold writeBatches
    rw [written]
    dsimp only
    rw [ih, List.append_assoc, List.flatten_cons, List.map_append]
    rwa [List.map_append, rows]

theorem Written.handle_accepted {writer : StorageWriter} (written : Written writer log []) {refused : Nat → Bool}
    (accepted : ∀ index, refused index = false) (messages : List QueuedMessage) (close : Option (Int × Nat))
    (pressed : Bool)
    (distinct : (log.redacted ++ (writer.released messages close.isSome).items.map QueuedMessage.seq).Nodup) :
    Written (writer.handle settings refused messages close) { log with
      redacted := log.redacted ++ (writer.released messages close.isSome).items.map QueuedMessage.seq
      pressed := pressed } [] := by
  have before : log.redacted.Perm (writer.table.messages.map StoredMessage.seq) := by
    have balance := written.balance
    rwa [List.append_nil] at balance
  refine ⟨?_, by rw [List.length_nil, Nat.zero_min]; exact Nat.zero_le _⟩
  unfold StorageWriter.handle
  dsimp only
  generalize hstate : (if (writer.released messages close.isSome).pressed && !writer.state.contextLossReported then
    writer.state.reportFailure "redaction sequence context was incomplete" else writer.state) = state
  obtain ⟨seqs, -, -⟩ := WriterState.redactMessages_spec settings.codec settings.redactor state
    ((writer.released messages close.isSome).items.map QueuedMessage.message)
    (show min 0 WriterState.maxFailedRecords ≤ _ from Nat.zero_le _)
  have numbers : (state.redactMessages settings.codec settings.redactor
      ((writer.released messages close.isSome).items.map QueuedMessage.message)).2.map McpMessage.seq =
        (writer.released messages close.isSome).items.map QueuedMessage.seq := by
    rw [seqs, List.map_map]
    rfl
  have whole := flatten_chunks (show 0 < storageWriteBatchMessages by decide)
    (state.redactMessages settings.codec settings.redactor
      ((writer.released messages close.isSome).items.map QueuedMessage.message)).2
  rw [StorageWriter.writeBatches_accepted settings.codec accepted, whole, List.map_append, List.map_map,
    List.append_nil]
  · refine before.append ?_
    rw [← numbers]
    exact List.Perm.refl _
  · rw [whole, numbers]
    exact (before.append_right _).nodup_iff.1 distinct

/-- A frame that does not fit beside what the writer holds back is lost for good. -/
theorem spared_record {both : Capture × CaptureLog} (sound : Sound settings both) (budgeted : Budgeted both.1)
    (caught : both.1.CaughtUp) {stamped : StampedFrame} (member : stamped ∈ both.1.forwarding)
    (decodes : stamped.decodeMessage settings ≠ none)
    (full : settings.maxBytes < reservations both.1.writer.pending + stamped.reservation)
    (spared : Spared settings 0 both) :
    Spared settings 1 (both.1.perform settings (.record stamped.seq), both.1.observe both.2 (.record stamped.seq)) := by
  obtain ⟨⟨dropped, conserved⟩, -, -, -⟩ := sound
  unfold Spared at spared ⊢
  rcases both.1.record_cases settings both.2 stamped.seq with
    ⟨absent, -, -⟩ | ⟨other, inside, number, logged, outcome⟩
  · exact absurd rfl (absent stamped member)
  · obtain rfl := List.inj_on_of_nodup_map conserved.forwarding_nodup inside member number
    rcases outcome with ⟨-, lost⟩ | ⟨message, -, room, -⟩
    · rw [Capture.perform, lost, logged, undecoded_concat, if_neg decodes]
      exact Nat.succ_le_succ spared
    · rw [caught.queuedBytes budgeted] at room
      exact absurd room (not_le.2 full)

/-! ## The whole run -/

/-- Nothing but frames that are no JSON has been lost. -/
structure Lossless (settings : CaptureSettings) (both : Capture × CaptureLog) : Prop where
  turn : both.1.InTurn
  exact : both.1.queue.droppedMessages = both.2.undecoded settings
  written : Written both.1.writer both.2 []

theorem Lossless.perform {both : Capture × CaptureLog} (lossless : Lossless settings both)
    (sound : Sound settings both) (budgeted : Budgeted both.1) {step : CaptureStep} (reliable : step.Reliable)
    (prompt : ∀ stamped ∈ both.1.forwarding, step = .record stamped.seq → both.1.CaughtUp ∧
      (stamped.decodeMessage settings ≠ none →
        reservations both.1.writer.pending + stamped.reservation ≤ settings.maxBytes)) :
    Lossless settings (both.1.perform settings step, both.1.observe both.2 step) := by
  refine ⟨lossless.turn.perform fun seq same ⟨stamped, member, number⟩ =>
    (prompt stamped member (number ▸ same)).1, ?_, ?_⟩
  · obtain ⟨undecoded, lost, logged, counted, reason⟩ := dropped_cases settings both.1 both.2 step
    have none : lost = 0 := by
      rcases reason with zero | ⟨stamped, member, same, decodes, full⟩ | ⟨queued, member, -, refused⟩
      · exact zero
      · obtain ⟨caught, room⟩ := prompt stamped member same
        rw [caught.queuedBytes budgeted] at full
        exact absurd (room decodes) (not_le.2 full)
      · rcases lossless.turn with empty | ⟨only, -, channel, phase⟩
        · rw [empty] at member
          cases member
        · unfold Capture.connected at refused
          rw [phase, channel] at refused
          rcases refused with gone | full
          · cases gone
          · exact absurd settings.roomy (not_lt.2 full)
    rw [logged, counted, lossless.exact, none]
    rfl
  · by_cases round : ∃ refused, step = .handle refused
    · obtain ⟨refused, rfl⟩ := round
      obtain ⟨⟨dropped, conserved⟩, -, -, -⟩ := sound
      rcases both.1.handle_cases settings both.2 refused with
        ⟨same, unlogged⟩ | ⟨messages, close, -, next, logged⟩
      · rw [Capture.perform, same, unlogged]
        exact lossless.written
      · have after : Conserved (both.1.handle settings refused) (both.1.observe both.2 (.handle refused)) dropped :=
          conserved.handle refused
        have numbers := after.queued_nodup
        rw [logged] at numbers
        rw [Capture.perform, next, logged]
        exact lossless.written.handle_accepted reliable messages close _ (List.nodup_append.1 numbers).2.1
    · exact lossless.written.keep fun refused same => round ⟨refused, same⟩

theorem Lossless.observed {both : Capture × CaptureLog} (lossless : Lossless settings both)
    (sound : Sound settings both) (budgeted : Budgeted both.1) {steps : List CaptureStep}
    (prompt : AtRecords settings (fun capture _ => capture.CaughtUp) both.1 steps)
    (room : AtRecords settings (FitsBeside settings) both.1 steps) (reliable : ∀ step ∈ steps, step.Reliable) :
    Lossless settings (Capture.observed settings both steps) := by
  induction steps generalizing both with
  | nil => exact lossless
  | cons step rest ih =>
    obtain ⟨now, later⟩ := List.forall_mem_cons.1 reliable
    obtain ⟨⟨dropped, conserved⟩, -, -, -⟩ := id sound
    exact ih (lossless.perform sound budgeted now fun stamped member same =>
      ⟨prompt.1 stamped member same, room.1 stamped member same⟩) (sound.perform step)
      (budgeted.perform conserved step) prompt.2 room.2 later

/-- If no frame that is JSON gets lost, there was always room. -/
theorem keepsRoom_of_spared {both : Capture × CaptureLog} (sound : Sound settings both) (budgeted : Budgeted both.1)
    (spared : Spared settings 0 both) {steps : List CaptureStep}
    (prompt : AtRecords settings (fun capture _ => capture.CaughtUp) both.1 steps)
    (lossless : ¬ Spared settings 1 (Capture.observed settings both steps)) :
    AtRecords settings (FitsBeside settings) both.1 steps := by
  induction steps generalizing both with
  | nil => trivial
  | cons step rest ih =>
    obtain ⟨⟨dropped, conserved⟩, -, -, -⟩ := id sound
    refine ⟨?_, ih (sound.perform step) (budgeted.perform conserved step) (spared.observed [step]) prompt.2 lossless⟩
    rintro stamped member rfl decodes
    by_contra full
    exact lossless ((spared_record sound budgeted (prompt.1 stamped member rfl) member decodes
      (not_le.1 full) spared).observed rest)

/-- A loss that is more than what is no JSON shows in the store. -/
theorem decoded_missing_of_spared {both : Capture × CaptureLog} (sound : Sound settings both) (ending : Ending both.1)
    (closed : both.1.writer.table.endedAtNs ≠ none) (spared : Spared settings 1 both) :
    ¬ ∀ stamped ∈ both.1.writer.table.missing both.2.handed, stamped.decodeMessage settings = none := by
  intro undecoded
  obtain ⟨⟨dropped, conserved⟩, ⟨failed, written⟩, -, -⟩ := sound
  have missing := missing_length conserved written (ending.of_closed closed).1
  have few : both.2.handed.countP
      (fun stamped => stamped.seq ∉ both.1.writer.table.messages.map StoredMessage.seq) ≤ both.2.undecoded settings :=
    List.countP_mono_left fun stamped handed gone =>
      Option.isNone_iff_eq_none.2 (undecoded stamped (List.mem_filter.2 ⟨handed, gone⟩))
  rw [List.countP_eq_length_filter] at few
  unfold Spared at spared
  unfold SessionTable.missing at missing
  omega

theorem undecoded_of_lossless {both : Capture × CaptureLog} (sound : Sound settings both) (ending : Ending both.1)
    (closed : both.1.writer.table.endedAtNs ≠ none) (lossless : Lossless settings both) :
    ∀ stamped ∈ both.1.writer.table.missing both.2.handed, stamped.decodeMessage settings = none := by
  obtain ⟨⟨dropped, conserved⟩, ⟨failed, written⟩, genuine, -⟩ := sound
  obtain ⟨ended, counted⟩ := ending.of_closed closed
  have missing := missing_length conserved lossless.written ended
  rw [lossless.exact, List.length_nil, Nat.add_zero] at missing
  unfold SessionTable.missing at missing ⊢
  rw [← List.countP_eq_length_filter] at missing
  intro stamped member
  obtain ⟨handed, gone⟩ := List.mem_filter.1 member
  refine Option.isNone_iff_eq_none.1 (forall_of_countP_le ?_ missing.le stamped handed gone)
  -- What is no JSON has no row, because rows come from frames that decode.
  intro other inside invalid
  rcases (admitsLoss conserved written genuine ended counted).stored other inside with
    ⟨message, context, decoded, -⟩ | gone
  · rw [decoded] at invalid
    cases invalid
  · exact (List.mem_filter.1 gone).2

theorem lossless_begin : Lossless settings Capture.begin :=
  ⟨.inl rfl, rfl, List.Perm.refl _, Nat.zero_le _⟩

/-- In a session that is written as it is recorded, the frames that are missing at the end are all no JSON if
and only if every frame that is JSON fits beside the messages which the writer holds back before it. -/
theorem only_undecoded_missing_iff (settings : CaptureSettings) (steps : List CaptureStep)
    (prompt : Prompt settings steps) (reliable : ∀ step ∈ steps, step.Reliable)
    (closed : (Capture.observed settings Capture.begin steps).1.writer.table.endedAtNs ≠ none) :
    (∀ stamped ∈ (Capture.observed settings Capture.begin steps).1.writer.table.missing
        (Capture.observed settings Capture.begin steps).2.handed, stamped.decodeMessage settings = none) ↔
      KeepsRoom settings steps := by
  have sound := sound_observed settings steps
  have ending := ending_observed settings fun refused member => (reliable (.giveBack refused) member).1
  constructor
  · intro undecoded
    exact keepsRoom_of_spared sound_begin rfl (Nat.zero_le _) prompt fun spared =>
      decoded_missing_of_spared sound ending closed spared undecoded
  · intro room
    exact undecoded_of_lossless sound ending closed (lossless_begin.observed sound_begin rfl prompt room reliable)

/-! ## A writer that waits

After a frame that is no JSON the writer holds back what follows, as long as that is few messages.
-/

/-- The steps of a frame that is handled before the next one. -/
def arrival (seq : Nat) (direction : Direction) (timestampNs : Int) (frame : StdioFrame) : List CaptureStep :=
  [.stamp direction timestampNs frame, .record seq, .send seq, .collect 1, .handle (fun _ => false),
    .giveBack ⟨false, false⟩]

/-- Nothing is under way; the writer holds messages back behind a number that is missing. -/
structure Stalled (capture : Capture) (seq : Nat) (held : List QueuedMessage) : Prop where
  number : capture.queue.seq = seq
  caught : capture.CaughtUp
  forwarding : capture.forwarding = []
  unfinished : capture.finished = false
  pending : capture.writer.pending = held
  missing : capture.writer.nextSeq < seq
  behind : ∀ queued ∈ held, capture.writer.nextSeq < queued.seq ∧ queued.seq < seq
  bytes : capture.queue.queuedBytes = reservations held

/-- A round whose message is still waited for, or waits itself, stores nothing. -/
theorem StorageWriter.handle_waits {writer : StorageWriter} {queued : QueuedMessage} (refused : Nat → Bool)
    (few : writer.pending.length + 1 < storageReorderMaxMessages)
    (behind : ∀ other ∈ writer.pending, writer.nextSeq < other.seq ∧ other.seq < queued.seq)
    (missing : writer.nextSeq < queued.seq) :
    writer.handle settings refused [queued] none =
      { writer with phase := .releasing 0 none, pending := writer.pending ++ [queued] } := by
  have inserted : insertNumbered QueuedMessage.seq queued writer.pending = writer.pending ++ [queued] :=
    insertNumbered_last fun other member => (behind other member).2
  have waits : writer.released [queued] false = ⟨[], writer.pending ++ [queued], writer.nextSeq, false⟩ := by
    unfold StorageWriter.released
    rw [List.foldl_cons, List.foldl_nil, inserted]
    refine release_waits (by simpa using few) fun other member => ?_
    rcases List.mem_append.1 member with earlier | last
    · exact (behind other earlier).1
    · rwa [List.mem_singleton.1 last]
  unfold StorageWriter.handle
  rw [Option.isSome_none, waits]
  rfl

section
variable {seq : Nat} {held : List QueuedMessage} (stalled : Stalled capture seq held) (direction : Direction) (timestampNs : Int)
  (frame : StdioFrame)
include stalled

/-- What a stalled writer does with a message that fits. -/
theorem Stalled.arrive {payload : Json.Value} (decodes : settings.fromSlice frame.jsonBytes = some payload)
    (room : reservations held + (frame.jsonBytes.length + storageEventOverheadBytes) ≤ settings.maxBytes)
    (few : held.length + 1 < storageReorderMaxMessages) :
    Stalled (capture.run settings (arrival seq direction timestampNs frame)) (seq + 1)
      (held ++ [⟨⟨seq, timestampNs, direction, payload, frame.jsonBytes.length⟩,
        frame.jsonBytes.length + storageEventOverheadBytes⟩]) := by
  rcases capture with ⟨⟨current, dropped, bytes, channel⟩, forwarding, sending, finished,
    ⟨phase, pending, nextSeq, state, table⟩⟩
  obtain ⟨number, ⟨sent, empty, receiving⟩, none, unfinished, kept, missing, behind, reserved⟩ := stalled
  dsimp only at number sent empty receiving none unfinished kept missing behind reserved
  subst number sent empty receiving none unfinished kept reserved
  have first : ¬ settings.maxBytes < frame.jsonBytes.length + storageEventOverheadBytes := by omega
  have rest : ¬ settings.maxBytes - (frame.jsonBytes.length + storageEventOverheadBytes) < reservations pending := by
    omega
  simp [arrival, Capture.run, Capture.perform, Capture.stamp, Capture.record, StorageQueue.reserveEvent,
    StampedFrame.decodeMessage, decodes, StorageQueue.tryReserve, first, rest, Capture.send, StorageQueue.trySend,
    Capture.connected, settings.roomy, QueuedMessage.seq, Capture.collect, StorageWriter.collectEvents,
    storageWriteBatchMessages, Capture.handle]
  rw [StorageWriter.handle_waits _ few behind missing]
  refine ⟨rfl, ⟨rfl, rfl, rfl⟩, rfl, rfl, rfl, missing.trans (Nat.lt_succ_self _), ?_, ?_⟩
  · intro queued member
    rcases List.mem_append.1 member with earlier | last
    · exact ⟨(behind queued earlier).1, (behind queued earlier).2.trans (Nat.lt_succ_self _)⟩
    · rw [List.mem_singleton.1 last]
      exact ⟨missing, Nat.lt_succ_self _⟩
  · rw [reservations_append]
    rfl

/-- A frame that does not fit leaves the writer as it is. -/
theorem Stalled.refuse (full : settings.maxBytes <
      reservations held + (frame.jsonBytes.length + storageEventOverheadBytes)) :
    Stalled (capture.run settings [.stamp direction timestampNs frame, .record seq]) (seq + 1) held := by
  rcases capture with ⟨⟨current, dropped, bytes, channel⟩, forwarding, sending, finished,
    ⟨phase, pending, nextSeq, state, table⟩⟩
  obtain ⟨number, ⟨sent, empty, receiving⟩, none, unfinished, kept, missing, behind, reserved⟩ := stalled
  dsimp only at number sent empty receiving none unfinished kept missing behind reserved
  subst number sent empty receiving none unfinished kept reserved
  have refused (stamped : StampedFrame) (same : stamped.frame = frame) :
      StorageQueue.reserveEvent settings ⟨current + 1, dropped, reservations pending, []⟩ stamped =
        (StorageQueue.drop ⟨current + 1, dropped, reservations pending, []⟩, .none) := by
    rcases StorageQueue.reserveEvent_cases settings ⟨current + 1, dropped, reservations pending, []⟩ stamped with
      ⟨-, lost⟩ | ⟨message, -, room, -⟩
    · exact lost
    · unfold StampedFrame.reservation at room
      rw [same] at room
      exact absurd room (not_le.2 full)
  simp [Capture.run, Capture.perform, Capture.stamp, Capture.record, refused, StorageQueue.drop]
  exact ⟨rfl, ⟨rfl, rfl, rfl⟩, rfl, rfl, rfl, missing.trans (Nat.lt_succ_self _),
    fun queued member => ⟨(behind queued member).1, (behind queued member).2.trans (Nat.lt_succ_self _)⟩, rfl⟩

theorem Stalled.prompt {others : List CaptureStep}
    (later : AtRecords settings (fun capture _ => capture.CaughtUp)
      (capture.run settings [.stamp direction timestampNs frame, .record seq]) others) :
    AtRecords settings (fun capture _ => capture.CaughtUp) capture
      (.stamp direction timestampNs frame :: .record seq :: others) := by
  refine ⟨fun stamped _ same => (by cases same), fun stamped _ _ => ?_, later⟩
  change (capture.stamp direction timestampNs frame).CaughtUp
  unfold Capture.stamp
  rw [if_neg (by simp [stalled.unfinished])]
  exact ⟨stalled.caught.sending, stalled.caught.channel, stalled.caught.phase⟩

theorem Stalled.prompt_arrival :
    AtRecords settings (fun capture _ => capture.CaughtUp) capture (arrival seq direction timestampNs frame) :=
  stalled.prompt direction timestampNs frame (atRecords_of_ne_record (by simp))

theorem Stalled.closes (settings : CaptureSettings) (endedAtNs : Int) :
    (capture.run settings [.close endedAtNs, .collect 1, .handle (fun _ => false), .giveBack ⟨false, false⟩]
      ).writer.table.endedAtNs = some endedAtNs := by
  rcases capture with ⟨⟨current, dropped, bytes, channel⟩, forwarding, sending, finished,
    ⟨phase, pending, nextSeq, state, table⟩⟩
  obtain ⟨number, ⟨sent, empty, receiving⟩, none, unfinished, -, -, -, -⟩ := stalled
  dsimp only at number sent empty receiving none unfinished
  subst number sent empty receiving none unfinished
  have roomy : settings.capacity ≠ 0 := settings.roomy.ne'
  simp [Capture.run, Capture.perform, Capture.close, roomy, Capture.collect, StorageWriter.collectEvents,
    storageWriteBatchMessages, Capture.handle, StorageWriter.handle, Capture.giveBack, StorageWriter.finish,
    StorageWriter.closeSession, SessionTable.closeSession]

end

/-- A frame that does decode is then lost. -/
theorem Stalled.lose {both : Capture × CaptureLog} {seq : Nat} {held : List QueuedMessage}
    (stalled : Stalled both.1 seq held) (direction : Direction) (timestampNs : Int) (frame : StdioFrame)
    (sound : Sound settings both) (budgeted : Budgeted both.1) (spared : Spared settings 0 both)
    (decodes : settings.fromSlice frame.jsonBytes ≠ none)
    (full : settings.maxBytes < reservations held + (frame.jsonBytes.length + storageEventOverheadBytes)) :
    Spared settings 1 (Capture.observed settings both [.stamp direction timestampNs frame, .record seq]) := by
  obtain ⟨⟨dropped, conserved⟩, -, -, -⟩ := id sound
  have stamped : both.1.stamp direction timestampNs frame = { both.1 with
      queue := { both.1.queue with seq := both.1.queue.seq + 1 }
      forwarding := [⟨seq, timestampNs, direction, frame⟩] } := by
    unfold Capture.stamp
    rw [if_neg (by simp [stalled.unfinished]), stalled.forwarding, stalled.number, List.nil_append]
  have later : Budgeted (both.1.stamp direction timestampNs frame) :=
    @Budgeted.perform settings _ _ budgeted _ conserved (.stamp direction timestampNs frame)
  have next := sound.perform (.stamp direction timestampNs frame)
  have kept := spared.observed [.stamp direction timestampNs frame]
  have caught : (both.1.stamp direction timestampNs frame).CaughtUp := by
    rw [stamped]
    exact ⟨stalled.caught.sending, stalled.caught.channel, stalled.caught.phase⟩
  have member : ⟨seq, timestampNs, direction, frame⟩ ∈ (both.1.stamp direction timestampNs frame).forwarding := by
    rw [stamped]
    exact List.mem_cons_self
  have pending : (both.1.stamp direction timestampNs frame).writer.pending = held := by
    rw [stamped]
    exact stalled.pending
  refine spared_record next later caught member (fun none => decodes ?_) ?_ kept
  · exact Option.map_eq_none_iff.1 none
  · change settings.maxBytes < reservations (both.1.stamp direction timestampNs frame).writer.pending + _
    rw [pending]
    exact full

/-- An empty object and blanks behind it. -/
def blankFrame (blanks : Nat) (capped : blanks + 2 < maxFrameBytes) : StdioFrame where
  jsonBytes := 123 :: 125 :: List.replicate blanks 32
  filled := List.cons_ne_nil _ _
  capped := by simpa using capped

theorem blankFrame_length (blanks : Nat) (capped : blanks + 2 < maxFrameBytes) :
    (blankFrame blanks capped).jsonBytes.length = blanks + 2 := by
  simp [blankFrame]

theorem blankFrame_decodes (blanks : Nat) (capped : blanks + 2 < maxFrameBytes) :
    blankSettings.fromSlice (blankFrame blanks capped).jsonBytes = some (.object []) := by
  simp [blankSettings, blankObject, blankFrame]

/-- A frame of six mebibytes. -/
def wideFrame : StdioFrame := blankFrame 6291454 (by decide)

theorem wideFrame_length : wideFrame.jsonBytes.length = 6291456 := blankFrame_length _ _

theorem wideFrame_decodes : blankSettings.fromSlice wideFrame.jsonBytes = some (.object []) := blankFrame_decodes _ _

-- Its bytes are too many to look at.
attribute [irreducible] wideFrame

theorem textBytes_filled : [(120 : UInt8)] ≠ [] := by decide

theorem textBytes_capped : [(120 : UInt8)].length < maxFrameBytes := by decide

/-- A frame that is no JSON. -/
def textFrame : StdioFrame := ⟨[120], textBytes_filled, textBytes_capped⟩

/-- The writer waits for a frame that is no JSON while a wide one arrives. -/
def wideBefore : List CaptureStep :=
  [.stamp .clientToServer 0 textFrame, .record 0] ++ (arrival 1 .serverToClient 1 wideFrame ++
    arrival 2 .serverToClient 2 wideFrame)

def wideAfter : List CaptureStep :=
  [.close 4, .collect 1, .handle (fun _ => false), .giveBack ⟨false, false⟩]

/-- One frame that is no JSON, and three wide ones. -/
def wideSteps : List CaptureStep :=
  wideBefore ++ ([.stamp .serverToClient 3 wideFrame, .record 3] ++ wideAfter)

/-- What the writer holds back after that many wide frames. -/
def wideHeld : Nat → List QueuedMessage
  | 0 => []
  | count + 1 => wideHeld count ++
    [⟨⟨count + 1, (count : Int) + 1, .serverToClient, .object [], wideFrame.jsonBytes.length⟩,
      wideFrame.jsonBytes.length + storageEventOverheadBytes⟩]

theorem wideHeld_reservations (count : Nat) : reservations (wideHeld count) = count * 6292480 := by
  induction count with
  | zero => rfl
  | succ count ih =>
    rw [wideHeld, reservations_append, ih, wideFrame_length]
    unfold reservations storageEventOverheadBytes
    simp only [List.map_cons, List.map_nil, List.sum_cons, List.sum_nil]
    omega

theorem run_append (settings : CaptureSettings) (capture : Capture) (steps others : List CaptureStep) :
    capture.run settings (steps ++ others) = (capture.run settings steps).run settings others :=
  List.foldl_append ..

theorem stalled_text : Stalled (Capture.start.run blankSettings [.stamp .clientToServer 0 textFrame, .record 0]) 1
    (wideHeld 0) :=
  ⟨rfl, ⟨rfl, rfl, rfl⟩, rfl, rfl, rfl, Nat.zero_lt_one, fun _ member => absurd member List.not_mem_nil, rfl⟩

theorem Stalled.wide {capture : Capture} {count : Nat} (stalled : Stalled capture (count + 1) (wideHeld count))
    (few : count < 2) : Stalled (capture.run blankSettings
      (arrival (count + 1) .serverToClient ((count : Int) + 1) wideFrame)) (count + 2) (wideHeld (count + 1)) := by
  refine stalled.arrive .serverToClient _ wideFrame wideFrame_decodes ?_ ?_
  · rw [wideHeld_reservations, wideFrame_length]
    change count * 6292480 + (6291456 + 1024) ≤ 16777216
    omega
  · have length : ∀ count, (wideHeld count).length = count := by
      intro count
      induction count with
      | zero => rfl
      | succ count ih => rw [wideHeld, List.length_append, ih, List.length_singleton]
    rw [length]
    unfold storageReorderMaxMessages
    omega

theorem stalled_wideBefore : Stalled (Capture.start.run blankSettings wideBefore) 3 (wideHeld 2) := by
  unfold wideBefore
  rw [run_append, run_append]
  exact (stalled_text.wide (by decide)).wide (by decide)

theorem wideHeld_full : blankSettings.maxBytes <
    reservations (wideHeld 2) + (wideFrame.jsonBytes.length + storageEventOverheadBytes) := by
  rw [wideHeld_reservations, wideFrame_length]
  decide

theorem wideSteps_prompt : Prompt blankSettings wideSteps := by
  have text : AtRecords blankSettings (fun capture _ => capture.CaughtUp) .start
      [.stamp .clientToServer 0 textFrame, .record 0] :=
    ⟨fun stamped _ same => (by cases same), fun stamped _ _ => ⟨rfl, rfl, rfl⟩, trivial⟩
  have first := stalled_text.wide (by decide)
  have before : AtRecords blankSettings (fun capture _ => capture.CaughtUp) .start wideBefore :=
    atRecords_append text (atRecords_append (stalled_text.prompt_arrival .serverToClient 1 wideFrame)
      (first.prompt_arrival .serverToClient 2 wideFrame))
  exact atRecords_append before (stalled_wideBefore.prompt .serverToClient 3 wideFrame
    (atRecords_of_ne_record (by simp [wideAfter])))

theorem wideSteps_reliable : ∀ step ∈ wideSteps, step.Reliable := by
  simp [wideSteps, wideBefore, wideAfter, arrival, CaptureStep.Reliable]

theorem wideSteps_closed :
    (Capture.observed blankSettings Capture.begin wideSteps).1.writer.table.endedAtNs ≠ none := by
  have refused := stalled_wideBefore.refuse .serverToClient 3 wideFrame wideHeld_full
  have ended := refused.closes blankSettings 4
  rw [Capture.observed_fst, wideSteps, run_append, run_append]
  exact ne_of_eq_of_ne ended (Option.some_ne_none 4)

/-- The last wide frame is lost. -/
theorem wideSteps_spared : Spared blankSettings 1 (Capture.observed blankSettings Capture.begin wideSteps) := by
  have state := Capture.observed_fst blankSettings Capture.begin wideBefore
  have before : Stalled (Capture.observed blankSettings Capture.begin wideBefore).1 3 (wideHeld 2) := by
    rw [state]
    exact stalled_wideBefore
  have lost := before.lose .serverToClient 3 wideFrame (sound_observed blankSettings wideBefore)
    (budgeted_observed blankSettings wideBefore) (Spared.observed (Nat.zero_le _) wideBefore)
    (ne_of_eq_of_ne wideFrame_decodes (Option.some_ne_none _)) wideHeld_full
  rw [wideSteps, Capture.observed_append, Capture.observed_append]
  exact lost.observed wideAfter

/-- Every wide frame fits by itself, and is JSON, but after a frame that is not, the third one is missing. -/
theorem wide_frame_missing :
    Prompt blankSettings wideSteps ∧ (∀ step ∈ wideSteps, step.Reliable) ∧
      (Capture.observed blankSettings Capture.begin wideSteps).1.writer.table.endedAtNs ≠ none ∧
      blankSettings.maxBytes = storageQueueMaxBytes ∧
      (∀ stamped ∈ (Capture.observed blankSettings Capture.begin wideSteps).2.handed,
        stamped.reservation ≤ blankSettings.maxBytes) ∧
      ¬ ∀ stamped ∈ (Capture.observed blankSettings Capture.begin wideSteps).1.writer.table.missing
        (Capture.observed blankSettings Capture.begin wideSteps).2.handed,
          stamped.decodeMessage blankSettings = none := by
  refine ⟨wideSteps_prompt, wideSteps_reliable, wideSteps_closed, rfl, fun stamped _ => ?_, ?_⟩
  · have capped : stamped.frame.jsonBytes.length < 8388608 := stamped.frame.capped
    unfold StampedFrame.reservation
    change _ + 1024 ≤ 16777216
    omega
  · exact decoded_missing_of_spared (sound_observed blankSettings wideSteps)
      (ending_observed blankSettings fun refused member => (wideSteps_reliable (.giveBack refused) member).1)
      wideSteps_closed wideSteps_spared

theorem only_undecoded_missing_iff_wide : ¬ KeepsRoom blankSettings wideSteps := fun room =>
  decoded_missing_of_spared (sound_observed blankSettings wideSteps)
    (ending_observed blankSettings fun refused member => (wideSteps_reliable (.giveBack refused) member).1)
    wideSteps_closed wideSteps_spared
    ((only_undecoded_missing_iff blankSettings wideSteps wideSteps_prompt wideSteps_reliable wideSteps_closed).2 room)

end McpTracer.Proxy
