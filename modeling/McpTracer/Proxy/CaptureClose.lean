import McpTracer.Proxy.CaptureAccounts

/-! Capture is complete or admits its loss.

Once the close has come through the channel nothing is queued any more, so that a frame is stored
or counted. Unless the window was pressed, redaction goes by the numbers.
-/

set_option autoImplicit false

namespace McpTracer.Proxy
open McpTracer.Foundation McpTracer.Protocol McpTracer.Redact McpTracer.Storage

variable {settings : CaptureSettings} {capture : Capture} {log : CaptureLog}

/-! ## The close comes last -/

/-- The writer has not met the close. -/
def WriterPhase.receptive : WriterPhase → Bool
  | .receiving | .handling _ none | .releasing _ none => true
  | _ => false

/-- Nothing has been said about the end of the session. -/
def SessionTable.Fresh (table : SessionTable) : Prop := table.droppedMessages = 0 ∧ table.endedAtNs = none

/-- The pumps are gone. -/
structure Capture.Quiet (capture : Capture) : Prop where
  finished : capture.finished = true
  forwarding : capture.forwarding = []
  sending : capture.sending = []

inductive Ending (capture : Capture) : Prop where
  | running (unfinished : capture.finished = false) (messages : List QueuedMessage)
      (channel : capture.queue.channel = messages.map .message)
      (receptive : capture.writer.phase.receptive = true) (fresh : capture.writer.table.Fresh)
  | sent (quiet : capture.Quiet) (messages : List QueuedMessage) (endedAtNs : Int)
      (channel : capture.queue.channel =
        messages.map .message ++ [.close endedAtNs capture.queue.droppedMessages])
      (receptive : capture.writer.phase.receptive = true) (fresh : capture.writer.table.Fresh)
  | received (quiet : capture.Quiet) (messages : List QueuedMessage) (endedAtNs : Int)
      (channel : capture.queue.channel = [])
      (phase : capture.writer.phase = .handling messages (some (endedAtNs, capture.queue.droppedMessages)))
      (fresh : capture.writer.table.Fresh)
  | handled (quiet : capture.Quiet) (bytes : Nat) (endedAtNs : Int) (channel : capture.queue.channel = [])
      (pending : capture.writer.pending = [])
      (phase : capture.writer.phase = .releasing bytes (some (endedAtNs, capture.queue.droppedMessages)))
      (fresh : capture.writer.table.Fresh)
  | closed (quiet : capture.Quiet) (channel : capture.queue.channel = []) (pending : capture.writer.pending = [])
      (phase : capture.writer.phase = .stopped)
      (counted : capture.writer.table.droppedMessages =
        wrapI64 (min (capture.queue.droppedMessages + capture.writer.state.failedMessageRecords)
          WriterState.maxFailedRecords))

namespace Capture.Quiet

/-- Without pumps only the writer does anything. -/
theorem stamp (quiet : capture.Quiet) (direction : Direction) (timestampNs : Int) (frame : StdioFrame) :
    capture.stamp direction timestampNs frame = capture := by
  unfold Capture.stamp
  rw [if_pos quiet.finished]

theorem abandon (quiet : capture.Quiet) (seq : Nat) : capture.abandon seq = capture := by
  unfold Capture.abandon
  rw [quiet.forwarding, List.filter_nil, ← quiet.forwarding]

theorem record (quiet : capture.Quiet) (seq : Nat) : capture.record settings seq = capture := by
  unfold Capture.record
  rw [quiet.forwarding, List.find?_nil]

theorem send (quiet : capture.Quiet) (seq : Nat) : capture.send settings seq = capture := by
  unfold Capture.send
  rw [quiet.sending, List.find?_nil]

theorem close (quiet : capture.Quiet) (endedAtNs : Int) : capture.close settings endedAtNs = capture := by
  unfold Capture.close
  rw [if_pos (by simp [quiet.finished])]

end Capture.Quiet

/-- What a round leaves of a channel with the close at its end. -/
theorem collected_cases {messages taken : List QueuedMessage} (last : Option (Int × Nat))
    {close : Option (Int × Nat)} {rest : List StorageEvent} (same : messages.map .message ++ closeEvents last =
      taken.map .message ++ closeEvents close ++ rest) :
    (close = none ∧ ∃ others : List QueuedMessage, rest = others.map .message ++ closeEvents last) ∨
      (close.isSome ∧ close = last ∧ rest = []) := by
  induction taken generalizing messages with
  | nil =>
    cases close with
    | none => exact .inl ⟨rfl, messages, same.symm⟩
    | some close =>
      rcases messages with - | ⟨message, messages⟩
      · cases last with
        | none => cases same
        | some last =>
          simp only [closeEvents, List.map_nil, Option.map_some, Option.toList_some, List.nil_append,
            List.singleton_append, List.cons.injEq, StorageEvent.close.injEq] at same
          exact .inr ⟨rfl, congrArg some (Prod.ext same.1.1.symm same.1.2.symm), same.2.symm⟩
      · cases same
  | cons first taken ih =>
    rcases messages with - | ⟨message, messages⟩
    · cases last <;> cases same
    · exact ih (List.cons.inj same).2

namespace Ending

theorem pump (ending : Ending capture) (unfinished : capture.finished = false) {next : Capture}
    (still : next.finished = false) {messages : List QueuedMessage}
    (channel : next.queue.channel = capture.queue.channel ++ messages.map .message)
    (writer : next.writer = capture.writer) : Ending next := by
  cases ending with
  | running _ earlier before receptive fresh =>
    refine .running still (earlier ++ messages) ?_ (writer ▸ receptive) (writer ▸ fresh)
    rw [channel, before, List.map_append]
  | sent quiet => exact absurd quiet.finished (by simp [unfinished])
  | received quiet => exact absurd quiet.finished (by simp [unfinished])
  | handled quiet => exact absurd quiet.finished (by simp [unfinished])
  | closed quiet => exact absurd quiet.finished (by simp [unfinished])

theorem quiet_or_running (ending : Ending capture) : capture.Quiet ∨ capture.finished = false := by
  cases ending with
  | running unfinished => exact .inr unfinished
  | sent quiet => exact .inl quiet
  | received quiet => exact .inl quiet
  | handled quiet => exact .inl quiet
  | closed quiet => exact .inl quiet

theorem stamp (ending : Ending capture) (direction : Direction) (timestampNs : Int) (frame : StdioFrame) :
    Ending (capture.stamp direction timestampNs frame) := by
  rcases ending.quiet_or_running with quiet | unfinished
  · rwa [quiet.stamp]
  · unfold Capture.stamp
    rw [if_neg (by simp [unfinished])]
    exact @pump _ ending unfinished _ unfinished [] (List.append_nil _).symm rfl

theorem abandon (ending : Ending capture) (seq : Nat) : Ending (capture.abandon seq) := by
  rcases ending.quiet_or_running with quiet | unfinished
  · rwa [quiet.abandon]
  · exact @pump _ ending unfinished _ unfinished [] (List.append_nil _).symm rfl

theorem record (ending : Ending capture) (seq : Nat) : Ending (capture.record settings seq) := by
  rcases ending.quiet_or_running with quiet | unfinished
  · rwa [quiet.record]
  · rcases capture.record_cases settings { handed := [], redacted := [], pressed := false } seq with
      ⟨-, same, -⟩ | ⟨stamped, -, -, -, ⟨-, lost⟩ | ⟨message, -, -, kept⟩⟩
    · rwa [same]
    · rw [lost]
      exact @pump _ ending unfinished _ unfinished [] (List.append_nil _).symm rfl
    · rw [kept]
      exact @pump _ ending unfinished _ unfinished [] (List.append_nil _).symm rfl

theorem send (ending : Ending capture) (seq : Nat) : Ending (capture.send settings seq) := by
  rcases ending.quiet_or_running with quiet | unfinished
  · rwa [quiet.send]
  · rcases capture.send_cases settings seq with
      same | ⟨queued, -, -, ⟨-, lost⟩ | kept⟩
    · rwa [same]
    · rw [lost]
      exact @pump _ ending unfinished _ unfinished [] (List.append_nil _).symm rfl
    · rw [kept]
      exact @pump _ ending unfinished _ unfinished [queued] rfl rfl

theorem close (ending : Ending capture) (endedAtNs : Int) : Ending (capture.close settings endedAtNs) := by
  rcases capture.close_cases settings endedAtNs with
    same | ⟨⟨unfinished, forwarding, sending⟩, sent⟩
  · rwa [same]
  · rw [sent]
    cases ending with
    | running _ messages channel receptive fresh =>
      exact .sent ⟨rfl, forwarding, sending⟩ messages endedAtNs (congrArg (· ++ _) channel) receptive fresh
    | sent quiet => exact absurd quiet.finished (by simp [unfinished])
    | received quiet => exact absurd quiet.finished (by simp [unfinished])
    | handled quiet => exact absurd quiet.finished (by simp [unfinished])
    | closed quiet => exact absurd quiet.finished (by simp [unfinished])

theorem collect (ending : Ending capture) (count : Nat) : Ending (capture.collect count) := by
  rcases capture.collect_cases count with same | ⟨phase, taken, close, rest, split, next⟩
  · rwa [same]
  · rw [next]
    cases ending with
    | running unfinished messages channel _ fresh =>
      rw [channel] at split
      rcases collected_cases none ((List.append_nil _).trans split) with
        ⟨rfl, others, left⟩ | ⟨some, rfl, -⟩
      · exact .running unfinished others (left.trans (List.append_nil _)) rfl fresh
      · cases some
    | sent quiet messages endedAtNs channel _ fresh =>
      rw [channel] at split
      rcases collected_cases (some (endedAtNs, capture.queue.droppedMessages)) split with
        ⟨rfl, others, left⟩ | ⟨-, rfl, left⟩
      · exact .sent ⟨quiet.finished, quiet.forwarding, quiet.sending⟩ others endedAtNs left rfl fresh
      · exact .received ⟨quiet.finished, quiet.forwarding, quiet.sending⟩ taken endedAtNs left rfl fresh
    | received _ _ _ _ busy => cases phase.symm.trans busy
    | handled _ _ _ _ _ busy => cases phase.symm.trans busy
    | closed _ _ _ stopped => cases phase.symm.trans stopped

theorem handle (ending : Ending capture) {failed : List Nat} (written : Written capture.writer log failed)
    (refused : Nat → Bool) : Ending (capture.handle settings refused) := by
  rcases capture.handle_cases settings log refused with
    ⟨same, -⟩ | ⟨taken, close, phase, next, -⟩
  · rwa [same]
  · rw [next]
    obtain ⟨kept, lost, -, -, stored, -⟩ :=
      capture.writer.handle_spec settings refused taken close written.counted
    have fresh (before : capture.writer.table.Fresh) :
        (capture.writer.handle settings refused taken close).table.Fresh := by
      rw [stored]
      exact before
    -- The phase tells whether the close is among what is handled.
    cases ending with
    | running unfinished messages channel receptive unsaid =>
      rw [phase] at receptive
      cases close with
      | none => exact .running unfinished messages channel rfl (fresh unsaid)
      | some close => cases receptive
    | sent quiet messages endedAtNs channel receptive unsaid =>
      rw [phase] at receptive
      cases close with
      | none =>
        exact .sent ⟨quiet.finished, quiet.forwarding, quiet.sending⟩ messages endedAtNs channel rfl (fresh unsaid)
      | some close => cases receptive
    | received quiet messages endedAtNs channel busy unsaid =>
      obtain ⟨rfl, rfl⟩ := WriterPhase.handling.inj (phase.symm.trans busy)
      exact .handled ⟨quiet.finished, quiet.forwarding, quiet.sending⟩ _ endedAtNs channel (release_closing _) rfl
        (fresh unsaid)
    | handled _ _ _ _ _ busy => cases phase.symm.trans busy
    | closed _ _ _ stopped => cases phase.symm.trans stopped

theorem giveBack (ending : Ending capture) {refused : FinalRefusals} (accepted : refused.count = false) :
    Ending (capture.giveBack refused) := by
  rcases capture.giveBack_cases refused with
    same | ⟨bytes, ⟨phase, next⟩ | ⟨endedAtNs, droppedMessages, phase, next⟩⟩
  · rwa [same]
  · rw [next]
    cases ending with
    | running unfinished messages channel _ fresh => exact .running unfinished messages channel rfl fresh
    | sent quiet messages endedAtNs channel _ fresh =>
      exact .sent ⟨quiet.finished, quiet.forwarding, quiet.sending⟩ messages endedAtNs channel rfl fresh
    | received _ _ _ _ busy => cases phase.symm.trans busy
    | handled _ _ _ _ _ busy => cases phase.symm.trans busy
    | closed _ _ _ stopped => cases phase.symm.trans stopped
  · rw [next]
    cases ending with
    | running _ _ _ receptive =>
      rw [phase] at receptive
      cases receptive
    | sent _ _ _ _ receptive =>
      rw [phase] at receptive
      cases receptive
    | received _ _ _ _ busy => cases phase.symm.trans busy
    | handled quiet _ _ channel pending busy fresh =>
      cases phase.symm.trans busy
      refine .closed ⟨quiet.finished, quiet.forwarding, quiet.sending⟩ channel ?_ rfl ?_
      · rw [StorageWriter.finish_pending]
        exact pending
      · rw [StorageWriter.finish_droppedMessages _ _ _ _ accepted, fresh.1, Int.zero_add,
          StorageWriter.finish_failedMessageRecords]
        rfl
    | closed _ _ _ stopped => cases phase.symm.trans stopped

theorem perform (ending : Ending capture) {failed : List Nat} (written : Written capture.writer log failed)
    {step : CaptureStep} (accepted : ∀ refused, step = .giveBack refused → refused.count = false) :
    Ending (capture.perform settings step) := by
  cases step with
  | stamp direction timestampNs frame => exact ending.stamp direction timestampNs frame
  | abandon seq => exact ending.abandon seq
  | record seq => exact ending.record seq
  | send seq => exact ending.send seq
  | close endedAtNs => exact ending.close endedAtNs
  | collect count => exact ending.collect count
  | handle refused => exact ending.handle written refused
  | giveBack refused => exact ending.giveBack (accepted refused rfl)

/-- In the store of a closed session the loss is final. -/
theorem of_closed (ending : Ending capture) (closed : capture.writer.table.endedAtNs ≠ none) :
    capture.queued = [] ∧ capture.writer.table.droppedMessages =
      wrapI64 (min (capture.queue.droppedMessages + capture.writer.state.failedMessageRecords)
        WriterState.maxFailedRecords) := by
  cases ending with
  | running _ _ _ _ fresh => exact absurd fresh.2 closed
  | sent _ _ _ _ _ fresh => exact absurd fresh.2 closed
  | received _ _ _ _ _ fresh => exact absurd fresh.2 closed
  | handled _ _ _ _ _ _ fresh => exact absurd fresh.2 closed
  | closed quiet channel pending phase counted =>
    refine ⟨?_, counted⟩
    unfold Capture.queued
    rw [quiet.sending, channel, phase, pending]
    rfl

end Ending

/-! ## The order of redaction -/

/-- The writer has emptied its window for the close. -/
def WriterPhase.flushed : WriterPhase → Bool
  | .releasing _ (some _) | .stopped => true
  | _ => false

structure Ordered (writer : StorageWriter) (log : CaptureLog) : Prop where
  sorted : writer.pending.Pairwise fun a b => a.seq ≤ b.seq
  increasing : log.pressed = false → log.redacted.Pairwise (· < ·)
  contiguous : log.pressed = false → writer.phase.flushed = false → log.redacted = List.range writer.nextSeq

namespace Ordered

theorem handle (ordered : Ordered capture.writer log) {dropped : List Nat}
    (conserved : Conserved capture log dropped) {messages : List QueuedMessage} {close : Option (Int × Nat)}
    (phase : capture.writer.phase = .handling messages close) (refused : Nat → Bool) :
    Ordered (capture.writer.handle settings refused messages close) { log with
      redacted := log.redacted ++ (capture.writer.released messages close.isSome).items.map QueuedMessage.seq
      pressed := log.pressed || (capture.writer.released messages close.isSome).pressed } := by
  have window : (capture.writer.released messages close.isSome).items ++
      (capture.writer.released messages close.isSome).waiting =
        messages.foldl (fun pending queued => insertNumbered QueuedMessage.seq queued pending) capture.writer.pending :=
    release_append _
  have sorted := foldl_insertNumbered_sorted messages ordered.sorted
  rw [← window] at sorted
  -- No number of the window was redacted before, or occurs in it twice.
  have fresh : (((capture.writer.released messages close.isSome).items ++
      (capture.writer.released messages close.isSome).waiting).map QueuedMessage.seq ++ log.redacted).Nodup := by
    have queued := conserved.queued_nodup
    unfold Capture.queued at queued
    rw [phase, ← List.append_assoc, List.map_append, List.append_assoc] at queued
    have inner := (List.nodup_append.1 queued).2.1
    exact (((capture.writer.released_perm messages close.isSome).map _).append_right _).nodup_iff.2 inner
  obtain ⟨distinct, -, apart⟩ := List.nodup_append.1 fresh
  have strict : ((capture.writer.released messages close.isSome).items ++
      (capture.writer.released messages close.isSome).waiting).Pairwise fun a b => a.seq < b.seq :=
    (sorted.and (List.pairwise_map.1 distinct)).imp fun both => lt_of_le_of_ne both.1 both.2
  have unflushed : capture.writer.phase.flushed = false := by
    rw [phase]
    rfl
  refine ⟨(List.pairwise_append.1 sorted).2.1, fun unpressed => ?_, fun unpressed open_ => ?_⟩
  all_goals
    obtain ⟨before, now⟩ := Bool.or_eq_false_iff.1 unpressed
    have range := ordered.contiguous before unflushed
    have above : ∀ queued ∈ (capture.writer.released messages close.isSome).items ++
        (capture.writer.released messages close.isSome).waiting, capture.writer.nextSeq ≤ queued.seq := by
      intro queued member
      by_contra below
      have redacted : queued.seq ∈ log.redacted := by
        rw [range]
        exact List.mem_range.2 (Nat.lt_of_not_le below)
      exact apart _ (List.mem_map_of_mem member) _ redacted rfl
  · refine List.pairwise_append.2 ⟨ordered.increasing before,
      List.pairwise_map.2 (List.pairwise_append.1 strict).1, fun earlier redacted later released => ?_⟩
    obtain ⟨queued, member, rfl⟩ := List.mem_map.1 released
    rw [range, List.mem_range] at redacted
    exact redacted.trans_le (above queued (List.mem_append_left _ member))
  · have kept : close = none := by
      cases close with
      | none => rfl
      | some close => cases open_
    subst kept
    rw [window] at strict above
    obtain ⟨numbers, next⟩ := release_in_turn strict above now
    have reached : (capture.writer.handle settings refused messages none).nextSeq =
        capture.writer.nextSeq + (capture.writer.released messages false).items.length := next
    rw [reached, range, List.range_add, ← List.range'_eq_map_range]
    exact congrArg (List.range capture.writer.nextSeq ++ ·) numbers

theorem perform (ordered : Ordered capture.writer log) {dropped : List Nat}
    (conserved : Conserved capture log dropped) (step : CaptureStep) :
    Ordered (capture.perform settings step).writer (capture.observe log step) := by
  cases step with
  | stamp direction timestampNs frame =>
    change Ordered (capture.stamp direction timestampNs frame).writer log
    unfold Capture.stamp
    split_ifs <;> exact ordered
  | abandon seq => exact ordered
  | record seq =>
    rcases capture.record_cases settings log seq with
      ⟨-, same, unlogged⟩ | ⟨stamped, -, -, logged, ⟨-, lost⟩ | ⟨message, -, -, kept⟩⟩
    · rwa [Capture.perform, same, unlogged]
    · rw [Capture.perform, lost, logged]
      exact ⟨ordered.sorted, ordered.increasing, ordered.contiguous⟩
    · rw [Capture.perform, kept, logged]
      exact ⟨ordered.sorted, ordered.increasing, ordered.contiguous⟩
  | send seq =>
    change Ordered (capture.send settings seq).writer log
    rcases capture.send_cases settings seq with
      same | ⟨queued, -, -, ⟨-, lost⟩ | kept⟩
    · rwa [same]
    · rwa [lost]
    · rwa [kept]
  | close endedAtNs =>
    change Ordered (capture.close settings endedAtNs).writer log
    rcases capture.close_cases settings endedAtNs with same | ⟨-, sent⟩
    · rwa [same]
    · rwa [sent]
  | collect count =>
    change Ordered (capture.collect count).writer log
    rcases capture.collect_cases count with same | ⟨phase, messages, close, rest, -, next⟩
    · rwa [same]
    · rw [next]
      exact ⟨ordered.sorted, ordered.increasing, fun unpressed _ => ordered.contiguous unpressed (by rw [phase]; rfl)⟩
  | handle refused =>
    rcases capture.handle_cases settings log refused with
      ⟨same, unlogged⟩ | ⟨messages, close, phase, next, logged⟩
    · rwa [Capture.perform, same, unlogged]
    · rw [Capture.perform, next, logged]
      exact ordered.handle conserved phase refused
  | giveBack refused =>
    change Ordered (capture.giveBack refused).writer log
    rcases capture.giveBack_cases refused with
      same | ⟨bytes, ⟨phase, next⟩ | ⟨endedAtNs, droppedMessages, phase, next⟩⟩
    · rwa [same]
    · rw [next]
      exact ⟨ordered.sorted, ordered.increasing, fun unpressed _ => ordered.contiguous unpressed (by rw [phase]; rfl)⟩
    · rw [next]
      refine ⟨?_, ordered.increasing, fun _ open_ => ?_⟩
      · rw [StorageWriter.finish_pending]
        exact ordered.sorted
      · cases open_

end Ordered

/-! ## The whole run -/

/-- A frame that was handed over is in the store once, decoded and masked. -/
def StoredOnce (settings : CaptureSettings) (table : SessionTable) (stamped : StampedFrame) : Prop :=
  ∃ message context, stamped.decodeMessage settings = some message ∧
    table.messages.filter (fun row => row.seq = stamped.seq) =
      [StoredMessage.ofMessage settings.codec (masked settings.redactor message context)]

/-- The frames without a row. -/
def SessionTable.missing (table : SessionTable) (handed : List StampedFrame) : List StampedFrame :=
  handed.filter fun stamped => stamped.seq ∉ table.messages.map StoredMessage.seq

/-- Every frame is stored once or counted. -/
structure AdmitsLoss (settings : CaptureSettings) (handed : List StampedFrame) (table : SessionTable) : Prop where
  distinct : (handed.map StampedFrame.seq).Nodup
  stored : ∀ stamped ∈ handed, StoredOnce settings table stamped ∨ stamped ∈ table.missing handed
  counted : ∃ count, table.droppedMessages = wrapI64 count ∧ count ≤ WriterState.maxFailedRecords ∧
    min (table.missing handed).length WriterState.maxFailedRecords ≤ count
  complete : table.droppedMessages = 0 → ∀ stamped ∈ handed, StoredOnce settings table stamped

/-- A count that fits is not stored as zero unless it is. -/
theorem wrapI64_eq_zero {count : Nat} (fits : count ≤ WriterState.maxFailedRecords) (zero : wrapI64 count = 0) :
    count = 0 := by
  have divides : (2 ^ 64 : Int) ∣ count := Int.dvd_of_bmod_eq_zero zero
  unfold WriterState.maxFailedRecords at fits
  omega

/-- When nothing is queued any more, what has no row was dropped or has failed. -/
theorem missing_length {dropped failed : List Nat} (conserved : Conserved capture log dropped)
    (written : Written capture.writer log failed) (ended : capture.queued = []) :
    (capture.writer.table.missing log.handed).length = capture.queue.droppedMessages + failed.length := by
  have lost : (log.handed.map StampedFrame.seq).Perm
      (capture.writer.table.messages.map StoredMessage.seq ++ (dropped ++ failed)) := by
    have balance := conserved.balance
    rw [ended, List.map_nil, List.nil_append] at balance
    exact (balance.trans (written.balance.append_left dropped)).trans (List.perm_append_comm_assoc _ _ _)
  obtain ⟨-, -, apart⟩ := List.nodup_append.1 (lost.nodup_iff.1 conserved.handed_nodup)
  have filtered := lost.filter fun seq => seq ∉ capture.writer.table.messages.map StoredMessage.seq
  have stored : (capture.writer.table.messages.map StoredMessage.seq).filter
      (fun seq => seq ∉ capture.writer.table.messages.map StoredMessage.seq) = [] :=
    List.filter_eq_nil_iff.2 fun seq row => by simpa using row
  have unstored : (dropped ++ failed).filter
      (fun seq => seq ∉ capture.writer.table.messages.map StoredMessage.seq) = dropped ++ failed :=
    List.filter_eq_self.2 fun seq member => decide_eq_true fun row => apart seq row seq member rfl
  rw [List.filter_append, stored, unstored, List.nil_append, List.filter_map] at filtered
  have lengths := filtered.length_eq
  rwa [List.length_map, List.length_append, conserved.counted] at lengths

/-- No row has the number of another one. -/
theorem rows_nodup {dropped failed : List Nat} (conserved : Conserved capture log dropped)
    (written : Written capture.writer log failed) :
    (capture.writer.table.messages.map StoredMessage.seq).Nodup :=
  (List.nodup_append.1 (written.balance.nodup_iff.1 (List.nodup_append.1 conserved.queued_nodup).2.1)).1

theorem admitsLoss {dropped failed : List Nat} (conserved : Conserved capture log dropped)
    (written : Written capture.writer log failed) (genuine : Genuine settings capture log)
    (ended : capture.queued = []) (counted : capture.writer.table.droppedMessages =
      wrapI64 (min (capture.queue.droppedMessages + capture.writer.state.failedMessageRecords)
        WriterState.maxFailedRecords)) : AdmitsLoss settings log.handed capture.writer.table := by
  have admitted : min (capture.writer.table.missing log.handed).length WriterState.maxFailedRecords ≤
      min (capture.queue.droppedMessages + capture.writer.state.failedMessageRecords)
        WriterState.maxFailedRecords := by
    rw [missing_length conserved written ended]
    have failures := written.counted
    omega
  have stored : ∀ stamped ∈ log.handed, StoredOnce settings capture.writer.table stamped ∨
      stamped ∈ capture.writer.table.missing log.handed := by
    intro stamped member
    by_cases present : stamped.seq ∈ capture.writer.table.messages.map StoredMessage.seq
    · obtain ⟨row, inside, number⟩ := List.mem_map.1 present
      obtain ⟨message, context, ⟨source, handed, decoded⟩, same⟩ := genuine.stored row inside
      have origin : source = stamped := by
        refine List.inj_on_of_nodup_map conserved.handed_nodup handed member ?_
        rw [← number, same, ← StampedFrame.decodeMessage_seq decoded]
        rfl
      refine .inl ⟨message, context, origin ▸ decoded, ?_⟩
      rw [← number, ← same]
      exact filter_eq_singleton (rows_nodup conserved written) inside
    · exact .inr (List.mem_filter.2 ⟨member, decide_eq_true present⟩)
  refine ⟨conserved.handed_nodup, stored, ⟨_, counted, min_le_right _ _, admitted⟩, fun zero stamped member => ?_⟩
  have none := wrapI64_eq_zero (min_le_right _ _) (counted.symm.trans zero)
  rw [none] at admitted
  have nothing : capture.writer.table.missing log.handed = [] := by
    refine List.length_eq_zero_iff.1 ?_
    unfold WriterState.maxFailedRecords at admitted
    omega
  rcases stored stamped member with once | gone
  · exact once
  · rw [nothing] at gone
    cases gone

/-- The invariant of a run. -/
def Sound (settings : CaptureSettings) (both : Capture × CaptureLog) : Prop :=
  (∃ dropped, Conserved both.1 both.2 dropped) ∧ (∃ failed, Written both.1.writer both.2 failed) ∧
    Genuine settings both.1 both.2 ∧ Ordered both.1.writer both.2

theorem sound_begin : Sound settings Capture.begin :=
  ⟨⟨[], List.nodup_nil, fun _ member => absurd member List.not_mem_nil, List.Perm.refl _, rfl⟩,
    ⟨[], List.Perm.refl _, le_rfl⟩,
    ⟨fun _ member => absurd member List.not_mem_nil, fun _ member => absurd member List.not_mem_nil⟩,
    ⟨List.Pairwise.nil, fun _ => List.Pairwise.nil, fun _ _ => rfl⟩⟩

theorem Sound.perform {both : Capture × CaptureLog} (sound : Sound settings both) (step : CaptureStep) :
    Sound settings (both.1.perform settings step, both.1.observe both.2 step) := by
  obtain ⟨⟨dropped, conserved⟩, ⟨failed, written⟩, genuine, ordered⟩ := sound
  exact ⟨conserved.perform step, written.perform step, genuine.perform written step, ordered.perform conserved step⟩

theorem sound_observed (settings : CaptureSettings) (steps : List CaptureStep) :
    Sound settings (Capture.observed settings Capture.begin steps) :=
  Capture.observed_induct (Sound settings) sound_begin fun _ step _ sound => sound.perform step

theorem ending_observed (settings : CaptureSettings) {steps : List CaptureStep}
    (accepted : ∀ refused, CaptureStep.giveBack refused ∈ steps → refused.count = false) :
    Ending (Capture.observed settings Capture.begin steps).1 := by
  refine (Capture.observed_induct (fun both => Sound settings both ∧ Ending both.1)
    ⟨sound_begin, .running rfl [] rfl rfl ⟨rfl, rfl⟩⟩ ?_).2
  rintro both step member ⟨sound, ending⟩
  obtain ⟨-, ⟨failed, written⟩, -, -⟩ := id sound
  exact ⟨sound.perform step, ending.perform written fun refused same => accepted refused (same ▸ member)⟩

/-- However the pumps and the writer take turns, and whichever batches fail: a session that was closed
has every frame that was handed over in the store once, or admits that it is missing; and the
numbers go through redaction in their order unless the window was pressed. -/
theorem capture_accounted (settings : CaptureSettings) (steps : List CaptureStep)
    (accepted : ∀ refused, CaptureStep.giveBack refused ∈ steps → refused.count = false) :
    ((Capture.observed settings Capture.begin steps).1.writer.table.endedAtNs ≠ none →
      AdmitsLoss settings (Capture.observed settings Capture.begin steps).2.handed
        (Capture.observed settings Capture.begin steps).1.writer.table) ∧
    ((Capture.observed settings Capture.begin steps).2.pressed = false →
      (Capture.observed settings Capture.begin steps).2.redacted.Pairwise (· < ·)) := by
  obtain ⟨⟨dropped, conserved⟩, ⟨failed, written⟩, genuine, ordered⟩ := sound_observed settings steps
  refine ⟨fun closed => ?_, ordered.increasing⟩
  obtain ⟨ended, counted⟩ := (ending_observed settings accepted).of_closed closed
  exact admitsLoss conserved written genuine ended counted

/-! An empty object, which may be followed by blanks, is all that the frames below contain. -/

def blankObject : List UInt8 → Option Json.Value
  | 123 :: 125 :: blanks => if blanks.all (· = 32) then some (.object []) else none
  | _ => none

def blankSettings : CaptureSettings where
  codec := Json.Compact.codec
  fromSlice := blankObject
  redactor := Redactor.new .default
  maxBytes := storageQueueMaxBytes
  capacity := 1024
  roomy := by decide

/-- Two messages arrive in the wrong order, and a frame between them is no JSON. -/
def reversedArrival : List CaptureStep :=
  [.stamp .clientToServer 1 ⟨[123, 125], by decide, by decide⟩, .stamp .serverToClient 2 ⟨[120], by decide, by decide⟩,
    .stamp .serverToClient 3 ⟨[123, 125], by decide, by decide⟩, .record 2, .record 1, .record 0, .send 2, .collect 128,
    .handle (fun _ => false), .giveBack ⟨false, false⟩, .send 0, .close 4, .collect 128, .handle (fun _ => false),
    .giveBack ⟨false, false⟩]

theorem capture_accounted_reversed :
    (Capture.observed blankSettings Capture.begin reversedArrival).2.redacted = [0, 2] ∧
      (Capture.observed blankSettings Capture.begin reversedArrival).2.redacted.Pairwise (· < ·) ∧
      (Capture.observed blankSettings Capture.begin reversedArrival).1.writer.table.droppedMessages = 1 ∧
      AdmitsLoss blankSettings (Capture.observed blankSettings Capture.begin reversedArrival).2.handed
        (Capture.observed blankSettings Capture.begin reversedArrival).1.writer.table := by
  have accepted : ∀ refused, CaptureStep.giveBack refused ∈ reversedArrival → refused.count = false := by
    simp [reversedArrival]
  obtain ⟨admits, increasing⟩ := capture_accounted blankSettings reversedArrival accepted
  exact ⟨by decide +kernel, increasing (by decide +kernel), by decide +kernel, admits (by decide +kernel)⟩

end McpTracer.Proxy
