import McpTracer.Proxy.CaptureLog

/-! Where a number is that was handed to recording.

It is dropped, queued or redacted, and a redacted one is stored or has failed. What is stored was
decoded from the frame of its number and masked.
-/

set_option autoImplicit false

namespace McpTracer.Proxy
open McpTracer.Foundation McpTracer.Protocol McpTracer.Redact McpTracer.Storage

variable {settings : CaptureSettings} {capture : Capture} {log : CaptureLog}

/-! ## Before redaction -/

structure Conserved (capture : Capture) (log : CaptureLog) (dropped : List Nat) : Prop where
  distinct : ((capture.forwarding ++ log.handed).map StampedFrame.seq).Nodup
  reserved : ∀ stamped ∈ capture.forwarding ++ log.handed, stamped.seq < capture.queue.seq
  balance : (log.handed.map StampedFrame.seq).Perm
    (dropped ++ (capture.queued.map QueuedMessage.seq ++ log.redacted))
  counted : dropped.length = capture.queue.droppedMessages

namespace Conserved

variable {dropped : List Nat}

theorem handed_nodup (conserved : Conserved capture log dropped) : (log.handed.map StampedFrame.seq).Nodup := by
  have distinct := conserved.distinct
  rw [List.map_append] at distinct
  exact (List.nodup_append.1 distinct).2.1

/-- No number is queued twice, or queued and redacted. -/
theorem queued_nodup (conserved : Conserved capture log dropped) :
    (capture.queued.map QueuedMessage.seq ++ log.redacted).Nodup :=
  (List.nodup_append.1 (conserved.balance.nodup_iff.1 conserved.handed_nodup)).2.1

theorem sending_nodup (conserved : Conserved capture log dropped) :
    (capture.sending.map QueuedMessage.seq).Nodup := by
  have queued := (List.nodup_append.1 conserved.queued_nodup).1
  unfold Capture.queued at queued
  rw [List.map_append] at queued
  exact (List.nodup_append.1 queued).1

theorem forwarding_nodup (conserved : Conserved capture log dropped) :
    (capture.forwarding.map StampedFrame.seq).Nodup := by
  have distinct := conserved.distinct
  rw [List.map_append] at distinct
  exact (List.nodup_append.1 distinct).1

/-- A step of the queue or the writer that moves messages, and redacts some. -/
theorem move (conserved : Conserved capture log dropped) {next : Capture} {later : CaptureLog}
    (forwarding : next.forwarding = capture.forwarding) (handed : later.handed = log.handed)
    (seq : next.queue.seq = capture.queue.seq)
    (moved : (capture.queued.map QueuedMessage.seq ++ log.redacted).Perm
      (next.queued.map QueuedMessage.seq ++ later.redacted))
    (counted : next.queue.droppedMessages = capture.queue.droppedMessages) : Conserved next later dropped where
  distinct := by
    rw [forwarding, handed]
    exact conserved.distinct
  reserved := by
    rw [forwarding, handed, seq]
    exact conserved.reserved
  balance := by
    rw [handed]
    exact conserved.balance.trans (moved.append_left dropped)
  counted := by
    rw [counted]
    exact conserved.counted

theorem stamp (conserved : Conserved capture log dropped) (direction : Direction) (timestampNs : Int)
    (frame : StdioFrame) : Conserved (capture.stamp direction timestampNs frame) log dropped := by
  unfold Capture.stamp
  split_ifs
  · exact conserved
  · have moved : ((capture.forwarding ++ [(⟨capture.queue.seq, timestampNs, direction, frame⟩ : StampedFrame)]) ++
        log.handed).Perm (⟨capture.queue.seq, timestampNs, direction, frame⟩ :: (capture.forwarding ++ log.handed)) := by
      rw [List.append_assoc]
      exact List.perm_middle
    refine ⟨?_, ?_, conserved.balance, conserved.counted⟩
    · refine (moved.map StampedFrame.seq).nodup_iff.2 (List.nodup_cons.2 ⟨?_, conserved.distinct⟩)
      intro member
      obtain ⟨stamped, inside, same⟩ := List.mem_map.1 member
      exact absurd same (conserved.reserved stamped inside).ne
    · intro stamped member
      rcases List.mem_cons.1 (moved.mem_iff.1 member) with rfl | earlier
      · exact Nat.lt_succ_self _
      · exact (conserved.reserved stamped earlier).trans (Nat.lt_succ_self _)

theorem abandon (conserved : Conserved capture log dropped) (seq : Nat) :
    Conserved (capture.abandon seq) log dropped := by
  have fewer : (capture.forwarding.filter (fun stamped => stamped.seq ≠ seq) ++ log.handed).Sublist
      (capture.forwarding ++ log.handed) := List.filter_sublist.append_right _
  exact ⟨conserved.distinct.sublist (fewer.map _), fun stamped member =>
    conserved.reserved stamped (fewer.subset member), conserved.balance, conserved.counted⟩

theorem record (conserved : Conserved capture log dropped) (seq : Nat) :
    ∃ dropped, Conserved (capture.record settings seq) (capture.observe log (.record seq)) dropped := by
  rcases capture.record_cases settings log seq with
    ⟨-, same, unlogged⟩ | ⟨stamped, member, number, logged, outcome⟩
  · rw [same, unlogged]
    exact ⟨dropped, conserved⟩
  · have moved : (capture.forwarding.filter (fun other => other.seq ≠ seq) ++ (log.handed ++ [stamped])).Perm
        (capture.forwarding ++ log.handed) := by
      have out := (perm_cons_filter_ne conserved.forwarding_nodup member).append_right log.handed
      rw [number] at out
      refine List.Perm.trans ?_ out.symm
      rw [← List.append_assoc]
      exact List.perm_append_singleton _ _
    have distinct := (moved.map StampedFrame.seq).nodup_iff.2 conserved.distinct
    have reserved := fun other inside => conserved.reserved other (moved.subset inside)
    rw [logged]
    rcases outcome with ⟨-, lost⟩ | ⟨message, decoded, -, kept⟩
    · rw [lost]
      refine ⟨stamped.seq :: dropped, distinct, reserved, ?_, congrArg (· + 1) conserved.counted⟩
      rw [List.map_append]
      exact (List.perm_append_singleton stamped.seq _).trans (conserved.balance.cons _)
    · rw [kept]
      refine ⟨dropped, distinct, reserved, ?_, conserved.counted⟩
      have same : (⟨message, stamped.reservation⟩ : QueuedMessage).seq = stamped.seq :=
        StampedFrame.decodeMessage_seq decoded
      rw [List.perm_iff_count]
      intro number
      have balance := conserved.balance.count_eq number
      simp only [Capture.queued, List.map_append, List.count_append, List.map_cons, List.map_nil, same] at balance ⊢
      omega

theorem send (conserved : Conserved capture log dropped) (seq : Nat) :
    ∃ dropped, Conserved (capture.send settings seq) log dropped := by
  rcases capture.send_cases settings seq with
    same | ⟨queued, member, number, outcome⟩
  · rw [same]
    exact ⟨dropped, conserved⟩
  · have out := (perm_cons_filter_ne conserved.sending_nodup member).map QueuedMessage.seq
    rw [number, List.map_cons, number] at out
    rcases outcome with ⟨-, lost⟩ | kept
    · rw [lost]
      refine ⟨seq :: dropped, conserved.distinct, conserved.reserved, ?_, congrArg (· + 1) conserved.counted⟩
      rw [List.perm_iff_count]
      intro number
      have balance := conserved.balance.count_eq number
      have moved := out.count_eq number
      simp only [Capture.queued, StorageQueue.drop, StorageQueue.giveBack, List.map_append, List.count_append,
        List.cons_append, List.count_cons] at balance moved ⊢
      omega
    · rw [kept]
      refine ⟨dropped, conserved.move rfl rfl rfl (List.Perm.append_right _ ?_) rfl⟩
      rw [List.perm_iff_count]
      intro other
      have moved := out.count_eq other
      simp only [Capture.queued, List.filterMap_append, List.map_append, List.count_append, List.count_cons] at moved ⊢
      simp only [List.filterMap_cons, StorageEvent.queued?, List.filterMap_nil, List.map_cons, List.map_nil,
        List.count_cons, List.count_nil, number]
      omega

theorem close (conserved : Conserved capture log dropped) (endedAtNs : Int) :
    Conserved (capture.close settings endedAtNs) log dropped := by
  have same : (capture.close settings endedAtNs).queued = capture.queued := capture.close_queued settings endedAtNs
  refine conserved.move ?_ rfl ?_ (List.Perm.of_eq (by rw [same])) ?_
  all_goals rcases capture.close_cases settings endedAtNs with idle | ⟨-, sent⟩
  all_goals simp [*]

theorem collect (conserved : Conserved capture log dropped) (count : Nat) :
    Conserved (capture.collect count) log dropped := by
  have moved : (capture.collect count).queued.Perm capture.queued := capture.collect_queued count
  refine conserved.move ?_ rfl ?_ ((moved.symm.map _).append_right _) ?_
  all_goals rcases capture.collect_cases count with idle | ⟨-, _, _, _, -, next⟩
  all_goals simp [*]

theorem handle (conserved : Conserved capture log dropped) (refused : Nat → Bool) :
    Conserved (capture.handle settings refused) (capture.observe log (.handle refused)) dropped := by
  rcases capture.handle_cases settings log refused with
    ⟨same, unlogged⟩ | ⟨messages, close, phase, next, logged⟩
  · rw [same, unlogged]
    exact conserved
  · rw [next, logged]
    refine conserved.move rfl rfl rfl ?_ rfl
    have window := (capture.writer.released_perm messages close.isSome).map QueuedMessage.seq
    rw [List.perm_iff_count]
    intro number
    have moved := window.count_eq number
    simp only [Capture.queued, phase, WriterPhase.messages, StorageWriter.handle, List.map_append,
      List.count_append, List.map_nil, List.count_nil] at moved ⊢
    omega

theorem giveBack (conserved : Conserved capture log dropped) (refused : FinalRefusals) :
    Conserved (capture.giveBack refused) log dropped := by
  refine conserved.move ?_ rfl ?_ (List.Perm.of_eq (by rw [capture.giveBack_queued])) ?_
  all_goals rcases capture.giveBack_cases refused with idle | ⟨_, ⟨-, next⟩ | ⟨_, _, -, next⟩⟩
  all_goals simp [*, StorageQueue.giveBack]

theorem perform (conserved : Conserved capture log dropped) (step : CaptureStep) :
    ∃ dropped, Conserved (capture.perform settings step) (capture.observe log step) dropped := by
  cases step with
  | stamp direction timestampNs frame => exact ⟨dropped, conserved.stamp direction timestampNs frame⟩
  | abandon seq => exact ⟨dropped, conserved.abandon seq⟩
  | record seq => exact conserved.record seq
  | send seq => exact conserved.send seq
  | close endedAtNs => exact ⟨dropped, conserved.close endedAtNs⟩
  | collect count => exact ⟨dropped, conserved.collect count⟩
  | handle refused => exact ⟨dropped, conserved.handle refused⟩
  | giveBack refused => exact ⟨dropped, conserved.giveBack refused⟩

end Conserved

/-! ## From redaction on -/

structure Written (writer : StorageWriter) (log : CaptureLog) (failed : List Nat) : Prop where
  balance : log.redacted.Perm (writer.table.messages.map StoredMessage.seq ++ failed)
  counted : min failed.length WriterState.maxFailedRecords ≤ writer.state.failedMessageRecords

theorem Written.handle {writer : StorageWriter} {failed : List Nat} (written : Written writer log failed)
    (refused : Nat → Bool) (messages : List QueuedMessage) (close : Option (Int × Nat)) (pressed : Bool) :
    ∃ failed, Written (writer.handle settings refused messages close) { log with
      redacted := log.redacted ++ (writer.released messages close.isSome).items.map QueuedMessage.seq
      pressed := pressed } failed := by
  obtain ⟨kept, lost, split, -, stored, admitted⟩ :=
    writer.handle_spec settings refused messages close written.counted
  refine ⟨failed ++ lost.map McpMessage.seq, ?_, ?_⟩
  · have rows : (kept.map (StoredMessage.ofMessage settings.codec)).map StoredMessage.seq = kept.map McpMessage.seq :=
      List.map_map ..
    rw [stored, List.perm_iff_count]
    intro number
    have before := written.balance.count_eq number
    have now := split.count_eq number
    simp only [List.map_append, rows, List.count_append] at before now ⊢
    omega
  · rw [List.length_append, List.length_map]
    exact admitted

/-- Only a round of the writer changes what is written. -/
theorem Written.keep {failed : List Nat} (written : Written capture.writer log failed) {step : CaptureStep}
    (other : ∀ refused, step ≠ .handle refused) :
    Written (capture.perform settings step).writer (capture.observe log step) failed := by
  cases step with
  | stamp direction timestampNs frame =>
    change Written (capture.stamp direction timestampNs frame).writer log failed
    unfold Capture.stamp
    split_ifs <;> exact written
  | abandon seq => exact written
  | record seq =>
    rcases capture.record_cases settings log seq with
      ⟨-, same, unlogged⟩ | ⟨stamped, -, -, logged, ⟨-, lost⟩ | ⟨message, -, -, kept⟩⟩
    · rwa [Capture.perform, same, unlogged]
    · rw [Capture.perform, lost, logged]
      exact ⟨written.balance, written.counted⟩
    · rw [Capture.perform, kept, logged]
      exact ⟨written.balance, written.counted⟩
  | send seq =>
    change Written (capture.send settings seq).writer log failed
    rcases capture.send_cases settings seq with same | ⟨queued, -, -, ⟨-, lost⟩ | kept⟩
    · rwa [same]
    · rwa [lost]
    · rwa [kept]
  | close endedAtNs =>
    change Written (capture.close settings endedAtNs).writer log failed
    rcases capture.close_cases settings endedAtNs with same | ⟨-, sent⟩
    · rwa [same]
    · rwa [sent]
  | collect count =>
    change Written (capture.collect count).writer log failed
    rcases capture.collect_cases count with same | ⟨-, messages, close, rest, -, next⟩
    · rwa [same]
    · rw [next]
      exact ⟨written.balance, written.counted⟩
  | handle refused => exact absurd rfl (other refused)
  | giveBack refused =>
    change Written (capture.giveBack refused).writer log failed
    rcases capture.giveBack_cases refused with
      same | ⟨bytes, ⟨-, next⟩ | ⟨endedAtNs, droppedMessages, -, next⟩⟩
    · rwa [same]
    · rw [next]
      exact ⟨written.balance, written.counted⟩
    · rw [next]
      refine ⟨?_, ?_⟩
      · rw [StorageWriter.finish_messages]
        exact written.balance
      · rw [StorageWriter.finish_failedMessageRecords]
        exact written.counted

theorem Written.perform {failed : List Nat} (written : Written capture.writer log failed) (step : CaptureStep) :
    ∃ failed, Written (capture.perform settings step).writer (capture.observe log step) failed := by
  by_cases round : ∃ refused, step = .handle refused
  · obtain ⟨refused, rfl⟩ := round
    rcases capture.handle_cases settings log refused with
      ⟨same, unlogged⟩ | ⟨messages, close, -, next, logged⟩
    · rw [Capture.perform, same, unlogged]
      exact ⟨failed, written⟩
    · rw [Capture.perform, next, logged]
      exact written.handle refused messages close _
  · exact ⟨failed, written.keep fun refused same => round ⟨refused, same⟩⟩

/-! ## Nothing is made up -/

/-- A frame of the log is what a message was decoded from. -/
def CaptureLog.Decodes (settings : CaptureSettings) (log : CaptureLog) (message : McpMessage) : Prop :=
  ∃ stamped ∈ log.handed, stamped.decodeMessage settings = some message

theorem CaptureLog.Decodes.later {message : McpMessage} (decodes : log.Decodes settings message) {later : CaptureLog}
    (more : log.handed ⊆ later.handed) : later.Decodes settings message := by
  obtain ⟨stamped, member, decoded⟩ := decodes
  exact ⟨stamped, more member, decoded⟩

structure Genuine (settings : CaptureSettings) (capture : Capture) (log : CaptureLog) : Prop where
  queued : ∀ queued ∈ capture.queued, log.Decodes settings queued.message
  stored : ∀ row ∈ capture.writer.table.messages, ∃ message context, log.Decodes settings message ∧
    row = StoredMessage.ofMessage settings.codec (masked settings.redactor message context)

namespace Genuine

/-- A step that neither queues nor stores anything. -/
theorem move (genuine : Genuine settings capture log) {next : Capture} {later : CaptureLog}
    (queued : next.queued ⊆ capture.queued)
    (stored : next.writer.table.messages = capture.writer.table.messages) (more : log.handed ⊆ later.handed) :
    Genuine settings next later where
  queued := fun message member => (genuine.queued message (queued member)).later more
  stored := by
    rw [stored]
    intro row member
    obtain ⟨message, context, decodes, same⟩ := genuine.stored row member
    exact ⟨message, context, decodes.later more, same⟩

theorem record (genuine : Genuine settings capture log) (seq : Nat) :
    Genuine settings (capture.record settings seq) (capture.observe log (.record seq)) := by
  rcases capture.record_cases settings log seq with
    ⟨-, same, unlogged⟩ | ⟨stamped, -, -, logged, ⟨-, lost⟩ | ⟨message, decoded, -, kept⟩⟩
  · rwa [same, unlogged]
  · rw [lost, logged]
    exact genuine.move (List.Subset.refl _) rfl (List.subset_append_left _ _)
  · have more : log.handed ⊆ ({ log with handed := log.handed ++ [stamped] } : CaptureLog).handed :=
      List.subset_append_left _ _
    rw [kept, logged]
    refine ⟨?_, fun row member => ?_⟩
    · intro queued member
      simp only [Capture.queued, List.mem_append, List.mem_singleton] at member
      rcases member with (earlier | rfl) | later
      · exact (genuine.queued queued (List.mem_append_left _ earlier)).later more
      · exact ⟨stamped, List.mem_append_right _ List.mem_cons_self, decoded⟩
      · refine (genuine.queued queued (List.mem_append_right _ ?_)).later more
        simpa only [List.mem_append] using later
    · obtain ⟨message, context, decodes, same⟩ := genuine.stored row member
      exact ⟨message, context, decodes.later more, same⟩

theorem send (genuine : Genuine settings capture log) (seq : Nat) : Genuine settings (capture.send settings seq) log := by
  rcases capture.send_cases settings seq with
    same | ⟨queued, member, -, ⟨-, lost⟩ | kept⟩
  · rwa [same]
  · rw [lost]
    refine genuine.move ?_ rfl (List.Subset.refl _)
    exact (List.filter_sublist.append_right _).subset
  · rw [kept]
    refine genuine.move ?_ rfl (List.Subset.refl _)
    intro other inside
    simp only [Capture.queued, List.filterMap_append, List.filterMap_cons, StorageEvent.queued?, List.filterMap_nil,
      List.mem_append, List.mem_filter, List.mem_singleton] at inside ⊢
    rcases inside with ⟨earlier, -⟩ | (channel | rfl) | writer
    · exact .inl earlier
    · exact .inr (.inl channel)
    · exact .inl member
    · exact .inr (.inr writer)

theorem handle (genuine : Genuine settings capture log) {failed : List Nat}
    (written : Written capture.writer log failed) (refused : Nat → Bool) :
    Genuine settings (capture.handle settings refused) (capture.observe log (.handle refused)) := by
  rcases capture.handle_cases settings log refused with
    ⟨same, unlogged⟩ | ⟨messages, close, phase, next, logged⟩
  · rwa [same, unlogged]
  · rw [next, logged]
    have inside : ∀ queued ∈ messages ++ capture.writer.pending, log.Decodes settings queued.message := by
      intro queued member
      refine genuine.queued queued ?_
      unfold Capture.queued
      rw [phase]
      exact List.mem_append_right _ (List.mem_append_right _ member)
    have window := capture.writer.released_perm messages close.isSome
    obtain ⟨kept, lost, -, sources, stored, -⟩ :=
      capture.writer.handle_spec settings refused messages close written.counted
    refine ⟨?_, ?_⟩
    · intro queued member
      simp only [Capture.queued, WriterPhase.messages, StorageWriter.handle, List.nil_append, List.mem_append] at member
      rcases member with sending | channel | waiting
      · exact genuine.queued queued (List.mem_append_left _ sending)
      · exact genuine.queued queued (List.mem_append_right _ (List.mem_append_left _ channel))
      · exact inside queued (window.subset (List.mem_append_right _ waiting))
    · rw [stored]
      intro row member
      rcases List.mem_append.1 member with earlier | now
      · exact genuine.stored row earlier
      · obtain ⟨message, left, rfl⟩ := List.mem_map.1 now
        obtain ⟨queued, released, context, rfl⟩ := sources message left
        exact ⟨queued.message, context, inside queued (window.subset (List.mem_append_left _ released)), rfl⟩

theorem perform (genuine : Genuine settings capture log) {failed : List Nat}
    (written : Written capture.writer log failed) (step : CaptureStep) :
    Genuine settings (capture.perform settings step) (capture.observe log step) := by
  cases step with
  | stamp direction timestampNs frame =>
    change Genuine settings (capture.stamp direction timestampNs frame) log
    unfold Capture.stamp
    split_ifs
    · exact genuine
    · exact ⟨genuine.queued, genuine.stored⟩
  | abandon seq => exact ⟨genuine.queued, genuine.stored⟩
  | record seq => exact genuine.record seq
  | send seq => exact genuine.send seq
  | close endedAtNs =>
    refine genuine.move (List.Perm.of_eq (capture.close_queued settings endedAtNs)).subset ?_ (List.Subset.refl _)
    rcases capture.close_cases settings endedAtNs with idle | ⟨-, sent⟩
    all_goals simp [Capture.perform, *]
  | collect count =>
    refine genuine.move (capture.collect_queued count).subset ?_ (List.Subset.refl _)
    rcases capture.collect_cases count with idle | ⟨-, _, _, _, -, next⟩
    all_goals simp [Capture.perform, *]
  | handle refused => exact genuine.handle written refused
  | giveBack refused =>
    refine genuine.move (List.Perm.of_eq (capture.giveBack_queued refused)).subset ?_ (List.Subset.refl _)
    rcases capture.giveBack_cases refused with idle | ⟨_, ⟨-, next⟩ | ⟨_, _, -, next⟩⟩
    all_goals simp [Capture.perform, StorageWriter.finish_messages, *]

end Genuine

end McpTracer.Proxy
