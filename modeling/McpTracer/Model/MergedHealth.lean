import McpTracer.Model.Lifecycle
import McpTracer.Storage.Merge

/-! Merging healthy sessions gives a healthy session.

A source starts where the ones before it came to rest, which may be with acknowledged
subscriptions still open. Removing a repeated call with its response leaves the calls under its
key where they were.
-/

set_option autoImplicit false

namespace McpTracer.Model
open McpTracer.Foundation McpTracer.Json McpTracer.Protocol McpTracer.Storage

/-- The three ways to touch a key. -/
theorem eventAt_cases {codec : Codec} {key : Direction × String} {message : StoredMessage} {event : CallEvent}
    (touched : eventAt codec key message = some event) :
    (message.direction = key.1.opposite.asDbStr ∧ message.messageKind = "request" ∧
        message.rpcId = some key.2 ∧ ∃ listening, event = .asks listening) ∨
      (message.direction = key.1.asDbStr ∧ message.messageKind = "response" ∧
        message.rpcId = some key.2 ∧ event = .answers) ∨
      (message.messageKind = "notification" ∧ (event = .cancels ∨ event = .acknowledges)) := by
  unfold eventAt at touched
  cases known : Direction.fromDbStr message.direction with
  | none => simp [known] at touched
  | some direction =>
    have written := (Direction.fromDbStr_eq_some_iff _ _).1 known
    simp only [known] at touched
    by_cases request : message.messageKind = "request"
    · by_cases own : key.1 = direction.opposite ∧ message.rpcId = some key.2
      · rw [if_pos request, if_pos own] at touched
        have side : key.1.opposite = direction := by rw [own.1, Direction.opposite_opposite]
        exact .inl ⟨side ▸ written, request, own.2, _, (Option.some.inj touched).symm⟩
      · simp [request, own] at touched
    · by_cases response : message.messageKind = "response"
      · by_cases own : key.1 = direction ∧ message.rpcId = some key.2
        · rw [if_neg request, if_pos response, if_pos own] at touched
          exact .inr (.inl ⟨own.1 ▸ written, response, own.2, (Option.some.inj touched).symm⟩)
        · simp [response, own] at touched
      · by_cases notification : message.messageKind = "notification"
        · rw [if_neg request, if_neg response, if_pos notification] at touched
          refine .inr (.inr ⟨notification, ?_⟩)
          split_ifs at touched
          · exact .inl (Option.some.inj touched).symm
          · exact .inr (Option.some.inj touched).symm
        · simp [request, response, notification] at touched

theorem distinct_of_increasing {messages : List StoredMessage} (increasing : StoredMessage.Increasing messages) :
    messages.Pairwise fun a b => a.seq ≠ b.seq :=
  increasing.imp fun less => less.ne

/-! ## Deduplication -/

namespace Deduplicating
open Deduplication

/-- The step takes this message out. -/
def removes (codec : Codec) (state : Deduplication) (message : StoredMessage) : Bool :=
  if message.direction = "c2s" ∧ message.messageKind = "request" then state.repeats codec message
  else if message.direction = "s2c" ∧ message.messageKind = "response" then
    (message.rpcId.bind state.pendingRequests).getD false
  else false

/-- The messages that are kept, step by step. -/
def survivors (codec : Codec) : Deduplication → List StoredMessage → List StoredMessage
  | _, [] => []
  | state, message :: rest =>
    if removes codec state message then survivors codec (state.step codec message) rest
    else message :: survivors codec (state.step codec message) rest

/-- The call that is open under a key has been taken out. -/
def takenOut (state : Deduplication) (key : Direction × String) : Bool :=
  key.1 = .serverToClient && state.pendingRequests key.2 = some true

section
variable {codec : Codec} {state : Deduplication} {message : StoredMessage} {key : Direction × String}

theorem step_removedSequences : (state.step codec message).removedSequences =
    if removes codec state message then message.seq :: state.removedSequences
    else state.removedSequences := by
  unfold step removes
  by_cases request : message.direction = "c2s" ∧ message.messageKind = "request"
  · rw [if_pos request, if_pos request]
    rfl
  · rw [if_neg request, if_neg request]
    by_cases response : message.direction = "s2c" ∧ message.messageKind = "response"
    · rw [if_pos response, if_pos response]
      unfold Deduplication.response
      cases message.rpcId <;> rfl
    · rw [if_neg response, if_neg response]
      rfl

theorem mem_foldl_removedSequences {messages : List StoredMessage} {seq : Nat}
    (removed : seq ∈ (messages.foldl (step codec) state).removedSequences) :
    seq ∈ state.removedSequences ∨ seq ∈ messages.map StoredMessage.seq := by
  induction messages generalizing state with
  | nil => exact .inl removed
  | cons message rest ih =>
    rcases ih removed with before | later
    · rw [step_removedSequences] at before
      split_ifs at before
      · rcases List.mem_cons.1 before with rfl | before
        · exact .inr (by simp)
        · exact .inl before
      · exact .inl before
    · exact .inr (List.mem_cons_of_mem _ later)

theorem removedSequences_subset_foldl (messages : List StoredMessage) :
    state.removedSequences ⊆ (messages.foldl (step codec) state).removedSequences := by
  induction messages generalizing state with
  | nil => exact List.Subset.refl _
  | cons message rest ih =>
    refine List.Subset.trans ?_ ih
    rw [step_removedSequences]
    split_ifs
    · exact List.subset_cons_self _ _
    · exact List.Subset.refl _

/-- With distinct sequence numbers, what is removed in the end was removed at its own step. -/
theorem filter_removedSequences {messages : List StoredMessage} (distinct : messages.Pairwise fun a b => a.seq ≠ b.seq)
    (fresh : ∀ message ∈ messages, message.seq ∉ state.removedSequences) :
    (messages.filter fun message =>
      !(messages.foldl (step codec) state).removedSequences.contains message.seq) =
      survivors codec state messages := by
  induction messages generalizing state with
  | nil => rfl
  | cons message rest ih =>
    obtain ⟨below, sorted⟩ := List.pairwise_cons.1 distinct
    have later : message.seq ∉ rest.map StoredMessage.seq := fun member => by
      obtain ⟨other, inner, same⟩ := List.mem_map.1 member
      exact below other inner same.symm
    have freshStep : ∀ other ∈ rest, other.seq ∉ (state.step codec message).removedSequences := by
      intro other inner
      rw [step_removedSequences]
      split_ifs
      · exact List.not_mem_cons_of_ne_of_not_mem (below other inner).symm (fresh other (.tail _ inner))
      · exact fresh other (.tail _ inner)
    rw [List.foldl_cons, List.filter_cons, ih sorted freshStep, survivors]
    have own : message.seq ∈ (rest.foldl (step codec) (state.step codec message)).removedSequences ↔
        removes codec state message = true := by
      constructor
      · intro removed
        have atStep := (mem_foldl_removedSequences removed).resolve_right later
        rw [step_removedSequences] at atStep
        by_contra kept
        rw [if_neg kept] at atStep
        exact fresh message (.head _) atStep
      · intro removed
        refine removedSequences_subset_foldl rest ?_
        rw [step_removedSequences, if_pos removed]
        exact .head _
    by_cases removed : removes codec state message = true
    · simp [removed, own.2 removed]
    · simp [removed, mt own.1 removed]

theorem survivors_sublist (messages : List StoredMessage) :
    List.Sublist (survivors codec state messages) messages := by
  induction messages generalizing state with
  | nil => exact List.Sublist.refl _
  | cons message rest ih =>
    unfold survivors
    split_ifs
    · exact ih.cons _
    · exact ih.cons_cons _

/-! ### One step under one key -/

theorem step_of_notification (kind : message.messageKind = "notification") :
    state.step codec message = state ∧ removes codec state message = false := by
  simp [step, removes, kind]

theorem step_pendingRequests_other {id : String}
    (request : message.direction = "c2s" → message.messageKind = "request" → message.rpcId ≠ some id)
    (response : message.direction = "s2c" → message.messageKind = "response" → message.rpcId ≠ some id) :
    (state.step codec message).pendingRequests id = state.pendingRequests id := by
  unfold step
  split_ifs with asked answered
  · unfold Deduplication.request
    cases named : message.rpcId with
    | none => rfl
    | some other =>
      exact Table.insert_other _ _ fun same => request asked.1 asked.2 (same ▸ named)
  · unfold Deduplication.response
    cases named : message.rpcId with
    | none => rfl
    | some other =>
      exact Table.erase_other _ fun same => response answered.1 answered.2 (same ▸ named)
  · rfl

theorem takenOut_step_of_untouched (untouched : eventAt codec key message = none) :
    takenOut (state.step codec message) key = takenOut state key := by
  obtain ⟨side, id⟩ := key
  cases side with
  | clientToServer => rfl
  | serverToClient =>
    unfold takenOut
    rw [step_pendingRequests_other]
    · intro direction kind named
      simp [eventAt, direction, Direction.fromDbStr, kind, named, Direction.opposite] at untouched
    · intro direction kind named
      simp [eventAt, direction, Direction.fromDbStr, kind, named] at untouched

/-- What a step keeps under a key follows what the step does there. -/
theorem follows_step {full reduced : Phase} {event : CallEvent} (follows : Phase.Follows (takenOut state key) full reduced)
    (touched : eventAt codec key message = some event) (unbroken : full.next event ≠ .broken) :
    Phase.Follows (takenOut (state.step codec message) key) (full.next event)
      (if removes codec state message then reduced else reduced.next event) := by
  obtain ⟨side, id⟩ := key
  rcases eventAt_cases touched with ⟨direction, kind, named, listening, rfl⟩ | ⟨direction, kind, named, rfl⟩ |
    ⟨kind, rfl | rfl⟩
  · cases side with
    | clientToServer =>
      have kept : removes codec state message = false := by simp [removes, direction, kind, Direction.asDbStr, Direction.opposite]
      rw [kept]
      exact follows.asks_kept unbroken
    | serverToClient =>
      have same : takenOut (state.step codec message) (.serverToClient, id) = removes codec state message := by
        simp [takenOut, step, removes, Deduplication.request, direction, kind, named, Direction.asDbStr, Direction.opposite]
      rw [same]
      cases removes codec state message
      · exact follows.asks_kept unbroken
      · exact follows.asks_removed unbroken
  · cases side with
    | clientToServer =>
      have kept : removes codec state message = false := by simp [removes, direction, kind, Direction.asDbStr]
      rw [kept]
      exact Phase.Follows.answers_kept follows unbroken _
    | serverToClient =>
      have same : removes codec state message = takenOut state (.serverToClient, id) := by
        simp only [takenOut, removes, direction, kind, named, Direction.asDbStr, Option.bind_some]
        cases state.pendingRequests id <;> simp
      rw [same]
      cases taken : takenOut state (.serverToClient, id) <;> rw [taken] at follows
      · exact Phase.Follows.answers_kept follows unbroken _
      · exact Phase.Follows.answers_removed follows unbroken _
  · obtain ⟨still, kept⟩ := @step_of_notification codec state message kind
    rw [still, kept]
    exact follows.cancels (Phase.ne_broken_of_next unbroken)
  · obtain ⟨still, kept⟩ := @step_of_notification codec state message kind
    rw [still, kept]
    exact follows.acknowledges

theorem follows_foldl {full reduced : Phase} {messages : List StoredMessage}
    (follows : Phase.Follows (takenOut state key) full reduced)
    (unbroken : full.run (messages.filterMap (eventAt codec key)) ≠ .broken) :
    Phase.Follows (takenOut (messages.foldl (step codec) state) key)
      (full.run (messages.filterMap (eventAt codec key)))
      (reduced.run ((survivors codec state messages).filterMap (eventAt codec key))) := by
  induction messages generalizing state full reduced with
  | nil => exact follows
  | cons message rest ih =>
    cases touched : eventAt codec key message with
    | none =>
      rw [List.filterMap_cons_none touched] at unbroken ⊢
      have still := ih (@takenOut_step_of_untouched codec state message key touched ▸ follows) unbroken
      rw [List.foldl_cons, survivors]
      split_ifs
      · exact still
      · rwa [List.filterMap_cons_none touched]
    | some event =>
      rw [List.filterMap_cons_some touched] at unbroken ⊢
      have next := ih (follows_step follows touched (Phase.ne_broken_of_run unbroken)) unbroken
      rw [List.foldl_cons, survivors]
      split_ifs with removed
      · rwa [if_pos removed] at next
      · rw [List.filterMap_cons_some touched]
        rwa [if_neg removed] at next

/-- A session on its own starts with nothing taken out. -/
theorem deduplicateSourceMessages_fst {seenCalls : List DeduplicationKey} {messages : List StoredMessage}
    (distinct : messages.Pairwise fun a b => a.seq ≠ b.seq) :
    (deduplicateSourceMessages codec seenCalls messages).1 = survivors codec (.start seenCalls) messages :=
  filter_removedSequences distinct (by simp [start])

/-- The first message of all is kept. -/
theorem survivors_start_ne_nil {messages : List StoredMessage} (filled : messages ≠ []) :
    survivors codec (.start []) messages ≠ [] := by
  cases messages with
  | nil => exact absurd rfl filled
  | cons message rest =>
    have kept : removes codec (.start []) message = false := by
      unfold removes repeats start
      split_ifs
      · cases deduplicationKey codec message <;> rfl
      · cases message.rpcId <;> rfl
      · rfl
    simp [survivors, kept]

end

end Deduplicating

/-! ## Merging -/

section
variable {codec : Codec} {deduplicate : Bool} {seenCalls : List DeduplicationKey}
  {sources : List (List StoredMessage)}

theorem mem_mergeMessages {message : StoredMessage} (increasing : ∀ messages ∈ sources, StoredMessage.Increasing messages)
    (merged : message ∈ (mergeMessages codec deduplicate seenCalls sources).1) :
    ∃ messages ∈ sources, message ∈ messages := by
  induction sources generalizing seenCalls with
  | nil => cases merged
  | cons messages rest ih =>
    obtain ⟨first, others⟩ := List.forall_mem_cons.1 increasing
    unfold mergeMessages at merged
    split_ifs at merged
    · rcases List.mem_append.1 merged with here | later
      · rw [Deduplicating.deduplicateSourceMessages_fst (distinct_of_increasing first)] at here
        exact ⟨messages, .head _, (Deduplicating.survivors_sublist messages).subset here⟩
      · obtain ⟨source, member, inner⟩ := ih others later
        exact ⟨source, .tail _ member, inner⟩
    · rcases List.mem_append.1 merged with here | later
      · exact ⟨messages, .head _, here⟩
      · obtain ⟨source, member, inner⟩ := ih others later
        exact ⟨source, .tail _ member, inner⟩

/-- Under every key the sources come to rest one after the other. -/
theorem settled_mergeMessages {key : Direction × String} {reduced : Phase}
    (increasing : ∀ messages ∈ sources, StoredMessage.Increasing messages)
    (settles : ∀ messages ∈ sources, (phaseAfter codec messages key).Settled) (settled : reduced.Settled) :
    (reduced.run ((mergeMessages codec deduplicate seenCalls sources).1.filterMap (eventAt codec key))).Settled := by
  induction sources generalizing seenCalls reduced with
  | nil => exact settled
  | cons messages rest ih =>
    obtain ⟨first, others⟩ := List.forall_mem_cons.1 increasing
    obtain ⟨rests, otherRests⟩ := List.forall_mem_cons.1 settles
    unfold mergeMessages
    split_ifs
    · rw [List.filterMap_append, Phase.run_append, Deduplicating.deduplicateSourceMessages_fst (distinct_of_increasing first)]
      have start : Phase.Follows (Deduplicating.takenOut (.start seenCalls) key) .idle reduced :=
        Phase.follows_idle settled
      have follows := Deduplicating.follows_foldl start rests.ne_broken
      exact ih others otherRests (follows.settled rests)
    · rw [List.filterMap_append, Phase.run_append]
      have start : Phase.Follows false .idle reduced := Phase.follows_idle settled
      have follows := start.run_kept rests.ne_broken
      exact ih others otherRests (follows.settled rests)

theorem mergeMessages_ne_nil {messages : List StoredMessage} (distinct : StoredMessage.Increasing messages)
    (filled : messages ≠ []) : (mergeMessages codec deduplicate [] (messages :: sources)).1 ≠ [] := by
  unfold mergeMessages
  split_ifs
  · refine List.append_ne_nil_of_left_ne_nil ?_ _
    rw [Deduplicating.deduplicateSourceMessages_fst (distinct_of_increasing distinct)]
    exact Deduplicating.survivors_start_ne_nil filled
  · exact List.append_ne_nil_of_left_ne_nil filled _

end

/-! ## New numbers -/

section
variable {codec : Codec} {seq : Nat} {messages : List StoredMessage}

theorem mem_renumbered {message : StoredMessage} (member : message ∈ renumbered seq messages) :
    seq ≤ message.seq ∧ ∃ original ∈ messages, message = { original with seq := message.seq } := by
  induction messages generalizing seq with
  | nil => cases member
  | cons first rest ih =>
    rcases List.mem_cons.1 member with rfl | later
    · exact ⟨le_rfl, first, .head _, rfl⟩
    · obtain ⟨above, original, inner, same⟩ := ih later
      exact ⟨by omega, original, .tail _ inner, same⟩

theorem increasing_renumbered : StoredMessage.Increasing (renumbered seq messages) := by
  induction messages generalizing seq with
  | nil => exact .nil
  | cons first rest ih =>
    refine List.pairwise_cons.2 ⟨fun later member => ?_, ih⟩
    have above := (mem_renumbered member).1
    exact Nat.lt_of_succ_le above

/-- A number has no part in a call. -/
theorem phaseAfter_renumbered (key : Direction × String) :
    phaseAfter codec (renumbered seq messages) key = phaseAfter codec messages key := by
  unfold phaseAfter
  congr 1
  induction messages generalizing seq with
  | nil => rfl
  | cons first rest ih =>
    have same : eventAt codec key { first with seq := seq } = eventAt codec key first := rfl
    rw [renumbered, List.filterMap_cons, List.filterMap_cons, same, ih]

theorem healthy_renumbered (filled : messages ≠ []) (recognized : ∀ message ∈ messages, Recognized codec message)
    (settles : Settles codec messages) : Healthy codec (renumbered seq messages) 0 := by
  obtain ⟨named, settled⟩ := settles_iff.1 settles
  refine healthy_iff.2 ⟨?_, rfl, increasing_renumbered, fun message member => ?_, settles_iff.2 ⟨?_, ?_⟩⟩
  · cases messages with
    | nil => exact absurd rfl filled
    | cons first rest => exact List.cons_ne_nil _ _
  · obtain ⟨-, original, inner, same⟩ := mem_renumbered member
    obtain ⟨direction, kind, payload⟩ := recognized original inner
    rw [same]
    exact ⟨direction, kind, payload⟩
  · intro message member anonymous
    obtain ⟨-, original, inner, same⟩ := mem_renumbered member
    rw [same] at anonymous
    exact named original inner anonymous
  · exact fun key => (phaseAfter_renumbered key).symm ▸ settled key

end

/-- Sessions that are healthy merge into a session that is healthy. -/
theorem healthy_mergeMessages {codec : Codec} {deduplicate : Bool} {sources : List (List StoredMessage)}
    (some_ : sources ≠ []) (healthy : ∀ messages ∈ sources, Healthy codec messages 0) :
    Healthy codec (renumbered 0 (mergeMessages codec deduplicate [] sources).1) 0 := by
  have increasing : ∀ messages ∈ sources, StoredMessage.Increasing messages :=
    fun messages member => (healthy_iff.1 (healthy messages member)).2.2.1
  have settles : ∀ messages ∈ sources, Settles codec messages :=
    fun messages member => (healthy_iff.1 (healthy messages member)).2.2.2.2
  refine healthy_renumbered ?_ (fun message member => ?_) (settles_iff.2 ⟨fun message member => ?_, fun key => ?_⟩)
  · obtain ⟨first, rest, rfl⟩ := List.exists_cons_of_ne_nil some_
    exact mergeMessages_ne_nil (increasing _ (.head _)) (healthy_iff.1 (healthy _ (.head _))).1
  · obtain ⟨messages, source, inner⟩ := mem_mergeMessages increasing member
    exact (healthy_iff.1 (healthy messages source)).2.2.2.1 message inner
  · obtain ⟨messages, source, inner⟩ := mem_mergeMessages increasing member
    exact (settles_iff.1 (settles messages source)).1 message inner
  · exact settled_mergeMessages increasing
      (fun messages source => (settles_iff.1 (settles messages source)).2 key) (.inl rfl)

/-- A merge of healthy sessions, with or without deduplication, stores a healthy session. -/
theorem mergeSessions_healthy {codec : Codec} {db after : Database} {id : Uuid} {names : List String}
    {deduplicate : Bool} {result : MergeResult}
    (healthy : ∀ name ∈ names, ∀ summary messages, db.getSessionSummary name = .ok summary →
      db.getMessages summary.id.text = .ok messages →
      summary.droppedMessages = 0 ∧ Healthy codec messages 0)
    (merged : mergeSessions codec db id names deduplicate = .ok (after, result)) :
    ∃ summary messages, after.getSessionSummary result.sessionId.text = .ok summary ∧
      after.getMessages result.sessionId.text = .ok messages ∧
      summary.droppedMessages = 0 ∧ Healthy codec messages 0 := by
  obtain ⟨sources, summary, loaded, filled, listed, rfl, named, summed, read, -⟩ := mergeSessions_eq_ok merged
  have each : ∀ source ∈ sources, source.1.droppedMessages = 0 ∧ Healthy codec source.2 0 := by
    intro source member
    obtain ⟨name, given, found, messages⟩ := loadSources_eq_ok loaded source member
    exact healthy name given source.1 source.2 found messages
  have none_dropped : sumDropped 0 ((sources.map Prod.fst).map SessionRow.droppedMessages) = .ok 0 := by
    refine sumDropped_zero fun count counted => ?_
    obtain ⟨row, rowListed, rfl⟩ := List.mem_map.1 counted
    obtain ⟨source, member, rfl⟩ := List.mem_map.1 rowListed
    exact (each source member).1
  refine ⟨summary, after.messagesOf summary.id, ?_, ?_, ?_, ?_⟩
  · rw [named]
    exact Database.resolveSessionId_text listed
  · rw [named]
    exact Database.getMessages_text listed
  · exact Except.ok.inj (summed.symm.trans none_dropped)
  · rw [read]
    refine healthy_mergeMessages (by simpa using filled) fun messages member => ?_
    obtain ⟨source, inner, rfl⟩ := List.mem_map.1 member
    exact (each source inner).2

/-! ### Two recordings of one call -/

theorem firstId_length : "00000000-0000-4000-8000-000000000001".utf8ByteSize = 36 := by decide +kernel

def firstId : Uuid := ⟨"00000000-0000-4000-8000-000000000001", firstId_length⟩

def secondId : Uuid := ⟨"00000000-0000-4000-8000-000000000002", by decide +kernel⟩

def mergedId : Uuid := ⟨"00000000-0000-4000-8000-000000000003", by decide +kernel⟩

def recordedSession (id : Uuid) : SessionRow where
  id := id
  client := "client"
  serverCommand := "server"
  transport := "stdio"
  startedAtNs := 0
  endedAtNs := none
  totalMessages := 2
  droppedMessages := 0
  redactionPolicy := "default"
  redactionKeysJson := "[]"
  tags := "[]"

def listingAsked (id : Uuid) : MessageRow where
  sessionId := id
  seq := 0
  tsNs := 0
  direction := "c2s"
  messageKind := "request"
  rpcId := some "1"
  method := some "tools/list"
  toolName := none
  payload := Compact.codec.toString (.object [("method", .string "tools/list")])
  payloadBytes := 23
  isError := 0
  errorCode := none

def listingAnswered (id : Uuid) : MessageRow where
  sessionId := id
  seq := 1
  tsNs := 0
  direction := "s2c"
  messageKind := "response"
  rpcId := some "1"
  method := none
  toolName := none
  payload := Compact.codec.toString (.object [("result", .object [])])
  payloadBytes := 13
  isError := 0
  errorCode := none

def twoRecordings : Database where
  sessions := [recordedSession firstId, recordedSession secondId]
  messages := [listingAsked firstId, listingAnswered firstId, listingAsked secondId, listingAnswered secondId]
  uniqueIds := by decide +kernel
  uniqueKeys := by decide +kernel
  owned := by decide +kernel

theorem mergeSessions_healthy_repeated :
    ∃ after result, mergeSessions Compact.codec twoRecordings mergedId [firstId.text, secondId.text] true =
        .ok (after, result) ∧
      ∃ summary messages, after.getSessionSummary result.sessionId.text = .ok summary ∧
        after.getMessages result.sessionId.text = .ok messages ∧
        summary.droppedMessages = 0 ∧ Healthy Compact.codec messages 0 := by
  have succeeds : (mergeSessions Compact.codec twoRecordings mergedId [firstId.text, secondId.text] true).isOk := by
    decide +kernel
  have healthy : ∀ row ∈ twoRecordings.sessions,
      row.droppedMessages = 0 ∧ Healthy Compact.codec (twoRecordings.messagesOf row.id) 0 := by
    decide +kernel
  cases merged : mergeSessions Compact.codec twoRecordings mergedId [firstId.text, secondId.text] true with
  | error failure =>
    rw [merged] at succeeds
    cases succeeds
  | ok pair =>
    refine ⟨pair.1, pair.2, rfl, mergeSessions_healthy (fun name given summary messages found read => ?_) merged⟩
    have listed := Database.mem_of_resolveSessionId found
    rw [Database.getMessages_text listed] at read
    exact Except.ok.inj read ▸ healthy summary listed

end McpTracer.Model
