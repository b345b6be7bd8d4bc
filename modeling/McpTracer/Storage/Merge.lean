import McpTracer.Foundation.Table
import McpTracer.Redact.Redactor
import McpTracer.Storage.Database

/-! Several stored sessions copied into one.

Messages keep their order and are numbered afresh. With deduplication, a call that repeats an
earlier one is left out together with its response.
-/

set_option autoImplicit false

namespace McpTracer.Storage
open McpTracer.Foundation McpTracer.Json McpTracer.Redact

/-! ## Repeated calls -/

structure DeduplicationKey where
  method : String
  toolName : Option String
  normalizedParams : String
  deriving DecidableEq

mutual
def containsRedactedValue : Value → Bool
  | .string text => text == redactedPlaceholder
  | .array items => containsRedactedItem items
  | .object fields => containsRedactedField fields
  | .null | .bool _ | .number _ => false
def containsRedactedItem : List Value → Bool
  | [] => false
  | item :: rest => containsRedactedValue item || containsRedactedItem rest
def containsRedactedField : List (String × Value) → Bool
  | [] => false
  | (_, value) :: rest => containsRedactedValue value || containsRedactedField rest
end

mutual
/-- The text of a tree with the members of objects in the order of their keys. -/
@[grind] def canonicalJson (codec : Codec) : Value → String
  | .null => "null"
  | .bool b => toString b
  | .number n => codec.toString (.number n)
  | .string s => codec.toString (.string s)
  | .array items => "[" ++ ",".intercalate (canonicalItems codec items) ++ "]"
  | .object fields =>
    let entries := (canonicalFields codec fields).insertionSort fun a b => a.1 ≤ b.1
    "\x7b" ++ ",".intercalate (entries.map fun entry =>
      codec.toString (.string entry.1) ++ ":" ++ entry.2) ++ "\x7d"
@[grind] def canonicalItems (codec : Codec) : List Value → List String
  | [] => []
  | item :: rest => canonicalJson codec item :: canonicalItems codec rest
@[grind] def canonicalFields (codec : Codec) : List (String × Value) → List (String × String)
  | [] => []
  | (key, value) :: rest => (key, canonicalJson codec value) :: canonicalFields codec rest
end

def deduplicationKey (codec : Codec) (message : StoredMessage) : Option DeduplicationKey := do
  let method ← message.method
  let payload ← codec.fromStr message.payload
  let fields ← payload.asObject
  let params := (fields.lookup "params").getD .null
  if containsRedactedValue params then none
  else some ⟨method, message.toolName, canonicalJson codec params⟩

/-- What one pass over a source collects; the calls seen are handed on to the next source. -/
structure Deduplication where
  seenCalls : List DeduplicationKey
  removedSequences : List Nat
  pendingRequests : Table String Bool
  removedCalls : Nat

namespace Deduplication

def start (seenCalls : List DeduplicationKey) : Deduplication where
  seenCalls := seenCalls
  removedSequences := []
  pendingRequests := Table.empty
  removedCalls := 0

/-- Whether a request repeats a call that was seen. -/
def repeats (codec : Codec) (state : Deduplication) (message : StoredMessage) : Bool :=
  (deduplicationKey codec message).any fun key => state.seenCalls.contains key

def request (codec : Codec) (state : Deduplication) (message : StoredMessage) : Deduplication :=
  let removeRequest := state.repeats codec message
  { seenCalls := ((deduplicationKey codec message).toList ++ state.seenCalls)
    removedSequences := if removeRequest then message.seq :: state.removedSequences else state.removedSequences
    pendingRequests := match message.rpcId with
      | some id => state.pendingRequests.insert id removeRequest
      | none => state.pendingRequests
    removedCalls := if removeRequest then state.removedCalls + 1 else state.removedCalls }

def response (state : Deduplication) (message : StoredMessage) : Deduplication :=
  match message.rpcId with
  | some id =>
    { state with
      pendingRequests := state.pendingRequests.erase id
      removedSequences :=
        if (state.pendingRequests id).getD false then message.seq :: state.removedSequences
        else state.removedSequences }
  | none => state

def step (codec : Codec) (state : Deduplication) (message : StoredMessage) : Deduplication :=
  if message.direction = "c2s" ∧ message.messageKind = "request" then state.request codec message
  else if message.direction = "s2c" ∧ message.messageKind = "response" then state.response message
  else state

end Deduplication

/-- The messages that stay, with the calls seen so far and the number of calls removed. -/
def deduplicateSourceMessages (codec : Codec) (seenCalls : List DeduplicationKey)
    (messages : List StoredMessage) : List StoredMessage × List DeduplicationKey × Nat :=
  let state := messages.foldl (Deduplication.step codec) (.start seenCalls)
  (messages.filter fun message => !state.removedSequences.contains message.seq,
    state.seenCalls, state.removedCalls)

/-- The messages of all sources in order, and the number of calls removed. -/
def mergeMessages (codec : Codec) (deduplicate : Bool) :
    List DeduplicationKey → List (List StoredMessage) → List StoredMessage × Nat
  | _, [] => ([], 0)
  | seenCalls, messages :: rest =>
    if deduplicate then
      let kept := deduplicateSourceMessages codec seenCalls messages
      let others := mergeMessages codec deduplicate kept.2.1 rest
      (kept.1 ++ others.1, kept.2.2 + others.2)
    else
      let others := mergeMessages codec deduplicate seenCalls rest
      (messages ++ others.1, others.2)

/-! ## Merging -/

structure MergeResult where
  sessionId : Uuid
  sourceSessionIds : List Uuid
  totalMessages : Nat
  deduplicatedCalls : Nat
  deriving DecidableEq

/-- The sources with their messages; a source may be named once only. -/
def loadSources (db : Database) : List Uuid → List String →
    Except StoreError (List (SessionRow × List StoredMessage))
  | _, [] => .ok []
  | seen, name :: rest => do
    let summary ← db.getSessionSummary name
    if summary.id ∈ seen then .error (.repeatedSource summary.id)
    else
      let messages ← db.getMessages summary.id.text
      let others ← loadSources db (summary.id :: seen) rest
      return (summary, messages) :: others

def SessionRow.sameConfiguration (a b : SessionRow) : Prop :=
  a.transport = b.transport ∧ a.redactionPolicy = b.redactionPolicy ∧ a.redactionKeysJson = b.redactionKeysJson

instance (a b : SessionRow) : Decidable (a.sameConfiguration b) := inferInstanceAs (Decidable (_ ∧ _ ∧ _))

/-- A sum that leaves the range of `i64` on the way is an error. -/
def sumDropped : Int → List Int → Except StoreError Int
  | total, [] => .ok total
  | total, count :: rest =>
    if -2 ^ 63 ≤ total + count ∧ total + count < 2 ^ 63 then sumDropped (total + count) rest
    else .error .droppedCountOverflow

/-- The row of a copied message under its new number. -/
def mergedRow (id : Uuid) (seq : Nat) (message : StoredMessage) : Except StoreError MessageRow := do
  let seq ← require (checkedI64 seq) (.integerOverflow "merged sequence exceeds i64")
  let payloadBytes ← require (checkedI64 message.payloadBytes) (.integerOverflow "merged payload size exceeds i64")
  return .ofStored id seq payloadBytes message

/-- The rows of the messages, numbered from `seq` on. -/
def mergedRows (id : Uuid) : Nat → List StoredMessage → Except StoreError (List MessageRow)
  | _, [] => .ok []
  | seq, message :: rest => do
    let row ← mergedRow id seq message
    let rows ← mergedRows id (seq + 1) rest
    return row :: rows

/-- The session of the merged messages. -/
def mergedSession (codec : Codec) (id : Uuid) (reference : SessionRow) (sources : List SessionRow)
    (droppedMessages totalMessages : Int) : SessionRow where
  id := id
  client := "mcptracer merge"
  serverCommand := "merged sessions"
  transport := reference.transport
  startedAtNs := (sources.map SessionRow.startedAtNs).foldl min reference.startedAtNs
  endedAtNs :=
    if sources.all fun source => source.endedAtNs.isSome then (sources.filterMap SessionRow.endedAtNs).max?
    else none
  totalMessages := totalMessages
  droppedMessages := droppedMessages
  redactionPolicy := reference.redactionPolicy
  redactionKeysJson := reference.redactionKeysJson
  tags := codec.toString (.array
    (.string "merged" :: sources.map fun source => .string ("source:" ++ source.id.text)))

/-- Combine complete stored sessions in the supplied order under a new id. -/
def mergeSessions (codec : Codec) (db : Database) (id : Uuid) (sourceSessionIds : List String)
    (deduplicate : Bool) : Except StoreError (Database × MergeResult) := do
  if sourceSessionIds.length < 2 then .error .mergeNeedsTwoSources
  else
    let sources ← loadSources db [] sourceSessionIds
    match sources with
    | [] => .error .mergeNeedsTwoSources
    | (reference, _) :: _ =>
      let summaries := sources.map Prod.fst
      if ¬ ∀ summary ∈ summaries, summary.sameConfiguration reference then .error .differentConfigurations
      else
        let droppedMessages ← sumDropped 0 (summaries.map SessionRow.droppedMessages)
        let merged := mergeMessages codec deduplicate [] (sources.map Prod.snd)
        let totalMessages ← require (checkedI64 merged.1.length)
          (.integerOverflow "merged message count exceeds i64")
        let db ← db.insertSession (mergedSession codec id reference summaries droppedMessages totalMessages)
        let rows ← mergedRows id 0 merged.1
        let db ← db.insertMessages rows
        return (db, ⟨id, summaries.map SessionRow.id, merged.1.length, merged.2⟩)

/-! ## What is stored -/

/-- The messages under new numbers. -/
def renumbered : Nat → List StoredMessage → List StoredMessage
  | _, [] => []
  | seq, message :: rest => { message with seq := seq } :: renumbered (seq + 1) rest

theorem mergedRow_eq_ok {id : Uuid} {seq : Nat} {message : StoredMessage} {row : MessageRow}
    (merged : mergedRow id seq message = .ok row) :
    row.sessionId = id ∧ row.seq = seq ∧ row.read = { message with seq := seq } := by
  unfold mergedRow at merged
  simp only [bind_eq_ok_iff, require_eq_ok_iff, checkedI64_eq_some_iff, pure_eq_ok_iff] at merged
  obtain ⟨_, ⟨seqFits, rfl⟩, _, ⟨bytesFit, rfl⟩, rfl⟩ := merged
  exact ⟨rfl, rfl, MessageRow.read_ofStored seqFits bytesFit⟩

theorem mergedRows_eq_ok {id : Uuid} {seq : Nat} {messages : List StoredMessage} {rows : List MessageRow}
    (merged : mergedRows id seq messages = .ok rows) :
    rows.map MessageRow.read = renumbered seq messages ∧
      (∀ row ∈ rows, row.sessionId = id ∧ (seq : Int) ≤ row.seq) ∧
      rows.Pairwise fun a b => a.seq ≤ b.seq := by
  induction messages generalizing seq rows with
  | nil =>
    cases merged
    exact ⟨rfl, by simp, .nil⟩
  | cons message rest ih =>
    unfold mergedRows at merged
    simp only [bind_eq_ok_iff, pure_eq_ok_iff] at merged
    obtain ⟨row, first, others, later, rfl⟩ := merged
    obtain ⟨owner, number, read⟩ := mergedRow_eq_ok first
    obtain ⟨reads, bounded, sorted⟩ := ih later
    refine ⟨by rw [List.map_cons, read, reads, renumbered], ?_, ?_⟩
    · refine List.forall_mem_cons.2 ⟨⟨owner, number.ge⟩, fun other member => ?_⟩
      obtain ⟨own, below⟩ := bounded other member
      exact ⟨own, by omega⟩
    · refine List.pairwise_cons.2 ⟨fun other member => ?_, sorted⟩
      obtain ⟨-, below⟩ := bounded other member
      omega

theorem loadSources_eq_ok {db : Database} {seen : List Uuid} {names : List String}
    {sources : List (SessionRow × List StoredMessage)} (loaded : loadSources db seen names = .ok sources) :
    ∀ source ∈ sources, ∃ name ∈ names, db.getSessionSummary name = .ok source.1 ∧
      db.getMessages source.1.id.text = .ok source.2 := by
  induction names generalizing seen sources with
  | nil =>
    cases loaded
    simp
  | cons name rest ih =>
    unfold loadSources at loaded
    simp only [bind_eq_ok_iff] at loaded
    obtain ⟨summary, found, loaded⟩ := loaded
    split_ifs at loaded
    simp only [bind_eq_ok_iff, pure_eq_ok_iff] at loaded
    obtain ⟨messages, read, others, loaded, rfl⟩ := loaded
    refine List.forall_mem_cons.2 ⟨⟨name, .head _, found, read⟩, fun source member => ?_⟩
    obtain ⟨other, given, resolved⟩ := ih loaded source member
    exact ⟨other, .tail _ given, resolved⟩

theorem sumDropped_zero {counts : List Int} (none : ∀ count ∈ counts, count = 0) :
    sumDropped 0 counts = .ok 0 := by
  induction counts with
  | nil => rfl
  | cons count rest ih =>
    obtain ⟨rfl, others⟩ := List.forall_mem_cons.1 none
    exact ih others

/-- A merge stores one new session, which holds the merged messages under new numbers. -/
theorem mergeSessions_eq_ok {codec : Codec} {db after : Database} {id : Uuid} {names : List String}
    {deduplicate : Bool} {result : MergeResult}
    (merged : mergeSessions codec db id names deduplicate = .ok (after, result)) :
    ∃ sources summary, loadSources db [] names = .ok sources ∧ sources ≠ [] ∧ summary ∈ after.sessions ∧
      summary.id = id ∧ result.sessionId = id ∧
      sumDropped 0 ((sources.map Prod.fst).map SessionRow.droppedMessages) = .ok summary.droppedMessages ∧
      after.messagesOf id = renumbered 0 (mergeMessages codec deduplicate [] (sources.map Prod.snd)).1 ∧
      result.deduplicatedCalls = (mergeMessages codec deduplicate [] (sources.map Prod.snd)).2 := by
  unfold mergeSessions at merged
  split_ifs at merged
  obtain ⟨sources, loaded, merged⟩ := bind_eq_ok_iff.1 merged
  cases sources with
  | nil => cases merged
  | cons first others =>
    obtain ⟨reference, messages⟩ := first
    dsimp only at merged
    split_ifs at merged
    obtain ⟨dropped, summed, merged⟩ := bind_eq_ok_iff.1 merged
    obtain ⟨total, -, merged⟩ := bind_eq_ok_iff.1 merged
    obtain ⟨withSession, inserted, merged⟩ := bind_eq_ok_iff.1 merged
    obtain ⟨rows, numbered, merged⟩ := bind_eq_ok_iff.1 merged
    obtain ⟨filled, stored, merged⟩ := bind_eq_ok_iff.1 merged
    cases merged
    obtain ⟨fresh, sessions, kept⟩ := Database.insertSession_eq_ok inserted
    obtain ⟨sameSessions, allMessages⟩ := Database.insertMessages_eq_ok stored
    obtain ⟨reads, bounded, sorted⟩ := mergedRows_eq_ok numbered
    refine ⟨_, mergedSession codec id reference (((reference, messages) :: others).map Prod.fst) dropped total,
      loaded, by simp, ?_, rfl, rfl, summed, ?_, rfl⟩
    · rw [sameSessions, sessions]
      exact List.mem_append_right _ (List.mem_singleton_self _)
    · rw [← reads]
      exact Database.messagesOf_append (allMessages.trans (by rw [kept])) fresh
        (fun row member => (bounded row member).1) sorted

end McpTracer.Storage
