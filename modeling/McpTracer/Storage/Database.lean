import Mathlib.Algebra.Group.Int.Defs
import Mathlib.Data.List.Sort
import McpTracer.Foundation.Outcome
import McpTracer.Storage.StoredMessage

/-! The tables of sessions and messages, with the constraints that the schema declares.

A write either yields tables that satisfy every constraint or fails. So a sequence of writes
that stops at the first failure is a transaction: the caller still has the tables it started with.
-/

set_option autoImplicit false

namespace McpTracer.Storage
open McpTracer.Foundation McpTracer.Json

/-! ## Machine integers -/

/-- `as i64`. -/
def wrapI64 (n : Nat) : Int := Int.bmod n (2 ^ 64)

/-- `as u64`. -/
def wrapU64 (n : Int) : Nat := (n % 2 ^ 64).toNat

def checkedI64 (n : Nat) : Option Int := if n < 2 ^ 63 then some n else none

theorem checkedI64_eq_some_iff {n : Nat} {i : Int} : checkedI64 n = some i ↔ n < 2 ^ 63 ∧ i = n := by
  unfold checkedI64
  split_ifs with fits
  · simp only [Option.some.injEq, fits, true_and, eq_comm]
  · exact iff_of_false id fun both => fits both.1

/-- An unsigned number that fits is stored as itself. -/
@[simp] theorem wrapU64_natCast {n : Nat} (fits : n < 2 ^ 63) : wrapU64 n = n := by
  unfold wrapU64
  omega

/-! ## Rows -/

/-- The text of a UUID, which every session id is. -/
structure Uuid where
  text : String
  length : text.utf8ByteSize = 36
  deriving DecidableEq

structure SessionRow where
  id : Uuid
  client : String
  serverCommand : String
  transport : String
  startedAtNs : Int
  endedAtNs : Option Int
  totalMessages : Int
  droppedMessages : Int
  redactionPolicy : String
  redactionKeysJson : String
  tags : String
  deriving DecidableEq

structure MessageRow where
  sessionId : Uuid
  seq : Int
  tsNs : Int
  direction : String
  messageKind : String
  rpcId : Option String
  method : Option String
  toolName : Option String
  payload : String
  payloadBytes : Int
  isError : Int
  errorCode : Option Int
  deriving DecidableEq

namespace MessageRow

/-- A session has one message for a sequence number. -/
def key (row : MessageRow) : Uuid × Int := (row.sessionId, row.seq)

/-- What a query returns of a row. -/
def read (row : MessageRow) : StoredMessage where
  seq := wrapU64 row.seq
  tsNs := row.tsNs
  direction := row.direction
  messageKind := row.messageKind
  rpcId := row.rpcId
  method := row.method
  toolName := row.toolName
  payload := row.payload
  payloadBytes := wrapU64 row.payloadBytes
  isError := row.isError ≠ 0
  errorCode := row.errorCode

/-- The row of a message whose numbers have been converted. -/
def ofStored (id : Uuid) (seq payloadBytes : Int) (message : StoredMessage) : MessageRow where
  sessionId := id
  seq := seq
  tsNs := message.tsNs
  direction := message.direction
  messageKind := message.messageKind
  rpcId := message.rpcId
  method := message.method
  toolName := message.toolName
  payload := message.payload
  payloadBytes := payloadBytes
  isError := if message.isError then 1 else 0
  errorCode := message.errorCode

@[simp] theorem read_ofStored {id : Uuid} {seq payloadBytes : Nat} {message : StoredMessage}
    (seqFits : seq < 2 ^ 63) (bytesFit : payloadBytes < 2 ^ 63) :
    (ofStored id seq payloadBytes message).read = { message with seq := seq, payloadBytes := payloadBytes } := by
  cases flag : message.isError <;>
    simp [read, ofStored, flag, wrapU64_natCast seqFits, wrapU64_natCast bytesFit]

end MessageRow

/-! ## Tables -/

structure Database where
  sessions : List SessionRow
  messages : List MessageRow
  uniqueIds : (sessions.map SessionRow.id).Nodup
  uniqueKeys : (messages.map MessageRow.key).Nodup
  owned : ∀ row ∈ messages, row.sessionId ∈ sessions.map SessionRow.id

inductive StoreError where
  | sessionNotFound (sessionIdOrPrefix : String)
  | ambiguousPrefix (sessionIdOrPrefix : String)
  | constraintFailed (table : String)
  | mergeNeedsTwoSources
  | repeatedSource (id : Uuid)
  | differentConfigurations
  | droppedCountOverflow
  | integerOverflow (what : String)
  deriving DecidableEq

namespace Database

def empty : Database where
  sessions := []
  messages := []
  uniqueIds := List.nodup_nil
  uniqueKeys := List.nodup_nil
  owned := fun _ member => absurd member List.not_mem_nil

def insertSession (db : Database) (row : SessionRow) : Except StoreError Database :=
  if fresh : row.id ∉ db.sessions.map SessionRow.id then
    .ok {
      sessions := db.sessions ++ [row]
      messages := db.messages
      uniqueIds := by
        rw [List.map_append, List.nodup_append]
        exact ⟨db.uniqueIds, by simp, by simpa using fresh⟩
      uniqueKeys := db.uniqueKeys
      owned := fun message member => by
        rw [List.map_append]
        exact List.mem_append_left _ (db.owned message member) }
  else .error (.constraintFailed "sessions")

def insertMessage (db : Database) (row : MessageRow) : Except StoreError Database :=
  if allowed : row.sessionId ∈ db.sessions.map SessionRow.id ∧ row.key ∉ db.messages.map MessageRow.key then
    .ok {
      sessions := db.sessions
      messages := db.messages ++ [row]
      uniqueIds := db.uniqueIds
      uniqueKeys := by
        rw [List.map_append, List.nodup_append]
        exact ⟨db.uniqueKeys, by simp, by simpa using allowed.2⟩
      owned := fun message member => by
        rcases List.mem_append.1 member with earlier | last
        · exact db.owned message earlier
        · obtain rfl := List.mem_singleton.1 last
          exact allowed.1 }
  else .error (.constraintFailed "messages")

theorem insertSession_eq_ok {db after : Database} {row : SessionRow} (inserted : db.insertSession row = .ok after) :
    row.id ∉ db.sessions.map SessionRow.id ∧ after.sessions = db.sessions ++ [row] ∧
      after.messages = db.messages := by
  unfold insertSession at inserted
  split_ifs at inserted with fresh
  cases inserted
  exact ⟨fresh, rfl, rfl⟩

theorem insertMessage_eq_ok {db after : Database} {row : MessageRow} (inserted : db.insertMessage row = .ok after) :
    after.sessions = db.sessions ∧ after.messages = db.messages ++ [row] := by
  unfold insertMessage at inserted
  split_ifs at inserted
  cases inserted
  exact ⟨rfl, rfl⟩

def insertMessages (db : Database) : List MessageRow → Except StoreError Database
  | [] => .ok db
  | row :: rest => do
    let db ← db.insertMessage row
    db.insertMessages rest

/-- A successful batch adds its rows behind the others and touches nothing else. -/
theorem insertMessages_eq_ok {db after : Database} {rows : List MessageRow}
    (inserted : db.insertMessages rows = .ok after) :
    after.sessions = db.sessions ∧ after.messages = db.messages ++ rows := by
  induction rows generalizing db with
  | nil =>
    cases inserted
    exact ⟨rfl, by simp⟩
  | cons row rest ih =>
    obtain ⟨next, first, others⟩ := bind_eq_ok_iff.1 inserted
    obtain ⟨sessions, messages⟩ := insertMessage_eq_ok first
    obtain ⟨restSessions, restMessages⟩ := ih others
    exact ⟨restSessions.trans sessions, by rw [restMessages, messages, List.append_assoc]; rfl⟩

theorem insertSession_of_fresh {db : Database} {row : SessionRow} (fresh : row.id ∉ db.sessions.map SessionRow.id) :
    ∃ after, db.insertSession row = .ok after := by
  unfold insertSession
  rw [dif_pos fresh]
  exact ⟨_, rfl⟩

/-- Rows of a listed session under keys of their own can all be inserted. -/
theorem insertMessages_of_fresh {db : Database} {rows : List MessageRow}
    (listed : ∀ row ∈ rows, row.sessionId ∈ db.sessions.map SessionRow.id)
    (fresh : ((db.messages ++ rows).map MessageRow.key).Nodup) : ∃ after, db.insertMessages rows = .ok after := by
  induction rows generalizing db with
  | nil => exact ⟨db, rfl⟩
  | cons row rest ih =>
    obtain ⟨first, others⟩ := List.forall_mem_cons.1 listed
    have absent : row.key ∉ db.messages.map MessageRow.key := fun present => by
      rw [List.map_append, List.nodup_append] at fresh
      exact fresh.2.2 _ present _ (by simp) rfl
    cases inserted : db.insertMessage row with
    | error failure =>
      unfold insertMessage at inserted
      rw [dif_pos ⟨first, absent⟩] at inserted
      cases inserted
    | ok next =>
      obtain ⟨sessions, messages⟩ := insertMessage_eq_ok inserted
      obtain ⟨after, done⟩ := @ih next (sessions ▸ others) (by simpa [messages] using fresh)
      exact ⟨after, by rw [insertMessages, inserted]; exact done⟩

/-! ## Queries -/

/-- `LIKE`: `%` stands for any text and `_` for any character; ASCII letters match in either case. -/
def like : List Char → List Char → Bool
  | [], text => text.isEmpty
  | c :: pattern, text =>
    if c = '%' then text.tails.any fun rest => like pattern rest
    else
      match text with
      | [] => false
      | d :: rest => (c = '_' || c.toLower = d.toLower) && like pattern rest

/-- The session that an id or the beginning of one names. -/
def resolveSessionId (db : Database) (sessionIdOrPrefix : String) : Except StoreError SessionRow :=
  if sessionIdOrPrefix.utf8ByteSize = 36 then
    require (db.sessions.find? fun row => row.id.text = sessionIdOrPrefix)
      (.sessionNotFound sessionIdOrPrefix)
  else
    match db.sessions.filter fun row => like (sessionIdOrPrefix.toList ++ ['%']) row.id.text.toList with
    | [row] => .ok row
    | [] => .error (.sessionNotFound sessionIdOrPrefix)
    | _ => .error (.ambiguousPrefix sessionIdOrPrefix)

/-- The messages of a session, in the order of their sequence numbers. -/
def messagesOf (db : Database) (id : Uuid) : List StoredMessage :=
  ((db.messages.filter fun row => row.sessionId = id).insertionSort fun a b => a.seq ≤ b.seq).map
    MessageRow.read

def getSessionSummary (db : Database) (sessionIdOrPrefix : String) : Except StoreError SessionRow :=
  db.resolveSessionId sessionIdOrPrefix

def getMessages (db : Database) (sessionIdOrPrefix : String) : Except StoreError (List StoredMessage) := do
  let row ← db.resolveSessionId sessionIdOrPrefix
  return db.messagesOf row.id

/-- A full id names its session. -/
theorem resolveSessionId_text {db : Database} {row : SessionRow} (listed : row ∈ db.sessions) :
    db.resolveSessionId row.id.text = .ok row := by
  unfold resolveSessionId
  rw [if_pos row.id.length, require_eq_ok_iff]
  cases found : db.sessions.find? fun other => other.id.text = row.id.text with
  | none =>
    have missing := List.find?_eq_none.1 found row listed
    simp at missing
  | some other =>
    have same : other.id = row.id := by
      have text := List.find?_some found
      cases left : other.id
      cases right : row.id
      simpa [left, right] using text
    rw [List.inj_on_of_nodup_map db.uniqueIds (List.mem_of_find?_eq_some found) listed same]

theorem mem_of_resolveSessionId {db : Database} {text : String} {row : SessionRow}
    (resolved : db.resolveSessionId text = .ok row) : row ∈ db.sessions := by
  unfold resolveSessionId at resolved
  split_ifs at resolved
  · exact List.mem_of_find?_eq_some (require_eq_ok_iff.1 resolved)
  · split at resolved
    · rename_i only
      cases resolved
      exact (List.mem_filter.1 (only ▸ List.mem_singleton_self _)).1
    · cases resolved
    · cases resolved

theorem getMessages_text {db : Database} {row : SessionRow} (listed : row ∈ db.sessions) :
    db.getMessages row.id.text = .ok (db.messagesOf row.id) := by
  unfold getMessages
  rw [resolveSessionId_text listed]
  rfl

/-- Rows of a session that had none are read back in their order. -/
theorem messagesOf_append {db after : Database} {id : Uuid} {rows : List MessageRow}
    (messages : after.messages = db.messages ++ rows) (fresh : id ∉ db.sessions.map SessionRow.id)
    (own : ∀ row ∈ rows, row.sessionId = id) (sorted : rows.Pairwise fun a b => a.seq ≤ b.seq) :
    after.messagesOf id = rows.map MessageRow.read := by
  have none_before : db.messages.filter (fun row => row.sessionId = id) = [] := by
    refine List.filter_eq_nil_iff.2 fun row member same => fresh ?_
    have owner : row.sessionId = id := of_decide_eq_true same
    exact owner ▸ db.owned row member
  have all_after : rows.filter (fun row => row.sessionId = id) = rows :=
    List.filter_eq_self.2 fun row member => decide_eq_true (own row member)
  unfold messagesOf
  rw [messages, List.filter_append, none_before, all_after, List.nil_append, sorted.insertionSort_eq]

/-- A session that was just inserted takes any messages in increasing order. -/
theorem insertMessages_of_new {db withSession : Database} {session : SessionRow} {rows : List MessageRow}
    (inserted : db.insertSession session = .ok withSession) (own : ∀ row ∈ rows, row.sessionId = session.id)
    (increasing : rows.Pairwise fun a b => a.seq < b.seq) : ∃ after, withSession.insertMessages rows = .ok after := by
  obtain ⟨fresh, sessions, messages⟩ := insertSession_eq_ok inserted
  refine insertMessages_of_fresh (fun row member => ?_) ?_
  · rw [sessions, own row member]
    simp
  · rw [messages, List.map_append, List.nodup_append]
    refine ⟨db.uniqueKeys, ?_, fun old listed new inner same => ?_⟩
    · exact List.pairwise_map.2 (increasing.imp fun below same => below.ne (Prod.ext_iff.1 same).2)
    · obtain ⟨row, member, rfl⟩ := List.mem_map.1 listed
      obtain ⟨other, found, rfl⟩ := List.mem_map.1 inner
      have owner : row.sessionId = session.id := (Prod.ext_iff.1 same).1.trans (own other found)
      exact fresh (owner ▸ db.owned row member)

end Database

end McpTracer.Storage
