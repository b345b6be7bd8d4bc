import McpTracer.Redact.Acceptance
import McpTracer.Storage.Database
import McpTracer.Storage.Mtrace

/-! Export of a stored session as an artifact, and import of an artifact as a session.

Export redacts again, with the request context computed from the stored stream. For an artifact
that was validated this changes nothing, so an import followed by an export is the identity on
everything that counts as evidence.
-/

set_option autoImplicit false

namespace McpTracer.Storage
open McpTracer.Foundation McpTracer.Json McpTracer.Redact

structure ExportOptions where
  forceDefaultRedaction : Bool
  allowUnredacted : Bool
  deriving DecidableEq

def ExportOptions.default : ExportOptions where
  forceDefaultRedaction := false
  allowUnredacted := false

inductive TransferError where
  | store (error : StoreError)
  | refused (refusal : Refusal)
  | conflictingOptions
  | unredactedSession
  | invalidStoredKeys
  | invalidStoredPolicy (detail : String)
  | invalidStoredTags
  | invalidStoredPayload (seq : Nat)
  | storedPayloadNotObject (seq : Nat)
  | contextLost
  | integerOverflow (what : String)
  deriving DecidableEq

/-! ## Columns that hold JSON -/

def stringArray (items : List String) : Value := .array (items.map .string)

/-- A text that decodes to an array of strings. -/
def readStringArray (codec : Codec) (text : String) : Option (List String) :=
  match codec.fromStr text with
  | some (.array items) => items.mapM Value.asStr
  | _ => none

theorem depthItems_strings (items : List String) : Value.depthItems (items.map .string) = 0 := by
  induction items with
  | nil => rfl
  | cons item rest ih => simp [Value.depthItems, Value.depth, ih]

theorem floatFreeItems_strings (items : List String) : Value.floatFreeItems (items.map .string) = true := by
  induction items with
  | nil => rfl
  | cons item rest ih => simp [Value.floatFree, Value.floatFreeItems, ih]

theorem mapM_asStr_strings (items : List String) : (items.map Value.string).mapM Value.asStr = some items := by
  induction items with
  | nil => rfl
  | cons item rest ih =>
    rw [List.map_cons, List.mapM_cons, ih]
    rfl

/-- An array of strings has neither doubles nor nesting. -/
theorem readStringArray_toString (codec : Codec) (items : List String) :
    readStringArray codec (codec.toString (stringArray items)) = some items := by
  have formed : (stringArray items).wellFormed = true := by
    simp [stringArray, Value.wellFormed]
  have shallow : (stringArray items).depth < recursionLimit := by
    simp [stringArray, Value.depth, depthItems_strings, recursionLimit]
  have exact_ : (stringArray items).floatFree = true := by
    simp [stringArray, Value.floatFree, floatFreeItems_strings]
  unfold readStringArray
  rw [codec.fromStr_toString formed shallow exact_]
  exact mapM_asStr_strings items

/-! ## Import -/

/-- The columns of an artifact's message, with the payload printed. -/
def MtraceMessage.stored (codec : Codec) (message : MtraceMessage) : StoredMessage where
  seq := message.seq
  tsNs := message.tsNs
  direction := message.direction
  messageKind := message.messageKind
  rpcId := message.rpcId
  method := message.method
  toolName := message.toolName
  payload := codec.toString message.payload
  payloadBytes := message.payloadBytes
  isError := message.isError
  errorCode := message.errorCode

structure MtraceImportResult where
  sessionId : Uuid
  totalMessages : Nat
  deriving DecidableEq

def importedRow (codec : Codec) (id : Uuid) (message : MtraceMessage) : Except TransferError MessageRow := do
  let seq ← require (checkedI64 message.seq) (.integerOverflow "mtrace sequence exceeds i64")
  let payloadBytes ← require (checkedI64 message.payloadBytes)
    (.integerOverflow "mtrace payload size exceeds i64")
  return .ofStored id seq payloadBytes (message.stored codec)

def importedSession (codec : Codec) (id : Uuid) (session : MtraceSession) (totalMessages : Int) : SessionRow where
  id := id
  client := session.client
  serverCommand := session.serverCommand
  transport := session.transport
  startedAtNs := session.startedAtNs
  endedAtNs := session.endedAtNs
  totalMessages := totalMessages
  droppedMessages := session.droppedMessages
  redactionPolicy := session.redactionPolicy
  redactionKeysJson := codec.toString (stringArray session.redactionKeys)
  tags := codec.toString (stringArray session.tags)

/-- Persist a document under a new id. -/
def importMtraceDocument (codec : Codec) (db : Database) (id : Uuid) (document : MtraceDocument) :
    Except TransferError (Database × MtraceImportResult) := do
  (validate codec document).mapError .refused
  let totalMessages ← require (checkedI64 document.messages.length)
    (.integerOverflow "mtrace message count exceeds i64")
  let db ← (db.insertSession (importedSession codec id document.session totalMessages)).mapError .store
  let rows ← document.messages.mapM (importedRow codec id)
  let db ← (db.insertMessages rows).mapError .store
  return (db, ⟨id, document.messages.length⟩)

/-! ## Export -/

def redactionPolicyForSummary (codec : Codec) (summary : SessionRow) : Except TransferError RedactionPolicy := do
  let customKeys ← require (readStringArray codec summary.redactionKeysJson) .invalidStoredKeys
  (RedactionPolicy.fromStorage summary.redactionPolicy customKeys).mapError .invalidStoredPolicy

/-- What an unredacted source is exported under. -/
def effectivePolicy (options : ExportOptions) : RedactionPolicy → Except TransferError RedactionPolicy
  | .none =>
    if options.forceDefaultRedaction then .ok .default
    else if options.allowUnredacted then .ok .none
    else .error .unredactedSession
  | policy => .ok policy

def exportMessage (codec : Codec) (redactor : Redactor) (tracker : RedactionContextTracker)
    (message : StoredMessage) : Except TransferError (RedactionContextTracker × MtraceMessage) := do
  let payload ← require (codec.fromStr message.payload) (.invalidStoredPayload message.seq)
  if !payload.isObject then .error (.storedPayloadNotObject message.seq)
  else
    let observed := tracker.observe codec message.seq message.direction payload
    if redactor.isActive && observed.1.lostContext then .error .contextLost
    else
      return (observed.1, {
        seq := message.seq
        tsNs := message.tsNs
        direction := message.direction
        messageKind := message.messageKind
        rpcId := message.rpcId
        method := message.method
        toolName := message.toolName
        payload := redactor.redactWithContext payload observed.2
        payloadBytes := message.payloadBytes
        isError := message.isError
        errorCode := message.errorCode })

def exportMessages (codec : Codec) (redactor : Redactor) :
    RedactionContextTracker → List StoredMessage → Except TransferError (List MtraceMessage)
  | _, [] => .ok []
  | tracker, message :: rest => do
    let exported ← exportMessage codec redactor tracker message
    let others ← exportMessages codec redactor exported.1 rest
    return exported.2 :: others

/-- Build the portable document of a session; the time and the exporter's name come from outside. -/
def exportMtraceDocument (codec : Codec) (db : Database) (sessionIdOrPrefix : String) (options : ExportOptions)
    (nowNs : Int) (exporter : String) : Except TransferError MtraceDocument := do
  if options.forceDefaultRedaction && options.allowUnredacted then .error .conflictingOptions
  else
    let summary ← (db.getSessionSummary sessionIdOrPrefix).mapError .store
    let sourcePolicy ← redactionPolicyForSummary codec summary
    let effective ← effectivePolicy options sourcePolicy
    let tags ← require (readStringArray codec summary.tags) .invalidStoredTags
    let stored ← (db.getMessages summary.id.text).mapError .store
    let messages ← exportMessages codec (.new effective) .fresh stored
    return {
      format := format
      version := version
      exportedAtNs := nowNs
      exporter := exporter
      session := {
        client := summary.client
        serverCommand := summary.serverCommand
        transport := summary.transport
        startedAtNs := summary.startedAtNs
        endedAtNs := summary.endedAtNs
        redactionPolicy := effective.asStr
        redactionKeys := effective.customKeys
        droppedMessages := summary.droppedMessages
        tags := tags }
      messages := messages }

/-! ## An import that is exported again -/

theorem importedRow_of_fits {codec : Codec} {id : Uuid} {message : MtraceMessage} (seqFits : message.seq < 2 ^ 63)
    (bytesFit : message.payloadBytes < 2 ^ 63) : importedRow codec id message =
      .ok (.ofStored id message.seq message.payloadBytes (message.stored codec)) := by
  unfold importedRow checkedI64
  rw [if_pos seqFits, if_pos bytesFit]
  rfl

theorem importedRows_of_fits {codec : Codec} {id : Uuid} {messages : List MtraceMessage}
    (fits : ∀ message ∈ messages, message.seq < 2 ^ 63 ∧ message.payloadBytes < 2 ^ 63) :
    messages.mapM (importedRow codec id) = .ok (messages.map fun message =>
      .ofStored id message.seq message.payloadBytes (message.stored codec)) := by
  induction messages with
  | nil => rfl
  | cons message rest ih =>
    obtain ⟨⟨seqFits, bytesFit⟩, others⟩ := List.forall_mem_cons.1 fits
    rw [List.mapM_cons, importedRow_of_fits seqFits bytesFit, ih others]
    rfl

/-- An import stores one new session, which holds the messages of the document. -/
theorem importMtraceDocument_of_valid {codec : Codec} {db : Database} {id : Uuid} {document : MtraceDocument}
    (valid : validate codec document = .ok ()) (fresh : id ∉ db.sessions.map SessionRow.id)
    (fits : ∀ message ∈ document.messages, message.seq < 2 ^ 63 ∧ message.payloadBytes < 2 ^ 63) :
    ∃ after, importMtraceDocument codec db id document = .ok (after, ⟨id, document.messages.length⟩) ∧
      importedSession codec id document.session document.messages.length ∈ after.sessions ∧
      after.messagesOf id = document.messages.map (MtraceMessage.stored codec) := by
  obtain ⟨-, -, few, policy, -, -, checked⟩ := validate_checked valid
  have countFits : document.messages.length < 2 ^ 63 := few.trans_lt (by decide)
  have counted : checkedI64 document.messages.length = some (document.messages.length : Int) :=
    checkedI64_eq_some_iff.2 ⟨countFits, rfl⟩
  set session := importedSession codec id document.session document.messages.length with sessionEq
  set rows := document.messages.map fun message =>
    MessageRow.ofStored id message.seq message.payloadBytes (message.stored codec) with rowsEq
  have own : ∀ row ∈ rows, row.sessionId = id := by simp [rowsEq, MessageRow.ofStored]
  have increasing : rows.Pairwise fun a b => a.seq < b.seq :=
    List.pairwise_map.2 ((validateMessages_increasing checked).2.imp fun below => Int.ofNat_lt.2 below)
  have reads : rows.map MessageRow.read = document.messages.map (MtraceMessage.stored codec) := by
    rw [rowsEq, List.map_map]
    refine List.map_congr_left fun message member => ?_
    exact MessageRow.read_ofStored (fits message member).1 (fits message member).2
  obtain ⟨withSession, inserted⟩ := @Database.insertSession_of_fresh _ session fresh
  obtain ⟨after, filled⟩ := Database.insertMessages_of_new inserted own increasing
  obtain ⟨-, sessions, messages⟩ := Database.insertSession_eq_ok inserted
  obtain ⟨sameSessions, allMessages⟩ := Database.insertMessages_eq_ok filled
  refine ⟨after, ?_, ?_, ?_⟩
  · unfold importMtraceDocument
    refine bind_eq_ok_iff.2 ⟨(), congrArg (Except.mapError _) valid, ?_⟩
    refine bind_eq_ok_iff.2 ⟨_, require_eq_ok_iff.2 counted, ?_⟩
    refine bind_eq_ok_iff.2 ⟨withSession, congrArg (Except.mapError _) inserted, ?_⟩
    refine bind_eq_ok_iff.2 ⟨rows, importedRows_of_fits fits, ?_⟩
    exact bind_eq_ok_iff.2 ⟨after, congrArg (Except.mapError _) filled, rfl⟩
  · rw [sameSessions, sessions]
    exact List.mem_append_right _ (List.mem_singleton_self _)
  · rw [← reads]
    exact Database.messagesOf_append (by rw [allMessages, messages]) fresh own (increasing.imp le_of_lt)

theorem fits_of_importedRows {codec : Codec} {id : Uuid} {messages : List MtraceMessage} {rows : List MessageRow}
    (done : messages.mapM (importedRow codec id) = .ok rows) :
    ∀ message ∈ messages, message.seq < 2 ^ 63 ∧ message.payloadBytes < 2 ^ 63 := by
  induction messages generalizing rows with
  | nil => exact fun _ member => absurd member List.not_mem_nil
  | cons message rest ih =>
    rw [List.mapM_cons] at done
    obtain ⟨row, first, done⟩ := bind_eq_ok_iff.1 done
    obtain ⟨others, remaining, -⟩ := bind_eq_ok_iff.1 done
    obtain ⟨seq, seqFits, first⟩ := bind_eq_ok_iff.1 first
    obtain ⟨size, bytesFit, -⟩ := bind_eq_ok_iff.1 first
    exact List.forall_mem_cons.2 ⟨⟨(checkedI64_eq_some_iff.1 (require_eq_ok_iff.1 seqFits)).1,
      (checkedI64_eq_some_iff.1 (require_eq_ok_iff.1 bytesFit)).1⟩, ih remaining⟩

/-- What an import leaves: the messages of the document under a new id, and the other sessions as they were. -/
structure ImportedAs (codec : Codec) (db : Database) (id : Uuid) (document : MtraceDocument) (after : Database) :
    Prop where
  valid : validate codec document = .ok ()
  fresh : id ∉ db.sessions.map SessionRow.id
  sessions : after.sessions = db.sessions ++ [importedSession codec id document.session document.messages.length]
  messages : after.messagesOf id = document.messages.map (MtraceMessage.stored codec)
  others : ∀ other, other ≠ id → after.messagesOf other = db.messagesOf other

theorem importMtraceDocument_ok {codec : Codec} {db after : Database} {id : Uuid} {document : MtraceDocument}
    {result : MtraceImportResult} (imported : importMtraceDocument codec db id document = .ok (after, result)) :
    result = ⟨id, document.messages.length⟩ ∧ ImportedAs codec db id document after := by
  have again := imported
  unfold importMtraceDocument at imported
  obtain ⟨_, checked, imported⟩ := bind_eq_ok_iff.1 imported
  have valid := mapError_eq_ok_iff.1 checked
  obtain ⟨count, counted, imported⟩ := bind_eq_ok_iff.1 imported
  obtain ⟨-, rfl⟩ := checkedI64_eq_some_iff.1 (require_eq_ok_iff.1 counted)
  obtain ⟨withSession, inserted, imported⟩ := bind_eq_ok_iff.1 imported
  obtain ⟨unused, sessions, messages⟩ := Database.insertSession_eq_ok (mapError_eq_ok_iff.1 inserted)
  have fresh : id ∉ db.sessions.map SessionRow.id := unused
  obtain ⟨rows, built, imported⟩ := bind_eq_ok_iff.1 imported
  have fits := fits_of_importedRows built
  obtain ⟨last, filled, same⟩ := bind_eq_ok_iff.1 imported
  obtain ⟨sameSessions, allMessages⟩ := Database.insertMessages_eq_ok (mapError_eq_ok_iff.1 filled)
  cases same
  refine ⟨rfl, valid, fresh, sameSessions.trans sessions, ?_, fun other differs => ?_⟩
  · obtain ⟨stored, imported, -, read⟩ := importMtraceDocument_of_valid valid fresh fits
    rw [again] at imported
    cases imported
    exact read
  · -- The new rows all belong to the new session.
    rw [importedRows_of_fits fits] at built
    cases built
    have none_new : (document.messages.map fun message =>
        MessageRow.ofStored id message.seq message.payloadBytes (message.stored codec)).filter
          (fun row => row.sessionId = other) = [] := by
      refine List.filter_eq_nil_iff.2 fun row member same => ?_
      obtain ⟨message, -, rfl⟩ := List.mem_map.1 member
      exact differs (of_decide_eq_true same).symm
    rw [Database.messagesOf, allMessages, messages, List.filter_append, none_new, List.append_nil]
    rfl

theorem exportMessage_of_accepted {codec : Codec} {policy : RedactionPolicy} {previousSeq : Option Nat}
    {tracker next : RedactionContextTracker} {message : MtraceMessage} (built : policy.Built)
    (redacting : policy ≠ .none) (printed : codec.fromStr (codec.toString message.payload) = some message.payload)
    (accepted : validateMessage codec policy previousSeq tracker message = .ok next) :
    exportMessage codec (.new policy) tracker (message.stored codec) = .ok (next, message) := by
  obtain ⟨-, shape, kept, clean⟩ := validateMessage_checked accepted
  have stepped := validateMessage_ok accepted
  have retained : next.lostContext = false := kept.resolve_left redacting
  have same := redactWithContext_eq_self built clean
  have observed : tracker.observe codec message.seq message.direction message.payload =
      (next, (tracker.observeCall codec message.observedCall).2) := Prod.ext stepped.symm rfl
  unfold exportMessage
  refine bind_eq_ok_iff.2 ⟨message.payload, require_eq_ok_iff.2 printed, ?_⟩
  simp only [MtraceMessage.stored, observed, shape, retained, same, Bool.not_true, Bool.and_false,
    Bool.false_eq_true, if_false]
  rfl

theorem exportMessages_of_accepted {codec : Codec} {policy : RedactionPolicy} {previousSeq : Option Nat}
    {tracker : RedactionContextTracker} {messages : List MtraceMessage} (built : policy.Built)
    (redacting : policy ≠ .none)
    (printed : ∀ message ∈ messages, codec.fromStr (codec.toString message.payload) = some message.payload)
    (accepted : validateMessages codec policy previousSeq tracker messages = .ok ()) :
    exportMessages codec (.new policy) tracker (messages.map (MtraceMessage.stored codec)) = .ok messages := by
  induction messages generalizing previousSeq tracker with
  | nil => rfl
  | cons message rest ih =>
    obtain ⟨head, tail⟩ := List.forall_mem_cons.1 printed
    cases step : validateMessage codec policy previousSeq tracker message with
    | error refusal => simp [validateMessages, step] at accepted
    | ok next =>
      simp only [validateMessages, step] at accepted
      rw [List.map_cons, exportMessages, exportMessage_of_accepted built redacting head step]
      simp [ih tail accepted]

/-! ## Identity -/

def optionValue (text : Option String) : Value := text.elim .null .string

theorem optionValue_injective : Function.Injective optionValue := by
  intro a b same
  cases a <;> cases b <;> simp_all [optionValue]

theorem negativeWords : NeZero (2 ^ 63) := ⟨by decide⟩

/-- A machine integer as a JSON number. -/
def integerValue (n : Int) : Value :=
  match n with
  | .ofNat n => .number (.posInt (UInt64.ofNat n))
  | .negSucc n => .number (.negInt (@Fin.ofNat _ negativeWords n))

def sessionValue (session : MtraceSession) : Value :=
  .object [
    ("client", .string session.client),
    ("dropped_messages", integerValue session.droppedMessages),
    ("ended_at_ns", session.endedAtNs.elim .null integerValue),
    ("redaction_keys", stringArray session.redactionKeys),
    ("redaction_policy", .string session.redactionPolicy),
    ("server_command", .string session.serverCommand),
    ("started_at_ns", integerValue session.startedAtNs),
    ("tags", stringArray session.tags),
    ("transport", .string session.transport)]

def messageValue (message : MtraceMessage) : Value :=
  .object [
    ("direction", .string message.direction),
    ("error_code", message.errorCode.elim .null integerValue),
    ("is_error", .bool message.isError),
    ("message_kind", .string message.messageKind),
    ("method", optionValue message.method),
    ("payload", message.payload),
    ("payload_bytes", integerValue message.payloadBytes),
    ("rpc_id", optionValue message.rpcId),
    ("seq", integerValue message.seq),
    ("tool_name", optionValue message.toolName),
    ("ts_ns", integerValue message.tsNs)]

def canonicalIdentityBytes (codec : Codec) (document : MtraceDocument) : String :=
  codec.toString (.object [
    ("format", .string document.format),
    ("messages", .array (document.messages.map messageValue)),
    ("session", sessionValue document.session),
    ("version", integerValue document.version)])

/-- The digest of what counts as evidence; the hash function comes from outside. -/
def canonicalDigest (codec : Codec) (sha256Hex : String → String) (document : MtraceDocument) : String :=
  sha256Hex (canonicalIdentityBytes codec document)

/-- A valid redacted document is imported, and exported as it was but for the note of the export itself. -/
theorem export_import_eq {codec : Codec} {db : Database} {id : Uuid} {document : MtraceDocument}
    (valid : validate codec document = .ok ()) (redacting : document.session.redactionPolicy ≠ "none")
    (fits : ∀ message ∈ document.messages, message.seq < 2 ^ 63 ∧ message.payloadBytes < 2 ^ 63)
    (printed : ∀ message ∈ document.messages,
      codec.fromStr (codec.toString message.payload) = some message.payload)
    (fresh : id ∉ db.sessions.map SessionRow.id) (nowNs : Int) (exporter : String)
    (sha256Hex : String → String) :
    ∃ after result exported, importMtraceDocument codec db id document = .ok (after, result) ∧
      exportMtraceDocument codec after result.sessionId.text .default nowNs exporter = .ok exported ∧
      exported = { document with exportedAtNs := nowNs, exporter := exporter } ∧
      canonicalDigest codec sha256Hex exported = canonicalDigest codec sha256Hex document := by
  obtain ⟨formatSame, versionSame, -, policy, stored, keys, checked⟩ := validate_checked valid
  obtain ⟨after, imported, listed, messages⟩ := importMtraceDocument_of_valid valid fresh fits
  have named := RedactionPolicy.asStr_of_fromStorage stored
  have active : policy ≠ .none := by
    rintro rfl
    exact redacting named.symm
  have built : policy.Built := ⟨_, _, .inr stored⟩
  have exportedMessages := exportMessages_of_accepted built active printed checked
  refine ⟨after, _, _, imported, ?_, rfl, rfl⟩
  have summaryFound := Database.resolveSessionId_text listed
  have messagesFound := Database.getMessages_text listed
  have policyFound : redactionPolicyForSummary codec
      (importedSession codec id document.session document.messages.length) = .ok policy := by
    refine bind_eq_ok_iff.2 ⟨_, require_eq_ok_iff.2 (readStringArray_toString codec _), ?_⟩
    exact congrArg (Except.mapError _) stored
  have effectiveFound : effectivePolicy .default policy = .ok policy := by
    cases policy with
    | none => exact absurd rfl active
    | _ => rfl
  unfold exportMtraceDocument
  refine bind_eq_ok_iff.2 ⟨_, congrArg (Except.mapError _) summaryFound, ?_⟩
  refine bind_eq_ok_iff.2 ⟨policy, policyFound, bind_eq_ok_iff.2 ⟨policy, effectiveFound, ?_⟩⟩
  refine bind_eq_ok_iff.2 ⟨_, require_eq_ok_iff.2 (readStringArray_toString codec _), ?_⟩
  refine bind_eq_ok_iff.2 ⟨_, congrArg (Except.mapError _) messagesFound, ?_⟩
  refine bind_eq_ok_iff.2 ⟨document.messages, messages ▸ exportedMessages, ?_⟩
  rw [pure_eq_ok_iff, named, keys, ← formatSame, ← versionSame]
  rfl

/-- An artifact of one call whose key is masked. -/
def maskedArtifact : MtraceDocument where
  format := "mtrace"
  version := 1
  exportedAtNs := 7
  exporter := "mcptracer/0.1.0"
  session := {
    client := "client"
    serverCommand := "server"
    transport := "stdio"
    startedAtNs := 0
    endedAtNs := none
    redactionPolicy := "default"
    redactionKeys := []
    droppedMessages := 0
    tags := [] }
  messages := [{
    seq := 0
    tsNs := 0
    direction := "c2s"
    messageKind := "request"
    rpcId := some "1"
    method := some "login"
    toolName := none
    payload := .object [
      ("id", .number (.posInt 1)),
      ("method", .string "login"),
      ("params", .object [("password", placeholder)])]
    payloadBytes := 64
    isError := false
    errorCode := none }]

theorem export_import_masked :
    let id : Uuid := ⟨"00000000-0000-4000-8000-000000000001", by decide +kernel⟩
    ∃ after result exported, importMtraceDocument Compact.codec .empty id maskedArtifact = .ok (after, result) ∧
      exportMtraceDocument Compact.codec after result.sessionId.text .default 9 "mcptracer/0.1.1" = .ok exported ∧
      exported = { maskedArtifact with exportedAtNs := 9, exporter := "mcptracer/0.1.1" } ∧
      canonicalDigest Compact.codec (fun text => text) exported =
        canonicalDigest Compact.codec (fun text => text) maskedArtifact :=
  export_import_eq (by decide +kernel) (by decide) (by decide +kernel) (by decide +kernel) (by decide +kernel)
    9 "mcptracer/0.1.1" fun text => text

end McpTracer.Storage
