import McpTracer.Model.MergedHealth
import McpTracer.Proxy.ExportedColumns

/-! The health gate and the export gate.

A healthy redacted session is exported as it is, and the artifact is healthy again where it is
imported. An unhealthy one is masked on the way out, and the artifact is accepted exactly if masking
leaves the columns alone.
-/

set_option autoImplicit false

namespace McpTracer.Proxy
open McpTracer.Foundation McpTracer.Json McpTracer.Protocol McpTracer.Redact McpTracer.Storage McpTracer.Model

/-- A session as the recorder leaves it: every column is read off the payload that its text was printed
from, sequence numbers are the key of the table, and the numbers fit their columns. -/
structure StoredCapture (codec : Codec) (db : Database) (session : SessionRow) (messages : List McpMessage) : Prop where
  listed : session ∈ db.sessions
  stored : db.messagesOf session.id = messages.map (StoredMessage.ofMessage codec)
  increasing : messages.Pairwise fun earlier later => earlier.seq < later.seq
  rereads : ∀ message ∈ messages, Rereads codec message
  fits : ∀ message ∈ messages, message.seq < 2 ^ 63 ∧ message.payloadBytes < 2 ^ 63
  tags : ∃ tags, readStringArray codec session.tags = some tags

/-- The policy that export masks under, for a session and options that it does not refuse. -/
structure Exports (codec : Codec) (session : SessionRow) (messages : List McpMessage) (options : ExportOptions)
    (policy : RedactionPolicy) : Prop where
  compatible : (options.forceDefaultRedaction && options.allowUnredacted) = false
  configured : ∃ source, redactionPolicyForSummary codec session = .ok source ∧
    effectivePolicy options source = .ok policy
  exportable : ∀ message ∈ messages, Exportable codec message
  retains : Retains codec policy .fresh (messages.map observedCall)

/-- Masking leaves the columns of every message alone, and where it masks the version no message
relies on the schema exemption. -/
structure ExportKeeps (codec : Codec) (policy : RedactionPolicy) (messages : List McpMessage) : Prop where
  columns : ∀ message ∈ messages, LeavesColumns policy message
  exemption : matchesPolicySensitiveKey "jsonrpc" policy.customKeys = true →
    Unexempted codec policy .fresh messages

def exportedDocument (codec : Codec) (session : SessionRow) (tags : List String) (policy : RedactionPolicy)
    (messages : List McpMessage) (nowNs : Int) (exporter : String) : MtraceDocument where
  format := format
  version := version
  exportedAtNs := nowNs
  exporter := exporter
  session := {
    client := session.client
    serverCommand := session.serverCommand
    transport := session.transport
    startedAtNs := session.startedAtNs
    endedAtNs := session.endedAtNs
    redactionPolicy := policy.asStr
    redactionKeys := policy.customKeys
    droppedMessages := session.droppedMessages
    tags := tags }
  messages := List.zipWith (exportedMessage codec (.new policy)) messages
    (RedactionContextTracker.contexts codec (messages.map observedCall))

/-! ## The policy of an artifact -/

theorem fromStorage_asStr_of_stored {name : String} {keys : List String} {policy : RedactionPolicy}
    (stored : RedactionPolicy.fromStorage name keys = .ok policy) :
    RedactionPolicy.fromStorage policy.asStr policy.customKeys = .ok policy := by
  unfold RedactionPolicy.fromStorage at stored
  split at stored
  · split_ifs at stored
    obtain rfl := Except.ok.inj stored
    rfl
  · split_ifs at stored
    obtain rfl := Except.ok.inj stored
    rfl
  · split_ifs at stored
    exact RedactionPolicy.fromStorage_asStr stored
  · cases stored

theorem redactionPolicyForSummary_eq_ok {codec : Codec} {session : SessionRow} {policy : RedactionPolicy}
    (configured : redactionPolicyForSummary codec session = .ok policy) :
    ∃ keys, RedactionPolicy.fromStorage session.redactionPolicy keys = .ok policy := by
  obtain ⟨keys, -, stored⟩ := bind_eq_ok_iff.1 configured
  exact ⟨keys, mapError_eq_ok_iff.1 stored⟩

section
variable {codec : Codec} {db : Database} {session : SessionRow} {messages : List McpMessage}
  {options : ExportOptions} {policy : RedactionPolicy}

/-- The policy of an export is stored in a form that names it again. -/
theorem Exports.restored (exports : Exports codec session messages options policy) :
    policy.Built ∧ RedactionPolicy.fromStorage policy.asStr policy.customKeys = .ok policy := by
  obtain ⟨source, configured, effective⟩ := exports.configured
  obtain ⟨keys, stored⟩ := redactionPolicyForSummary_eq_ok configured
  have sourceRestored := fromStorage_asStr_of_stored stored
  unfold effectivePolicy at effective
  split at effective
  · split_ifs at effective <;> cases effective
    · exact ⟨⟨"default", [], .inr rfl⟩, rfl⟩
    · exact ⟨⟨"none", [], .inr rfl⟩, rfl⟩
  · cases effective
    exact ⟨⟨_, _, .inr stored⟩, sourceRestored⟩

/-! ## When a document is returned -/

theorem exportMtraceDocument_eq_ok_iff (written : StoredCapture codec db session messages) {nowNs : Int}
    {exporter : String} {document : MtraceDocument} :
    exportMtraceDocument codec db session.id.text options nowNs exporter = .ok document ↔
      ∃ policy tags, Exports codec session messages options policy ∧
        readStringArray codec session.tags = some tags ∧
        document = exportedDocument codec session tags policy messages nowNs exporter := by
  have summaryFound : db.getSessionSummary session.id.text = .ok session := Database.resolveSessionId_text written.listed
  have messagesFound : db.getMessages session.id.text = .ok (messages.map (StoredMessage.ofMessage codec)) :=
    written.stored ▸ Database.getMessages_text written.listed
  have exported := fun policy : RedactionPolicy => @exportMessages_eq_ok_iff codec policy .fresh messages
    written.rereads fun _ => rfl
  unfold exportMtraceDocument
  constructor
  · intro done
    split_ifs at done with conflicting
    obtain ⟨summary, found, done⟩ := bind_eq_ok_iff.1 done
    obtain rfl := Except.ok.inj (summaryFound.symm.trans (mapError_eq_ok_iff.1 found))
    obtain ⟨source, configured, done⟩ := bind_eq_ok_iff.1 done
    obtain ⟨policy, effective, done⟩ := bind_eq_ok_iff.1 done
    obtain ⟨tags, read, done⟩ := bind_eq_ok_iff.1 done
    obtain ⟨stored, listed, done⟩ := bind_eq_ok_iff.1 done
    obtain rfl := Except.ok.inj (messagesFound.symm.trans (mapError_eq_ok_iff.1 listed))
    obtain ⟨artifact, masked, done⟩ := bind_eq_ok_iff.1 done
    obtain ⟨exportable, retains, rfl⟩ := (exported policy).1 masked
    exact ⟨policy, tags, ⟨by simpa using conflicting, ⟨source, configured, effective⟩, exportable, retains⟩,
      require_eq_ok_iff.1 read, (pure_eq_ok_iff.1 done).symm⟩
  · rintro ⟨policy, tags, exports, read, rfl⟩
    obtain ⟨source, configured, effective⟩ := exports.configured
    rw [exports.compatible, if_neg Bool.false_ne_true]
    refine bind_eq_ok_iff.2 ⟨session, mapError_eq_ok_iff.2 summaryFound, ?_⟩
    refine bind_eq_ok_iff.2 ⟨source, configured, bind_eq_ok_iff.2 ⟨policy, effective, ?_⟩⟩
    refine bind_eq_ok_iff.2 ⟨tags, require_eq_ok_iff.2 read, ?_⟩
    refine bind_eq_ok_iff.2 ⟨_, mapError_eq_ok_iff.2 messagesFound, ?_⟩
    exact bind_eq_ok_iff.2 ⟨_, (exported policy).2 ⟨exports.exportable, exports.retains, rfl⟩, rfl⟩

/-! ## When a returned document is accepted -/

/-- Without a policy nothing is masked, so the columns still fit. -/
theorem validateMessages_unredacted_ok {previousSeq : Option Nat} {tracker validator : RedactionContextTracker}
    (order : ∀ previous, previousSeq = some previous → ∀ message ∈ messages, previous < message.seq)
    (increasing : messages.Pairwise fun earlier later => earlier.seq < later.seq)
    (shapes : ∀ message ∈ messages, message.payload.isObject = true) :
    validateMessages codec .none previousSeq validator (List.zipWith (exportedMessage codec (.new .none)) messages
      (RedactionContextTracker.contextsFrom codec tracker (messages.map observedCall))) = .ok () := by
  induction messages generalizing previousSeq tracker validator with
  | nil => rfl
  | cons message rest ih =>
    obtain ⟨later, sorted⟩ := List.pairwise_cons.1 increasing
    obtain ⟨shape, otherShapes⟩ := List.forall_mem_cons.1 shapes
    have below : ∀ previous, previousSeq = some previous → previous < message.seq :=
      fun previous same => order previous same message List.mem_cons_self
    have accepted := (@validateMessage_exported codec .none previousSeq validator _ message
      (tracker.observeCall codec (observedCall message)).2 below shape).2
        ⟨⟨rfl, rfl, rfl, rfl, rfl, rfl⟩, rfl, fun active => absurd rfl active, rfl⟩
    simp only [List.map_cons, RedactionContextTracker.contextsFrom, List.zipWith_cons_cons, validateMessages, accepted]
    exact ih (fun previous same other member => by cases same; exact later other member) sorted otherShapes

theorem exportKeeps_none : ExportKeeps codec .none messages := by
  have shown : ∀ key ∈ ["jsonrpc", "method", "params", "name", "error", "code"],
      matchesPolicySensitiveKey key RedactionPolicy.none.customKeys = false := by decide +kernel
  simp only [List.forall_mem_cons] at shown
  obtain ⟨version, method, params, name, error, code, -⟩ := shown
  constructor
  · intro message _
    refine ⟨fun _ _ => rfl, fun masks => ?_, fun masks => ?_, fun _ masks => ?_, fun masks => ?_⟩
    · simp [method] at masks
    · simp [params] at masks
    · simp [name] at masks
    · simp [error, code] at masks
  · intro masks
    simp [version] at masks

theorem Exportable.wellFormed {message : McpMessage} (exportable : Exportable codec message) :
    message.payload.wellFormed = true := codec.fromStr_wellFormed exportable.1

/-- A returned document is accepted exactly if the session is within the limits and masking keeps its columns. -/
theorem validate_exportedDocument_iff (written : StoredCapture codec db session messages)
    (exports : Exports codec session messages options policy) {tags : List String} {nowNs : Int} {exporter : String} :
    validate codec (exportedDocument codec session tags policy messages nowNs exporter) = .ok () ↔
      messages.length ≤ maxMessages ∧ 0 ≤ session.droppedMessages ∧ ExportKeeps codec policy messages := by
  obtain ⟨built, restored⟩ := exports.restored
  set document := exportedDocument codec session tags policy messages nowNs exporter with documentEq
  have length : document.messages.length = messages.length := by
    simp [documentEq, exportedDocument, RedactionContextTracker.contexts, contextsFrom_length]
  have checked : validateMessages codec policy none .fresh document.messages = .ok () ↔
      ExportKeeps codec policy messages := by
    have shapes : ∀ message ∈ messages, message.payload.isObject = true :=
      fun message member => (exports.exportable message member).2
    have order : ∀ previous, (none : Option Nat) = some previous → ∀ message ∈ messages, previous < message.seq :=
      fun _ impossible => by cases impossible
    by_cases redacting : policy = .none
    · subst redacting
      exact iff_of_true (validateMessages_unredacted_ok order written.increasing shapes) exportKeeps_none
    · have beside : Beside policy .fresh .fresh := by
        unfold Beside
        split_ifs <;> rfl
      refine (validateMessages_exported_iff built redacting order written.increasing shapes
        (fun message member => (exports.exportable message member).wellFormed) beside exports.retains).trans ?_
      exact ⟨fun both => ⟨both.1, both.2⟩, fun keeps => ⟨keeps.columns, keeps.exemption⟩⟩
  rw [← checked, ← length]
  unfold validate
  have policyRead : RedactionPolicy.fromStorage document.session.redactionPolicy policy.customKeys =
      .ok policy := restored
  have formatSame : document.format = format := rfl
  have versionSame : document.version = version := rfl
  have keysSame : document.session.redactionKeys = policy.customKeys := rfl
  have droppedSame : document.session.droppedMessages = session.droppedMessages := rfl
  simp only [keysSame, policyRead, formatSame, versionSame, droppedSame, ne_eq, not_true_eq_false, if_false]
  split_ifs with many negative
  · exact iff_of_false (by simp) fun within => by omega
  · exact iff_of_false (by simp) fun within => by omega
  · exact ⟨fun accepted => ⟨not_lt.1 many, not_lt.1 negative, accepted⟩, fun within => within.2.2⟩

/-! ## Healthy sessions -/

/-- In a session whose calls all end, every payload is an object: anything else counts as a request without an id. -/
theorem isObject_of_settles (settles : Settles codec (messages.map (StoredMessage.ofMessage codec)))
    {message : McpMessage} (member : message ∈ messages) : message.payload.isObject = true := by
  have named := (settles_iff.1 settles).1 (StoredMessage.ofMessage codec message) (List.mem_map_of_mem member)
  by_contra shapeless
  have noMember : ∀ key, message.payload.get key = none := by
    intro key
    cases payload : message.payload with
    | object fields => simp [payload, Value.isObject] at shapeless
    | _ => rfl
  refine named ⟨?_, .inl ?_, ?_⟩
  · simp [StoredMessage.ofMessage]
  · simp [StoredMessage.ofMessage, McpMessage.kind, McpMessage.isResponse, McpMessage.isNotification, McpMessage.id,
      McpMessage.method, noMember, MessageKind.asDbStr]
  · simp [StoredMessage.ofMessage, McpMessage.idJson, McpMessage.id, noMember]

/-- Export has nothing to mask in a session whose payloads pass the scan. -/
theorem exportedMessages_of_clean (built : policy.Built)
    (clean : ∀ pair ∈ messages.zip (RedactionContextTracker.contexts codec (messages.map observedCall)),
      unredactedSensitiveKeysWithContext pair.1.payload policy pair.2 = []) :
    List.zipWith (exportedMessage codec (.new policy)) messages
        (RedactionContextTracker.contexts codec (messages.map observedCall)) =
      messages.map (MtraceMessage.ofMessage codec) := by
  have length : messages.length ≤ (RedactionContextTracker.contexts codec (messages.map observedCall)).length := by
    simp [RedactionContextTracker.contexts, contextsFrom_length]
  have same : ∀ pair ∈ messages.zip (RedactionContextTracker.contexts codec (messages.map observedCall)),
      exportedMessage codec (.new policy) pair.1 pair.2 = MtraceMessage.ofMessage codec pair.1 := by
    intro pair member
    rw [exportedMessage, redactWithContext_eq_self built (clean pair member)]
    rfl
  calc List.zipWith (exportedMessage codec (.new policy)) messages _
    _ = (messages.zip (RedactionContextTracker.contexts codec (messages.map observedCall))).map
          fun pair => exportedMessage codec (.new policy) pair.1 pair.2 := List.map_uncurry_zip_eq_zipWith.symm
    _ = (messages.zip (RedactionContextTracker.contexts codec (messages.map observedCall))).map
          (MtraceMessage.ofMessage codec ∘ Prod.fst) := List.map_congr_left same
    _ = messages.map (MtraceMessage.ofMessage codec) := by rw [← List.map_map, List.map_fst_zip length]

/-- A healthy session with a policy is not refused, and nothing in it is masked. -/
theorem exports_of_healthy (written : StoredCapture codec db session messages) (redacting : session.redactionPolicy ≠ "none")
    (healthy : assessCapture codec session (db.messagesOf session.id) = []) :
    ∃ policy, Exports codec session messages .default policy ∧ redactionPolicyForSummary codec session = .ok policy ∧
      List.zipWith (exportedMessage codec (.new policy)) messages
          (RedactionContextTracker.contexts codec (messages.map observedCall)) =
        messages.map (MtraceMessage.ofMessage codec) := by
  rw [written.stored, assessCapture_eq_nil_iff] at healthy
  obtain ⟨capture, ⟨policy, configured, scanned⟩, -⟩ := healthy
  obtain ⟨-, -, -, recognized, settles⟩ := healthy_iff.1 capture
  have decodes : ∀ message ∈ messages, codec.fromStr (codec.toString message.payload) = some message.payload := by
    intro message member
    have known := (recognized _ (List.mem_map_of_mem member)).payload
    obtain ⟨payload, decoded⟩ := Option.ne_none_iff_exists'.1 known
    rw [← written.rereads message member payload decoded]
    exact (written.rereads message member payload decoded).symm ▸ decoded
  obtain ⟨keys, stored⟩ := redactionPolicyForSummary_eq_ok configured
  have active : policy ≠ .none := by
    rintro rfl
    exact redacting (RedactionPolicy.asStr_of_fromStorage stored).symm
  have effective : effectivePolicy .default policy = .ok policy := by
    cases policy with
    | none => exact absurd rfl active
    | _ => rfl
  obtain ⟨retains, clean⟩ := redactionIssues_eq_nil decodes (fun _ => rfl) scanned
  refine ⟨policy, ⟨rfl, ⟨policy, configured, effective⟩, fun message member => ?_, retains⟩, configured,
    exportedMessages_of_clean ⟨_, _, .inr stored⟩ clean⟩
  exact ⟨decodes message member, isObject_of_settles settles member⟩

end

/-- The two gates over one session: what is healthy is exported unchanged, accepted, and healthy where it is
imported; what is returned at all is accepted. -/
def GatesAgree (codec : Codec) (db : Database) (session : SessionRow) : Prop :=
  (session.endedAtNs ≠ none → session.redactionPolicy ≠ "none" →
    (db.messagesOf session.id).length ≤ maxMessages → assessCapture codec session (db.messagesOf session.id) = [] →
    ∀ nowNs exporter, ∃ document,
      exportMtraceDocument codec db session.id.text .default nowNs exporter = .ok document ∧
      (document.messages.map fun message => some message.payload) =
        ((db.messagesOf session.id).map fun message => codec.fromStr message.payload) ∧
      validate codec document = .ok () ∧
      ∀ (target : Database) (id : Uuid), id ∉ target.sessions.map SessionRow.id →
        ∃ after result imported, importMtraceDocument codec target id document = .ok (after, result) ∧
          after.getSessionSummary result.sessionId.text = .ok imported ∧
          assessCapture codec imported (after.messagesOf imported.id) = []) ∧
  ∀ options nowNs exporter document,
    exportMtraceDocument codec db session.id.text options nowNs exporter = .ok document → validate codec document = .ok ()

section
variable {codec : Codec} {db : Database} {session : SessionRow} {messages : List McpMessage}

/-- A healthy session is healthy again wherever its artifact is imported. -/
theorem import_of_healthy (written : StoredCapture codec db session messages) {policy : RedactionPolicy}
    {tags : List String} {nowNs : Int} {exporter : String}
    (configured : redactionPolicyForSummary codec session = .ok policy)
    (unchanged : List.zipWith (exportedMessage codec (.new policy)) messages
        (RedactionContextTracker.contexts codec (messages.map observedCall)) =
      messages.map (MtraceMessage.ofMessage codec))
    (accepted : validate codec (exportedDocument codec session tags policy messages nowNs exporter) = .ok ())
    (healthy : assessCapture codec session (db.messagesOf session.id) = [])
    {target : Database} {id : Uuid} (fresh : id ∉ target.sessions.map SessionRow.id) :
    ∃ after result imported, importMtraceDocument codec target id
        (exportedDocument codec session tags policy messages nowNs exporter) = .ok (after, result) ∧
      after.getSessionSummary result.sessionId.text = .ok imported ∧
      assessCapture codec imported (after.messagesOf imported.id) = [] := by
  set document := exportedDocument codec session tags policy messages nowNs exporter with documentEq
  have artifact : document.messages = messages.map (MtraceMessage.ofMessage codec) := unchanged
  have fits : ∀ message ∈ document.messages, message.seq < 2 ^ 63 ∧ message.payloadBytes < 2 ^ 63 := by
    rw [artifact, List.forall_mem_map]
    exact written.fits
  obtain ⟨after, imported, listed, read⟩ := importMtraceDocument_of_valid accepted fresh fits
  refine ⟨after, _, _, imported, Database.resolveSessionId_text listed, ?_⟩
  have sameMessages : after.messagesOf id = db.messagesOf session.id := by
    rw [read, artifact, written.stored, List.map_map]
    rfl
  change assessCapture codec _ (after.messagesOf id) = []
  rw [sameMessages]
  rw [assessCapture_eq_nil_iff] at healthy ⊢
  obtain ⟨capture, ⟨scannedPolicy, found, scanned⟩, closed⟩ := healthy
  obtain rfl := Except.ok.inj (configured.symm.trans found)
  obtain ⟨keys, stored⟩ := redactionPolicyForSummary_eq_ok configured
  refine ⟨capture, ⟨policy, ?_, scanned⟩, closed⟩
  refine bind_eq_ok_iff.2 ⟨_, require_eq_ok_iff.2 (readStringArray_toString codec policy.customKeys), ?_⟩
  exact mapError_eq_ok_iff.2 (fromStorage_asStr_of_stored stored)

theorem Exports.returned (written : StoredCapture codec db session messages) {options : ExportOptions}
    {policy : RedactionPolicy} (exports : Exports codec session messages options policy) {tags : List String}
    (tagged : readStringArray codec session.tags = some tags) (nowNs : Int) (exporter : String) :
    exportMtraceDocument codec db session.id.text options nowNs exporter =
      .ok (exportedDocument codec session tags policy messages nowNs exporter) :=
  (exportMtraceDocument_eq_ok_iff written).2 ⟨policy, tags, exports, tagged, rfl⟩

/-- The gates agree about a session exactly if, under every policy it is exported with, it is within the
limits and masking leaves alone what its columns are read off. -/
theorem gates_agree_iff (written : StoredCapture codec db session messages) :
    GatesAgree codec db session ↔ ∀ options policy, Exports codec session messages options policy →
      messages.length ≤ maxMessages ∧ 0 ≤ session.droppedMessages ∧ ExportKeeps codec policy messages := by
  obtain ⟨tags, tagged⟩ := written.tags
  constructor
  · intro agree options policy exports
    exact (validate_exportedDocument_iff written exports).1
      (agree.2 options 0 "" _ (exports.returned written tagged 0 ""))
  · intro keeps
    have accepts : ∀ options policy, Exports codec session messages options policy → ∀ tags nowNs exporter,
        validate codec (exportedDocument codec session tags policy messages nowNs exporter) = .ok () :=
      fun options policy exports _ _ _ => (validate_exportedDocument_iff written exports).2 (keeps options policy exports)
    refine ⟨fun _ redacting _ healthy nowNs exporter => ?_, fun options nowNs exporter document returned => ?_⟩
    · obtain ⟨policy, exports, configured, unchanged⟩ := exports_of_healthy written redacting healthy
      refine ⟨_, exports.returned written tagged nowNs exporter, ?_, accepts .default policy exports tags nowNs exporter, fun target id fresh => ?_⟩
      · have artifact : (exportedDocument codec session tags policy messages nowNs exporter).messages =
            messages.map (MtraceMessage.ofMessage codec) := unchanged
        rw [artifact, written.stored, List.map_map, List.map_map]
        exact List.map_congr_left fun message member => (exports.exportable message member).1.symm
      · exact import_of_healthy written configured unchanged (accepts .default policy exports tags nowNs exporter)
          healthy fresh
    · obtain ⟨policy, _, exports, -, rfl⟩ := (exportMtraceDocument_eq_ok_iff written).1 returned
      exact accepts options policy exports _ nowNs exporter

end

/-! ## A session that is exported masked -/

/-- A request that carries an object in place of an id, and in it a secret. -/
def secretIdRequest : McpMessage where
  seq := 0
  timestampNs := 0
  direction := .clientToServer
  payload := .object [("id", .object [("token", .string "s3cret")]), ("jsonrpc", .string "2.0"),
    ("method", .string "ping")]
  payloadBytes := 56

def unredactedSession (id : Uuid) : SessionRow where
  id := id
  client := "client"
  serverCommand := "server"
  transport := "stdio"
  startedAtNs := 0
  endedAtNs := some 1
  totalMessages := 1
  droppedMessages := 0
  redactionPolicy := "none"
  redactionKeysJson := "[]"
  tags := "[]"

def oneRequest : Database where
  sessions := [unredactedSession firstId]
  messages := [.ofStored firstId 0 56 (StoredMessage.ofMessage Compact.codec secretIdRequest)]
  uniqueIds := by decide +kernel
  uniqueKeys := by decide +kernel
  owned := by decide +kernel

theorem oneRequest_stored : StoredCapture Compact.codec oneRequest (unredactedSession firstId) [secretIdRequest] where
  listed := List.mem_singleton_self _
  stored := by decide +kernel
  increasing := List.pairwise_singleton _ _
  rereads := by
    have read : Compact.codec.fromStr (Compact.codec.toString secretIdRequest.payload) = some secretIdRequest.payload := by
      decide +kernel
    intro message member payload decoded
    obtain rfl := List.mem_singleton.1 member
    exact Option.some.inj (decoded.symm.trans read)
  fits := by decide +kernel
  tags := ⟨[], by decide +kernel⟩

theorem gates_agree_oneRequest :
    GatesAgree Compact.codec oneRequest (unredactedSession firstId) ↔
      ∀ options policy, Exports Compact.codec (unredactedSession firstId) [secretIdRequest] options policy →
        [secretIdRequest].length ≤ maxMessages ∧ 0 ≤ (unredactedSession firstId).droppedMessages ∧
          ExportKeeps Compact.codec policy [secretIdRequest] :=
  gates_agree_iff oneRequest_stored

/-- Exported with `--redact default`, the payload has its id masked and the column still shows the secret. -/
theorem masked_id_refused :
    (∃ document, exportMtraceDocument Compact.codec oneRequest firstId.text ⟨true, false⟩ 0 "mcptracer/0.1.0" =
        .ok document ∧
      validate Compact.codec document = .error (.rpcIdMismatch 0 (some "\x7b\"token\":\"s3cret\"\x7d")
        (some "\x7b\"token\":\"***REDACTED***\"\x7d"))) ∧
      ¬ GatesAgree Compact.codec oneRequest (unredactedSession firstId) := by
  have exported : ∃ document, exportMtraceDocument Compact.codec oneRequest firstId.text ⟨true, false⟩ 0
        "mcptracer/0.1.0" = .ok document ∧
      validate Compact.codec document = .error (.rpcIdMismatch 0 (some "\x7b\"token\":\"s3cret\"\x7d")
        (some "\x7b\"token\":\"***REDACTED***\"\x7d")) := by
    refine ⟨exportedDocument Compact.codec (unredactedSession firstId) [] .default [secretIdRequest] 0
      "mcptracer/0.1.0", ?_, ?_⟩ <;> decide +kernel
  refine ⟨exported, fun agree => ?_⟩
  obtain ⟨document, returned, refused⟩ := exported
  have accepted := agree.2 ⟨true, false⟩ 0 "mcptracer/0.1.0" document returned
  rw [refused] at accepted
  cases accepted

end McpTracer.Proxy
