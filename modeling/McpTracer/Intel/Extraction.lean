import McpTracer.Model.Diff
import McpTracer.Storage.DerivedIndex
import McpTracer.Storage.Transfer

/-! What is derived from one recorded session: facts, edges and tool versions.

Servers are named by the digest of their command, and a tool version by the digests of its description,
its schema and the rest of its contract.
-/

set_option autoImplicit false

namespace McpTracer.Intel
open McpTracer.Foundation McpTracer.Json McpTracer.Model McpTracer.Protocol McpTracer.Storage

/-! ## Records -/

structure MemoryExtraction where
  facts : List (MemoryFact Nat)
  edges : List MemoryEdge
  toolVersions : List ToolVersionRecord
  toolVersionObservations : List (ToolVersionObservation Nat)

/-- What the extraction reads. The server is given by its key, never by its command. -/
structure ExtractionInput where
  sessionId : String
  serverKey : String
  redactionPolicy : String
  messages : List StoredMessage
  model : SessionModel

structure Provenance where
  seqStart : Option Nat
  seqEnd : Option Nat
  observedAtNs : Int

structure FactSpec where
  factType : String
  subject : String × String
  object : Option (String × String)
  value : Value
  provenance : Provenance

def extractorSource : String := "mcptracer-intel:v1"
def supersessionSource : String := "mcptracer-intel:supersession:v1"

/-! ## Keys -/

def toolKey (serverKey toolName : String) : String := serverKey ++ "::" ++ toolName

def toolVersionKey (serverKey toolName descriptionHash schemaHash contractHash : String) : String :=
  serverKey ++ "::" ++ toolName ++ "::" ++ descriptionHash ++ "::" ++ schemaHash ++ "::" ++ contractHash

theorem append_inj_of_length {a b c d : String} (lengths : b.length = d.length) (same : a ++ b = c ++ d) :
    a = c ∧ b = d := by
  have lists := congrArg String.toList same
  rw [String.toList_append, String.toList_append] at lists
  obtain ⟨front, back⟩ := List.append_inj' lists (by rw [String.length_toList, String.length_toList, lengths])
  exact ⟨String.toList_inj.1 front, String.toList_inj.1 back⟩

/-- Between parts of a known length, the name of the tool can be read off the key. -/
theorem toolKey_injective {server other tool otherTool : String} (lengths : server.length = other.length)
    (same : toolKey server tool = toolKey other otherTool) : server = other ∧ tool = otherTool := by
  have lists := congrArg String.toList same
  simp only [toolKey, String.toList_append] at lists
  obtain ⟨front, back⟩ := List.append_inj lists (by
    simp only [List.length_append, String.length_toList, lengths])
  exact ⟨String.toList_inj.1 (List.append_cancel_right front), String.toList_inj.1 back⟩

theorem toolVersionKey_injective {server other tool otherTool d d' s s' c c' : String}
    (servers : server.length = other.length) (descriptions : d.length = d'.length) (schemas : s.length = s'.length)
    (contracts : c.length = c'.length) (same : toolVersionKey server tool d s c = toolVersionKey other otherTool d' s' c') :
    server = other ∧ tool = otherTool ∧ d = d' ∧ s = s' ∧ c = c' := by
  unfold toolVersionKey at same
  obtain ⟨same, contract⟩ := append_inj_of_length contracts same
  have same := (append_inj_of_length rfl same).1
  obtain ⟨same, schema⟩ := append_inj_of_length schemas same
  have same := (append_inj_of_length rfl same).1
  obtain ⟨same, description⟩ := append_inj_of_length descriptions same
  have same := (append_inj_of_length rfl same).1
  obtain ⟨server, tool⟩ := toolKey_injective servers same
  exact ⟨server, tool, description, schema, contract⟩

def deriveServerKey (sha256Hex : String → String) (serverCommand : String) : String :=
  "server:" ++ sha256Hex serverCommand

def exchangeKey (exchange : Exchange) : String :=
  match exchange.requestSeq, exchange.responseSeq with
  | some request, some response => "request:" ++ toString request ++ ":response:" ++ toString response
  | some request, none => "request:" ++ toString request
  | none, some response => "response:" ++ toString response
  | none, none => "exchange:unknown"

def statusName : ExchangeStatus → String
  | .ok => "ok"
  | .subscribed => "subscribed"
  | .error => "error"
  | .toolError => "tool_error"
  | .unanswered => "unanswered"
  | .cancelled => "cancelled"
  | .orphanResponse => "orphan_response"

/-! ## Where a record comes from -/

def sessionObservedAt (messages : List StoredMessage) : Int := (messages.getLast?.map StoredMessage.tsNs).getD 0

def sessionProvenance (messages : List StoredMessage) : Provenance where
  seqStart := messages.head?.map StoredMessage.seq
  seqEnd := messages.getLast?.map StoredMessage.seq
  observedAtNs := sessionObservedAt messages

def exchangeObservedAt (exchange : Exchange) : Int := (exchange.responseTsNs.or exchange.requestTsNs).getD 0

def exchangeProvenance (exchange : Exchange) : Provenance :=
  match exchange.requestSeq, exchange.responseSeq with
  | some request, some response => ⟨some (min request response), some (max request response), exchangeObservedAt exchange⟩
  | some seq, none => ⟨some seq, some seq, exchangeObservedAt exchange⟩
  | none, some seq => ⟨some seq, some seq, exchangeObservedAt exchange⟩
  | none, none => ⟨none, none, exchangeObservedAt exchange⟩

def latestToolsListProvenance (model : SessionModel) : Option (Option Nat × Int) :=
  (model.exchanges.reverse.find? isListing).map fun exchange =>
    (exchange.responseSeq.or exchange.requestSeq, exchangeObservedAt exchange)

/-- Where a listing of tools comes from: the last answer to a listing request. -/
def listingProvenance (messages : List StoredMessage) (model : SessionModel) : Option Nat × Int :=
  (latestToolsListProvenance model).getD (none, sessionObservedAt messages)

/-! ## Facts and edges -/

def one : F64 where
  bits := 0x3ff0000000000000
  finite := by decide

def buildFact (codec : Codec) (sessionId : String) (spec : FactSpec) : MemoryFact Nat where
  factType := spec.factType
  subjectType := spec.subject.1
  subjectKey := spec.subject.2
  objectType := spec.object.map Prod.fst
  objectKey := spec.object.map Prod.snd
  valueJson := codec.toString spec.value
  confidence := one
  sessionId := some sessionId
  seqStart := spec.provenance.seqStart
  seqEnd := spec.provenance.seqEnd
  source := extractorSource
  observedAtNs := spec.provenance.observedAtNs
  createdAtNs := spec.provenance.observedAtNs

def edge (codec : Codec) (input : ExtractionInput) (edgeType : String) (source target : String × String) (value : Value)
    (observedAtNs : Int) : MemoryEdge where
  edgeType := edgeType
  fromType := source.1
  fromKey := source.2
  toType := target.1
  toKey := target.2
  valueJson := codec.toString value
  sessionId := some input.sessionId
  source := extractorSource
  observedAtNs := observedAtNs
  createdAtNs := observedAtNs

def optionInteger : Option Int → Value
  | some n => integerValue n
  | none => .null

def optionNatural : Option Nat → Value
  | some n => integerValue n
  | none => .null

/-! ## Tool versions -/

/-- A listed tool by the digests that identify its version. -/
structure ListedTool where
  name : String
  descriptionHash : String
  schemaHash : String
  contractHash : String
  deriving DecidableEq

def ListedTool.ofTool (codec : Codec) (sha256Hex : String → String) (tool : String × ToolDef) : ListedTool where
  name := tool.1
  descriptionHash := sha256Hex (codec.toString (.string (tool.2.description.getD "")))
  schemaHash := sha256Hex (codec.toString (tool.2.inputSchema.getD .null))
  contractHash := sha256Hex (codec.toString (.object [
    ("annotations", tool.2.annotations.getD .null),
    ("outputSchema", tool.2.outputSchema.getD .null),
    ("title", optionValue tool.2.title)]))

def listedTools (codec : Codec) (sha256Hex : String → String) (messages : List StoredMessage) : List ListedTool :=
  (extractTools codec messages).map (ListedTool.ofTool codec sha256Hex)

def ListedTool.versionKey (serverKey : String) (tool : ListedTool) : String :=
  toolVersionKey serverKey tool.name tool.descriptionHash tool.schemaHash tool.contractHash

def ListedTool.version (input : ExtractionInput) (observedAtNs : Int) (tool : ListedTool) : ToolVersionRecord where
  serverKey := input.serverKey
  toolName := tool.name
  descriptionHash := some tool.descriptionHash
  schemaHash := some tool.schemaHash
  contractHash := some tool.contractHash
  descriptionRedacted := none
  inputSchemaRedacted := none
  firstSessionId := input.sessionId
  firstSeenAtNs := observedAtNs
  lastSeenAtNs := observedAtNs

def ListedTool.observation (input : ExtractionInput) (listing : Option Nat × Int) (tool : ListedTool) :
    ToolVersionObservation Nat where
  sessionId := input.sessionId
  serverKey := input.serverKey
  toolName := tool.name
  versionKey := tool.versionKey input.serverKey
  descriptionHash := some tool.descriptionHash
  schemaHash := some tool.schemaHash
  contractHash := some tool.contractHash
  seq := listing.1
  observedAtNs := listing.2

def ListedTool.fact (codec : Codec) (input : ExtractionInput) (listing : Option Nat × Int) (tool : ListedTool) :
    MemoryFact Nat :=
  buildFact codec input.sessionId {
    factType := "tool_has_version"
    subject := ("tool", toolKey input.serverKey tool.name)
    object := some ("tool_version", tool.versionKey input.serverKey)
    value := .object [
      ("contract_hash", .string tool.contractHash),
      ("description_hash", .string tool.descriptionHash),
      ("schema_hash", .string tool.schemaHash),
      ("server_key", .string input.serverKey),
      ("tool_name", .string tool.name)]
    provenance := ⟨listing.1, listing.1, listing.2⟩ }

def ListedTool.edge (codec : Codec) (input : ExtractionInput) (observedAtNs : Int) (tool : ListedTool) : MemoryEdge :=
  Intel.edge codec input "tool_has_version" ("tool", toolKey input.serverKey tool.name)
    ("tool_version", tool.versionKey input.serverKey) (.object [
      ("contract_hash", .string tool.contractHash),
      ("description_hash", .string tool.descriptionHash),
      ("schema_hash", .string tool.schemaHash)]) observedAtNs

/-! ## Exchanges -/

/-- The tool an exchange calls. -/
def calledTool (exchange : Exchange) : Option String :=
  if exchange.method = some "tools/call" then exchange.toolName else none

def callFact (codec : Codec) (input : ExtractionInput) (exchange : Exchange) (toolName : String) : MemoryFact Nat :=
  buildFact codec input.sessionId {
    factType := "session_called_tool"
    subject := ("session", input.sessionId)
    object := some ("tool", toolKey input.serverKey toolName)
    value := .object [
      ("error_code", optionInteger exchange.errorCode),
      ("latency_ns", optionInteger exchange.latencyNs),
      ("method", .string "tools/call"),
      ("origin", .string exchange.origin.asDbStr),
      ("status", .string (statusName exchange.status)),
      ("tool_name", .string toolName)]
    provenance := exchangeProvenance exchange }

def callEdge (codec : Codec) (input : ExtractionInput) (exchange : Exchange) (toolName : String) : MemoryEdge :=
  edge codec input "session_called_tool" ("session", input.sessionId) ("tool", toolKey input.serverKey toolName) (.object [
    ("request_seq", optionNatural exchange.requestSeq),
    ("response_seq", optionNatural exchange.responseSeq),
    ("status", .string (statusName exchange.status))]) (exchangeObservedAt exchange)

/-- The type of the fact that a status gives rise to, and what it says the exchange is. -/
def statusFactKind : ExchangeStatus → Option (String × String)
  | .error => some ("session_has_error", "error")
  | .toolError => some ("session_has_error", "tool_execution_error")
  | .orphanResponse => some ("session_has_orphan_response", "orphan_response")
  | .unanswered => some ("session_has_unanswered_request", "unanswered_request")
  | .cancelled => some ("session_had_cancelled_request", "cancelled_request")
  | .ok | .subscribed => none

def exchangeStatusFact (codec : Codec) (input : ExtractionInput) (exchange : Exchange) (factType objectKind : String) :
    MemoryFact Nat :=
  buildFact codec input.sessionId {
    factType := factType
    subject := ("session", input.sessionId)
    object := some ("exchange", exchangeKey exchange)
    value := .object [
      ("error_code", optionInteger exchange.errorCode),
      ("kind", .string objectKind),
      ("method", optionValue exchange.method),
      ("origin", .string exchange.origin.asDbStr),
      ("request_seq", optionNatural exchange.requestSeq),
      ("response_seq", optionNatural exchange.responseSeq),
      ("status", .string (statusName exchange.status)),
      ("tool_name", optionValue exchange.toolName)]
    provenance := exchangeProvenance exchange }

def exchangeFacts (codec : Codec) (input : ExtractionInput) (exchange : Exchange) : List (MemoryFact Nat) :=
  ((calledTool exchange).map (callFact codec input exchange)).toList ++
    ((statusFactKind exchange.status).map fun kind => exchangeStatusFact codec input exchange kind.1 kind.2).toList

def exchangeEdges (codec : Codec) (input : ExtractionInput) (exchange : Exchange) : List MemoryEdge :=
  ((calledTool exchange).map (callEdge codec input exchange)).toList

/-! ## The whole extraction -/

def observedServerFact (codec : Codec) (input : ExtractionInput) : MemoryFact Nat :=
  buildFact codec input.sessionId {
    factType := "session_observed_server"
    subject := ("session", input.sessionId)
    object := some ("server", input.serverKey)
    value := .object [("server_key", .string input.serverKey)]
    provenance := sessionProvenance input.messages }

def latencySummaryFact (codec : Codec) (input : ExtractionInput) : MemoryFact Nat :=
  let stats := input.model.stats
  buildFact codec input.sessionId {
    factType := "session_latency_summary"
    subject := ("session", input.sessionId)
    object := none
    value := .object [
      ("errors", integerValue stats.errors),
      ("latency_max_ns", optionInteger stats.latencyMaxNs),
      ("latency_p50_ns", optionInteger stats.latencyP50Ns),
      ("latency_p95_ns", optionInteger stats.latencyP95Ns),
      ("notifications", integerValue stats.notifications),
      ("ok", integerValue stats.ok),
      ("orphan_responses", integerValue stats.orphanResponses),
      ("tool_call_counts", .array (stats.toolCallCounts.map fun (tool, count) =>
        .object [("count", integerValue count), ("tool", .string tool)])),
      ("total_exchanges", integerValue stats.totalExchanges),
      ("unanswered", integerValue stats.unanswered)]
    provenance := sessionProvenance input.messages }

def redactionPolicyFact (codec : Codec) (input : ExtractionInput) : MemoryFact Nat :=
  buildFact codec input.sessionId {
    factType := "session_redaction_policy"
    subject := ("session", input.sessionId)
    object := none
    value := .object [
      ("payload_text_persisted", .bool false),
      ("policy", .string input.redactionPolicy)]
    provenance := sessionProvenance input.messages }

def extractSessionMemory (codec : Codec) (sha256Hex : String → String) (input : ExtractionInput) : MemoryExtraction :=
  let tools := listedTools codec sha256Hex input.messages
  let listing := listingProvenance input.messages input.model
  { facts := observedServerFact codec input :: tools.map (ListedTool.fact codec input listing) ++
      input.model.exchanges.flatMap (exchangeFacts codec input) ++
        [latencySummaryFact codec input, redactionPolicyFact codec input]
    edges := edge codec input "session_observed_server" ("session", input.sessionId) ("server", input.serverKey)
        (.object []) (sessionObservedAt input.messages) ::
      tools.map (ListedTool.edge codec input listing.2) ++ input.model.exchanges.flatMap (exchangeEdges codec input)
    toolVersions := tools.map (ListedTool.version input listing.2)
    toolVersionObservations := tools.map (ListedTool.observation input listing) }

end McpTracer.Intel
