import McpTracer.Model.Answering
import McpTracer.Model.Diff
import McpTracer.Proxy.RequestHeaders

/-! The tool definition that headers are derived from.

A replayed call takes the definition that the latest captured listing has. This is the definition of the
catalog when that listing is the last page of the catalog, and what answers a listing is what correlation
says.
-/

set_option autoImplicit false

namespace McpTracer.Proxy.HttpReplay
open McpTracer.Foundation McpTracer.Json McpTracer.Protocol McpTracer.Storage McpTracer.Model

/-! ## The latest listing -/

/-- A captured response and the tools that it lists. -/
structure Listing where
  response : StoredMessage
  tools : List Value

/-- The listing that a message before the call is. -/
def listingAt (codec : Codec) (messages : List StoredMessage) (callSeq : Nat) (candidate : StoredMessage × Nat) :
    Option Listing :=
  if callSeq ≤ candidate.1.seq || candidate.1.direction ≠ "s2c" || !isToolsListResponse messages candidate.2 then none
  else (((codec.fromStr candidate.1.payload).bind (Value.getPath ["result", "tools"])).bind Value.asArray).map
    (Listing.mk candidate.1)

def latestListing (codec : Codec) (messages : List StoredMessage) (callSeq : Nat) : Option Listing :=
  (messages.zipIdx.filterMap (listingAt codec messages callSeq)).getLast?

/-- A tool without a schema binds nothing. -/
def schemaBindings (library : HttpLibrary) : Option Value → Except String (List ToolHeaderBinding)
  | none => .ok []
  | some schema => collectToolHeaderBindings library schema

section
variable {library : HttpLibrary} {codec : Codec} {messages : List StoredMessage} {callSeq : Nat} {toolName : String}
  {bindings : List ToolHeaderBinding}

theorem toolBindings_eq_ok_iff {responseSeq : Nat} {tool : Value} :
    toolBindings library toolName responseSeq tool = .ok bindings ↔
      schemaBindings library (tool.get "inputSchema") = .ok bindings := by
  unfold toolBindings
  cases tool.get "inputSchema" with
  | none => rfl
  | some schema => exact mapError_eq_ok_iff

/-- The search stops at the first listing that it meets. -/
theorem bindingsAmong_eq_ok_iff {candidates : List (StoredMessage × Nat)}
    (parsed : ∀ candidate ∈ candidates, codec.fromStr candidate.1.payload ≠ none) :
    bindingsAmong library codec messages callSeq toolName candidates = .ok bindings ↔
      ∃ listing, candidates.findSome? (listingAt codec messages callSeq) = some listing ∧
        ∃ tool, listing.tools.find? (definesTool toolName) = some tool ∧
          schemaBindings library (tool.get "inputSchema") = .ok bindings := by
  induction candidates with
  | nil => simp [bindingsAmong]
  | cons candidate earlier ih =>
    obtain ⟨response, index⟩ := candidate
    have rest := ih fun other member => parsed other (List.mem_cons_of_mem _ member)
    rw [bindingsAmong, List.findSome?_cons, listingAt]
    split
    case isTrue skipped => exact rest
    case isFalse =>
      cases decoded : codec.fromStr response.payload with
      | none => exact absurd decoded (parsed (response, index) List.mem_cons_self)
      | some payload =>
        cases tools : (payload.getPath ["result", "tools"]).bind Value.asArray with
        | none => simpa [tools] using rest
        | some listed =>
          simp only [tools, Option.bind_some, Option.map_some, Option.some.injEq, exists_eq_left']
          cases found : listed.find? (definesTool toolName) with
          | none => simp
          | some tool => simp [toolBindings_eq_ok_iff]

/-- The bindings are those of the tool in the latest listing. -/
theorem toolHeaderBindingsAt_eq_ok_iff (parsed : ∀ message ∈ messages, codec.fromStr message.payload ≠ none) :
    toolHeaderBindingsAt library codec messages callSeq toolName = .ok bindings ↔
      ∃ listing, latestListing codec messages callSeq = some listing ∧
        ∃ tool, listing.tools.find? (definesTool toolName) = some tool ∧
          schemaBindings library (tool.get "inputSchema") = .ok bindings := by
  have latest : latestListing codec messages callSeq =
      messages.zipIdx.reverse.findSome? (listingAt codec messages callSeq) := by
    rw [latestListing, ← List.head?_reverse, ← List.filterMap_reverse, List.head?_filterMap]
  rw [latest]
  refine bindingsAmong_eq_ok_iff fun candidate member => parsed candidate.1 ?_
  exact List.fst_mem_of_mem_zipIdx (List.mem_reverse.1 member)

theorem latestListing_spec {listing : Listing} (latest : latestListing codec messages callSeq = some listing) :
    listing.response ∈ messages ∧ listing.response.seq < callSeq ∧
      ((codec.fromStr listing.response.payload).bind (Value.getPath ["result", "tools"])).bind Value.asArray =
        some listing.tools := by
  obtain ⟨candidate, member, listed⟩ := List.mem_filterMap.1 (List.mem_of_getLast? latest)
  unfold listingAt at listed
  split at listed
  case isTrue => cases listed
  case isFalse among =>
    obtain ⟨tools, found, rfl⟩ := Option.map_eq_some_iff.1 listed
    simp only [Bool.or_eq_true, not_or, decide_eq_true_eq, not_le] at among
    exact ⟨List.fst_mem_of_mem_zipIdx member, among.1.1, found⟩

end

/-! ## Answers to a request for the tools -/

/-- While the request of a response is open, the client sends nothing else with its id, requests aside. -/
def Undisturbed (codec : Codec) (messages : List StoredMessage) (response : StoredMessage) : Prop :=
  ∀ exchange ∈ (correlate codec messages).exchanges, exchange.responseSeq = some response.seq →
    ∀ requestSeq, exchange.requestSeq = some requestSeq → ∀ other ∈ messages, requestSeq < other.seq →
      other.seq < response.seq → other.direction = "c2s" → other.rpcId = response.rpcId →
      other.messageKind = "request"

/-- Correlation pairs a response with a request for the tools by the client. -/
def AnswersToolsList (codec : Codec) (messages : List StoredMessage) (response : StoredMessage) : Prop :=
  ∃ exchange ∈ (correlate codec messages).exchanges, exchange.responseSeq = some response.seq ∧
    exchange.requestSeq ≠ none ∧ exchange.origin = .clientToServer ∧ exchange.method = some "tools/list"

section
variable {codec : Codec} {messages : List StoredMessage} {index : Nat} {response : StoredMessage}

theorem isToolsListResponse_iff {dropped : Nat} (healthy : Healthy codec messages dropped)
    (found : messages[index]? = some response) (fromServer : response.direction = "s2c")
    (kind : response.messageKind = "response") (undisturbed : Undisturbed codec messages response) :
    isToolsListResponse messages index = true ↔ AnswersToolsList codec messages response := by
  obtain ⟨-, -, increasing, -, -⟩ := healthy_iff.1 healthy
  obtain ⟨before, after, shape, taken⟩ : ∃ before after, messages = before ++ response :: after ∧
      messages.take index = before := by
    obtain ⟨inside, rfl⟩ := List.getElem?_eq_some_iff.1 found
    exact ⟨_, _, by rw [List.cons_getElem_drop_succ, List.take_append_drop], rfl⟩
  obtain ⟨earlier, request, between, split, answers, ⟨exchange, member, answered⟩, asks⟩ :=
    answers_of_healthy healthy shape kind
  obtain ⟨direction, id, isRequest, isResponse, calm⟩ := answers
  obtain rfl : direction = .clientToServer :=
    opposite_inj.1 (asDbStr_inj.1 (isResponse.1.symm.trans fromServer))
  have asked := asks exchange member answered
  rw [shape, split] at increasing
  obtain ⟨earlierIncreasing, -, order⟩ := List.pairwise_append.1 increasing
  have after_request := (List.pairwise_cons.1 (List.pairwise_append.1 earlierIncreasing).2.1).1
  have silent : between.reverse.find? (fun other => other.direction = "c2s" && other.rpcId = some id) = none := by
    rw [List.find?_eq_none]
    intro other listed own
    rw [List.mem_reverse] at listed
    simp only [Bool.and_eq_true, decide_eq_true_eq] at own
    have member_between : other ∈ messages := by simp [shape, split, listed]
    have plain := undisturbed exchange member answered request.seq asked.1 other member_between
      (after_request other listed) (order other (by simp [listed]) response (by simp)) own.1
      (own.2.trans isResponse.2.2.symm)
    exact (calm other listed).1 ⟨own.1, plain, own.2⟩
  have searched : isToolsListResponse messages index = decide (request.method = some "tools/list") := by
    rw [isToolsListResponse, found, Option.bind_some, isResponse.2.2, taken, split]
    dsimp only
    rw [List.reverse_append, List.reverse_cons, List.append_assoc, List.find?_append, silent, Option.none_or,
      List.singleton_append, List.find?_cons]
    have own : request.direction = "c2s" := isRequest.1
    simp [own, isRequest.2.1, isRequest.2.2]
  rw [searched, decide_eq_true_eq]
  constructor
  · intro named
    refine ⟨exchange, member, answered, by rw [show exchange.requestSeq = _ from asked.1]; simp, ?_, ?_⟩
    · exact asDbStr_inj.1 (asked.2.1.symm.trans isRequest.1)
    · exact asked.2.2.2.symm.trans named
  · rintro ⟨other, also, here, -, -, named⟩
    exact (asks other also here).2.2.2.trans named

end

/-! ## The catalog -/

def pageCursor (payloads : Table Nat Value) (exchange : Exchange) : Option String :=
  ((exchange.requestSeq.bind payloads).bind (Value.getPath ["params", "cursor"])).bind Value.asStr

/-- The catalog takes a first page, or the continuation that it expects. -/
def Continues (payloads : Table Nat Value) (state : CatalogState) (exchange : Exchange) : Prop :=
  pageCursor payloads exchange = none ∨
    (state.collecting = true ∧ pageCursor payloads exchange = state.expectedCursor)

/-- The last page that goes into the catalog is the answer of this exchange. -/
def LastPage (codec : Codec) (messages : List StoredMessage) (exchange : Exchange) : Prop :=
  let payloads := payloadsBySeq codec messages
  ∃ earlier, (correlate codec messages).exchanges.filter isListing = earlier ++ [exchange] ∧
    Continues payloads (earlier.foldl (CatalogState.step payloads) .start) exchange

section
variable {codec : Codec} {messages : List StoredMessage} {exchange : Exchange}

/-- Of several definitions on a page the last one is kept. -/
theorem lookup_insertTools (catalog : ToolCatalog) (tools : List Value) (toolName : String) :
    (CatalogState.insertTools catalog tools).lookup toolName =
      ((tools.reverse.find? (definesTool toolName)).map ToolDef.ofValue).or (catalog.tools.lookup toolName) := by
  induction tools using List.reverseRecOn with
  | nil => rfl
  | append_singleton tools tool ih =>
    unfold CatalogState.insertTools at ih ⊢
    rw [List.foldl_append, List.foldl_cons, List.foldl_nil, List.reverse_append, List.reverse_singleton,
      List.singleton_append, List.find?_cons, definesTool]
    cases named : (tool.get "name").bind Value.asStr with
    | none => simpa using ih
    | some name =>
      dsimp only
      rw [lookup_insert, ih]
      by_cases same : toolName = name
      · simp [same]
      · simp [same, Ne.symm same]

theorem payloadsBySeq_eq_some {message : StoredMessage} {payload : Value}
    (increasing : StoredMessage.Increasing messages) (member : message ∈ messages)
    (decoded : codec.fromStr message.payload = some payload) :
    payloadsBySeq codec messages message.seq = some payload := by
  have unique : ((messages.filterMap fun message =>
      (codec.fromStr message.payload).map fun payload => (message.seq, payload)).map Prod.fst).Nodup := by
    refine List.pairwise_map.2 (List.pairwise_filterMap.2 (increasing.imp fun below first here second there => ?_))
    obtain ⟨_, -, rfl⟩ := Option.map_eq_some_iff.1 here
    obtain ⟨_, -, rfl⟩ := Option.map_eq_some_iff.1 there
    exact below.ne
  exact (Table.ofList_eq_some_iff unique _ _).2 (List.mem_filterMap.2 ⟨message, member, by rw [decoded]; rfl⟩)

/-- The catalog that a page is added to. -/
def catalogBefore (payloads : Table Nat Value) (state : CatalogState) (exchange : Exchange) : ToolCatalog :=
  if pageCursor payloads exchange = none then CatalogState.restart.catalog else state.catalog

theorem step_of_page {payloads : Table Nat Value} {state : CatalogState} {payload : Value} {tools : List Value}
    (continues : Continues payloads state exchange) (answered : exchange.responseSeq.bind payloads = some payload)
    (listed : (payload.getPath ["result", "tools"]).bind Value.asArray = some tools) :
    (state.step payloads exchange).catalog.tools =
      CatalogState.insertTools (catalogBefore payloads state exchange) tools := by
  obtain ⟨value, found, isArray⟩ := Option.bind_eq_some_iff.1 listed
  rw [Value.getPath_pair] at found
  obtain ⟨result, hasResult, hasTools⟩ := Option.bind_eq_some_iff.1 found
  unfold CatalogState.step catalogBefore
  unfold Continues at continues
  rw [answered, Option.bind_some, hasResult]
  dsimp only
  rw [hasTools, Option.bind_some, isArray]
  change (if _ then _ else _ : CatalogState).catalog.tools = _
  rw [← pageCursor]
  by_cases first : pageCursor payloads exchange = none
  · simp [first, CatalogState.restart]
  · obtain ⟨collecting, expected⟩ := continues.resolve_left first
    simp only [if_neg first]
    simp [collecting, ← expected]

/-- What the catalog has of a tool after its last page. -/
theorem catalog_of_lastPage (toolName : String) {payload : Value} {tools : List Value} (lastPage : LastPage codec messages exchange)
    (answered : exchange.responseSeq.bind (payloadsBySeq codec messages) = some payload)
    (listed : (payload.getPath ["result", "tools"]).bind Value.asArray = some tools) :
    ∃ older, (extractToolCatalog codec messages).tools.lookup toolName =
      ((tools.reverse.find? (definesTool toolName)).map ToolDef.ofValue).or older ∧
        (pageCursor (payloadsBySeq codec messages) exchange = none → older = none) := by
  obtain ⟨earlier, pages, continues⟩ := lastPage
  refine ⟨(catalogBefore (payloadsBySeq codec messages) (earlier.foldl (CatalogState.step (payloadsBySeq codec messages))
    .start) exchange).tools.lookup toolName, ?_, fun first => by rw [catalogBefore, if_pos first]; rfl⟩
  rw [← lookup_insertTools, ← step_of_page continues answered listed]
  unfold extractToolCatalog
  dsimp only
  rw [pages, List.foldl_append, List.foldl_cons, List.foldl_nil]

end

/-! ## The definition in force -/

/-- What occurs at most once is found from either end. -/
theorem find?_reverse_of_once {A : Type} {p : A → Bool} {xs : List A} (once : (xs.filter p).length ≤ 1) :
    xs.reverse.find? p = xs.find? p := by
  rw [← List.head?_filter, ← List.head?_filter, List.filter_reverse]
  match xs.filter p, once with
  | [], _ => rfl
  | [_], _ => rfl

section
variable {library : HttpLibrary} {codec : Codec} {messages : List StoredMessage} {callSeq : Nat} {listing : Listing}
  {exchange : Exchange} {toolName : String} {bindings : List ToolHeaderBinding}

/-- The latest listing is the last page of the catalog: both have the same definition of a tool. -/
theorem toolHeaderBindingsAt_of_lastPage {dropped : Nat} (healthy : Healthy codec messages dropped)
    (latest : latestListing codec messages callSeq = some listing)
    (lastPage : LastPage codec (messages.filter (·.seq < callSeq)) exchange)
    (answered : exchange.responseSeq = some listing.response.seq)
    (once : (listing.tools.filter (definesTool toolName)).length ≤ 1)
    (first : pageCursor (payloadsBySeq codec (messages.filter (·.seq < callSeq))) exchange = none ∨
      listing.tools.any (definesTool toolName) = true) :
    toolHeaderBindingsAt library codec messages callSeq toolName = .ok bindings ↔
      ∃ definition, (extractToolCatalog codec (messages.filter (·.seq < callSeq))).tools.lookup toolName = some definition ∧
        schemaBindings library definition.inputSchema = .ok bindings := by
  obtain ⟨-, -, increasing, recognized, -⟩ := healthy_iff.1 healthy
  obtain ⟨member, prior, listed⟩ := latestListing_spec latest
  obtain ⟨value, found, isArray⟩ := Option.bind_eq_some_iff.1 listed
  obtain ⟨payload, decoded, path⟩ := Option.bind_eq_some_iff.1 found
  have known : exchange.responseSeq.bind (payloadsBySeq codec (messages.filter (·.seq < callSeq))) = some payload := by
    rw [answered, Option.bind_some]
    exact payloadsBySeq_eq_some (increasing.sublist List.filter_sublist)
      (List.mem_filter.2 ⟨member, decide_eq_true prior⟩) decoded
  obtain ⟨older, lookup, fresh⟩ := catalog_of_lastPage toolName lastPage known
    (Option.bind_eq_some_iff.2 ⟨value, path, isArray⟩)
  rw [toolHeaderBindingsAt_eq_ok_iff fun message inside => (recognized message inside).payload, lookup, latest,
    find?_reverse_of_once once]
  cases defined : listing.tools.find? (definesTool toolName) with
  | some tool => simp [defined, ToolDef.ofValue]
  | none =>
    have none_older : older = none := by
      refine fresh (first.resolve_right fun any => ?_)
      obtain ⟨tool, inside, defines⟩ := List.any_eq_true.1 any
      exact List.find?_eq_none.1 defined tool inside defines
    simp [defined, none_older]

end

/-- Headers are derived from the definition that the latest captured listing has. This is the one of the catalog
when the listing is its last page, and listings are what correlation pairs with a request for the tools. -/
theorem tool_bindings_of_latest_listing (library : HttpLibrary) (codec : Codec) (messages : List StoredMessage)
    (healthy : Healthy codec messages 0) :
    (∀ callSeq toolName bindings, toolHeaderBindingsAt library codec messages callSeq toolName = .ok bindings ↔
      ∃ listing, latestListing codec messages callSeq = some listing ∧
        ∃ tool, listing.tools.find? (definesTool toolName) = some tool ∧
          schemaBindings library (tool.get "inputSchema") = .ok bindings) ∧
    (∀ callSeq listing exchange, latestListing codec messages callSeq = some listing →
      let before := messages.filter (·.seq < callSeq)
      LastPage codec before exchange → exchange.responseSeq = some listing.response.seq →
      ∀ toolName, (listing.tools.filter (definesTool toolName)).length ≤ 1 →
        pageCursor (payloadsBySeq codec before) exchange = none ∨ listing.tools.any (definesTool toolName) = true →
        ∀ bindings, toolHeaderBindingsAt library codec messages callSeq toolName = .ok bindings ↔
          ∃ definition, (extractToolCatalog codec before).tools.lookup toolName = some definition ∧
            schemaBindings library definition.inputSchema = .ok bindings) ∧
    ∀ (index : Nat) response, messages[index]? = some response → response.direction = "s2c" →
      response.messageKind = "response" → Undisturbed codec messages response →
      (isToolsListResponse messages index = true ↔ AnswersToolsList codec messages response) := by
  obtain ⟨-, -, -, recognized, -⟩ := healthy_iff.1 healthy
  refine ⟨fun callSeq toolName bindings => ?_, fun callSeq listing exchange latest lastPage answered toolName once
    first bindings => toolHeaderBindingsAt_of_lastPage healthy latest lastPage answered once first,
    fun index response found => isToolsListResponse_iff healthy found⟩
  exact toolHeaderBindingsAt_eq_ok_iff fun message inside => (recognized message inside).payload

def listRequest (id : UInt64) (params : List (String × Value)) : Value := .object ([
  ("id", .number (.posInt id)), ("jsonrpc", .string "2.0"), ("method", .string "tools/list")] ++ params)

def toolPage (id : UInt64) (toolName : String) (cursor : List (String × Value)) : Value := .object [
  ("id", .number (.posInt id)), ("jsonrpc", .string "2.0"),
  ("result", .object (cursor ++ [("tools", .array [.object [("name", .string toolName)]])]))]

def callRequest (id : UInt64) (toolName : String) : Value := .object [
  ("id", .number (.posInt id)), ("jsonrpc", .string "2.0"), ("method", .string "tools/call"),
  ("params", .object [("_meta", .object [("io.modelcontextprotocol/protocolVersion", .string "2026-07-28")]),
    ("name", .string toolName)])]

/-- Two tools on two pages, and a call of the first one. -/
def pagedSession : List StoredMessage :=
  [⟨0, 0, .clientToServer, listRequest 1 [], 0⟩,
    ⟨1, 1, .serverToClient, toolPage 1 "echo" [("nextCursor", .string "2")], 0⟩,
    ⟨2, 2, .clientToServer, listRequest 2 [("params", .object [("cursor", .string "2")])], 0⟩,
    ⟨3, 3, .serverToClient, toolPage 2 "time" [], 0⟩,
    ⟨4, 4, .clientToServer, callRequest 3 "echo", 0⟩,
    ⟨5, 5, .serverToClient, .object [("id", .number (.posInt 3)), ("result", .object [])], 0⟩].map
      (StoredMessage.ofMessage Compact.codec)

def plainLibrary : HttpLibrary where
  headerName := some
  headerValue := fun _ => true
  base64 := id

theorem pagedSession_healthy : Healthy Compact.codec pagedSession 0 := by decide +kernel

theorem tool_bindings_of_second_page : Healthy Compact.codec pagedSession 0 ∧
    (toolHeaderBindingsAt plainLibrary Compact.codec pagedSession 4 "time" = .ok [] ↔
      ∃ listing, latestListing Compact.codec pagedSession 4 = some listing ∧
        ∃ tool, listing.tools.find? (definesTool "time") = some tool ∧
          schemaBindings plainLibrary (tool.get "inputSchema") = .ok []) :=
  ⟨pagedSession_healthy,
    (tool_bindings_of_latest_listing plainLibrary Compact.codec pagedSession pagedSession_healthy).1 4 "time" []⟩

/-- A tool on an earlier page is in the catalog, and its call is refused. -/
theorem earlier_page_refused :
    ¬ ∀ (library : HttpLibrary) (codec : Codec) (messages : List StoredMessage), Healthy codec messages 0 →
      ∀ call ∈ messages, ∀ request toolName, call.direction = "c2s" → codec.fromStr call.payload = some request →
        modernToolName request = .ok (some toolName) →
        ((∃ bindings, toolHeaderBindingsAt library codec messages call.seq toolName = .ok bindings) ↔
          ∃ definition, (extractToolCatalog codec (messages.filter (·.seq < call.seq))).tools.lookup toolName =
            some definition ∧ ∃ bindings, schemaBindings library definition.inputSchema = .ok bindings) := by
  intro agree
  have found : (extractToolCatalog Compact.codec (pagedSession.filter (·.seq < 4))).tools.lookup "echo" =
      some ⟨none, none, none, none, none⟩ := by decide +kernel
  have refused : (toolHeaderBindingsAt plainLibrary Compact.codec pagedSession 4 "echo").toOption = none := by
    decide +kernel
  let call := StoredMessage.ofMessage Compact.codec ⟨4, 4, .clientToServer, callRequest 3 "echo", 0⟩
  have member : call ∈ pagedSession := by simp [pagedSession, call]
  have decoded : Compact.codec.fromStr call.payload = some (callRequest 3 "echo") := by decide +kernel
  have named : modernToolName (callRequest 3 "echo") = .ok (some "echo") := by decide +kernel
  obtain ⟨bindings, derived⟩ := (agree plainLibrary Compact.codec pagedSession pagedSession_healthy call member _ "echo"
    rfl decoded named).2 ⟨_, found, [], rfl⟩
  rw [show call.seq = 4 from rfl] at derived
  rw [derived] at refused
  cases refused

end McpTracer.Proxy.HttpReplay
