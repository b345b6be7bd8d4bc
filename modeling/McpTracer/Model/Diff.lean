import McpTracer.Foundation.Occurrence
import McpTracer.Foundation.SortedMap
import McpTracer.Model.Compare
import McpTracer.Model.Correlate

/-! The session diff.

Exchanges of two sessions are aligned by a text made of origin, method, tool and
occurrence, notifications likewise. Aligned entries are compared, tool catalogs
are compared by name, and the two trajectories are compared step by step.
Ratios of the report are rational.
-/

set_option autoImplicit false

namespace McpTracer.Model
open McpTracer.Foundation McpTracer.Json McpTracer.Protocol McpTracer.Storage

structure DiffOptions where
  ignore : IgnoreRules
  ignoreLatency : Bool
  /-- Both thresholds must be exceeded before a latency delta is reported. -/
  latencyThresholdPct : ℚ
  latencyThresholdNs : Int
  deriving DecidableEq

def DiffOptions.standard : DiffOptions where
  ignore := .standard
  ignoreLatency := false
  latencyThresholdPct := 20
  latencyThresholdNs := 1000000

/-- A single meaningful change on an aligned exchange. -/
inductive ExchangeDelta where
  | statusChanged (from' to' : ExchangeStatus)
  | errorCodeChanged (from' to' : Option Int)
  | requestChanged (pointerDiffs : List PointerDiff)
  | responseChanged (pointerDiffs : List PointerDiff)
  | latencyChanged (fromNs toNs : Int) (pct : ℚ)
  deriving DecidableEq

def ExchangeDelta.isLatency : ExchangeDelta → Bool
  | .latencyChanged .. => true
  | _ => false

structure AlignedExchangeDiff where
  key : String
  deltas : List ExchangeDelta
  deriving DecidableEq

inductive SecurityFindingKind where
  | toolAdded
  | toolRemoved
  | toolTitleChanged
  | toolDescriptionChanged
  | toolSchemaChanged
  | toolOutputSchemaChanged
  | toolAnnotationsChanged
  deriving DecidableEq, Repr

/-- What a finding tells; quoting is left to the printer. -/
inductive FindingDetail where
  | text (detail : String)
  | titleChanged (from' to' : String)
  | descriptionChanged (from' to' : String)
  | annotationsChanged (from' to' : Option Value)
  deriving DecidableEq

structure SecurityFinding where
  kind : SecurityFindingKind
  tool : String
  detail : FindingDetail
  deriving DecidableEq

inductive DivergenceKind where
  | methodMismatch
  | statusMismatch
  | errorCodeMismatch
  | requestMismatch
  | responseMismatch
  | missingExchange
  | extraExchange
  deriving DecidableEq, Repr

/-- The first point where two trajectories branched. -/
structure PointOfDivergence where
  stepIndex : Nat
  key : String
  kind : DivergenceKind
  detail : String
  deriving DecidableEq

structure DiffReport where
  changed : List AlignedExchangeDiff
  added : List String
  removed : List String
  toolsAdded : List String
  toolsRemoved : List String
  security : List SecurityFinding
  errorRateFrom : ℚ
  errorRateTo : ℚ
  pointOfDivergence : Option PointOfDivergence
  deriving DecidableEq

/-- True when the sessions are equivalent under the given options. -/
def DiffReport.isEmpty (report : DiffReport) : Bool :=
  report.changed.isEmpty && report.added.isEmpty && report.removed.isEmpty &&
    report.security.isEmpty && report.pointOfDivergence.isNone

/-! ## Alignment -/

def payloadsBySeq (codec : Codec) (messages : List StoredMessage) : Table Nat Value :=
  Table.ofList <| messages.filterMap fun message =>
    (codec.fromStr message.payload).map fun payload => (message.seq, payload)

def errorRate (exchanges : List Exchange) : ℚ :=
  if exchanges = [] then 0
  else (exchanges.countP fun e => e.status = .error || e.status = .toolError) / exchanges.length

def originTag : Direction → String
  | .clientToServer => ""
  | .serverToClient => "server:"

/-- The text under which occurrences of an exchange are counted; orphans have none. -/
def alignmentBase (exchange : Exchange) : Option String :=
  if exchange.status = .orphanResponse then none
  else
    match exchange.method, exchange.toolName with
    | some method, some tool => some (originTag exchange.origin ++ (method ++ " " ++ tool))
    | some method, none => some (originTag exchange.origin ++ method)
    | none, _ => none

def alignmentKeys (exchanges : List Exchange) : List (String × Exchange) :=
  Occurrence.keyed alignmentBase exchanges

def notificationBase (message : StoredMessage) : Option String :=
  if message.messageKind ≠ "notification" then none
  else
    match message.method, message.direction with
    | some method, "s2c" => some ("server:" ++ "notification " ++ method)
    | some method, "c2s" => some ("client:" ++ "notification " ++ method)
    | _, _ => none

def notificationAlignmentKeys (messages : List StoredMessage) : List (String × StoredMessage) :=
  Occurrence.keyed notificationBase messages

/-- What aligning two keyed lists adds to a report. -/
structure Aligned where
  changed : List AlignedExchangeDiff
  added : List String
  removed : List String
  deriving DecidableEq

/-- Entries of the first list are looked up in the second by key and compared. -/
def align {A : Type} (as bs : List (String × A)) (compare : A → A → List ExchangeDelta) : Aligned :=
  let aIndex := Table.ofList as
  let bIndex := Table.ofList bs
  { changed := as.filterMap fun (key, a) => (bIndex key).bind fun b =>
      let deltas := compare a b
      if deltas.isEmpty then none else some ⟨key, deltas⟩
    added := (bs.filter fun (key, _) => (aIndex key).isNone).map Prod.fst
    removed := (as.filter fun (key, _) => (bIndex key).isNone).map Prod.fst }

/-! ## Comparing two exchanges -/

def responseSubtree (exchange : Exchange) (payloads : Table Nat Value) (field : String) :
    Option Value :=
  (exchange.responseSeq.bind payloads).bind (Value.get field)

/-- Absent parameters are read as null. -/
def requestParams (exchange : Exchange) (payloads : Table Nat Value) : Option Value :=
  (exchange.requestSeq.bind payloads).map fun payload => (payload.get "params").getD .null

/-- The member of a response that is compared, by the outcome. -/
def comparedField : ExchangeStatus → Option String
  | .ok | .toolError => some "result"
  | .error => some "error"
  | _ => none

section Compare
variable (aPayloads bPayloads : Table Nat Value) (options : DiffOptions)

def requestDiffs (a b : Exchange) : List PointerDiff :=
  match requestParams a aPayloads, requestParams b bPayloads with
  | some aParams, some bParams =>
    compareValues "" (normalizeRequest options.ignore aParams) (normalizeRequest options.ignore bParams)
  | _, _ => []

/-- Bodies are compared where both responses have the member. -/
def responseDiffs (a b : Exchange) : List PointerDiff :=
  match comparedField a.status with
  | none => []
  | some field =>
    match responseSubtree a aPayloads field, responseSubtree b bPayloads field with
    | some aBody, some bBody =>
      compareValues "" (normalizeResponse options.ignore aBody) (normalizeResponse options.ignore bBody)
    | _, _ => []

def latencyDeltas (a b : Exchange) : List ExchangeDelta :=
  if options.ignoreLatency then []
  else
    match a.latencyNs, b.latencyNs with
    | some fromNs, some toNs =>
      if 0 < fromNs ∧ options.latencyThresholdNs < |toNs - fromNs| then
        let pct : ℚ := (toNs - fromNs : ℚ) / fromNs * 100
        if options.latencyThresholdPct < |pct| then [.latencyChanged fromNs toNs pct] else []
      else []
    | _, _ => []

def compareExchanges (a b : Exchange) : List ExchangeDelta :=
  let request := requestDiffs aPayloads bPayloads options a b
  (if request.isEmpty then [] else [.requestChanged request]) ++
    (if a.status ≠ b.status then [.statusChanged a.status b.status]
      else
        (if a.errorCode ≠ b.errorCode then [.errorCodeChanged a.errorCode b.errorCode] else []) ++
          let response := responseDiffs aPayloads bPayloads options a b
          if response.isEmpty then [] else [.responseChanged response]) ++
    latencyDeltas options a b

/-! ## The first divergence -/

def debugStatus : ExchangeStatus → String
  | .ok => "Ok"
  | .error => "Error"
  | .toolError => "ToolError"
  | .subscribed => "Subscribed"
  | .cancelled => "Cancelled"
  | .unanswered => "Unanswered"
  | .orphanResponse => "OrphanResponse"

def debugCode : Option Int → String
  | none => "None"
  | some code => s!"Some({code})"

/-- The pointer of the first difference, for a reader. -/
def firstPointer : List PointerDiff → String
  | [] => ""
  | diff :: _ => if diff.pointer = "" then "(root)" else diff.pointer

/-- Two steps at one index, compared in the order of their keys, outcomes and bodies. -/
def stepDivergence (index : Nat) (a b : String × Exchange) : Option PointOfDivergence :=
  if a.1 ≠ b.1 then
    some ⟨index, a.1, .methodMismatch,
      s!"trajectory branched at step {index}: session A executed '{a.1}' but session B executed '{b.1}'"⟩
  else if a.2.status ≠ b.2.status then
    some ⟨index, a.1, .statusMismatch,
      s!"status changed at step {index} ({a.1}): {debugStatus a.2.status} -> {debugStatus b.2.status}"⟩
  else if a.2.errorCode ≠ b.2.errorCode then
    some ⟨index, a.1, .errorCodeMismatch,
      s!"error code changed at step {index} ({a.1}): {debugCode a.2.errorCode} -> {debugCode b.2.errorCode}"⟩
  else
    let request := requestDiffs aPayloads bPayloads options a.2 b.2
    let response := responseDiffs aPayloads bPayloads options a.2 b.2
    if !request.isEmpty then
      some ⟨index, a.1, .requestMismatch,
        s!"request parameters differed at step {index} ({a.1}) at pointer '{firstPointer request}'"⟩
    else if !response.isEmpty then
      some ⟨index, a.1, .responseMismatch,
        s!"response body differed at step {index} ({a.1}) at pointer '{firstPointer response}'"⟩
    else none

/-- The loop over both trajectories from an index on. -/
def divergenceFrom (index : Nat) :
    List (String × Exchange) → List (String × Exchange) → Option PointOfDivergence
  | a :: as, b :: bs =>
    match stepDivergence aPayloads bPayloads options index a b with
    | some divergence => some divergence
    | none => divergenceFrom (index + 1) as bs
  | a :: _, [] => some ⟨index, a.1, .missingExchange,
      s!"session B stopped prematurely after step {index - 1}; missing expected exchange '{a.1}'"⟩
  | [], b :: _ => some ⟨index, b.1, .extraExchange,
      s!"session B executed an additional unexpected exchange '{b.1}' at step {index}"⟩
  | [], [] => none

def computePointOfDivergence (aKeys bKeys : List (String × Exchange)) : Option PointOfDivergence :=
  divergenceFrom aPayloads bPayloads options 0 aKeys bKeys

end Compare

def compareNotifications (codec : Codec) (options : DiffOptions) (a b : StoredMessage) :
    List ExchangeDelta :=
  match codec.fromStr a.payload, codec.fromStr b.payload with
  | some aPayload, some bPayload =>
    let diffs := compareValues "" (normalize options.ignore aPayload) (normalize options.ignore bPayload)
    if diffs.isEmpty then [] else [.responseChanged diffs]
  | _, _ => []

def diffNotificationEvents (codec : Codec) (as bs : List StoredMessage) (options : DiffOptions) :
    Aligned :=
  align (notificationAlignmentKeys as) (notificationAlignmentKeys bs) (compareNotifications codec options)

/-! ## Tool drift -/

/-- The fields of a tool definition that carry security-relevant meaning. -/
structure ToolDef where
  title : Option String
  description : Option String
  inputSchema : Option Value
  outputSchema : Option Value
  annotations : Option Value
  deriving DecidableEq

def ToolDef.ofValue (tool : Value) : ToolDef where
  title := (tool.get "title").bind Value.asStr
  description := (tool.get "description").bind Value.asStr
  inputSchema := tool.get "inputSchema"
  outputSchema := tool.get "outputSchema"
  annotations := tool.get "annotations"

structure ToolCatalog where
  tools : List (String × ToolDef)
  complete : Bool

/-- The loop state of the catalog reconstruction. -/
structure CatalogState where
  catalog : ToolCatalog
  expectedCursor : Option String
  collecting : Bool

namespace CatalogState

def start : CatalogState := ⟨⟨[], false⟩, none, false⟩

/-- A request without a cursor starts a new snapshot. -/
def restart : CatalogState := ⟨⟨[], false⟩, none, true⟩

def insertTools (catalog : ToolCatalog) (tools : List Value) : List (String × ToolDef) :=
  tools.foldl (fun found tool =>
    match (tool.get "name").bind Value.asStr with
    | some name => SortedMap.insert name (ToolDef.ofValue tool) found
    | none => found) catalog.tools

def step (payloads : Table Nat Value) (state : CatalogState) (exchange : Exchange) : CatalogState :=
  let cursor := ((exchange.requestSeq.bind payloads).bind (Value.getPath ["params", "cursor"])).bind
    Value.asStr
  let state := if cursor = none then restart else state
  if !state.collecting || decide (cursor ≠ state.expectedCursor) then state
  else
    match (exchange.responseSeq.bind payloads).bind (Value.get "result") with
    | none => state
    | some result =>
      match (result.get "tools").bind Value.asArray with
      | none => state
      | some tools =>
        let next := (result.get "nextCursor").bind Value.asStr
        { state with
          catalog := ⟨insertTools state.catalog tools, next.isNone⟩
          expectedCursor := next }

end CatalogState

/-- The exchanges that list tools. -/
def isListing (exchange : Exchange) : Bool :=
  exchange.method = some "tools/list" && exchange.status = .ok

/-- The most recent cursor-linked tools/list snapshot. -/
def extractToolCatalog (codec : Codec) (messages : List StoredMessage) : ToolCatalog :=
  let payloads := payloadsBySeq codec messages
  (((correlate codec messages).exchanges.filter isListing).foldl (CatalogState.step payloads) .start).catalog

def extractTools (codec : Codec) (messages : List StoredMessage) : List (String × ToolDef) :=
  (extractToolCatalog codec messages).tools

def truncate (s : String) : String :=
  if s.utf8ByteSize ≤ 80 then s else String.ofList (s.toList.take 80) ++ "…"

def toolFindings (name : String) (a b : ToolDef) : List SecurityFinding :=
  (if a.title ≠ b.title then
    [⟨.toolTitleChanged, name, .titleChanged (a.title.getD "") (b.title.getD "")⟩] else []) ++
  (if a.description ≠ b.description then
    [⟨.toolDescriptionChanged, name,
      .descriptionChanged (truncate (a.description.getD "")) (truncate (b.description.getD ""))⟩]
    else []) ++
  (if a.inputSchema != b.inputSchema then
    [⟨.toolSchemaChanged, name, .text "inputSchema changed"⟩] else []) ++
  (if a.outputSchema != b.outputSchema then
    [⟨.toolOutputSchemaChanged, name, .text "outputSchema changed"⟩] else []) ++
  (if a.annotations != b.annotations then
    [⟨.toolAnnotationsChanged, name, .annotationsChanged a.annotations b.annotations⟩] else [])

/-- What comparing two catalogs adds to a report. -/
structure ToolDrift where
  toolsAdded : List String
  toolsRemoved : List String
  security : List SecurityFinding

def diffTools (as bs : List (String × ToolDef)) : ToolDrift :=
  let added := (bs.filter fun tool => (as.lookup tool.1).isNone).map Prod.fst
  let removed := (as.filter fun tool => (bs.lookup tool.1).isNone).map Prod.fst
  { toolsAdded := added
    toolsRemoved := removed
    security :=
      (bs.flatMap fun (name, b) =>
        match as.lookup name with
        | none => [⟨.toolAdded, name, .text "tool not present in baseline session"⟩]
        | some a => toolFindings name a b) ++
      removed.map fun name =>
        ⟨.toolRemoved, name, .text "tool present in baseline session but missing now"⟩ }

/-! ## The whole report -/

/-- The exchange-level part of a report. -/
def diffExchanges (codec : Codec) (as bs : List StoredMessage) (options : DiffOptions) : Aligned :=
  align (alignmentKeys (correlate codec as).exchanges) (alignmentKeys (correlate codec bs).exchanges)
    (compareExchanges (payloadsBySeq codec as) (payloadsBySeq codec bs) options)

/-- Compare two sessions given their ordered messages. -/
def diffSessions (codec : Codec) (as bs : List StoredMessage) (options : DiffOptions) : DiffReport :=
  let aModel := correlate codec as
  let bModel := correlate codec bs
  let exchanges := diffExchanges codec as bs options
  let notifications := diffNotificationEvents codec as bs options
  let drift := diffTools (extractTools codec as) (extractTools codec bs)
  { changed := exchanges.changed ++ notifications.changed
    added := exchanges.added ++ notifications.added
    removed := exchanges.removed ++ notifications.removed
    toolsAdded := drift.toolsAdded
    toolsRemoved := drift.toolsRemoved
    security := drift.security
    errorRateFrom := errorRate aModel.exchanges
    errorRateTo := errorRate bModel.exchanges
    pointOfDivergence := computePointOfDivergence (payloadsBySeq codec as) (payloadsBySeq codec bs)
      options (alignmentKeys aModel.exchanges) (alignmentKeys bModel.exchanges) }

end McpTracer.Model
