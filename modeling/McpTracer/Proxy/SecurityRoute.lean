import McpTracer.Proxy.IndexedGraph
import McpTracer.Redact.ContentLint

/-! The security route of a session.

A tool has drifted if another version of it is in the index. The route finds that out from the edges between
versions, each of which joins two neighbours of a tool's history, and looks for a session that has seen another
version.
-/

set_option autoImplicit false

namespace McpTracer.Proxy
open McpTracer.Foundation McpTracer.Json McpTracer.Model McpTracer.Storage McpTracer.Storage.DerivedIndex
open McpTracer.Intel McpTracer.Protocol McpTracer.Redact

structure RouteRecommendation where
  route : String
  reason : String
  commands : List String
  deriving DecidableEq

/-- The rows are kept in the order of their numbers. -/
def listToolVersionObservations (db : Database) (index : DerivedIndex) (sessionIdOrPrefix : Option String) :
    Except StoreError (List (ToolVersionObservation Int)) :=
  match sessionIdOrPrefix with
  | some session => do
    let row ← db.resolveSessionId session
    return index.observations.filter fun observation => observation.sessionId = row.id.text
  | none => return index.observations

def touches (edges : List MemoryEdge) (observation : ToolVersionObservation Int) : Bool :=
  edges.any fun edge => edge.edgeType = "version_supersedes" &&
    (edge.fromKey = observation.versionKey || edge.toKey = observation.versionKey)

/-- Another session that has seen another version of the tool. -/
def sawOtherVersion (sessionId : String) (observation other : ToolVersionObservation Int) : Bool :=
  other.sessionId ≠ sessionId && other.serverKey = observation.serverKey && other.toolName = observation.toolName &&
    other.versionKey ≠ observation.versionKey

def candidateSession (sessionId : String) (all drifted : List (ToolVersionObservation Int)) : Option String :=
  drifted.findSome? fun observation => (all.find? (sawOtherVersion sessionId observation)).map
    ToolVersionObservation.sessionId

def securityRecommendation (sessionId : String) (driftedTools : List String) (candidate : Option String) :
    RouteRecommendation where
  route := "security"
  reason := "tool definition drift detected for: " ++ ", ".intercalate driftedTools
  commands := [
    match candidate with
    | some other => s!"mcptracer diff {sessionId} {other}"
    | none => s!"mcptracer diff {sessionId} <session observing the other tool version>",
    s!"mcptracer assert {sessionId} --spec checks.toml  # kind = \"tools_pinned\""]

def securityRoute (db : Database) (index : DerivedIndex) (sessionId : String) :
    Except StoreError (Option RouteRecommendation) := do
  let observations ← listToolVersionObservations db index (some sessionId)
  if observations = [] then return none
  let allObservations ← listToolVersionObservations db index none
  let drifted := observations.filter (touches index.edges)
  if drifted = [] then return none
  let driftedTools := ((drifted.map ToolVersionObservation.toolName).insertionSort (· ≤ ·)).destutter (· ≠ ·)
  return some (securityRecommendation sessionId driftedTools (candidateSession sessionId allObservations drifted))

/-! ## The edges of an index -/

section Edges
variable {codec : Codec} {sha256Hex : String → String} {db : Database} {index : DerivedIndex}

/-- The edges between versions are always those of the versions in the index. -/
theorem Indexed.settled (indexed : Indexed codec sha256Hex db index) : Settled codec index := by
  induction indexed with
  | empty db => rfl
  | @rebuilt db index session _ ih =>
    rcases rebuildAfter_eq codec sha256Hex db index session with done | ⟨-, unchanged⟩
    · rw [done]
      exact settled_replaceSupersessions _
    · rwa [unchanged]
  | recorded _ _ ih => exact ih

/-- Another version of the observed tool is in the index. -/
def Drifts (index : DerivedIndex) (observation : ToolVersionObservation Int) : Prop :=
  ∃ version ∈ index.toolVersions, version.serverKey = observation.serverKey ∧ version.toolName = observation.toolName ∧
    toolVersionKeyFromRow version ≠ observation.versionKey

/-- The place of a tool in the order of versions. -/
def toolOf (row : ToolVersionRow) : String ×ₗ String := toLex (row.serverKey, row.toolName)

theorem toolOf_le {a b : ToolVersionRow} (le : a.sortKey ≤ b.sortKey) : toolOf a ≤ toolOf b := by
  simp only [ToolVersionRow.sortKey, toolOf, Prod.Lex.toLex_le_toLex] at le ⊢
  rcases le with server | ⟨server, tool | ⟨tool, -⟩⟩
  · exact .inl server
  · exact .inr ⟨server, tool.le⟩
  · exact .inr ⟨server, tool.le⟩

theorem sameTool_iff {a b : ToolVersionRow} :
    sameTool a.toToolVersionRecord b.toToolVersionRecord = true ↔ toolOf a = toolOf b := by
  simp [sameTool, toolOf]

theorem exists_listed {version : ToolVersionRecord} (member : version ∈ index.toolVersions) :
    ∃ row ∈ index.listToolVersions, row.toToolVersionRecord = version :=
  List.mem_map.1 ((perm_listToolVersions index).mem_iff.2 member)

/-- The edges between versions join the neighbours of one tool. -/
theorem mem_edges_iff (settled : Settled codec index) {edge : MemoryEdge} :
    edge ∈ index.edges ∧ edge.edgeType = "version_supersedes" ↔
      ∃ pair ∈ neighbours index.listToolVersions, toolOf pair.1 = toolOf pair.2 ∧
        edge = supersession codec pair.1.toToolVersionRecord pair.2.toToolVersionRecord := by
  have kept : edge ∈ index.edges ∧ edge.edgeType = "version_supersedes" ↔ edge ∈ index.edges.filter isSupersession := by
    simp [isSupersession]
  rw [kept, settled, computeVersionSupersessions_listToolVersions, neighbours_map]
  simp only [List.mem_map, List.mem_filter, ← sameTool_iff]
  constructor
  · rintro ⟨-, ⟨⟨pair, found, rfl⟩, same⟩, rfl⟩
    exact ⟨pair, found, same, rfl⟩
  · rintro ⟨pair, found, same, rfl⟩
    exact ⟨_, ⟨⟨pair, found, rfl⟩, same⟩, rfl⟩

theorem touches_iff_neighbour (settled : Settled codec index) {observation : ToolVersionObservation Int} :
    touches index.edges observation = true ↔ ∃ pair ∈ neighbours index.listToolVersions, toolOf pair.1 = toolOf pair.2 ∧
      (toolVersionKeyFromRow pair.2.toToolVersionRecord = observation.versionKey ∨
        toolVersionKeyFromRow pair.1.toToolVersionRecord = observation.versionKey) := by
  simp only [touches, List.any_eq_true, Bool.and_eq_true, Bool.or_eq_true, decide_eq_true_eq, ← and_assoc]
  constructor
  · rintro ⟨edge, supersedes, touching⟩
    obtain ⟨pair, found, same, rfl⟩ := (mem_edges_iff settled).1 supersedes
    exact ⟨pair, ⟨found, same⟩, touching⟩
  · rintro ⟨pair, ⟨found, same⟩, touching⟩
    exact ⟨_, (mem_edges_iff settled).2 ⟨pair, found, same, rfl⟩, touching⟩

/-- An edge touches an observed version exactly if it is not the only one of its tool. -/
theorem touches_iff (consistent : Consistent db index) (settled : Settled codec index)
    {observation : ToolVersionObservation Int} (member : observation ∈ index.observations) :
    touches index.edges observation = true ↔ Drifts index observation := by
  obtain ⟨version, inside, observes⟩ := consistent.observed observation member
  obtain ⟨row, listed, rfl⟩ := exists_listed inside
  have sorted := pairwise_listToolVersions index
  have tool : toolOf row = toLex (observation.serverKey, observation.toolName) := by
    rw [toolOf, observes.serverKey, observes.toolName]
  rw [touches_iff_neighbour settled]
  constructor
  · rintro ⟨pair, found, same, touching⟩
    obtain ⟨older, newer⟩ := mem_of_mem_neighbours found
    have apart : pair.1 ≠ pair.2 := fun equal => lt_irrefl _ (equal ▸ less_of_mem_neighbours sorted found)
    have drifts {other : ToolVersionRow} (there : other ∈ index.listToolVersions) (sameTool : toolOf other = toolOf row)
        (different : other ≠ row) : Drifts index observation := by
      rw [tool, toolOf, toLex_inj, Prod.mk.injEq] at sameTool
      exact ⟨_, mem_toolVersions there, sameTool.1, sameTool.2, fun key =>
        different (eq_of_versionKey consistent there listed (key.trans observes.versionKey.symm))⟩
    rcases touching with key | key
    · obtain rfl := eq_of_versionKey consistent newer listed (key.trans observes.versionKey.symm)
      exact drifts older same apart
    · obtain rfl := eq_of_versionKey consistent older listed (key.trans observes.versionKey.symm)
      exact drifts newer same.symm apart.symm
  · rintro ⟨other, there, server, name, different⟩
    obtain ⟨another, anotherListed, rfl⟩ := exists_listed there
    have anotherTool : toolOf another = toolOf row := by rw [tool, toolOf, server, name]
    have rowGrouped : row ∈ index.listToolVersions.filter fun element => toolOf element = toolOf row :=
      List.mem_filter.2 ⟨listed, decide_eq_true rfl⟩
    have anotherGrouped : another ∈ index.listToolVersions.filter fun element => toolOf element = toolOf row :=
      List.mem_filter.2 ⟨anotherListed, decide_eq_true anotherTool⟩
    obtain ⟨pair, found, touching⟩ := exists_neighbour rowGrouped anotherGrouped
      fun same => different (same ▸ observes.versionKey)
    rw [← neighbours_filter toolOf (sorted.imp fun less => toolOf_le less.le)] at found
    obtain ⟨standing, both⟩ := List.mem_filter.1 found
    obtain ⟨first, second⟩ := of_decide_eq_true both
    refine ⟨pair, standing, first.trans second.symm, ?_⟩
    rcases touching with here | here
    · exact .inr (here ▸ observes.versionKey)
    · exact .inl (here ▸ observes.versionKey)

end Edges

/-! ## What the route says -/

theorem mem_sorted_names {names : List String} {name : String} :
    name ∈ (names.insertionSort (· ≤ ·)).destutter (· ≠ ·) ↔ name ∈ names := by
  rw [mem_destutter_ne, List.mem_insertionSort]

/-- In a sorted list only neighbours can be equal. -/
theorem pairwise_lt_of_isChain_ne {names : List String} (sorted : names.Pairwise (· ≤ ·))
    (apart : names.IsChain (· ≠ ·)) : names.Pairwise (· < ·) := by
  induction names with
  | nil => exact .nil
  | cons name rest ih =>
    obtain ⟨below, others⟩ := List.pairwise_cons.1 sorted
    have increasing := ih others apart.tail
    refine List.pairwise_cons.2 ⟨fun other member => ?_, increasing⟩
    cases rest with
    | nil => cases member
    | cons next rest =>
      have less : name < next := lt_of_le_of_ne (below next List.mem_cons_self) (List.isChain_cons_cons.1 apart).1
      rcases List.mem_cons.1 member with rfl | later
      · exact less
      · exact less.trans ((List.pairwise_cons.1 increasing).1 other later)

theorem pairwise_sorted_names (names : List String) :
    ((names.insertionSort (· ≤ ·)).destutter (· ≠ ·)).Pairwise (· < ·) :=
  pairwise_lt_of_isChain_ne ((List.pairwise_insertionSort (· ≤ ·) names).sublist (List.destutter_sublist _ _))
    (List.isChain_destutter _ _)

theorem sorted_names_eq_nil {names : List String} :
    (names.insertionSort (· ≤ ·)).destutter (· ≠ ·) = [] ↔ names = [] := by
  rw [List.destutter_eq_nil, ← List.length_eq_zero_iff, List.length_insertionSort, List.length_eq_zero_iff]

section Route
variable {codec : Codec} {sha256Hex : String → String} {db : Database} {index : DerivedIndex}

/-- The observation of another version of a tool by another session. -/
structure Contradicts (observation other : ToolVersionObservation Int) : Prop where
  session : other.sessionId ≠ observation.sessionId
  server : other.serverKey = observation.serverKey
  tool : other.toolName = observation.toolName
  version : other.versionKey ≠ observation.versionKey

/-- What the session has seen of tools that have drifted. -/
def driftedObservations (index : DerivedIndex) (sessionId : String) : List (ToolVersionObservation Int) :=
  (index.observations.filter fun observation => observation.sessionId = sessionId).filter (touches index.edges)

theorem securityRoute_eq {row : SessionRow} (recorded : row ∈ db.sessions) :
    securityRoute db index row.id.text = .ok (
      if driftedObservations index row.id.text = [] then none
      else some (securityRecommendation row.id.text
        ((((driftedObservations index row.id.text).map ToolVersionObservation.toolName).insertionSort
          (· ≤ ·)).destutter (· ≠ ·))
        (candidateSession row.id.text index.observations (driftedObservations index row.id.text)))) := by
  have own : listToolVersionObservations db index (some row.id.text) =
      .ok (index.observations.filter fun observation => observation.sessionId = row.id.text) := by
    simp only [listToolVersionObservations, Database.resolveSessionId_text recorded]
    rfl
  unfold securityRoute
  rw [own]
  simp only [listToolVersionObservations, bind, Except.bind, pure, Except.pure]
  by_cases unobserved : (index.observations.filter fun observation => observation.sessionId = row.id.text) = []
  · simp [driftedObservations, unobserved]
  · simp only [unobserved, if_false, driftedObservations]
    split_ifs with steady
    · exact congrArg Except.ok (if_pos steady).symm
    · exact congrArg Except.ok (if_neg steady).symm

/-- The tools of the session of which another version is in the index, in their order and each once, and a session
that has seen another version of one of them. -/
structure TellsDrift (db : Database) (index : DerivedIndex) (row : SessionRow) (driftedTools : List String)
    (candidate : Option String) : Prop where
  answer : securityRoute db index row.id.text = .ok (if driftedTools = [] then none
    else some (securityRecommendation row.id.text driftedTools candidate))
  ordered : driftedTools.Pairwise (· < ·)
  drifted : ∀ tool, tool ∈ driftedTools ↔ ∃ observation ∈ index.observations,
    observation.sessionId = row.id.text ∧ observation.toolName = tool ∧ Drifts index observation
  compared : ∀ other, candidate = some other → (∃ session ∈ db.sessions, session.id.text = other) ∧
    ∃ seen ∈ index.observations, seen.sessionId = row.id.text ∧
      ∃ found ∈ index.observations, found.sessionId = other ∧ Contradicts seen found
  alone : candidate = none → ∀ seen ∈ index.observations, seen.sessionId = row.id.text →
    ∀ found ∈ index.observations, ¬ Contradicts seen found

/-- The route recommends a comparison exactly if a tool of the session has drifted, and then with a session that has
seen another version, if there is any. -/
theorem security_route_tells_drift (hex : ∀ text, (sha256Hex text).length = 64)
    (indexed : Indexed codec sha256Hex db index) {row : SessionRow} (recorded : row ∈ db.sessions) :
    ∃ driftedTools candidate, TellsDrift db index row driftedTools candidate := by
  have consistent := indexed.consistent hex
  have drifted {observation : ToolVersionObservation Int} : observation ∈ driftedObservations index row.id.text ↔
      observation ∈ index.observations ∧ observation.sessionId = row.id.text ∧ Drifts index observation := by
    simp only [driftedObservations, List.mem_filter, decide_eq_true_eq, and_assoc]
    refine and_congr_right fun member => and_congr_right fun _ => touches_iff consistent indexed.settled member
  have contradicts {seen found : ToolVersionObservation Int} (own : seen.sessionId = row.id.text) :
      sawOtherVersion row.id.text seen found = true ↔ Contradicts seen found := by
    simp only [sawOtherVersion, Bool.and_eq_true, decide_eq_true_eq]
    constructor
    · rintro ⟨⟨⟨session, server⟩, tool⟩, version⟩
      exact ⟨own ▸ session, server, tool, version⟩
    · rintro ⟨session, server, tool, version⟩
      exact ⟨⟨⟨own ▸ session, server⟩, tool⟩, version⟩
  have ordered := pairwise_sorted_names ((driftedObservations index row.id.text).map ToolVersionObservation.toolName)
  refine ⟨_, candidateSession row.id.text index.observations (driftedObservations index row.id.text), ?_, ordered,
    fun tool => ?_, fun other candidate => ?_, fun candidate => ?_⟩
  · rw [securityRoute_eq recorded]
    simp only [sorted_names_eq_nil, List.map_eq_nil_iff]
  · rw [mem_sorted_names, List.mem_map]
    constructor
    · rintro ⟨observation, member, rfl⟩
      obtain ⟨there, own, drifts⟩ := drifted.1 member
      exact ⟨observation, there, own, rfl, drifts⟩
    · rintro ⟨observation, there, own, rfl, drifts⟩
      exact ⟨observation, drifted.2 ⟨there, own, drifts⟩, rfl⟩
  · obtain ⟨seen, member, chosen⟩ := List.exists_of_findSome?_eq_some candidate
    obtain ⟨found, finds, rfl⟩ := Option.map_eq_some_iff.1 chosen
    obtain ⟨there, own, -⟩ := drifted.1 member
    have inside := List.mem_of_find?_eq_some finds
    exact ⟨consistent.recorded found inside, seen, there, own, found, inside, rfl,
      (contradicts own).1 (List.find?_some finds)⟩
  · intro seen there own found inside differs
    -- Who contradicts an observation has a version in the index, so that the tool has drifted.
    obtain ⟨version, listed, observes⟩ := consistent.observed found inside
    have drifts : Drifts index seen := ⟨version, listed, observes.serverKey.trans differs.server,
      observes.toolName.trans differs.tool, fun key => differs.version (observes.versionKey.symm.trans key)⟩
    have nothing := List.findSome?_eq_none_iff.1 candidate seen (drifted.2 ⟨there, own, drifts⟩)
    have unseen := List.find?_eq_none.1 (Option.map_eq_none_iff.1 nothing) found inside
    exact unseen ((contradicts own).2 differs)

end Route

/-! ## A description that has changed -/

def describedListing (id : Uuid) (description : String) : List MessageRow :=
  ([McpMessage.mk 0 0 .clientToServer
      (.object [("id", .number (.posInt 1)), ("jsonrpc", .string "2.0"), ("method", .string "tools/list")]) 46,
    McpMessage.mk 1 5 .serverToClient
      (.object [("id", .number (.posInt 1)), ("jsonrpc", .string "2.0"), ("result", .object [("tools", .array [
        .object [("description", .string description), ("name", .string "search")]])])]) 90].map
    (StoredMessage.ofMessage Compact.codec)).map fun message =>
      MessageRow.ofStored id message.seq message.payloadBytes message

def describedTwice : Database where
  sessions := [importedServer firstImport, importedServer secondImport]
  messages := describedListing firstImport "" ++ describedListing secondImport "Searches the web"
  uniqueIds := importedTwice.uniqueIds
  uniqueKeys := by decide +kernel
  owned := by decide +kernel

def describedIndex : DerivedIndex := rebuildAfter Compact.codec importDigest describedTwice .empty none

theorem security_route_describedIndex : importedServer firstImport ∈ describedTwice.sessions ∧
    ∃ driftedTools candidate, TellsDrift describedTwice describedIndex (importedServer firstImport) driftedTools
      candidate :=
  ⟨List.mem_cons_self, security_route_tells_drift importDigest_length (.rebuilt none (.empty describedTwice))
    List.mem_cons_self⟩

example : securityRoute describedTwice describedIndex firstImport.text = .ok (some (securityRecommendation
    firstImport.text ["search"] (some secondImport.text))) := by decide +kernel

end McpTracer.Proxy
