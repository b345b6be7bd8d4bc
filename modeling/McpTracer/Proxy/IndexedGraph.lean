import McpTracer.Proxy.IndexConfluence
import McpTracer.Storage.GraphExport

/-! The graph of an index that was built by rebuilds.

The sessions may go on being recorded between one rebuild and the next. What an observation says was seen
is in the index with it, so an edge can only miss the node of its session.
-/

set_option autoImplicit false

namespace McpTracer.Proxy
open McpTracer.Foundation McpTracer.Json McpTracer.Model McpTracer.Storage McpTracer.Storage.DerivedIndex McpTracer.Intel

/-! ## Indexes that come about -/

/-- Rebuilds in any order, while more is recorded. -/
inductive Indexed (codec : Codec) (sha256Hex : String → String) : Database → DerivedIndex → Prop where
  | empty (db : Database) : Indexed codec sha256Hex db .empty
  | rebuilt {db : Database} {index : DerivedIndex} (session : Option String) :
      Indexed codec sha256Hex db index → Indexed codec sha256Hex db (rebuildAfter codec sha256Hex db index session)
  | recorded {db later : Database} {index : DerivedIndex} :
      db.sessions.map SessionRow.id ⊆ later.sessions.map SessionRow.id → Indexed codec sha256Hex db index →
        Indexed codec sha256Hex later index

/-- The version is the one observed, and was last seen then or later. -/
structure Observes (observation : ToolVersionObservation Int) (version : ToolVersionRecord) : Prop where
  serverKey : version.serverKey = observation.serverKey
  toolName : version.toolName = observation.toolName
  versionKey : toolVersionKeyFromRow version = observation.versionKey
  seen : observation.observedAtNs ≤ version.lastSeenAtNs

structure Consistent (db : Database) (index : DerivedIndex) : Prop where
  hashed : ∀ version ∈ index.toolVersions, Hashed version.identity
  observed : ∀ observation ∈ index.observations, ∃ version ∈ index.toolVersions, Observes observation version
  recorded : ∀ observation ∈ index.observations, ∃ row ∈ db.sessions, row.id.text = observation.sessionId

theorem Observes.of_above {observation : ToolVersionObservation Int} {version after : ToolVersionRecord}
    (observes : Observes observation version) (same : after.identity = version.identity)
    (later : version.lastSeenAtNs ≤ after.lastSeenAtNs) : Observes observation after := by
  simp only [ToolVersionRecord.identity, Prod.mk.injEq] at same
  exact {
    serverKey := same.1.trans observes.serverKey
    toolName := same.2.1.trans observes.toolName
    versionKey := by
      rw [← observes.versionKey, toolVersionKeyFromRow, toolVersionKeyFromRow, same.1, same.2.1, same.2.2.1, same.2.2.2.1,
        same.2.2.2.2]
    seen := observes.seen.trans later }

section Rebuild
variable {codec : Codec} {sha256Hex : String → String} {db : Database} {index : DerivedIndex}

/-- A version that is in the index or listed is in the index after the visit. -/
theorem exists_version_visit (index : DerivedIndex) (row : SessionRow) {version : ToolVersionRecord}
    (member : version ∈ index.toolVersions ∨ version ∈ versionsOf codec sha256Hex db row) :
    ∃ after ∈ (visit codec sha256Hex db index row).toolVersions, after.identity = version.identity ∧
      version.lastSeenAtNs ≤ after.lastSeenAtNs :=
  @exists_above_of_mem _ _ _ _ _ ToolVersionRecord.identity_merge (fun first second => first.lastSeenAtNs ≤ second.lastSeenAtNs)
    (fun _ => le_rfl) (fun first second => le_trans first second) (fun _ _ => le_max_left _ _)
    (fun _ _ => le_max_right _ _) _ _ version member

theorem exists_listed_of_mem_observations {row : SessionRow} {observation : ToolVersionObservation Int}
    (member : observation ∈ (extraction codec sha256Hex db row).toolVersionObservations.map ToolVersionObservation.toRow) :
    ∃ version ∈ versionsOf codec sha256Hex db row, Observes observation version := by
  obtain ⟨record, inside, rfl⟩ := List.mem_map.1 member
  obtain ⟨tool, listed, rfl⟩ := List.mem_map.1 inside
  exact ⟨_, List.mem_map_of_mem listed, rfl, rfl, rfl, le_rfl⟩

theorem Consistent.visit (hex : ∀ text, (sha256Hex text).length = 64) (consistent : Consistent db index) {row : SessionRow}
    (listed : row ∈ db.sessions) : Consistent db (visit codec sha256Hex db index row) where
  hashed := by
    intro version member
    have known : version.identity ∈ (Proxy.visit codec sha256Hex db index row).toolVersions.map ToolVersionRecord.identity :=
      List.mem_map_of_mem member
    rcases (mem_map_key_upsertAll ToolVersionRecord.identity_merge).1 known with old | new
    · obtain ⟨before, found, same⟩ := List.mem_map.1 old
      exact same ▸ consistent.hashed before found
    · obtain ⟨item, found, same⟩ := List.mem_map.1 new
      exact same ▸ hashed_of_mem_versionsOf hex found
  observed := by
    intro observation member
    rw [observations_visit] at member
    have before : ∃ version, (version ∈ index.toolVersions ∨ version ∈ versionsOf codec sha256Hex db row) ∧
        Observes observation version := by
      rcases List.mem_append.1 member with old | new
      · obtain ⟨version, found, observes⟩ := consistent.observed observation (List.mem_of_mem_filter old)
        exact ⟨version, .inl found, observes⟩
      · obtain ⟨version, found, observes⟩ := exists_listed_of_mem_observations new
        exact ⟨version, .inr found, observes⟩
    obtain ⟨version, found, observes⟩ := before
    obtain ⟨after, inside, same, later⟩ := exists_version_visit index row found
    exact ⟨after, inside, observes.of_above same later⟩
  recorded := by
    intro observation member
    rw [observations_visit] at member
    rcases List.mem_append.1 member with old | new
    · exact consistent.recorded observation (List.mem_of_mem_filter old)
    · exact ⟨row, listed, (mem_observations new).symm⟩

theorem Consistent.visits (hex : ∀ text, (sha256Hex text).length = 64) (consistent : Consistent db index)
    {rows : List SessionRow} (listed : ∀ row ∈ rows, row ∈ db.sessions) :
    Consistent db (rows.foldl (Proxy.visit codec sha256Hex db) index) := by
  induction rows generalizing index with
  | nil => exact consistent
  | cons row rest ih =>
    obtain ⟨here, others⟩ := List.forall_mem_cons.1 listed
    exact ih (consistent.visit hex here) others

theorem Consistent.rebuildAfter (hex : ∀ text, (sha256Hex text).length = 64) (consistent : Consistent db index)
    (session : Option String) : Consistent db (rebuildAfter codec sha256Hex db index session) := by
  rcases rebuildAfter_eq codec sha256Hex db index session with done | ⟨-, unchanged⟩
  · rw [done]
    have visited := @Consistent.visits codec sha256Hex db index hex consistent (selected db session)
      fun row member => selected_listed db member
    exact ⟨visited.hashed, visited.observed, visited.recorded⟩
  · rwa [unchanged]

/-- Every index that comes about is consistent with what is recorded. -/
theorem Indexed.consistent (hex : ∀ text, (sha256Hex text).length = 64) (indexed : Indexed codec sha256Hex db index) :
    Consistent db index := by
  induction indexed with
  | empty db => exact ⟨by simp [DerivedIndex.empty], by simp [DerivedIndex.empty], by simp [DerivedIndex.empty]⟩
  | rebuilt session _ ih => exact ih.rebuildAfter hex session
  | recorded more _ ih =>
    refine ⟨ih.hashed, ih.observed, fun observation member => ?_⟩
    obtain ⟨row, listed, same⟩ := ih.recorded observation member
    obtain ⟨other, found, sameId⟩ := List.mem_map.1 (more (List.mem_map_of_mem listed))
    exact ⟨other, found, by rw [sameId, same]⟩

end Rebuild

/-! ## What is exported -/

section Export
variable {db : Database} {index : DerivedIndex} (consistent : Consistent db index) (filter : GraphFilter)

/-- The session nodes that a list of sessions gives. -/
def sessionNodes (filter : GraphFilter) (rows : List SessionRow) : List GraphNode :=
  (rows.map fun row =>
    if !filter.isScoped && !filter.recent row.startedAtNs then none else some (sessionNode row)).reduceOption

theorem mapM_exportSession {rows : List SessionRow} (listed : ∀ row ∈ rows, row ∈ db.sessions) :
    (rows.map fun row => row.id.text).mapM (exportSession db filter) = .ok (rows.map fun row =>
      if !filter.isScoped && !filter.recent row.startedAtNs then none else some (sessionNode row)) := by
  induction rows with
  | nil => rfl
  | cons row rest ih =>
    obtain ⟨here, others⟩ := List.forall_mem_cons.1 listed
    have first : exportSession db filter row.id.text =
        .ok (if !filter.isScoped && !filter.recent row.startedAtNs then none else some (sessionNode row)) := by
      rw [exportSession, Database.getSessionSummary, Database.resolveSessionId_text here]
      rfl
    rw [List.map_cons, List.mapM_cons, first, ih others]
    rfl

theorem mem_sessionNodes {rows : List SessionRow} {node : GraphNode} :
    node ∈ sessionNodes filter rows ↔
      ∃ row ∈ rows, (filter.isScoped = false → filter.recent row.startedAtNs = true) ∧ node = sessionNode row := by
  simp only [sessionNodes, List.reduceOption_mem_iff, List.mem_map]
  constructor
  · rintro ⟨row, member, same⟩
    split_ifs at same with late
    refine ⟨row, member, fun unscoped => ?_, (Option.some.inj same).symm⟩
    simpa [unscoped] using late
  · rintro ⟨row, member, timely, rfl⟩
    refine ⟨row, member, if_neg fun late => ?_⟩
    simp only [Bool.and_eq_true, Bool.not_eq_true'] at late
    rw [timely late.1] at late
    cases late.2

/-- The ids of what the members of a list come from. -/
theorem exists_rows {ids : List String} (known : ∀ id ∈ ids, ∃ row ∈ db.sessions, row.id.text = id) :
    ∃ rows : List SessionRow, rows.map (fun row => row.id.text) = ids ∧ ∀ row ∈ rows, row ∈ db.sessions := by
  induction ids with
  | nil => exact ⟨[], rfl, by simp⟩
  | cons id rest ih =>
    obtain ⟨here, others⟩ := List.forall_mem_cons.1 known
    obtain ⟨row, listed, same⟩ := here
    obtain ⟨rows, ids, allListed⟩ := ih others
    exact ⟨row :: rows, by rw [List.map_cons, ids, same], List.forall_mem_cons.2 ⟨listed, allListed⟩⟩

theorem nodup_allSessionIds (db : Database) : db.allSessionIds.Nodup := by
  have perm : db.allSessionIds.Perm (db.sessions.map fun row => row.id.text) := (List.perm_insertionSort _ _).map _
  rw [perm.nodup_iff]
  have texts : db.sessions.map (fun row => row.id.text) = (db.sessions.map SessionRow.id).map Uuid.text := by simp
  rw [texts]
  refine db.uniqueIds.map fun a b same => ?_
  cases a
  cases b
  simpa using same

def exportedEdges (index : DerivedIndex) (filter : GraphFilter) : List GraphEdge :=
  let includedVersionIds := (includedVersions index filter).map fun version => versionNodeId version.toToolVersionRecord
  (includedVersions index filter).map hasVersionEdge ++
    (retainedObservations index filter).filterMap (callsEdge (versionIdByKey index) includedVersionIds) ++
    index.edges.filterMap (supersedesEdge filter includedVersionIds)

include consistent

/-- The export succeeds, and the sessions in it are those that are recorded or, with a tool or a server, observed it. -/
theorem exportGraph_eq : ∃ rows : List SessionRow, (∀ row ∈ rows, row ∈ db.sessions) ∧
    (rows.map fun row => row.id.text).Nodup ∧
    (∀ row ∈ db.sessions, row ∈ rows ↔
      (filter.isScoped = true → ∃ observation ∈ retainedObservations index filter, observation.sessionId = row.id.text)) ∧
    exportGraph db index filter = .ok {
      nodes := sessionNodes filter rows ++ versionNodes [] (includedVersions index filter)
      edges := exportedEdges index filter } := by
  have done : ∀ rows : List SessionRow, (∀ row ∈ rows, row ∈ db.sessions) →
      (rows.map fun row => row.id.text) =
        (if filter.isScoped then observingSessions (retainedObservations index filter) else db.allSessionIds) →
      exportGraph db index filter = .ok {
        nodes := sessionNodes filter rows ++ versionNodes [] (includedVersions index filter)
        edges := exportedEdges index filter } := by
    intro rows listed ids
    rw [exportGraph]
    dsimp only
    rw [← ids, mapM_exportSession filter listed]
    rfl
  cases narrow : filter.isScoped with
  | false =>
    rw [narrow] at done
    refine ⟨db.sessions.insertionSort fun a b => a.sessionOrder ≤ b.sessionOrder, fun row member =>
      (List.mem_insertionSort _).1 member, nodup_allSessionIds db, fun row listed => ?_, done _ (fun row member =>
        (List.mem_insertionSort _).1 member) rfl⟩
    simp [listed]
  | true =>
    rw [narrow] at done
    have ids : ∀ id, id ∈ observingSessions (retainedObservations index filter) ↔
        ∃ observation ∈ retainedObservations index filter, observation.sessionId = id := by
      intro id
      rw [observingSessions, List.mem_insertionSort, List.mem_dedup, List.mem_map]
    obtain ⟨rows, same, listed⟩ := @exists_rows db (observingSessions (retainedObservations index filter)) fun id member => by
      obtain ⟨observation, found, rfl⟩ := (ids id).1 member
      exact consistent.recorded observation (List.mem_of_mem_filter found)
    refine ⟨rows, listed, ?_, fun row member => ?_, done rows listed same⟩
    · rw [same, observingSessions, (List.perm_insertionSort _ _).nodup_iff]
      exact List.nodup_dedup _
    · simp only [forall_const, ← ids, ← same, List.mem_map]
      constructor
      · exact fun inside => ⟨row, inside, rfl⟩
      · rintro ⟨other, inside, text⟩
        exact Database.eq_of_id_text (listed other inside) member text ▸ inside

/-! ## Versions in the graph -/

/-- The key of a version names one row. -/
theorem eq_of_versionKey {a b : ToolVersionRow} (left : a ∈ index.listToolVersions) (right : b ∈ index.listToolVersions)
    (same : toolVersionKeyFromRow a.toToolVersionRecord = toolVersionKeyFromRow b.toToolVersionRecord) : a = b := by
  have identical := identity_of_toolVersionKeyFromRow (consistent.hashed _ (mem_toolVersions left))
    (consistent.hashed _ (mem_toolVersions right)) same
  have identities : (index.listToolVersions.map fun row => row.identity).Nodup := by
    have perm := (DerivedIndex.perm_listToolVersions index).map ToolVersionRecord.identity
    rw [List.map_map] at perm
    exact perm.nodup_iff.2 index.uniqueVersions
  exact List.inj_on_of_nodup_map identities left right identical

theorem versionIdByKey_eq_some_iff {key id : String} : versionIdByKey index key = some id ↔
    ∃ version ∈ index.listToolVersions, toolVersionKeyFromRow version.toToolVersionRecord = key ∧
      versionNodeId version.toToolVersionRecord = id := by
  have unique : ((index.listToolVersions.map fun version =>
      (toolVersionKeyFromRow version.toToolVersionRecord, versionNodeId version.toToolVersionRecord)).map Prod.fst).Nodup := by
    rw [List.map_map]
    refine List.Nodup.map_on (fun a left b right same => eq_of_versionKey consistent left right same) ?_
    exact (pairwise_listToolVersions index).imp fun less same => by
      rw [same] at less
      exact lt_irrefl _ less
  rw [versionIdByKey, Table.ofList_eq_some_iff unique, List.mem_map]
  simp only [Prod.mk.injEq]

theorem mem_includedVersions {version : ToolVersionRow} : version ∈ includedVersions index filter ↔
    version ∈ index.listToolVersions ∧ filter.recent version.lastSeenAtNs = true ∧
      (filter.isScoped = true → ∃ observation ∈ retainedObservations index filter,
        observation.versionKey = toolVersionKeyFromRow version.toToolVersionRecord) := by
  have touched : versionNodeId version.toToolVersionRecord ∈ (retainedObservations index filter).filterMap (fun observation =>
      versionIdByKey index observation.versionKey) → version ∈ index.listToolVersions →
      ∃ observation ∈ retainedObservations index filter,
        observation.versionKey = toolVersionKeyFromRow version.toToolVersionRecord := by
    intro member listed
    obtain ⟨observation, retained, found⟩ := List.mem_filterMap.1 member
    obtain ⟨other, otherListed, key, id⟩ := (versionIdByKey_eq_some_iff consistent).1 found
    exact ⟨observation, retained, key.symm.trans (versionNodeIdOfKey_injective id)⟩
  have touching : ∀ observation ∈ retainedObservations index filter, version ∈ index.listToolVersions →
      observation.versionKey = toolVersionKeyFromRow version.toToolVersionRecord →
      versionNodeId version.toToolVersionRecord ∈ (retainedObservations index filter).filterMap fun observation =>
        versionIdByKey index observation.versionKey := fun observation retained listed key =>
    List.mem_filterMap.2 ⟨observation, retained, (versionIdByKey_eq_some_iff consistent).2 ⟨version, listed, key.symm, rfl⟩⟩
  rw [includedVersions, List.mem_filter]
  cases narrow : filter.isScoped with
  | false => simp
  | true =>
    simp only [Bool.true_and, Bool.not_not, Bool.and_eq_true, List.contains_eq_mem, decide_eq_true_eq, forall_const]
    constructor
    · exact fun both => ⟨both.1, both.2.2, touched both.2.1 both.1⟩
    · rintro ⟨listed, recent, observation, retained, key⟩
      exact ⟨listed, touching observation retained listed key, recent⟩

/-- The version of a node is one that is asked for. -/
theorem inScope_of_included {version : ToolVersionRow} (member : version ∈ includedVersions index filter) :
    filter.inScope version.serverKey version.toolName = true := by
  obtain ⟨listed, _, touched⟩ := (mem_includedVersions consistent filter).1 member
  cases narrow : filter.isScoped with
  | false =>
    obtain ⟨tool, server⟩ : filter.tool = none ∧ filter.serverKey = none := by
      simpa [GraphFilter.isScoped] using narrow
    simp [GraphFilter.inScope, tool, server]
  | true =>
    obtain ⟨observation, retained, key⟩ := touched narrow
    obtain ⟨inside, keeps⟩ := List.mem_filter.1 retained
    obtain ⟨seen, found, observes⟩ := consistent.observed observation inside
    have same := identity_of_toolVersionKeyFromRow (consistent.hashed _ found) (consistent.hashed _ (mem_toolVersions listed))
      (observes.versionKey.trans key)
    simp only [ToolVersionRecord.identity, Prod.mk.injEq] at same
    rw [← same.1, ← same.2.1, observes.serverKey, observes.toolName]
    exact (Bool.and_eq_true_iff.1 keeps).1

theorem mem_callsEdges {edge : GraphEdge} : edge ∈ (retainedObservations index filter).filterMap
    (callsEdge (versionIdByKey index) ((includedVersions index filter).map fun version =>
      versionNodeId version.toToolVersionRecord)) ↔
    ∃ observation ∈ retainedObservations index filter, ∃ version ∈ includedVersions index filter,
      toolVersionKeyFromRow version.toToolVersionRecord = observation.versionKey ∧
        edge = .calls (sessionNodeId observation.sessionId) (versionNodeId version.toToolVersionRecord)
          observation.observedAtNs := by
  rw [List.mem_filterMap]
  constructor
  · rintro ⟨observation, retained, found⟩
    rw [callsEdge] at found
    cases known : versionIdByKey index observation.versionKey with
    | none => simp [known] at found
    | some id =>
      obtain ⟨version, listed, key, same⟩ := (versionIdByKey_eq_some_iff consistent).1 known
      simp only [known] at found
      split_ifs at found with within
      obtain ⟨other, inside, equal⟩ := List.mem_map.1 within
      have included : version ∈ includedVersions index filter := by
        have identical := eq_of_versionKey consistent ((mem_includedVersions consistent filter).1 inside).1 listed
          (versionNodeIdOfKey_injective (equal.trans same.symm))
        exact identical ▸ inside
      exact ⟨observation, retained, version, included, key, by rw [same]; exact (Option.some.inj found).symm⟩
  · rintro ⟨observation, retained, version, included, key, rfl⟩
    have known : versionIdByKey index observation.versionKey = some (versionNodeId version.toToolVersionRecord) :=
      (versionIdByKey_eq_some_iff consistent).2 ⟨version, ((mem_includedVersions consistent filter).1 included).1, key, rfl⟩
    exact ⟨observation, retained, by simp only [callsEdge, known]; exact if_pos (List.mem_map_of_mem included)⟩

omit consistent in
theorem mem_supersedesEdges {includedVersionIds : List String} {edge : GraphEdge} :
    edge ∈ index.edges.filterMap (supersedesEdge filter includedVersionIds) ↔
      ∃ derived ∈ index.edges, derived.edgeType = "version_supersedes" ∧ filter.recent derived.observedAtNs = true ∧
        versionNodeIdOfKey derived.fromKey ∈ includedVersionIds ∧ versionNodeIdOfKey derived.toKey ∈ includedVersionIds ∧
          edge = .supersedes (versionNodeIdOfKey derived.fromKey) (versionNodeIdOfKey derived.toKey) := by
  rw [List.mem_filterMap]
  refine exists_congr fun derived => and_congr_right fun _ => ?_
  by_cases kind : derived.edgeType = "version_supersedes"
  · cases recent : filter.recent derived.observedAtNs with
    | false => simp [supersedesEdge, kind, recent]
    | true =>
      by_cases both : versionNodeIdOfKey derived.fromKey ∈ includedVersionIds ∧
          versionNodeIdOfKey derived.toKey ∈ includedVersionIds
      · simp [supersedesEdge, kind, recent, both, eq_comm]
      · have missing : versionNodeIdOfKey derived.fromKey ∉ includedVersionIds ∨
            versionNodeIdOfKey derived.toKey ∉ includedVersionIds := not_and_or.1 both
        simp only [supersedesEdge, kind, recent, missing, ne_eq, not_true_eq_false, if_false, if_true, Bool.not_true,
          Bool.false_eq_true, reduceCtorEq, false_iff]
        exact fun found => both ⟨found.2.2.1, found.2.2.2.1⟩
  · simp [supersedesEdge, kind]

end Export

/-! ## The contract of the export -/

def GraphClosed (graph : Graph) : Prop := ∀ edge ∈ graph.edges, edge.source ∈ graph.ids ∧ edge.target ∈ graph.ids

/-- What passes the filter by its own timestamp is there if both its ends are. -/
structure GraphComplete (index : DerivedIndex) (filter : GraphFilter) (graph : Graph) : Prop where
  hasVersion : ∀ version ∈ index.toolVersions, filter.recent version.lastSeenAtNs = true →
    toolNodeId version ∈ graph.ids → versionNodeId version ∈ graph.ids →
      .hasVersion (toolNodeId version) (versionNodeId version) ∈ graph.edges
  calls : ∀ observation ∈ index.observations, filter.recent observation.observedAtNs = true →
    sessionNodeId observation.sessionId ∈ graph.ids → versionNodeIdOfKey observation.versionKey ∈ graph.ids →
      .calls (sessionNodeId observation.sessionId) (versionNodeIdOfKey observation.versionKey) observation.observedAtNs ∈
        graph.edges
  supersedes : ∀ edge ∈ index.edges, edge.edgeType = "version_supersedes" → filter.recent edge.observedAtNs = true →
    versionNodeIdOfKey edge.fromKey ∈ graph.ids → versionNodeIdOfKey edge.toKey ∈ graph.ids →
      .supersedes (versionNodeIdOfKey edge.fromKey) (versionNodeIdOfKey edge.toKey) ∈ graph.edges

/-- Nothing is there that is of another tool or server than the filter's. -/
structure GraphInScope (db : Database) (index : DerivedIndex) (filter : GraphFilter) (graph : Graph) : Prop where
  nodes : ∀ node ∈ graph.nodes,
    (∃ version ∈ index.toolVersions, filter.inScope version.serverKey version.toolName = true ∧
      (node = toolNode version ∨ node = versionNode version)) ∨
    ∃ row ∈ db.sessions, node = sessionNode row ∧ (filter.isScoped = true → ∃ observation ∈ index.observations,
      observation.sessionId = row.id.text ∧ filter.inScope observation.serverKey observation.toolName = true)
  edges : ∀ edge ∈ graph.edges, ∃ version ∈ index.toolVersions,
    filter.inScope version.serverKey version.toolName = true ∧ edge.target = versionNodeId version ∧
      (edge.source = toolNodeId version ∨
        (∃ newer ∈ index.toolVersions, filter.inScope newer.serverKey newer.toolName = true ∧
          edge.source = versionNodeId newer) ∨
        ∃ observation ∈ index.observations, filter.inScope observation.serverKey observation.toolName = true ∧
          edge.source = sessionNodeId observation.sessionId)

/-- Unless a tool or a server is given, no session began before the time from which on it was observed to list a tool. -/
def SessionsTimely (db : Database) (index : DerivedIndex) (filter : GraphFilter) : Prop :=
  filter.isScoped = false → ∀ observation ∈ index.observations, filter.recent observation.observedAtNs = true →
    ∀ row ∈ db.sessions, row.id.text = observation.sessionId → filter.recent row.startedAtNs = true

section Contract
variable {db : Database} {index : DerivedIndex} (consistent : Consistent db index) (filter : GraphFilter)
  {rows : List SessionRow}

def exportedGraph (index : DerivedIndex) (filter : GraphFilter) (rows : List SessionRow) : Graph where
  nodes := sessionNodes filter rows ++ versionNodes [] (includedVersions index filter)
  edges := exportedEdges index filter

theorem mem_ids {id : String} : id ∈ (exportedGraph index filter rows).ids ↔
    (∃ node ∈ sessionNodes filter rows, node.id = id) ∨ ∃ node ∈ versionNodes [] (includedVersions index filter), node.id = id := by
  simp only [Graph.ids, exportedGraph, List.map_append, List.mem_append, List.mem_map]

theorem sessionNodeId_mem_ids {id : String} : sessionNodeId id ∈ (exportedGraph index filter rows).ids ↔
    ∃ row ∈ rows, (filter.isScoped = false → filter.recent row.startedAtNs = true) ∧ row.id.text = id := by
  rw [mem_ids]
  constructor
  · rintro (⟨node, member, same⟩ | ⟨node, member, same⟩)
    · obtain ⟨row, inside, timely, rfl⟩ := (mem_sessionNodes filter).1 member
      exact ⟨row, inside, timely, sessionNodeId_injective same⟩
    · obtain ⟨version, _, rfl | ⟨rfl, -⟩⟩ := mem_versionNodes member
      · exact absurd same.symm (sessionNodeId_ne_versionNodeIdOfKey _ _)
      · exact absurd same.symm (sessionNodeId_ne_toolNodeId _ _)
  · rintro ⟨row, inside, timely, rfl⟩
    exact .inl ⟨sessionNode row, (mem_sessionNodes filter).2 ⟨row, inside, timely, rfl⟩, rfl⟩

theorem versionNodeIdOfKey_mem_ids {key : String} : versionNodeIdOfKey key ∈ (exportedGraph index filter rows).ids ↔
    ∃ version ∈ includedVersions index filter, toolVersionKeyFromRow version.toToolVersionRecord = key := by
  rw [mem_ids]
  constructor
  · rintro (⟨node, member, same⟩ | ⟨node, member, same⟩)
    · obtain ⟨row, _, _, rfl⟩ := (mem_sessionNodes filter).1 member
      exact absurd same (sessionNodeId_ne_versionNodeIdOfKey _ _)
    · obtain ⟨version, inside, rfl | ⟨rfl, -⟩⟩ := mem_versionNodes member
      · exact ⟨version, inside, versionNodeIdOfKey_injective same⟩
      · exact absurd same (toolNodeId_ne_versionNodeIdOfKey _ _)
  · rintro ⟨version, inside, rfl⟩
    exact .inr ⟨_, versionNode_mem inside, rfl⟩

theorem toolNodeId_mem_ids {version : ToolVersionRow} (member : version ∈ includedVersions index filter) :
    toolNodeId version.toToolVersionRecord ∈ (exportedGraph index filter rows).ids := by
  have found := (toolNodeId_mem member).resolve_left (List.not_mem_nil : _ ∉ [])
  rw [Graph.ids, exportedGraph, List.map_append]
  exact List.mem_append_right _ found

include consistent

theorem nodup_ids (unique : (rows.map fun row => row.id.text).Nodup) : (exportedGraph index filter rows).ids.Nodup := by
  rw [Graph.ids, exportedGraph, List.map_append]
  refine List.Nodup.append ?_ (nodup_versionNodes [] ?_) fun id left right => ?_
  · have ids : (sessionNodes filter rows).map GraphNode.id = ((rows.filter fun row =>
        !(!filter.isScoped && !filter.recent row.startedAtNs)).map fun row => row.id.text).map sessionNodeId := by
      induction rows with
      | nil => rfl
      | cons row rest ih =>
        have further := ih (List.nodup_cons.1 unique).2
        rw [sessionNodes] at further ⊢
        rw [List.map_cons, List.filter_cons]
        split_ifs with late kept
        · rw [late] at kept
          cases kept
        · rw [List.reduceOption_cons_of_none, further]
        · rw [List.reduceOption_cons_of_some, List.map_cons, further]
          rfl
        · simp [late] at *
    rw [ids]
    exact ((unique.sublist (List.filter_sublist.map _)).map fun _ _ => sessionNodeId_injective)
  · refine List.Nodup.map_on (fun a left b right same => ?_) ?_
    · exact eq_of_versionKey consistent ((mem_includedVersions consistent filter).1 left).1
        ((mem_includedVersions consistent filter).1 right).1 (versionNodeIdOfKey_injective same)
    · refine List.Nodup.filter _ ((pairwise_listToolVersions index).imp fun less same => ?_)
      rw [same] at less
      exact lt_irrefl _ less
  · obtain ⟨node, member, rfl⟩ := List.mem_map.1 left
    obtain ⟨other, found, same⟩ := List.mem_map.1 right
    obtain ⟨row, _, _, rfl⟩ := (mem_sessionNodes filter).1 member
    obtain ⟨version, _, rfl | ⟨rfl, -⟩⟩ := mem_versionNodes found
    · exact sessionNodeId_ne_versionNodeIdOfKey _ _ same.symm
    · exact sessionNodeId_ne_toolNodeId _ _ same.symm

theorem mem_edges {edge : GraphEdge} : edge ∈ (exportedGraph index filter rows).edges ↔
    (∃ version ∈ includedVersions index filter, edge = hasVersionEdge version) ∨
    (∃ observation ∈ retainedObservations index filter, ∃ version ∈ includedVersions index filter,
      toolVersionKeyFromRow version.toToolVersionRecord = observation.versionKey ∧
        edge = .calls (sessionNodeId observation.sessionId) (versionNodeId version.toToolVersionRecord)
          observation.observedAtNs) ∨
    ∃ derived ∈ index.edges, derived.edgeType = "version_supersedes" ∧ filter.recent derived.observedAtNs = true ∧
      (∃ newer ∈ includedVersions index filter, toolVersionKeyFromRow newer.toToolVersionRecord = derived.fromKey) ∧
      (∃ older ∈ includedVersions index filter, toolVersionKeyFromRow older.toToolVersionRecord = derived.toKey) ∧
        edge = .supersedes (versionNodeIdOfKey derived.fromKey) (versionNodeIdOfKey derived.toKey) := by
  have included : ∀ key, versionNodeIdOfKey key ∈ (includedVersions index filter).map (fun version =>
      versionNodeId version.toToolVersionRecord) ↔
      ∃ version ∈ includedVersions index filter, toolVersionKeyFromRow version.toToolVersionRecord = key := by
    intro key
    rw [List.mem_map]
    refine exists_congr fun version => and_congr_right fun _ => ⟨versionNodeIdOfKey_injective, fun same => ?_⟩
    rw [versionNodeId, same]
  rw [exportedGraph, exportedEdges, List.mem_append, List.mem_append, mem_callsEdges consistent filter, mem_supersedesEdges,
    or_assoc]
  simp only [included]
  refine or_congr_left ?_
  rw [List.mem_map]
  exact exists_congr fun version => and_congr_right fun _ => eq_comm

theorem exported_complete : GraphComplete index filter (exportedGraph index filter rows) where
  hasVersion := by
    intro version member recent _ there
    obtain ⟨row, included, key⟩ := (versionNodeIdOfKey_mem_ids filter).1 there
    obtain ⟨found, _, _⟩ := (mem_includedVersions consistent filter).1 included
    have same := identity_of_toolVersionKeyFromRow (consistent.hashed _ (mem_toolVersions found))
      (consistent.hashed _ member) key
    obtain rfl := List.inj_on_of_nodup_map index.uniqueVersions (mem_toolVersions found) member same
    exact (mem_edges consistent filter).2 (.inl ⟨row, included, rfl⟩)
  calls := by
    intro observation member recent _ there
    obtain ⟨row, included, key⟩ := (versionNodeIdOfKey_mem_ids filter).1 there
    obtain ⟨found, _, _⟩ := (mem_includedVersions consistent filter).1 included
    obtain ⟨version, seen, observes⟩ := consistent.observed observation member
    have same := identity_of_toolVersionKeyFromRow (consistent.hashed _ (mem_toolVersions found))
      (consistent.hashed _ seen) (key.trans observes.versionKey.symm)
    simp only [ToolVersionRecord.identity, Prod.mk.injEq] at same
    have wanted : filter.inScope observation.serverKey observation.toolName = true := by
      rw [← observes.serverKey, ← observes.toolName, ← same.1, ← same.2.1]
      exact inScope_of_included consistent filter included
    have retained : observation ∈ retainedObservations index filter :=
      List.mem_filter.2 ⟨member, Bool.and_eq_true_iff.2 ⟨wanted, recent⟩⟩
    refine (mem_edges consistent filter).2 (.inr (.inl ⟨observation, retained, row, included, key, ?_⟩))
    rw [versionNodeId, key]
  supersedes := by
    intro edge member kind recent source target
    exact (mem_edges consistent filter).2 (.inr (.inr ⟨edge, member, kind, recent,
      (versionNodeIdOfKey_mem_ids filter).1 source, (versionNodeIdOfKey_mem_ids filter).1 target, rfl⟩))

theorem inScope_included {version : ToolVersionRow} (member : version ∈ includedVersions index filter) :
    version.toToolVersionRecord ∈ index.toolVersions ∧ filter.inScope version.serverKey version.toolName = true :=
  ⟨mem_toolVersions ((mem_includedVersions consistent filter).1 member).1, inScope_of_included consistent filter member⟩

theorem exported_inScope (listed : ∀ row ∈ rows, row ∈ db.sessions)
    (sessions : ∀ row ∈ db.sessions, row ∈ rows ↔
      (filter.isScoped = true → ∃ observation ∈ retainedObservations index filter, observation.sessionId = row.id.text)) :
    GraphInScope db index filter (exportedGraph index filter rows) where
  nodes := by
    intro node member
    rcases List.mem_append.1 member with session | version
    · right
      obtain ⟨row, inside, _, rfl⟩ := (mem_sessionNodes filter).1 session
      refine ⟨row, listed row inside, rfl, fun narrow => ?_⟩
      obtain ⟨observation, retained, same⟩ := (sessions row (listed row inside)).1 inside narrow
      obtain ⟨found, keeps⟩ := List.mem_filter.1 retained
      exact ⟨observation, found, same, (Bool.and_eq_true_iff.1 keeps).1⟩
    · left
      obtain ⟨row, inside, same⟩ := mem_versionNodes version
      obtain ⟨found, wanted⟩ := inScope_included consistent filter inside
      exact ⟨row.toToolVersionRecord, found, wanted, same.symm.imp_left And.left⟩
  edges := by
    intro edge member
    obtain ⟨row, inside, rfl⟩ | ⟨observation, retained, row, inside, key, rfl⟩ |
      ⟨derived, found, _, _, ⟨newer, newerInside, newerKey⟩, ⟨older, olderInside, olderKey⟩, rfl⟩ :=
      (mem_edges consistent filter).1 member
    · obtain ⟨found, wanted⟩ := inScope_included consistent filter inside
      exact ⟨row.toToolVersionRecord, found, wanted, rfl, .inl rfl⟩
    · obtain ⟨found, wanted⟩ := inScope_included consistent filter inside
      obtain ⟨listed, keeps⟩ := List.mem_filter.1 retained
      exact ⟨row.toToolVersionRecord, found, wanted, rfl,
        .inr (.inr ⟨observation, listed, (Bool.and_eq_true_iff.1 keeps).1, rfl⟩)⟩
    · obtain ⟨newerFound, newerWanted⟩ := inScope_included consistent filter newerInside
      obtain ⟨olderFound, olderWanted⟩ := inScope_included consistent filter olderInside
      exact ⟨older.toToolVersionRecord, olderFound, olderWanted, by rw [← olderKey]; rfl,
        .inr (.inl ⟨newer.toToolVersionRecord, newerFound, newerWanted, by rw [← newerKey]; rfl⟩)⟩

/-- Only the session of an observation can be missing. -/
theorem exported_closed_iff (listed : ∀ row ∈ rows, row ∈ db.sessions)
    (sessions : ∀ row ∈ db.sessions, row ∈ rows ↔
      (filter.isScoped = true → ∃ observation ∈ retainedObservations index filter, observation.sessionId = row.id.text)) :
    GraphClosed (exportedGraph index filter rows) ↔ SessionsTimely db index filter := by
  constructor
  · intro closed wide observation member recent row recorded same
    have retained : observation ∈ retainedObservations index filter := by
      obtain ⟨tool, server⟩ : filter.tool = none ∧ filter.serverKey = none := by
        simpa [GraphFilter.isScoped] using wide
      refine List.mem_filter.2 ⟨member, Bool.and_eq_true_iff.2 ⟨?_, recent⟩⟩
      simp [GraphFilter.inScope, tool, server]
    -- The version was last seen no earlier, so it is in the graph, and with it the edge from the session.
    obtain ⟨version, seen, observes⟩ := consistent.observed observation member
    obtain ⟨found, there, rfl⟩ := List.mem_map.1 ((perm_listToolVersions index).mem_iff.2 seen)
    have lastSeen : filter.recent found.lastSeenAtNs = true := by
      cases since : filter.sinceNs with
      | none => simp [GraphFilter.recent, since]
      | some time =>
        have early : time ≤ observation.observedAtNs := by simpa [GraphFilter.recent, since] using recent
        simpa [GraphFilter.recent, since] using early.trans observes.seen
    have included : found ∈ includedVersions index filter :=
      (mem_includedVersions consistent filter).2 ⟨there, lastSeen, fun narrow => by rw [wide] at narrow; cases narrow⟩
    have edge := closed _ ((mem_edges consistent filter).2
      (.inr (.inl ⟨observation, retained, found, included, observes.versionKey, rfl⟩)))
    obtain ⟨other, inside, timely, text⟩ := (sessionNodeId_mem_ids filter).1 edge.1
    obtain rfl := Database.eq_of_id_text (listed other inside) recorded (text.trans same.symm)
    exact timely wide
  · intro timely edge member
    have versionThere : ∀ {version : ToolVersionRow}, version ∈ includedVersions index filter →
        versionNodeId version.toToolVersionRecord ∈ (exportedGraph index filter rows).ids := fun inside =>
      (versionNodeIdOfKey_mem_ids filter).2 ⟨_, inside, rfl⟩
    obtain ⟨row, inside, rfl⟩ | ⟨observation, retained, row, inside, key, rfl⟩ |
      ⟨derived, found, _, _, newer, older, rfl⟩ := (mem_edges consistent filter).1 member
    · exact ⟨toolNodeId_mem_ids filter inside, versionThere inside⟩
    · refine ⟨(sessionNodeId_mem_ids filter).2 ?_, versionThere inside⟩
      obtain ⟨there, keeps⟩ := List.mem_filter.1 retained
      obtain ⟨session, recorded, same⟩ := consistent.recorded observation there
      refine ⟨session, (sessions session recorded).2 fun _ => ⟨observation, retained, same.symm⟩, fun wide => ?_, same⟩
      exact timely wide observation there (Bool.and_eq_true_iff.1 keeps).2 session recorded same
    · exact ⟨(versionNodeIdOfKey_mem_ids filter).2 newer, (versionNodeIdOfKey_mem_ids filter).2 older⟩

end Contract

theorem exported_graph_iff {codec : Codec} {sha256Hex : String → String} (hex : ∀ text, (sha256Hex text).length = 64)
    {db : Database} {index : DerivedIndex} (indexed : Indexed codec sha256Hex db index) (filter : GraphFilter) :
    ∃ graph, exportGraph db index filter = .ok graph ∧
      ((graph.ids.Nodup ∧ GraphClosed graph ∧ GraphComplete index filter graph ∧ GraphInScope db index filter graph) ↔
        SessionsTimely db index filter) := by
  have consistent := indexed.consistent hex
  obtain ⟨rows, listed, unique, sessions, exported⟩ := exportGraph_eq consistent filter
  refine ⟨exportedGraph index filter rows, exported, ?_⟩
  rw [← exported_closed_iff consistent filter listed sessions]
  exact ⟨fun holds => holds.2.1, fun closed => ⟨nodup_ids consistent filter unique, closed,
    exported_complete consistent filter, exported_inScope consistent filter listed sessions⟩⟩

/-! ## A session that began before the given time -/

instance (graph : Graph) : Decidable (GraphClosed graph) :=
  inferInstanceAs (Decidable (∀ edge ∈ graph.edges, edge.source ∈ graph.ids ∧ edge.target ∈ graph.ids))

/-- Both imports began at 0 and listed their tool at 5. -/
def importedIndex : DerivedIndex := rebuildAfter Compact.codec importDigest importedTwice .empty none

theorem indexed_importedIndex : Indexed Compact.codec importDigest importedTwice importedIndex :=
  .rebuilt none (.empty importedTwice)

theorem exported_graph_importedIndex : ∃ graph, exportGraph importedTwice importedIndex ⟨some "search", none, some 3⟩ = .ok graph ∧
    ((graph.ids.Nodup ∧ GraphClosed graph ∧ GraphComplete importedIndex ⟨some "search", none, some 3⟩ graph ∧
      GraphInScope importedTwice importedIndex ⟨some "search", none, some 3⟩ graph) ↔
      SessionsTimely importedTwice importedIndex ⟨some "search", none, some 3⟩) :=
  exported_graph_iff importDigest_length indexed_importedIndex ⟨some "search", none, some 3⟩

/-- Since 3 the listings are in the graph and the sessions that made them are not. -/
theorem late_listing_dangles : Indexed Compact.codec importDigest importedTwice importedIndex ∧
    ∃ graph, exportGraph importedTwice importedIndex ⟨none, none, some 3⟩ = .ok graph ∧ ¬GraphClosed graph := by
  refine ⟨indexed_importedIndex, ?_⟩
  have dangling : ((exportGraph importedTwice importedIndex ⟨none, none, some 3⟩).toOption.all fun graph =>
      decide (GraphClosed graph)) = false := by decide +kernel
  cases exported : exportGraph importedTwice importedIndex ⟨none, none, some 3⟩ with
  | error failure => simp [exported, Except.toOption] at dangling
  | ok graph => exact ⟨graph, rfl, by simpa [exported, Except.toOption] using dangling⟩

end McpTracer.Proxy
