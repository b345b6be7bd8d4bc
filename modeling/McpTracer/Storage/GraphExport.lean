import McpTracer.Foundation.Table
import McpTracer.Intel.Supersession

/-! The derived index as a graph of sessions, tools and tool versions.

Every part is filtered by a timestamp of its own: a session by its start, a version by when it was last seen,
an observation and an edge by when they were made.
-/

set_option autoImplicit false

namespace McpTracer.Storage
open McpTracer.Foundation McpTracer.Intel

inductive GraphNode where
  | session (id client serverCommand transport : String) (startedAtNs : Int) (endedAtNs : Option Int)
      (redactionPolicy : String)
  | tool (id serverKey name : String)
  | toolVersion (id serverKey toolName : String) (descriptionHash schemaHash contractHash : Option String)
      (firstSeenAtNs lastSeenAtNs : Int)
  deriving DecidableEq

def GraphNode.id : GraphNode → String
  | .session id .. => id
  | .tool id .. => id
  | .toolVersion id .. => id

inductive GraphEdge where
  /-- A session observed a tool version. -/
  | calls (source target : String) (observedAtNs : Int)
  | hasVersion (source target : String)
  | supersedes (source target : String)
  deriving DecidableEq

def GraphEdge.source : GraphEdge → String
  | .calls source .. => source
  | .hasVersion source _ => source
  | .supersedes source _ => source

def GraphEdge.target : GraphEdge → String
  | .calls _ target _ => target
  | .hasVersion _ target => target
  | .supersedes _ target => target

structure Graph where
  nodes : List GraphNode
  edges : List GraphEdge

def Graph.ids (graph : Graph) : List String := graph.nodes.map GraphNode.id

structure GraphFilter where
  tool : Option String
  serverKey : Option String
  sinceNs : Option Int

namespace GraphFilter

def isScoped (filter : GraphFilter) : Bool := filter.tool.isSome || filter.serverKey.isSome

/-- Whether a version of the tool is asked for. -/
def inScope (filter : GraphFilter) (serverKey toolName : String) : Bool :=
  filter.tool.all (fun tool => toolName = tool) && filter.serverKey.all fun server => serverKey = server

def recent (filter : GraphFilter) (timestamp : Int) : Bool := filter.sinceNs.all fun since => since ≤ timestamp

def retains (filter : GraphFilter) (observation : ToolVersionObservation Int) : Bool :=
  filter.inScope observation.serverKey observation.toolName && filter.recent observation.observedAtNs

end GraphFilter

/-! ## Ids -/

def toolNodeId (version : ToolVersionRecord) : String := "tool:" ++ toolKey version.serverKey version.toolName

/-- The key of a version as observations and edges carry it, with the prefix of its node. -/
def versionNodeIdOfKey (versionKey : String) : String := "toolversion:" ++ versionKey

def versionNodeId (version : ToolVersionRecord) : String := versionNodeIdOfKey (toolVersionKeyFromRow version)

def sessionNodeId (id : String) : String := "session:" ++ id

/-! ## Nodes and edges -/

def sessionNode (row : SessionRow) : GraphNode :=
  .session (sessionNodeId row.id.text) row.client row.serverCommand row.transport row.startedAtNs row.endedAtNs
    row.redactionPolicy

/-- Only without a tool or a server is a session left out for its start. -/
def exportSession (db : Database) (filter : GraphFilter) (sessionId : String) : Except StoreError (Option GraphNode) := do
  let summary ← db.getSessionSummary sessionId
  return if !filter.isScoped && !filter.recent summary.startedAtNs then none else some (sessionNode summary)

def toolNode (version : ToolVersionRecord) : GraphNode := .tool (toolNodeId version) version.serverKey version.toolName

def versionNode (version : ToolVersionRecord) : GraphNode :=
  .toolVersion (versionNodeId version) version.serverKey version.toolName version.descriptionHash version.schemaHash
    version.contractHash version.firstSeenAtNs version.lastSeenAtNs

/-- Every version, and before the first version of a tool the tool. -/
def versionNodes : List String → List ToolVersionRow → List GraphNode
  | _, [] => []
  | seenTools, version :: rest =>
    (if toolNodeId version.toToolVersionRecord ∈ seenTools then [] else [toolNode version.toToolVersionRecord]) ++
      versionNode version.toToolVersionRecord ::
        versionNodes (toolNodeId version.toToolVersionRecord :: seenTools) rest

def hasVersionEdge (version : ToolVersionRow) : GraphEdge :=
  .hasVersion (toolNodeId version.toToolVersionRecord) (versionNodeId version.toToolVersionRecord)

def callsEdge (versionIdByKey : Table String String) (includedVersionIds : List String)
    (observation : ToolVersionObservation Int) : Option GraphEdge :=
  match versionIdByKey observation.versionKey with
  | none => none
  | some versionNodeId =>
    if versionNodeId ∈ includedVersionIds then
      some (.calls (sessionNodeId observation.sessionId) versionNodeId observation.observedAtNs)
    else none

def supersedesEdge (filter : GraphFilter) (includedVersionIds : List String) (edge : MemoryEdge) : Option GraphEdge :=
  let source := versionNodeIdOfKey edge.fromKey
  let target := versionNodeIdOfKey edge.toKey
  if edge.edgeType ≠ "version_supersedes" then none
  else if !filter.recent edge.observedAtNs then none
  else if source ∉ includedVersionIds ∨ target ∉ includedVersionIds then none
  else some (.supersedes source target)

/-! ## Ids of different nodes -/

theorem versionNodeIdOfKey_injective {key other : String} (same : versionNodeIdOfKey key = versionNodeIdOfKey other) :
    key = other := by
  have lists := congrArg String.toList same
  simp only [versionNodeIdOfKey, String.toList_append] at lists
  exact String.toList_inj.1 (List.append_cancel_left lists)

theorem sessionNodeId_injective {id other : String} (same : sessionNodeId id = sessionNodeId other) : id = other := by
  have lists := congrArg String.toList same
  simp only [sessionNodeId, String.toList_append] at lists
  exact String.toList_inj.1 (List.append_cancel_left lists)

theorem toolNodeId_ne_versionNodeIdOfKey (version : ToolVersionRecord) (key : String) :
    toolNodeId version ≠ versionNodeIdOfKey key := by
  intro same
  have fifth := congrArg (fun id : String => id.toList[4]?) same
  simp [toolNodeId, versionNodeIdOfKey] at fifth

theorem sessionNodeId_ne_versionNodeIdOfKey (id key : String) : sessionNodeId id ≠ versionNodeIdOfKey key := by
  intro same
  have first := congrArg (fun id : String => id.toList[0]?) same
  simp [sessionNodeId, versionNodeIdOfKey] at first

theorem sessionNodeId_ne_toolNodeId (id : String) (version : ToolVersionRecord) : sessionNodeId id ≠ toolNodeId version := by
  intro same
  have first := congrArg (fun id : String => id.toList[0]?) same
  simp [sessionNodeId, toolNodeId] at first

theorem mem_versionNodes {seenTools : List String} {versions : List ToolVersionRow} {node : GraphNode}
    (member : node ∈ versionNodes seenTools versions) :
    ∃ version ∈ versions, node = versionNode version.toToolVersionRecord ∨
      node = toolNode version.toToolVersionRecord ∧ toolNodeId version.toToolVersionRecord ∉ seenTools := by
  induction versions generalizing seenTools with
  | nil => cases member
  | cons version rest ih =>
    rcases List.mem_append.1 member with tool | further
    · split_ifs at tool with seen
      · cases tool
      · exact ⟨version, List.mem_cons_self, .inr ⟨List.mem_singleton.1 tool, seen⟩⟩
    · rcases List.mem_cons.1 further with rfl | later
      · exact ⟨version, List.mem_cons_self, .inl rfl⟩
      · obtain ⟨other, found, same | ⟨same, unseen⟩⟩ := ih later
        · exact ⟨other, List.mem_cons_of_mem _ found, .inl same⟩
        · exact ⟨other, List.mem_cons_of_mem _ found, .inr ⟨same, fun seen => unseen (List.mem_cons_of_mem _ seen)⟩⟩

theorem versionNode_mem {seenTools : List String} {versions : List ToolVersionRow} {version : ToolVersionRow}
    (member : version ∈ versions) : versionNode version.toToolVersionRecord ∈ versionNodes seenTools versions := by
  induction versions generalizing seenTools with
  | nil => cases member
  | cons first rest ih =>
    apply List.mem_append_right
    rcases List.mem_cons.1 member with rfl | later
    · exact List.mem_cons_self
    · exact List.mem_cons_of_mem _ (ih later)

theorem toolNodeId_mem {seenTools : List String} {versions : List ToolVersionRow} {version : ToolVersionRow}
    (member : version ∈ versions) : toolNodeId version.toToolVersionRecord ∈ seenTools ∨
      toolNodeId version.toToolVersionRecord ∈ (versionNodes seenTools versions).map GraphNode.id := by
  induction versions generalizing seenTools with
  | nil => cases member
  | cons first rest ih =>
    rw [versionNodes, List.map_append, List.mem_append, List.map_cons, List.mem_cons]
    rcases List.mem_cons.1 member with rfl | later
    · split_ifs with seen
      · exact .inl seen
      · exact .inr (.inl (by simp [toolNode, GraphNode.id]))
    · rcases @ih (toolNodeId first.toToolVersionRecord :: seenTools) later with seen | found
      · rcases List.mem_cons.1 seen with same | old
        · split_ifs with firstSeen
          · exact .inl (same ▸ firstSeen)
          · exact .inr (.inl (by simp [toolNode, GraphNode.id, same]))
        · exact .inl old
      · exact .inr (.inr (.inr found))

/-- Nodes of tools and versions have ids of their own if versions have. -/
theorem nodup_versionNodes (seenTools : List String) {versions : List ToolVersionRow}
    (unique : (versions.map fun version => versionNodeId version.toToolVersionRecord).Nodup) :
    ((versionNodes seenTools versions).map GraphNode.id).Nodup := by
  induction versions generalizing seenTools with
  | nil => exact List.nodup_nil
  | cons version rest ih =>
    rw [List.map_cons, List.nodup_cons] at unique
    have others := ih (toolNodeId version.toToolVersionRecord :: seenTools) unique.2
    have versionFresh : versionNodeId version.toToolVersionRecord ∉
        (versionNodes (toolNodeId version.toToolVersionRecord :: seenTools) rest).map GraphNode.id := by
      intro member
      obtain ⟨node, found, same⟩ := List.mem_map.1 member
      obtain ⟨other, inside, rfl | ⟨rfl, -⟩⟩ := mem_versionNodes found
      · exact unique.1 (List.mem_map.2 ⟨other, inside, same⟩)
      · exact toolNodeId_ne_versionNodeIdOfKey _ _ same
    have toolFresh : toolNodeId version.toToolVersionRecord ∉
        (versionNodes (toolNodeId version.toToolVersionRecord :: seenTools) rest).map GraphNode.id := by
      intro member
      obtain ⟨node, found, same⟩ := List.mem_map.1 member
      obtain ⟨other, _, rfl | ⟨rfl, unseen⟩⟩ := mem_versionNodes found
      · exact toolNodeId_ne_versionNodeIdOfKey _ _ same.symm
      · exact unseen (same ▸ List.mem_cons_self)
    have behind : ((versionNode version.toToolVersionRecord ::
        versionNodes (toolNodeId version.toToolVersionRecord :: seenTools) rest).map GraphNode.id).Nodup :=
      List.nodup_cons.2 ⟨versionFresh, others⟩
    rw [versionNodes]
    split_ifs with seen
    · exact behind
    · refine List.nodup_cons.2 ⟨fun member => ?_, behind⟩
      rcases List.mem_cons.1 member with same | later
      · exact toolNodeId_ne_versionNodeIdOfKey _ _ same
      · exact toolFresh later

/-! ## The export -/

def versionIdByKey (index : DerivedIndex) : Table String String :=
  Table.ofList (index.listToolVersions.map fun version =>
    (toolVersionKeyFromRow version.toToolVersionRecord, versionNodeId version.toToolVersionRecord))

def retainedObservations (index : DerivedIndex) (filter : GraphFilter) : List (ToolVersionObservation Int) :=
  index.observations.filter filter.retains

/-- The versions in the graph: with a tool or a server, those that a retained observation touches. -/
def includedVersions (index : DerivedIndex) (filter : GraphFilter) : List ToolVersionRow :=
  let retainedVersionIds := (retainedObservations index filter).filterMap fun observation =>
    versionIdByKey index observation.versionKey
  index.listToolVersions.filter fun version =>
    !(filter.isScoped && !retainedVersionIds.contains (versionNodeId version.toToolVersionRecord)) &&
      filter.recent version.lastSeenAtNs

/-- Sorted and each of them once. -/
def observingSessions (observations : List (ToolVersionObservation Int)) : List String :=
  (observations.map ToolVersionObservation.sessionId).dedup.insertionSort (· ≤ ·)

def exportGraph (db : Database) (index : DerivedIndex) (filter : GraphFilter) : Except StoreError Graph := do
  let retained := retainedObservations index filter
  let sessionIds := if filter.isScoped then observingSessions retained else db.allSessionIds
  let sessions ← sessionIds.mapM (exportSession db filter)
  let included := includedVersions index filter
  let includedVersionIds := included.map fun version => versionNodeId version.toToolVersionRecord
  return {
    nodes := sessions.reduceOption ++ versionNodes [] included
    edges := included.map hasVersionEdge ++ retained.filterMap (callsEdge (versionIdByKey index) includedVersionIds) ++
      index.edges.filterMap (supersedesEdge filter includedVersionIds) }

end McpTracer.Storage
