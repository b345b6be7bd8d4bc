import McpTracer.Intel.Supersession
import McpTracer.Model.Emptiness

/-! The rebuild of the derived index, for one session or for all.

What belongs to a session is a function of its recording and is replaced; what spans sessions is merged or
computed anew. So only the merging can depend on the order of the runs.
-/

set_option autoImplicit false

namespace McpTracer.Proxy
open McpTracer.Foundation McpTracer.Json McpTracer.Model McpTracer.Storage McpTracer.Intel

section Rebuild
variable (codec : Codec) (sha256Hex : String → String) (db : Database)

/-! ## The command -/

def rebuildSession (index : DerivedIndex) (sessionId : String) : Except StoreError DerivedIndex := do
  let messages ← db.getMessages sessionId
  let serverCommand ← db.getServerCommand sessionId
  let redactionPolicy ← db.getRedactionPolicy sessionId
  let extraction := extractSessionMemory codec sha256Hex {
    sessionId := sessionId
    serverKey := deriveServerKey sha256Hex serverCommand
    redactionPolicy := redactionPolicy
    messages := messages
    model := correlate codec messages }
  return index.rebuildMemoryForSession sessionId extraction.facts extraction.edges extraction.toolVersions
    extraction.toolVersionObservations

/-- Supersession spans sessions, so it is computed anew after any rebuild. -/
def replaceSupersessions (index : DerivedIndex) : DerivedIndex :=
  index.replaceSupersessionEdges (computeVersionSupersessions codec index.listToolVersions)

/-- For the session that is named, or for all. -/
def rebuild (index : DerivedIndex) (session : Option String) : Except StoreError DerivedIndex := do
  let sessionIds ← match session with
    | some sessionIdOrPrefix => do
      let row ← db.resolveSessionId sessionIdOrPrefix
      pure [row.id.text]
    | none => pure (db.allSessionIds)
  let index ← sessionIds.foldlM (rebuildSession codec sha256Hex db) index
  return replaceSupersessions codec index

/-- A run that fails has found no session, and leaves the index as it was. -/
def rebuildAfter (index : DerivedIndex) (session : Option String) : DerivedIndex :=
  match rebuild codec sha256Hex db index session with
  | .ok next => next
  | .error _ => index

/-- The index after runs on a database that had none. -/
def indexAfter (runs : List (Option String)) : DerivedIndex :=
  runs.foldl (rebuildAfter codec sha256Hex db) .empty

/-! ## What is done in one run -/

def extractionInput (row : SessionRow) : ExtractionInput where
  sessionId := row.id.text
  serverKey := deriveServerKey sha256Hex row.serverCommand
  redactionPolicy := row.redactionPolicy
  messages := db.messagesOf row.id
  model := correlate codec (db.messagesOf row.id)

def extraction (row : SessionRow) : MemoryExtraction := extractSessionMemory codec sha256Hex (extractionInput codec sha256Hex db row)

def visit (index : DerivedIndex) (row : SessionRow) : DerivedIndex :=
  let extracted := extraction codec sha256Hex db row
  index.rebuildMemoryForSession row.id.text extracted.facts extracted.edges extracted.toolVersions
    extracted.toolVersionObservations

theorem rebuildSession_text {row : SessionRow} (listed : row ∈ db.sessions) (index : DerivedIndex) :
    rebuildSession codec sha256Hex db index row.id.text = .ok (visit codec sha256Hex db index row) := by
  rw [rebuildSession, Database.getMessages_text listed, Database.getServerCommand, Database.getRedactionPolicy,
    Database.resolveSessionId_text listed]
  rfl

theorem foldlM_rebuildSession {rows : List SessionRow} (listed : ∀ row ∈ rows, row ∈ db.sessions) (index : DerivedIndex) :
    (rows.map fun row => row.id.text).foldlM (rebuildSession codec sha256Hex db) index =
      .ok (rows.foldl (visit codec sha256Hex db) index) := by
  induction rows generalizing index with
  | nil => rfl
  | cons row rest ih =>
    obtain ⟨here, others⟩ := List.forall_mem_cons.1 listed
    rw [List.map_cons, List.foldlM_cons, rebuildSession_text codec sha256Hex db here]
    exact ih others _

/-- The sessions that a run rebuilds, in its order. -/
def selected : Option String → List SessionRow
  | some sessionIdOrPrefix => (db.resolveSessionId sessionIdOrPrefix).toOption.toList
  | none => db.sessions.insertionSort fun a b => a.sessionOrder ≤ b.sessionOrder

theorem selected_listed {session : Option String} {row : SessionRow} (member : row ∈ selected db session) :
    row ∈ db.sessions := by
  cases session with
  | none => exact (List.mem_insertionSort _).1 member
  | some text =>
    cases resolved : db.resolveSessionId text with
    | error failure => simp [selected, resolved, Except.toOption] at member
    | ok found =>
      obtain rfl : row = found := by simpa [selected, resolved, Except.toOption] using member
      exact Database.mem_of_resolveSessionId resolved

theorem rebuildAfter_eq (index : DerivedIndex) (session : Option String) :
    rebuildAfter codec sha256Hex db index session =
        replaceSupersessions codec ((selected db session).foldl (visit codec sha256Hex db) index) ∨
      selected db session = [] ∧ rebuildAfter codec sha256Hex db index session = index := by
  have done := @foldlM_rebuildSession codec sha256Hex db (selected db session)
    (fun row member => selected_listed db member) index
  cases session with
  | none =>
    left
    have ids : db.allSessionIds = (selected db none).map fun row => row.id.text := rfl
    simp only [rebuildAfter, rebuild, pure_bind, ids, done]
    rfl
  | some text =>
    cases resolved : db.resolveSessionId text with
    | error failure =>
      right
      simp [selected, rebuildAfter, rebuild, resolved, Except.toOption]
      rfl
    | ok found =>
      left
      have one : selected db (some text) = [found] := by simp [selected, resolved, Except.toOption]
      rw [one, List.map_singleton] at done
      have whole : rebuild codec sha256Hex db index (some text) =
          .ok (replaceSupersessions codec ([found].foldl (visit codec sha256Hex db) index)) := by
        rw [rebuild, resolved]
        change (List.foldlM (rebuildSession codec sha256Hex db) index [found.id.text] >>= _) = _
        rw [done]
        rfl
      rw [rebuildAfter, whole, one]

/-! ## What a sequence of runs has gathered -/

abbrev versionsOf (row : SessionRow) : List ToolVersionRecord := (extraction codec sha256Hex db row).toolVersions

def sessionKey (row : SessionRow) : Option String := some row.id.text

/-- Whether an edge spans sessions. -/
def isSupersession (edge : MemoryEdge) : Bool := edge.edgeType = "version_supersedes"

/-- The index holds what the last visit to each session left, and the versions of all visits merged. -/
structure Collected (visits : List SessionRow) (index : DerivedIndex) : Prop where
  facts : index.facts = replaceEach MemoryFact.sessionId sessionKey
    (fun row => (extraction codec sha256Hex db row).facts.map MemoryFact.toRow) visits
  edges : index.edges.filter (fun edge => !isSupersession edge) = replaceEach MemoryEdge.sessionId sessionKey
    (fun row => (extraction codec sha256Hex db row).edges) visits
  unowned : ∀ edge ∈ index.edges, isSupersession edge = true → edge.sessionId = none
  toolVersions : index.toolVersions = upsertAll ToolVersionRecord.identity ToolVersionRecord.merge []
    (visits.flatMap (versionsOf codec sha256Hex db))
  observations : index.observations = replaceEach ToolVersionObservation.sessionId (fun row => row.id.text)
    (fun row => (extraction codec sha256Hex db row).toolVersionObservations.map ToolVersionObservation.toRow) visits

theorem collected_empty : Collected codec sha256Hex db [] .empty where
  facts := rfl
  edges := rfl
  unowned := by simp [DerivedIndex.empty]
  toolVersions := rfl
  observations := rfl

variable {codec sha256Hex db}

theorem mem_versionsOf {row : SessionRow} {version : ToolVersionRecord} (member : version ∈ versionsOf codec sha256Hex db row) :
    ∃ tool ∈ Intel.listedTools codec sha256Hex (db.messagesOf row.id),
      version = tool.version (extractionInput codec sha256Hex db row)
        (listingProvenance (db.messagesOf row.id) (correlate codec (db.messagesOf row.id))).2 := by
  obtain ⟨tool, listed, rfl⟩ := List.mem_map.1 member
  exact ⟨tool, listed, rfl⟩

theorem hashed_of_mem_versionsOf (hex : ∀ text, (sha256Hex text).length = 64) {row : SessionRow} {version : ToolVersionRecord}
    (member : version ∈ versionsOf codec sha256Hex db row) : Hashed version.identity := by
  obtain ⟨tool, listed, rfl⟩ := mem_versionsOf member
  obtain ⟨definition, _, rfl⟩ := List.mem_map.1 listed
  refine ⟨?_, _, _, _, rfl, hex _, hex _, hex _⟩
  change (deriveServerKey sha256Hex row.serverCommand).length = 71
  rw [deriveServerKey, String.length_append, hex]
  rfl

theorem sessionId_of_mem_edges {row : SessionRow} {edge : MemoryEdge}
    (member : edge ∈ (extraction codec sha256Hex db row).edges) :
    edge.sessionId = sessionKey row ∧ isSupersession edge = false := by
  rcases List.mem_cons.1 member with rfl | member
  · exact ⟨rfl, by simp [isSupersession, edge]⟩
  rcases List.mem_append.1 member with listed | called
  · obtain ⟨tool, _, rfl⟩ := List.mem_map.1 listed
    exact ⟨rfl, by simp [isSupersession, ListedTool.edge, edge]⟩
  · obtain ⟨exchange, _, found⟩ := List.mem_flatMap.1 called
    rw [exchangeEdges, Option.mem_toList, Option.map_eq_some_iff] at found
    obtain ⟨tool, _, rfl⟩ := found
    exact ⟨rfl, by simp [isSupersession, callEdge, edge]⟩

theorem sessionId_of_mem_facts {row : SessionRow} {fact : MemoryFact Int}
    (member : fact ∈ (extraction codec sha256Hex db row).facts.map MemoryFact.toRow) : fact.sessionId = sessionKey row := by
  obtain ⟨record, inside, rfl⟩ := List.mem_map.1 member
  rcases List.mem_append.1 inside with inside | summary
  · rcases List.mem_append.1 inside with first | exchanges
    · rcases List.mem_cons.1 first with rfl | listed
      · rfl
      · obtain ⟨tool, _, rfl⟩ := List.mem_map.1 listed
        rfl
    · obtain ⟨exchange, _, found⟩ := List.mem_flatMap.1 exchanges
      rcases List.mem_append.1 found with found | found <;>
        · rw [Option.mem_toList, Option.map_eq_some_iff] at found
          obtain ⟨_, _, rfl⟩ := found
          rfl
  · rcases List.mem_cons.1 summary with rfl | last
    · rfl
    · rw [List.mem_singleton.1 last]
      rfl

theorem mem_observations {row : SessionRow} {observation : ToolVersionObservation Int}
    (member : observation ∈ (extraction codec sha256Hex db row).toolVersionObservations.map ToolVersionObservation.toRow) :
    observation.sessionId = row.id.text := by
  obtain ⟨record, inside, rfl⟩ := List.mem_map.1 member
  obtain ⟨tool, _, rfl⟩ := List.mem_map.1 inside
  rfl

theorem nodup_listedTools (codec : Codec) (sha256Hex : String → String) (messages : List StoredMessage) :
    ((Intel.listedTools codec sha256Hex messages).map ListedTool.name).Nodup := by
  rw [Intel.listedTools, List.map_map]
  exact extractTools_nodup codec messages

theorem nodup_observations (row : SessionRow) :
    (((extraction codec sha256Hex db row).toolVersionObservations.map ToolVersionObservation.toRow).map
      ToolVersionObservation.place).Nodup := by
  have names := nodup_listedTools codec sha256Hex (db.messagesOf row.id)
  refine List.Nodup.of_map (fun place => place.2.2.1) ?_
  rwa [List.map_map, extraction, extractSessionMemory, List.map_map, List.map_map]

theorem observations_visit (index : DerivedIndex) (row : SessionRow) :
    (visit codec sha256Hex db index row).observations =
      replaceOwned ToolVersionObservation.sessionId index.observations row.id.text
        ((extraction codec sha256Hex db row).toolVersionObservations.map ToolVersionObservation.toRow) := by
  refine upsertAll_fresh ?_
  rw [List.map_append]
  refine List.Nodup.append (index.uniqueObservations.sublist (List.filter_sublist.map _)) (nodup_observations row) ?_
  -- The session is part of the key, and only rows of other sessions are left.
  intro place old new
  obtain ⟨before, inside, rfl⟩ := List.mem_map.1 old
  obtain ⟨after, found, same⟩ := List.mem_map.1 new
  have other := of_decide_eq_true (List.mem_filter.1 inside).2
  exact other ((congrArg Prod.fst same).symm.trans (mem_observations found))

theorem Collected.visit {visits : List SessionRow} {index : DerivedIndex} (collected : Collected codec sha256Hex db visits index)
    (row : SessionRow) : Collected codec sha256Hex db (visits ++ [row]) (visit codec sha256Hex db index row) where
  facts := by
    rw [replaceEach_concat, ← collected.facts]
    rfl
  edges := by
    have kept : (extraction codec sha256Hex db row).edges.filter (fun edge => !isSupersession edge) =
        (extraction codec sha256Hex db row).edges :=
      List.filter_eq_self.2 fun edge member => by simp [(sessionId_of_mem_edges member).2]
    rw [replaceEach_concat, ← collected.edges, replaceOwned, List.filter_filter]
    change List.filter _ (replaceOwned MemoryEdge.sessionId index.edges (sessionKey row) _) = _
    rw [replaceOwned, List.filter_append, kept, List.filter_filter]
    exact congrArg (· ++ _) (List.filter_congr fun edge _ => Bool.and_comm _ _)
  unowned := by
    intro edge member cross
    rcases List.mem_append.1 member with old | new
    · exact collected.unowned edge (List.mem_of_mem_filter old) cross
    · rw [(sessionId_of_mem_edges new).2] at cross
      cases cross
  toolVersions := by
    rw [List.flatMap_append, upsertAll_append, ← collected.toolVersions, List.flatMap_singleton]
    rfl
  observations := by rw [replaceEach_concat, ← collected.observations, observations_visit]

theorem Collected.visits {visits rows : List SessionRow} {index : DerivedIndex}
    (collected : Collected codec sha256Hex db visits index) :
    Collected codec sha256Hex db (visits ++ rows) (rows.foldl (Proxy.visit codec sha256Hex db) index) := by
  induction rows generalizing visits index with
  | nil => rwa [List.append_nil]
  | cons row rest ih =>
    have further := ih (collected.visit row)
    rwa [List.append_assoc, List.singleton_append] at further

theorem isSupersession_supersessions {versions : List ToolVersionRow} {edge : MemoryEdge}
    (member : edge ∈ computeVersionSupersessions codec versions) : edge.sessionId = none ∧ isSupersession edge = true := by
  obtain ⟨pair, _, rfl⟩ := List.mem_map.1 member
  exact ⟨rfl, by simp [isSupersession, supersession]⟩

theorem edges_replaceSupersessions (index : DerivedIndex) :
    (replaceSupersessions codec index).edges =
      index.edges.filter (fun edge => !isSupersession edge) ++ computeVersionSupersessions codec index.listToolVersions := by
  have same : ∀ edge : MemoryEdge, (!isSupersession edge) = decide (edge.edgeType ≠ "version_supersedes") := by
    intro edge
    simp [isSupersession]
  simp only [same]
  rfl

/-- The edges across sessions are those of the versions in the index. -/
def Settled (codec : Codec) (index : DerivedIndex) : Prop :=
  index.edges.filter isSupersession = computeVersionSupersessions codec index.listToolVersions

theorem settled_replaceSupersessions (index : DerivedIndex) : Settled codec (replaceSupersessions codec index) := by
  have gone : (index.edges.filter fun edge => !isSupersession edge).filter isSupersession = [] := by
    rw [List.filter_filter]
    exact List.filter_eq_nil_iff.2 fun edge _ => by simp
  have kept : (computeVersionSupersessions codec index.listToolVersions).filter isSupersession =
      computeVersionSupersessions codec index.listToolVersions :=
    List.filter_eq_self.2 fun edge member => (isSupersession_supersessions member).2
  rw [Settled, edges_replaceSupersessions, List.filter_append, gone, kept, List.nil_append]
  rfl

theorem Collected.replaceSupersessions {visits : List SessionRow} {index : DerivedIndex}
    (collected : Collected codec sha256Hex db visits index) :
    Collected codec sha256Hex db visits (replaceSupersessions codec index) where
  facts := collected.facts
  edges := by
    have none : (computeVersionSupersessions codec index.listToolVersions).filter (fun edge => !isSupersession edge) = [] :=
      List.filter_eq_nil_iff.2 fun edge member => by simp [(isSupersession_supersessions member).2]
    rw [edges_replaceSupersessions, List.filter_append, none, List.append_nil, List.filter_filter, ← collected.edges]
    simp
  unowned := by
    intro edge member cross
    rcases List.mem_append.1 member with old | new
    · exact collected.unowned edge (List.mem_of_mem_filter old) cross
    · exact (isSupersession_supersessions new).1
  toolVersions := collected.toolVersions
  observations := collected.observations

variable (codec sha256Hex db)

def visited (runs : List (Option String)) : List SessionRow := runs.flatMap (selected db)

/-- After any runs the index holds what was gathered from the visited sessions, and nothing else. -/
theorem indexAfter_collected (runs : List (Option String)) :
    Collected codec sha256Hex db (visited db runs) (indexAfter codec sha256Hex db runs) ∧
      Settled codec (indexAfter codec sha256Hex db runs) := by
  induction runs using List.reverseRecOn with
  | nil => exact ⟨collected_empty codec sha256Hex db, rfl⟩
  | append_singleton runs run ih =>
    obtain ⟨collected, settled⟩ := ih
    have steps : visited db (runs ++ [run]) = visited db runs ++ selected db run := by simp [visited]
    have last : indexAfter codec sha256Hex db (runs ++ [run]) =
        rebuildAfter codec sha256Hex db (indexAfter codec sha256Hex db runs) run := by simp [indexAfter]
    rw [steps, last]
    rcases rebuildAfter_eq codec sha256Hex db (indexAfter codec sha256Hex db runs) run with done | ⟨none, unchanged⟩
    · rw [done]
      exact ⟨collected.visits.replaceSupersessions, settled_replaceSupersessions _⟩
    · rw [none, unchanged, List.append_nil]
      exact ⟨collected, settled⟩

end Rebuild

end McpTracer.Proxy
