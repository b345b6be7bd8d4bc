import McpTracer.Intel.Supersession

/-! The edges between the versions of a tool form one chain. -/

set_option autoImplicit false

namespace McpTracer.Intel
open McpTracer.Foundation McpTracer.Json McpTracer.Storage

/-- A row of the table of versions. The number of a row is any integer that its column holds. -/
structure StoredVersion extends ToolVersionRecord where
  id : Int
  deriving DecidableEq

namespace StoredVersion

def sortKey (row : StoredVersion) : String ×ₗ String ×ₗ Int ×ₗ Int :=
  toLex (row.serverKey, toLex (row.toolName, toLex (row.firstSeenAtNs, row.id)))

def tool (row : StoredVersion) : String ×ₗ String := toLex (row.serverKey, row.toolName)

def firstSeen (row : StoredVersion) : Int ×ₗ Int := toLex (row.firstSeenAtNs, row.id)

def key (row : StoredVersion) : String := toolVersionKeyFromRow row.toToolVersionRecord

theorem tool_le {a b : StoredVersion} (le : a.sortKey ≤ b.sortKey) : a.tool ≤ b.tool := by
  simp only [sortKey, tool, Prod.Lex.toLex_le_toLex] at le ⊢
  rcases le with server | ⟨server, tool | ⟨tool, _⟩⟩
  · exact .inl server
  · exact .inr ⟨server, tool.le⟩
  · exact .inr ⟨server, tool.le⟩

theorem sortKey_lt_iff {a b : StoredVersion} (same : a.tool = b.tool) :
    a.sortKey < b.sortKey ↔ a.firstSeen < b.firstSeen := by
  obtain ⟨server, tool⟩ : a.serverKey = b.serverKey ∧ a.toolName = b.toolName := by
    simpa [StoredVersion.tool] using same
  simp [sortKey, firstSeen, Prod.Lex.toLex_lt_toLex, server, tool]

theorem id_eq_of_sortKey {a b : StoredVersion} (same : a.sortKey = b.sortKey) : a.id = b.id := by
  simp only [sortKey, toLex_inj, Prod.mk.injEq] at same
  exact same.2.2.2

/-- What a number given at insertion makes of a row. -/
def ofRow (row : ToolVersionRow) : StoredVersion where
  toToolVersionRecord := row.toToolVersionRecord
  id := row.id

theorem sortKey_ofRow (a b : ToolVersionRow) : a.sortKey ≤ b.sortKey ↔ (ofRow a).sortKey ≤ (ofRow b).sortKey := by
  simp [ToolVersionRow.sortKey, sortKey, ofRow, Prod.Lex.toLex_le_toLex]

end StoredVersion

def sortVersions (versions : List StoredVersion) : List StoredVersion :=
  versions.insertionSort fun a b => a.sortKey ≤ b.sortKey

/-- The sorted rows are scanned for the end of each group, and the windows of the group are linked. -/
def linkVersions (codec : Codec) (versions : List StoredVersion) : List MemoryEdge :=
  (runs (fun start row => row.serverKey = start.serverKey && row.toolName = start.toolName)
    (sortVersions versions)).flatMap fun group =>
      (neighbours group).map fun pair => supersession codec pair.1.toToolVersionRecord pair.2.toToolVersionRecord

/-! ## The scan -/

def edgeOf (codec : Codec) (pair : StoredVersion × StoredVersion) : MemoryEdge :=
  supersession codec pair.1.toToolVersionRecord pair.2.toToolVersionRecord

theorem linkVersions_eq (codec : Codec) (versions : List StoredVersion) :
    linkVersions codec versions =
      ((neighbours (sortVersions versions)).filter fun pair => pair.1.tool = pair.2.tool).map (edgeOf codec) := by
  have same : (fun start row : StoredVersion =>
      (row.serverKey = start.serverKey && row.toolName = start.toolName : Bool)) =
      fun start row => decide (start.tool = row.tool) := by
    funext start row
    simp [StoredVersion.tool, Bool.decide_and, eq_comm]
  rw [linkVersions, same, ← flatMap_neighbours_runs, List.map_flatMap]
  rfl

/-- The rows that are numbered as they are inserted are linked in the same way. -/
theorem linkVersions_ofRow (codec : Codec) (versions : List ToolVersionRow) :
    linkVersions codec (versions.map .ofRow) = computeVersionSupersessions codec versions := by
  have sorted : sortVersions (versions.map .ofRow) =
      (versions.insertionSort fun a b => a.sortKey ≤ b.sortKey).map .ofRow :=
    (List.map_insertionSort (fun a b : ToolVersionRow => a.sortKey ≤ b.sortKey)
      (fun a b : StoredVersion => a.sortKey ≤ b.sortKey) _ _ fun a _ b _ =>
        StoredVersion.sortKey_ofRow a b).symm
  rw [linkVersions_eq, computeVersionSupersessions, sorted, neighbours_map, neighbours_map, List.filter_map,
    List.filter_map, List.map_map, List.map_map]
  congr 1
  refine List.filter_congr fun pair _ => Bool.eq_iff_iff.2 ?_
  simp [sameTool, StoredVersion.tool, StoredVersion.ofRow]
  exact and_congr decide_eq_true_iff decide_eq_true_iff

theorem perm_sortVersions (versions : List StoredVersion) : (sortVersions versions).Perm versions :=
  List.perm_insertionSort _ _

theorem mem_sortVersions {versions : List StoredVersion} {row : StoredVersion} :
    row ∈ sortVersions versions ↔ row ∈ versions :=
  (perm_sortVersions versions).mem_iff

theorem pairwise_sortVersions (versions : List StoredVersion) :
    (sortVersions versions).Pairwise fun a b => a.sortKey ≤ b.sortKey :=
  @List.pairwise_insertionSort _ _ _ ⟨fun a b : StoredVersion => le_total a.sortKey b.sortKey⟩ ⟨fun _ _ _ => le_trans⟩ _

section
variable {versions : List StoredVersion}

theorem eq_of_sortKey (distinctIds : (versions.map StoredVersion.id).Nodup) {a b : StoredVersion} (left : a ∈ versions)
    (right : b ∈ versions) (same : a.sortKey = b.sortKey) : a = b :=
  List.inj_on_of_nodup_map distinctIds left right (StoredVersion.id_eq_of_sortKey same)

theorem sortVersions_congr (distinctIds : (versions.map StoredVersion.id).Nodup) {other : List StoredVersion}
    (perm : versions.Perm other) : sortVersions versions = sortVersions other := by
  have sortedPerm := (perm_sortVersions versions).trans (perm.trans (perm_sortVersions other).symm)
  refine sortedPerm.eq_of_pairwise (fun a b member found above below => ?_) (pairwise_sortVersions versions)
    (pairwise_sortVersions other)
  exact eq_of_sortKey distinctIds (mem_sortVersions.1 member) (perm.mem_iff.2 (mem_sortVersions.1 found))
    (le_antisymm above below)

theorem strictly_sorted (distinctIds : (versions.map StoredVersion.id).Nodup) :
    (sortVersions versions).Pairwise fun a b => a.sortKey < b.sortKey := by
  have distinct : (sortVersions versions).Nodup :=
    (perm_sortVersions versions).nodup_iff.2 (List.Nodup.of_map _ distinctIds)
  refine ((pairwise_sortVersions versions).and distinct).imp_of_mem fun left right related => ?_
  exact lt_of_le_of_ne related.1 fun same =>
    related.2 (eq_of_sortKey distinctIds (mem_sortVersions.1 left) (mem_sortVersions.1 right) same)

end

/-! ## The chain of a tool -/

def ofTool (server tool : String) (row : StoredVersion) : Bool := row.serverKey = server && row.toolName = tool

/-- All versions of a tool, in the order in which they were first seen. -/
structure ChainOf (versions : List StoredVersion) (server tool : String) (chain : List StoredVersion) : Prop where
  whole : chain.Perm (versions.filter (ofTool server tool))
  ordered : chain.Pairwise fun a b => a.firstSeen < b.firstSeen

/-- An edge leads from one key to another. -/
def Linked (edges : List MemoryEdge) (source target : String) : Prop :=
  ∃ edge ∈ edges, edge.fromKey = source ∧ edge.toKey = target

section
variable {versions : List StoredVersion} (distinctIds : (versions.map StoredVersion.id).Nodup)
  (distinctKeys : (versions.map StoredVersion.key).Nodup)

include distinctIds in
theorem chainOf_filter (server tool : String) :
    ChainOf versions server tool ((sortVersions versions).filter (ofTool server tool)) where
  whole := (perm_sortVersions versions).filter _
  ordered := by
    refine ((strictly_sorted distinctIds).filter _).imp_of_mem fun left right less => ?_
    have leftTool : ofTool server tool _ = true := (List.mem_filter.1 left).2
    have rightTool : ofTool server tool _ = true := (List.mem_filter.1 right).2
    simp only [ofTool, Bool.and_eq_true, decide_eq_true_eq] at leftTool rightTool
    refine (StoredVersion.sortKey_lt_iff ?_).1 less
    simp [StoredVersion.tool, leftTool, rightTool]

/-- The edges that touch a version of the tool at one end are those between neighbours of its chain. -/
theorem filter_edges (codec : Codec) (server tool : String) (keep : MemoryEdge → Bool)
    (touches : ∀ pair ∈ neighbours (sortVersions versions), pair.1.tool = pair.2.tool →
      (keep (edgeOf codec pair) = true ↔ ofTool server tool pair.2 = true)) :
    (linkVersions codec versions).filter keep =
      (neighbours ((sortVersions versions).filter (ofTool server tool))).map (edgeOf codec) := by
  have tools : (sortVersions versions).Pairwise fun a b => a.tool ≤ b.tool :=
    (pairwise_sortVersions versions).imp StoredVersion.tool_le
  have member : ofTool server tool = fun row => decide (row.tool = toLex (server, tool)) := by
    funext row
    simp [ofTool, StoredVersion.tool, Bool.decide_and]
  rw [linkVersions_eq, List.filter_map, List.filter_filter, member, ← neighbours_filter StoredVersion.tool tools]
  congr 1
  refine List.filter_congr fun pair inside => ?_
  by_cases same : pair.1.tool = pair.2.tool
  · have touched := touches pair inside same
    simp only [member, decide_eq_true_eq] at touched
    rw [Bool.eq_iff_iff]
    simp [same, touched]
  · have apart : ¬(pair.1.tool = toLex (server, tool) ∧ pair.2.tool = toLex (server, tool)) := fun both =>
      same (both.1.trans both.2.symm)
    simp [same, apart]

include distinctKeys in
theorem mem_chain_keys {row : StoredVersion} (member : row ∈ versions) (server tool : String) :
    row.key ∈ (versions.filter (ofTool server tool)).map StoredVersion.key ↔ ofTool server tool row = true := by
  constructor
  · intro found
    obtain ⟨other, kept, same⟩ := List.mem_map.1 found
    obtain ⟨inside, belongs⟩ := List.mem_filter.1 kept
    exact List.inj_on_of_nodup_map distinctKeys inside member same ▸ belongs
  · exact fun belongs => List.mem_map_of_mem (List.mem_filter.2 ⟨member, belongs⟩)

theorem exists_of_mem_linkVersions {codec : Codec} {edge : MemoryEdge} (member : edge ∈ linkVersions codec versions) :
    ∃ pair ∈ neighbours (sortVersions versions), pair.1.tool = pair.2.tool ∧ edge = edgeOf codec pair := by
  rw [linkVersions_eq] at member
  obtain ⟨pair, kept, rfl⟩ := List.mem_map.1 member
  obtain ⟨inside, same⟩ := List.mem_filter.1 kept
  exact ⟨pair, inside, by simpa using same, rfl⟩

include distinctIds in
theorem newer_of_linked {codec : Codec} {source target : String}
    (linked : Linked (linkVersions codec versions) source target) : ∃ older ∈ versions, ∃ newer ∈ versions,
      older.sortKey < newer.sortKey ∧ newer.key = source ∧ older.key = target := by
  obtain ⟨edge, member, rfl, rfl⟩ := linked
  obtain ⟨pair, inside, _, rfl⟩ := exists_of_mem_linkVersions member
  obtain ⟨left, right⟩ := mem_of_mem_neighbours inside
  exact ⟨pair.1, mem_sortVersions.1 left, pair.2, mem_sortVersions.1 right,
    less_of_mem_neighbours (strictly_sorted distinctIds) inside, rfl, rfl⟩

include distinctIds distinctKeys in
/-- Along the edges the versions only get older. -/
theorem newer_of_transGen {codec : Codec} {source target : String}
    (path : Relation.TransGen (Linked (linkVersions codec versions)) source target) :
    ∃ older ∈ versions, ∃ newer ∈ versions,
      older.sortKey < newer.sortKey ∧ newer.key = source ∧ older.key = target := by
  induction path with
  | single linked => exact newer_of_linked distinctIds linked
  | tail _ linked ih =>
    obtain ⟨middle, middleMember, newer, newerMember, less, sourceKey, middleKey⟩ := ih
    obtain ⟨older, olderMember, other, otherMember, lower, otherKey, targetKey⟩ := newer_of_linked distinctIds linked
    have same : other = middle :=
      List.inj_on_of_nodup_map distinctKeys otherMember middleMember (otherKey.trans middleKey.symm)
    exact ⟨older, olderMember, newer, newerMember, lower.trans (same ▸ less), sourceKey, targetKey⟩

include distinctIds distinctKeys in
theorem acyclic_linkVersions (codec : Codec) (key : String) :
    ¬Relation.TransGen (Linked (linkVersions codec versions)) key key := by
  intro cycle
  obtain ⟨older, olderMember, newer, newerMember, less, newerKey, olderKey⟩ :=
    newer_of_transGen distinctIds distinctKeys cycle
  exact less.ne (congrArg StoredVersion.sortKey
    (List.inj_on_of_nodup_map distinctKeys olderMember newerMember (olderKey.trans newerKey.symm)))

end

/-- For every tool the edges that leave or reach one of its versions are those of one path, which starts at the
newest version and goes from each to the one seen just before it. -/
theorem supersessions_form_chains (codec : Codec) (versions : List StoredVersion)
    (distinctIds : (versions.map StoredVersion.id).Nodup) (distinctKeys : (versions.map StoredVersion.key).Nodup) :
    (∀ other, versions.Perm other → linkVersions codec other = linkVersions codec versions) ∧
    (∀ server tool, ∃ chain, ChainOf versions server tool chain ∧
      ((linkVersions codec versions).filter fun edge =>
        edge.fromKey ∈ (versions.filter (ofTool server tool)).map StoredVersion.key) =
          (neighbours chain).map (edgeOf codec) ∧
      ((linkVersions codec versions).filter fun edge =>
        edge.toKey ∈ (versions.filter (ofTool server tool)).map StoredVersion.key) =
          (neighbours chain).map (edgeOf codec) ∧
      ((neighbours chain).map (edgeOf codec)).length = (versions.filter (ofTool server tool)).length - 1) ∧
    (∀ edge ∈ linkVersions codec versions, ∃ older ∈ versions, ∃ newer ∈ versions,
      older.serverKey = newer.serverKey ∧ older.toolName = newer.toolName ∧ edge = edgeOf codec (older, newer)) ∧
    ∀ key, ¬Relation.TransGen (Linked (linkVersions codec versions)) key key := by
  refine ⟨fun other perm => ?_, fun server tool => ?_, fun edge member => ?_,
    acyclic_linkVersions distinctIds distinctKeys codec⟩
  · rw [linkVersions, linkVersions, sortVersions_congr distinctIds perm]
  · have chain := chainOf_filter distinctIds server tool
    refine ⟨_, chain, filter_edges codec server tool _ fun pair inside same => ?_,
      filter_edges codec server tool _ fun pair inside same => ?_, ?_⟩
    · have newer : pair.2 ∈ versions := mem_sortVersions.1 (mem_of_mem_neighbours inside).2
      exact decide_eq_true_iff.trans (mem_chain_keys distinctKeys newer server tool)
    · have older : pair.1 ∈ versions := mem_sortVersions.1 (mem_of_mem_neighbours inside).1
      have belongs : ofTool server tool pair.1 = ofTool server tool pair.2 := by
        simp only [StoredVersion.tool, toLex_inj, Prod.mk.injEq] at same
        simp [ofTool, same]
      rw [← belongs]
      exact decide_eq_true_iff.trans (mem_chain_keys distinctKeys older server tool)
    · rw [List.length_map, length_neighbours, chain.whole.length_eq]
  · obtain ⟨pair, inside, same, rfl⟩ := exists_of_mem_linkVersions member
    obtain ⟨left, right⟩ := mem_of_mem_neighbours inside
    simp only [StoredVersion.tool, toLex_inj, Prod.mk.injEq] at same
    exact ⟨pair.1, mem_sortVersions.1 left, pair.2, mem_sortVersions.1 right, same.1, same.2, rfl⟩

/-- A version of a tool of one server, told from the others by its digest. -/
def versionAt (tool digest : String) (firstSeenAtNs id : Int) : StoredVersion where
  serverKey := "s"
  toolName := tool
  descriptionHash := some digest
  schemaHash := none
  contractHash := none
  descriptionRedacted := none
  inputSchemaRedacted := none
  firstSessionId := "1"
  firstSeenAtNs := firstSeenAtNs
  lastSeenAtNs := firstSeenAtNs
  id := id

/-- Two versions of `search` were seen at one time, and one of another tool between them and the oldest. -/
def seenVersions : List StoredVersion :=
  [versionAt "search" "c" 7 4, versionAt "fetch" "a" 5 1, versionAt "search" "a" 3 2, versionAt "search" "b" 7 3]

theorem supersessions_form_chains_seenVersions :
    (∀ other, seenVersions.Perm other → linkVersions Compact.codec other = linkVersions Compact.codec seenVersions) ∧
    (∀ server tool, ∃ chain, ChainOf seenVersions server tool chain ∧
      ((linkVersions Compact.codec seenVersions).filter fun edge =>
        edge.fromKey ∈ (seenVersions.filter (ofTool server tool)).map StoredVersion.key) =
          (neighbours chain).map (edgeOf Compact.codec) ∧
      ((linkVersions Compact.codec seenVersions).filter fun edge =>
        edge.toKey ∈ (seenVersions.filter (ofTool server tool)).map StoredVersion.key) =
          (neighbours chain).map (edgeOf Compact.codec) ∧
      ((neighbours chain).map (edgeOf Compact.codec)).length = (seenVersions.filter (ofTool server tool)).length - 1) ∧
    (∀ edge ∈ linkVersions Compact.codec seenVersions, ∃ older ∈ seenVersions, ∃ newer ∈ seenVersions,
      older.serverKey = newer.serverKey ∧ older.toolName = newer.toolName ∧
        edge = edgeOf Compact.codec (older, newer)) ∧
    ∀ key, ¬Relation.TransGen (Linked (linkVersions Compact.codec seenVersions)) key key :=
  supersessions_form_chains Compact.codec seenVersions (by decide) (by decide +kernel)

end McpTracer.Intel
