import McpTracer.Foundation.Neighbours
import McpTracer.Intel.Extraction

/-! Which tool version took the place of which.

The versions of a tool are put in the order in which they were first seen; of versions that were first seen
at one time, the one that was inserted first comes first.
-/

set_option autoImplicit false

namespace McpTracer.Intel
open McpTracer.Foundation McpTracer.Json McpTracer.Storage McpTracer.Storage.DerivedIndex

def toolVersionKeyFromRow (row : ToolVersionRecord) : String :=
  toolVersionKey row.serverKey row.toolName (row.descriptionHash.getD "") (row.schemaHash.getD "")
    (row.contractHash.getD "")

/-- The digests of a version have the length of a digest. -/
def Hashed (identity : VersionIdentity) : Prop :=
  identity.1.length = 71 ∧ ∃ d s c : String, identity.2.2 = (some d, some s, some c) ∧
    d.length = 64 ∧ s.length = 64 ∧ c.length = 64

/-- The key of a version tells it from every other. -/
theorem identity_of_toolVersionKeyFromRow {a b : ToolVersionRecord} (left : Hashed a.identity) (right : Hashed b.identity)
    (same : toolVersionKeyFromRow a = toolVersionKeyFromRow b) : a.identity = b.identity := by
  obtain ⟨server, d, s, c, hashes, dLength, sLength, cLength⟩ := left
  obtain ⟨otherServer, d', s', c', otherHashes, dLength', sLength', cLength'⟩ := right
  simp only [ToolVersionRecord.identity, Prod.mk.injEq] at server otherServer hashes otherHashes
  simp only [toolVersionKeyFromRow, hashes, otherHashes, Option.getD_some] at same
  obtain ⟨sameServer, tool, rfl, rfl, rfl⟩ := toolVersionKey_injective (server.trans otherServer.symm)
    (dLength.trans dLength'.symm) (sLength.trans sLength'.symm) (cLength.trans cLength'.symm) same
  simp [ToolVersionRecord.identity, sameServer, tool, hashes, otherHashes]

def supersession (codec : Codec) (older newer : ToolVersionRecord) : MemoryEdge where
  edgeType := "version_supersedes"
  fromType := "tool_version"
  fromKey := toolVersionKeyFromRow newer
  toType := "tool_version"
  toKey := toolVersionKeyFromRow older
  valueJson := codec.toString (.object [
    ("from_description_hash", optionValue newer.descriptionHash),
    ("from_schema_hash", optionValue newer.schemaHash),
    ("server_key", .string newer.serverKey),
    ("to_description_hash", optionValue older.descriptionHash),
    ("to_schema_hash", optionValue older.schemaHash),
    ("tool_name", .string newer.toolName)])
  sessionId := none
  source := supersessionSource
  observedAtNs := newer.firstSeenAtNs
  createdAtNs := newer.firstSeenAtNs

def sameTool (a b : ToolVersionRecord) : Bool := a.serverKey = b.serverKey && a.toolName = b.toolName

/-- In the sorted list the versions of a tool stand together, so the windows of its group are neighbours. -/
def computeVersionSupersessions (codec : Codec) (versions : List ToolVersionRow) : List MemoryEdge :=
  let sorted := (versions.insertionSort fun a b => a.sortKey ≤ b.sortKey).map ToolVersionRow.toToolVersionRecord
  ((neighbours sorted).filter fun pair => sameTool pair.1 pair.2).map fun pair => supersession codec pair.1 pair.2

/-! ## The order of versions -/

/-- Where a version stands, but for the number of its row. -/
def firstSeenOrder (version : ToolVersionRecord) : String ×ₗ String ×ₗ Int :=
  toLex (version.serverKey, toLex (version.toolName, version.firstSeenAtNs))

theorem firstSeenOrder_le {a b : ToolVersionRow} (le : a.sortKey ≤ b.sortKey) :
    firstSeenOrder a.toToolVersionRecord ≤ firstSeenOrder b.toToolVersionRecord := by
  simp only [ToolVersionRow.sortKey, firstSeenOrder, Prod.Lex.toLex_le_toLex] at le ⊢
  rcases le with server | ⟨server, tool | ⟨tool, first | ⟨first, _⟩⟩⟩
  · exact .inl server
  · exact .inr ⟨server, .inl tool⟩
  · exact .inr ⟨server, .inr ⟨tool, first.le⟩⟩
  · exact .inr ⟨server, .inr ⟨tool, first.le⟩⟩

theorem firstSeenOrder_injective {a b : ToolVersionRecord} (same : firstSeenOrder a = firstSeenOrder b) :
    a.serverKey = b.serverKey ∧ a.toolName = b.toolName ∧ a.firstSeenAtNs = b.firstSeenAtNs := by
  simpa [firstSeenOrder] using same

/-- Versions of one tool are first seen at different times. -/
def Untied (versions : List ToolVersionRecord) : Prop :=
  ∀ a ∈ versions, ∀ b ∈ versions, firstSeenOrder a = firstSeenOrder b → a = b

theorem computeVersionSupersessions_listToolVersions (codec : Codec) (index : DerivedIndex) :
    computeVersionSupersessions codec index.listToolVersions =
      ((neighbours (index.listToolVersions.map ToolVersionRow.toToolVersionRecord)).filter fun pair =>
        sameTool pair.1 pair.2).map fun pair => supersession codec pair.1 pair.2 := by
  have sorted : index.listToolVersions.Pairwise fun a b => a.sortKey ≤ b.sortKey :=
    (pairwise_listToolVersions index).imp le_of_lt
  rw [computeVersionSupersessions, sorted.insertionSort_eq]

/-- Without ties the numbers of the rows do not matter. -/
theorem computeVersionSupersessions_eq (codec : Codec) {index other : DerivedIndex}
    (same : index.toolVersions.Perm other.toolVersions) (untied : Untied index.toolVersions) :
    computeVersionSupersessions codec index.listToolVersions = computeVersionSupersessions codec other.listToolVersions := by
  have sorted : ∀ index : DerivedIndex, (index.listToolVersions.map ToolVersionRow.toToolVersionRecord).Pairwise
      fun a b => firstSeenOrder a ≤ firstSeenOrder b := fun index =>
    List.pairwise_map.2 ((pairwise_listToolVersions index).imp fun less => firstSeenOrder_le less.le)
  have perm := (perm_listToolVersions index).trans (same.trans (perm_listToolVersions other).symm)
  have equal := perm.eq_of_pairwise (fun a b member found above below =>
    untied a ((perm_listToolVersions index).mem_iff.1 member) b
      (same.mem_iff.2 ((perm_listToolVersions other).mem_iff.1 found)) (le_antisymm above below))
    (sorted index) (sorted other)
  rw [computeVersionSupersessions_listToolVersions, computeVersionSupersessions_listToolVersions, equal]

/-- Of two versions of a tool that were first seen at one time, with no other inserted between them, the later one
is said to supersede the earlier. -/
theorem supersession_mem_of_tied (codec : Codec) {index : DerivedIndex} {older newer : ToolVersionRow}
    (olderMember : older ∈ index.listToolVersions) (newerMember : newer ∈ index.listToolVersions)
    (tied : firstSeenOrder older.toToolVersionRecord = firstSeenOrder newer.toToolVersionRecord) (less : older.id < newer.id)
    (none : ∀ row ∈ index.listToolVersions, firstSeenOrder row.toToolVersionRecord = firstSeenOrder newer.toToolVersionRecord →
      older.id < row.id → ¬row.id < newer.id) :
    supersession codec older.toToolVersionRecord newer.toToolVersionRecord ∈
      computeVersionSupersessions codec index.listToolVersions := by
  obtain ⟨server, tool, first⟩ := firstSeenOrder_injective tied
  have below : older.sortKey < newer.sortKey := by
    simp [ToolVersionRow.sortKey, Prod.Lex.toLex_lt_toLex, server, tool, first, less]
  have pair : (older, newer) ∈ neighbours index.listToolVersions := by
    refine mem_neighbours_of_none_between (fun _ _ => lt_asymm) (pairwise_listToolVersions index) olderMember
      newerMember below fun row member above beneath => ?_
    have between : firstSeenOrder row.toToolVersionRecord = firstSeenOrder newer.toToolVersionRecord :=
      le_antisymm (firstSeenOrder_le beneath.le) (tied ▸ firstSeenOrder_le above.le)
    obtain ⟨rowServer, rowTool, rowFirst⟩ := firstSeenOrder_injective between
    refine none row member between ?_ ?_
    · simpa [ToolVersionRow.sortKey, Prod.Lex.toLex_lt_toLex, server, tool, first, rowServer, rowTool, rowFirst] using above
    · simpa [ToolVersionRow.sortKey, Prod.Lex.toLex_lt_toLex, rowServer, rowTool, rowFirst] using beneath
  rw [computeVersionSupersessions_listToolVersions, neighbours_map]
  refine List.mem_map.2 ⟨(older.toToolVersionRecord, newer.toToolVersionRecord), List.mem_filter.2 ⟨?_, ?_⟩, rfl⟩
  · exact List.mem_map.2 ⟨(older, newer), pair, rfl⟩
  · simp [sameTool, server, tool]

/-- An edge says of two rows of one tool which is first in the order of the rows. -/
theorem exists_of_mem_computeVersionSupersessions {codec : Codec} {index : DerivedIndex} {edge : MemoryEdge}
    (member : edge ∈ computeVersionSupersessions codec index.listToolVersions) :
    ∃ older ∈ index.listToolVersions, ∃ newer ∈ index.listToolVersions, older.sortKey < newer.sortKey ∧
      sameTool older.toToolVersionRecord newer.toToolVersionRecord = true ∧
        edge = supersession codec older.toToolVersionRecord newer.toToolVersionRecord := by
  rw [computeVersionSupersessions_listToolVersions, neighbours_map] at member
  obtain ⟨pair, kept, rfl⟩ := List.mem_map.1 member
  obtain ⟨inside, same⟩ := List.mem_filter.1 kept
  obtain ⟨rows, adjacent, rfl⟩ := List.mem_map.1 inside
  exact ⟨rows.1, (mem_of_mem_neighbours adjacent).1, rows.2, (mem_of_mem_neighbours adjacent).2,
    less_of_mem_neighbours (pairwise_listToolVersions index) adjacent, same, rfl⟩

end McpTracer.Intel
