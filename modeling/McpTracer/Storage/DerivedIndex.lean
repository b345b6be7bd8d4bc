import Mathlib.Data.Prod.Lex
import Mathlib.Data.String.Basic
import McpTracer.Foundation.Upsert
import McpTracer.Json.Value
import McpTracer.Storage.Database

/-! The tables of what is derived from recorded sessions.

Facts, edges and observations belong to a session and are replaced with it. A tool version belongs to no
session: it is merged from all that listed it. Edges from one version to another span sessions, and are
replaced all together.
-/

set_option autoImplicit false

namespace McpTracer.Storage
open McpTracer.Foundation McpTracer.Json

/-! ## Records -/

/-- A sequence number is unsigned in a record and signed in a row. -/
structure MemoryFact (Seq : Type) where
  factType : String
  subjectType : String
  subjectKey : String
  objectType : Option String
  objectKey : Option String
  valueJson : String
  confidence : F64
  sessionId : Option String
  seqStart : Option Seq
  seqEnd : Option Seq
  source : String
  observedAtNs : Int
  createdAtNs : Int
  deriving DecidableEq

structure MemoryEdge where
  edgeType : String
  fromType : String
  fromKey : String
  toType : String
  toKey : String
  valueJson : String
  sessionId : Option String
  source : String
  observedAtNs : Int
  createdAtNs : Int
  deriving DecidableEq

structure ToolVersionRecord where
  serverKey : String
  toolName : String
  descriptionHash : Option String
  schemaHash : Option String
  contractHash : Option String
  descriptionRedacted : Option String
  inputSchemaRedacted : Option String
  firstSessionId : String
  firstSeenAtNs : Int
  lastSeenAtNs : Int
  deriving DecidableEq

structure ToolVersionObservation (Seq : Type) where
  sessionId : String
  serverKey : String
  toolName : String
  versionKey : String
  descriptionHash : Option String
  schemaHash : Option String
  contractHash : Option String
  seq : Option Seq
  observedAtNs : Int
  deriving DecidableEq

/-! ## Rows -/

def MemoryFact.toRow (fact : MemoryFact Nat) : MemoryFact Int :=
  { fact with seqStart := fact.seqStart.map wrapI64, seqEnd := fact.seqEnd.map wrapI64 }

def ToolVersionObservation.toRow (observation : ToolVersionObservation Nat) : ToolVersionObservation Int :=
  { observation with seq := observation.seq.map wrapI64 }

/-- What identifies a version. No hash is absent in what the extraction writes. -/
abbrev VersionIdentity : Type := String × String × Option String × Option String × Option String

def ToolVersionRecord.identity (version : ToolVersionRecord) : VersionIdentity :=
  (version.serverKey, version.toolName, version.descriptionHash, version.schemaHash, version.contractHash)

/-- The row keeps its first session unless the item was seen earlier. -/
def ToolVersionRecord.merge (row item : ToolVersionRecord) : ToolVersionRecord :=
  { row with
    firstSessionId := if item.firstSeenAtNs < row.firstSeenAtNs then item.firstSessionId else row.firstSessionId
    firstSeenAtNs := min row.firstSeenAtNs item.firstSeenAtNs
    lastSeenAtNs := max row.lastSeenAtNs item.lastSeenAtNs }

@[simp] theorem ToolVersionRecord.identity_merge (row item : ToolVersionRecord) :
    (row.merge item).identity = row.identity := rfl

/-- The row says when the items were first and last seen, and in which session first. -/
structure ToolVersionRecord.Summarizes (row : ToolVersionRecord) (items : List ToolVersionRecord) : Prop where
  first : ∀ item ∈ items, row.firstSeenAtNs ≤ item.firstSeenAtNs
  last : ∀ item ∈ items, item.lastSeenAtNs ≤ row.lastSeenAtNs
  inFirst : ∃ item ∈ items, item.firstSeenAtNs = row.firstSeenAtNs ∧ item.firstSessionId = row.firstSessionId
  inLast : ∃ item ∈ items, item.lastSeenAtNs = row.lastSeenAtNs

theorem ToolVersionRecord.summarizes_singleton (item : ToolVersionRecord) : item.Summarizes [item] where
  first := by simp
  last := by simp
  inFirst := ⟨item, by simp⟩
  inLast := ⟨item, by simp⟩

theorem ToolVersionRecord.Summarizes.merge {row : ToolVersionRecord} {items : List ToolVersionRecord}
    (summary : row.Summarizes items) (item : ToolVersionRecord) : (row.merge item).Summarizes (items ++ [item]) where
  first := by
    intro other member
    rcases List.mem_append.1 member with old | new
    · exact (min_le_left _ _).trans (summary.first other old)
    · exact List.mem_singleton.1 new ▸ min_le_right _ _
  last := by
    intro other member
    rcases List.mem_append.1 member with old | new
    · exact (summary.last other old).trans (le_max_left _ _)
    · exact List.mem_singleton.1 new ▸ le_max_right _ _
  inFirst := by
    by_cases earlier : item.firstSeenAtNs < row.firstSeenAtNs
    · exact ⟨item, by simp, by simp [ToolVersionRecord.merge, earlier, earlier.le]⟩
    · obtain ⟨first, member, seen, session⟩ := summary.inFirst
      exact ⟨first, by simp [member], by simp [ToolVersionRecord.merge, earlier, not_lt.1 earlier, seen, session]⟩
  inLast := by
    rcases le_total item.lastSeenAtNs row.lastSeenAtNs with before | after
    · obtain ⟨last, member, seen⟩ := summary.inLast
      exact ⟨last, by simp [member], by simp [ToolVersionRecord.merge, before, seen]⟩
    · exact ⟨item, by simp, by simp [ToolVersionRecord.merge, after]⟩

theorem ToolVersionRecord.summarizes_foldl (first : ToolVersionRecord) (rest : List ToolVersionRecord) :
    (rest.foldl ToolVersionRecord.merge first).Summarizes (first :: rest) := by
  induction rest using List.reverseRecOn with
  | nil => exact first.summarizes_singleton
  | append_singleton rest item ih =>
    rw [List.foldl_append]
    exact ih.merge item

theorem ToolVersionRecord.redacted_foldl (first : ToolVersionRecord) (rest : List ToolVersionRecord) :
    (rest.foldl ToolVersionRecord.merge first).descriptionRedacted = first.descriptionRedacted ∧
      (rest.foldl ToolVersionRecord.merge first).inputSchemaRedacted = first.inputSchemaRedacted := by
  induction rest generalizing first with
  | nil => exact ⟨rfl, rfl⟩
  | cons item rest ih => exact ih (first.merge item)

/-- Seen at the earliest time, the first session stays the first. -/
theorem ToolVersionRecord.foldl_merge_first {first : ToolVersionRecord} {rest : List ToolVersionRecord}
    (earliest : ∀ item ∈ rest, first.firstSeenAtNs ≤ item.firstSeenAtNs) :
    (rest.foldl ToolVersionRecord.merge first).firstSessionId = first.firstSessionId ∧
      (rest.foldl ToolVersionRecord.merge first).firstSeenAtNs = first.firstSeenAtNs := by
  induction rest generalizing first with
  | nil => exact ⟨rfl, rfl⟩
  | cons item rest ih =>
    obtain ⟨here, later⟩ := List.forall_mem_cons.1 earliest
    have seen : (first.merge item).firstSeenAtNs = first.firstSeenAtNs := min_eq_left here
    have session : (first.merge item).firstSessionId = first.firstSessionId := if_neg (not_lt.2 here)
    have kept := @ih (first.merge item) (by rwa [seen])
    rwa [session, seen] at kept

def ToolVersionObservation.place (observation : ToolVersionObservation Int) : String × String × String × String :=
  (observation.sessionId, observation.serverKey, observation.toolName, observation.versionKey)

def ToolVersionObservation.merge (row item : ToolVersionObservation Int) : ToolVersionObservation Int :=
  { row with
    descriptionHash := item.descriptionHash
    schemaHash := item.schemaHash
    contractHash := item.contractHash
    seq := item.seq
    observedAtNs := item.observedAtNs }

@[simp] theorem ToolVersionObservation.place_merge (row item : ToolVersionObservation Int) :
    (row.merge item).place = row.place := rfl

/-- The row of a version with its number; rows are numbered in the order in which they were inserted. -/
structure ToolVersionRow extends ToolVersionRecord where
  id : Nat
  deriving DecidableEq

def ToolVersionRow.sortKey (row : ToolVersionRow) : String ×ₗ String ×ₗ Int ×ₗ Nat :=
  toLex (row.serverKey, toLex (row.toolName, toLex (row.firstSeenAtNs, row.id)))

def numbered (versions : List ToolVersionRecord) : List ToolVersionRow :=
  (versions.zipIdx 1).map fun version => { version.1 with id := version.2 }

theorem map_toToolVersionRecord_numbered (versions : List ToolVersionRecord) :
    (numbered versions).map ToolVersionRow.toToolVersionRecord = versions := by
  rw [numbered, List.map_map]
  exact List.zipIdx_map_fst 1 versions

theorem nodup_map_id_numbered (versions : List ToolVersionRecord) :
    ((numbered versions).map ToolVersionRow.id).Nodup := by
  have ids : (numbered versions).map ToolVersionRow.id = List.range' 1 versions.length := by
    rw [numbered, List.map_map]
    exact List.zipIdx_map_snd 1 versions
  rw [ids]
  exact List.nodup_range'

theorem mem_numbered_iff {versions : List ToolVersionRecord} {row : ToolVersionRow} :
    row ∈ numbered versions ↔ ∃ position, row.id = position + 1 ∧ versions[position]? = some row.toToolVersionRecord := by
  simp only [numbered, List.mem_map, List.mem_zipIdx_iff_le_and_getElem?_sub, Prod.exists]
  constructor
  · rintro ⟨version, id, ⟨positive, found⟩, rfl⟩
    exact ⟨id - 1, by simp only; omega, found⟩
  · rintro ⟨position, id, found⟩
    exact ⟨row.toToolVersionRecord, row.id, ⟨by omega, by rw [id, Nat.add_sub_cancel]; exact found⟩, rfl⟩

/-! ## Queries on sessions -/

def SessionRow.sessionOrder (row : SessionRow) : Int ×ₗ String := toLex (row.startedAtNs, row.id.text)

/-- All recorded session ids, oldest first. -/
def Database.allSessionIds (db : Database) : List String :=
  (db.sessions.insertionSort fun a b => a.sessionOrder ≤ b.sessionOrder).map fun row => row.id.text

theorem Database.eq_of_id_text {db : Database} {a b : SessionRow} (left : a ∈ db.sessions) (right : b ∈ db.sessions)
    (same : a.id.text = b.id.text) : a = b :=
  List.inj_on_of_nodup_map db.uniqueIds left right (by
    cases first : a.id
    cases second : b.id
    simpa [first, second] using same)

def Database.getServerCommand (db : Database) (sessionIdOrPrefix : String) : Except StoreError String :=
  SessionRow.serverCommand <$> db.resolveSessionId sessionIdOrPrefix

def Database.getRedactionPolicy (db : Database) (sessionIdOrPrefix : String) : Except StoreError String :=
  SessionRow.redactionPolicy <$> db.resolveSessionId sessionIdOrPrefix

/-! ## Tables -/

structure DerivedIndex where
  facts : List (MemoryFact Int)
  edges : List MemoryEdge
  toolVersions : List ToolVersionRecord
  observations : List (ToolVersionObservation Int)
  uniqueVersions : (toolVersions.map ToolVersionRecord.identity).Nodup
  uniqueObservations : (observations.map ToolVersionObservation.place).Nodup

namespace DerivedIndex

def empty : DerivedIndex where
  facts := []
  edges := []
  toolVersions := []
  observations := []
  uniqueVersions := List.nodup_nil
  uniqueObservations := List.nodup_nil

def rebuildMemoryForSession (index : DerivedIndex) (sessionId : String) (facts : List (MemoryFact Nat))
    (edges : List MemoryEdge) (toolVersions : List ToolVersionRecord)
    (observations : List (ToolVersionObservation Nat)) : DerivedIndex where
  facts := replaceOwned MemoryFact.sessionId index.facts (some sessionId) (facts.map MemoryFact.toRow)
  edges := replaceOwned MemoryEdge.sessionId index.edges (some sessionId) edges
  toolVersions := upsertAll ToolVersionRecord.identity ToolVersionRecord.merge index.toolVersions toolVersions
  observations := upsertAll ToolVersionObservation.place ToolVersionObservation.merge
    (index.observations.filter fun row => row.sessionId ≠ sessionId) (observations.map ToolVersionObservation.toRow)
  uniqueVersions := nodup_upsertAll ToolVersionRecord.identity_merge index.uniqueVersions toolVersions
  uniqueObservations := nodup_upsertAll ToolVersionObservation.place_merge
    (index.uniqueObservations.sublist (List.filter_sublist.map _)) _

def replaceSupersessionEdges (index : DerivedIndex) (edges : List MemoryEdge) : DerivedIndex :=
  { index with edges := (index.edges.filter fun edge => edge.edgeType ≠ "version_supersedes") ++ edges }

def listToolVersions (index : DerivedIndex) : List ToolVersionRow :=
  (numbered index.toolVersions).insertionSort fun a b => a.sortKey ≤ b.sortKey

/-- Rows are listed in a strict order, as no two have the same number. -/
theorem pairwise_listToolVersions (index : DerivedIndex) :
    index.listToolVersions.Pairwise fun a b => a.sortKey < b.sortKey := by
  have sorted : index.listToolVersions.Pairwise fun a b => a.sortKey ≤ b.sortKey :=
    @List.pairwise_insertionSort _ _ _ ⟨fun a b : ToolVersionRow => le_total a.sortKey b.sortKey⟩ ⟨fun _ _ _ => le_trans⟩ _
  have perm : (index.listToolVersions.map ToolVersionRow.id).Perm ((numbered index.toolVersions).map ToolVersionRow.id) :=
    (List.perm_insertionSort _ _).map _
  have distinct := List.pairwise_map.1 (perm.nodup_iff.2 (nodup_map_id_numbered index.toolVersions))
  refine (sorted.and distinct).imp fun {a b} both => lt_of_le_of_ne both.1 fun same => both.2 ?_
  simpa [ToolVersionRow.sortKey] using congrArg (fun key => (ofLex (ofLex (ofLex key).2).2).2) same

theorem mem_listToolVersions {index : DerivedIndex} {row : ToolVersionRow} :
    row ∈ index.listToolVersions ↔ row ∈ numbered index.toolVersions :=
  List.mem_insertionSort _

theorem perm_listToolVersions (index : DerivedIndex) :
    (index.listToolVersions.map ToolVersionRow.toToolVersionRecord).Perm index.toolVersions := by
  have perm : (index.listToolVersions.map ToolVersionRow.toToolVersionRecord).Perm
      ((numbered index.toolVersions).map ToolVersionRow.toToolVersionRecord) := (List.perm_insertionSort _ _).map _
  rwa [map_toToolVersionRecord_numbered] at perm

theorem mem_toolVersions {index : DerivedIndex} {row : ToolVersionRow} (member : row ∈ index.listToolVersions) :
    row.toToolVersionRecord ∈ index.toolVersions :=
  (perm_listToolVersions index).mem_iff.1 (List.mem_map_of_mem member)

end DerivedIndex

end McpTracer.Storage
