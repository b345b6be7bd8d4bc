import McpTracer.Proxy.IndexRebuild

/-! When the derived index does not depend on the order of the rebuilds.

It depends on it just where two sessions are the first to list a version, or two versions of a tool are first
listed at one time: then the session that is rebuilt first decides.
-/

set_option autoImplicit false

namespace McpTracer.Proxy
open McpTracer.Foundation McpTracer.Json McpTracer.Model McpTracer.Protocol McpTracer.Storage McpTracer.Intel

section Confluence
variable (codec : Codec) (sha256Hex : String → String) (db : Database)

/-! ## Listings -/

/-- What the recorded sessions list. -/
def listings : List ToolVersionRecord := db.sessions.flatMap (versionsOf codec sha256Hex db)

/-- No session listed the version before. -/
def Earliest (listing : ToolVersionRecord) : Prop :=
  ∀ other ∈ listings codec sha256Hex db, other.identity = listing.identity → listing.firstSeenAtNs ≤ other.firstSeenAtNs

/-- Each version was first listed by one session, and no two versions of a tool were first listed at one time. -/
def FirstListingsDiffer : Prop :=
  ∀ a ∈ listings codec sha256Hex db, ∀ b ∈ listings codec sha256Hex db,
    Earliest codec sha256Hex db a → Earliest codec sha256Hex db b → firstSeenOrder a = firstSeenOrder b → a = b

def Covers (runs : List (Option String)) : Prop := ∀ row ∈ db.sessions, ∃ run ∈ runs, row ∈ selected db run

/-- The rows of both are the same, up to their order and so to their numbers. -/
structure SameData (index other : DerivedIndex) : Prop where
  facts : index.facts.Perm other.facts
  edges : index.edges.Perm other.edges
  toolVersions : index.toolVersions.Perm other.toolVersions
  observations : index.observations.Perm other.observations

variable {codec sha256Hex db}

/-- A session lists a tool once. -/
theorem eq_of_mem_versionsOf {row : SessionRow} {a b : ToolVersionRecord} (left : a ∈ versionsOf codec sha256Hex db row)
    (right : b ∈ versionsOf codec sha256Hex db row) (same : a.toolName = b.toolName) : a = b := by
  obtain ⟨tool, listed, rfl⟩ := mem_versionsOf left
  obtain ⟨other, found, rfl⟩ := mem_versionsOf right
  rw [List.inj_on_of_nodup_map (nodup_listedTools codec sha256Hex _) listed found same]

/-- What a row of the index stands for: a first listing among the visited, and a last one. -/
theorem Collected.summarizes {visits : List SessionRow} {index : DerivedIndex}
    (collected : Collected codec sha256Hex db visits index) {version : ToolVersionRecord} (member : version ∈ index.toolVersions) :
    version.Summarizes ((visits.flatMap (versionsOf codec sha256Hex db)).filter fun item => item.identity = version.identity) := by
  rw [collected.toolVersions] at member
  obtain ⟨first, rest, group, rfl⟩ := exists_of_mem_upsertAll ToolVersionRecord.identity_merge member
  rw [group]
  exact first.summarizes_foldl rest

theorem Collected.redacted {visits : List SessionRow} {index : DerivedIndex}
    (collected : Collected codec sha256Hex db visits index) {version : ToolVersionRecord} (member : version ∈ index.toolVersions) :
    version.descriptionRedacted = none ∧ version.inputSchemaRedacted = none := by
  rw [collected.toolVersions] at member
  obtain ⟨first, rest, group, rfl⟩ := exists_of_mem_upsertAll ToolVersionRecord.identity_merge member
  have inside : first ∈ visits.flatMap (versionsOf codec sha256Hex db) :=
    List.mem_of_mem_filter (group ▸ List.mem_cons_self : first ∈ _)
  obtain ⟨row, _, listed⟩ := List.mem_flatMap.1 inside
  obtain ⟨tool, _, rfl⟩ := mem_versionsOf listed
  exact ToolVersionRecord.redacted_foldl _ rest

section Covered
variable {visits : List SessionRow} (all : ∀ row, row ∈ visits ↔ row ∈ db.sessions)

include all

theorem mem_flatMap_versionsOf {version : ToolVersionRecord} :
    version ∈ visits.flatMap (versionsOf codec sha256Hex db) ↔ version ∈ listings codec sha256Hex db := by
  simp only [listings, List.mem_flatMap, all]

/-- The first session of a version is one that listed it first. -/
theorem Collected.firstListing {index : DerivedIndex} (collected : Collected codec sha256Hex db visits index)
    {version : ToolVersionRecord} (member : version ∈ index.toolVersions) :
    ∃ listing ∈ listings codec sha256Hex db, Earliest codec sha256Hex db listing ∧ listing.identity = version.identity ∧
      listing.firstSeenAtNs = version.firstSeenAtNs ∧ listing.firstSessionId = version.firstSessionId := by
  have summary := collected.summarizes member
  obtain ⟨listing, inside, seen, session⟩ := summary.inFirst
  obtain ⟨visited, same⟩ := List.mem_filter.1 inside
  have same : listing.identity = version.identity := of_decide_eq_true same
  refine ⟨listing, (mem_flatMap_versionsOf all).1 visited, fun other listed equal => ?_, same, seen, session⟩
  rw [seen]
  exact summary.first other (List.mem_filter.2 ⟨(mem_flatMap_versionsOf all).2 listed, decide_eq_true (equal.trans same)⟩)

theorem Collected.lastListing {index : DerivedIndex} (collected : Collected codec sha256Hex db visits index)
    {version : ToolVersionRecord} (member : version ∈ index.toolVersions) :
    (∃ listing ∈ listings codec sha256Hex db, listing.identity = version.identity ∧
      listing.lastSeenAtNs = version.lastSeenAtNs) ∧
      ∀ listing ∈ listings codec sha256Hex db, listing.identity = version.identity →
        listing.lastSeenAtNs ≤ version.lastSeenAtNs := by
  have summary := collected.summarizes member
  refine ⟨?_, fun listing listed same => ?_⟩
  · obtain ⟨listing, inside, seen⟩ := summary.inLast
    obtain ⟨visited, same⟩ := List.mem_filter.1 inside
    exact ⟨listing, (mem_flatMap_versionsOf all).1 visited, of_decide_eq_true same, seen⟩
  · exact summary.last listing (List.mem_filter.2 ⟨(mem_flatMap_versionsOf all).2 listed, decide_eq_true same⟩)

theorem Collected.mem_identities {index : DerivedIndex} (collected : Collected codec sha256Hex db visits index)
    {identity : VersionIdentity} : identity ∈ index.toolVersions.map ToolVersionRecord.identity ↔
      identity ∈ (listings codec sha256Hex db).map ToolVersionRecord.identity := by
  rw [collected.toolVersions, mem_map_key_upsertAll ToolVersionRecord.identity_merge]
  simp only [List.map_nil, List.not_mem_nil, false_or, List.mem_map, mem_flatMap_versionsOf all]

end Covered

/-! ## Without ties -/

section Untied
variable {visits others : List SessionRow} {index other : DerivedIndex} (differ : FirstListingsDiffer codec sha256Hex db)
  (all : ∀ row, row ∈ visits ↔ row ∈ db.sessions) (allOthers : ∀ row, row ∈ others ↔ row ∈ db.sessions)
  (collected : Collected codec sha256Hex db visits index) (otherCollected : Collected codec sha256Hex db others other)

include differ all allOthers collected otherCollected

theorem toolVersions_subset : index.toolVersions ⊆ other.toolVersions := by
  intro version member
  obtain ⟨first, firstListed, firstEarliest, firstSame, firstSeen, firstSession⟩ := collected.firstListing all member
  obtain ⟨⟨last, lastListed, lastSame, lastSeen⟩, latest⟩ := collected.lastListing all member
  have identified : version.identity ∈ other.toolVersions.map ToolVersionRecord.identity := by
    rw [otherCollected.mem_identities allOthers, ← firstSame]
    exact List.mem_map_of_mem firstListed
  obtain ⟨row, found, same⟩ := List.mem_map.1 identified
  obtain ⟨listing, listed, earliest, listingSame, seen, session⟩ := otherCollected.firstListing allOthers found
  obtain ⟨⟨final, finalListed, finalSame, finalSeen⟩, finalLatest⟩ := otherCollected.lastListing allOthers found
  have sameListing : listing.identity = first.identity := (listingSame.trans same).trans firstSame.symm
  have sameTime : listing.firstSeenAtNs = first.firstSeenAtNs :=
    le_antisymm (earliest first firstListed sameListing.symm) (firstEarliest listing listed sameListing)
  have sameOrder : firstSeenOrder listing = firstSeenOrder first := by
    simp only [ToolVersionRecord.identity, Prod.mk.injEq] at sameListing
    rw [firstSeenOrder, firstSeenOrder, sameListing.1, sameListing.2.1, sameTime]
  obtain rfl := differ listing listed first firstListed earliest firstEarliest sameOrder
  have sameLast : row.lastSeenAtNs = version.lastSeenAtNs := by
    apply le_antisymm
    · rw [← finalSeen]
      exact latest final finalListed (finalSame.trans same)
    · rw [← lastSeen]
      exact finalLatest last lastListed (lastSame.trans same.symm)
  have fields := same
  simp only [ToolVersionRecord.identity, Prod.mk.injEq] at fields
  have equal : version = row := by
    have redacted := collected.redacted member
    have otherRedacted := otherCollected.redacted found
    cases version
    cases row
    simp_all
  exact equal ▸ found

theorem toolVersions_perm : index.toolVersions.Perm other.toolVersions :=
  (List.perm_ext_iff_of_nodup index.uniqueVersions.of_map other.uniqueVersions.of_map).2 fun _ =>
    ⟨fun member => toolVersions_subset differ all allOthers collected otherCollected member,
      fun member => toolVersions_subset differ allOthers all otherCollected collected member⟩

omit allOthers otherCollected in
theorem untied_toolVersions : Untied index.toolVersions := by
  intro a left b right same
  obtain ⟨first, listed, earliest, firstSame, firstSeen, _⟩ := collected.firstListing all left
  obtain ⟨second, otherListed, otherEarliest, secondSame, secondSeen, _⟩ := collected.firstListing all right
  obtain ⟨server, tool, seen⟩ := firstSeenOrder_injective same
  have firstFields := firstSame
  have secondFields := secondSame
  simp only [ToolVersionRecord.identity, Prod.mk.injEq] at firstFields secondFields
  have sameOrder : firstSeenOrder first = firstSeenOrder second := by
    rw [firstSeenOrder, firstSeenOrder, firstFields.1, firstFields.2.1, firstSeen, server, tool, seen, secondFields.1,
      secondFields.2.1, secondSeen]
  obtain rfl := differ first listed second otherListed earliest otherEarliest sameOrder
  exact List.inj_on_of_nodup_map index.uniqueVersions left right (firstSame.symm.trans secondSame)

end Untied

theorem mem_visited_iff {runs : List (Option String)} (covers : Covers db runs) (row : SessionRow) :
    row ∈ visited db runs ↔ row ∈ db.sessions := by
  rw [visited, List.mem_flatMap]
  exact ⟨fun found => found.elim fun run both => selected_listed db both.2, covers row⟩

theorem sameData_of_differ (differ : FirstListingsDiffer codec sha256Hex db) {runs others : List (Option String)}
    (covers : Covers db runs) (otherCovers : Covers db others) :
    SameData (indexAfter codec sha256Hex db runs) (indexAfter codec sha256Hex db others) := by
  obtain ⟨collected, settled⟩ := indexAfter_collected codec sha256Hex db runs
  obtain ⟨otherCollected, otherSettled⟩ := indexAfter_collected codec sha256Hex db others
  have all := mem_visited_iff covers
  have allOthers := mem_visited_iff otherCovers
  have same : ∀ row, row ∈ visited db runs ↔ row ∈ visited db others := fun row => (all row).trans (allOthers row).symm
  have keys : ∀ row ∈ visited db runs, ∀ other ∈ visited db runs, other.id.text = row.id.text → other = row :=
    fun row member other found equal => Database.eq_of_id_text ((all other).1 found) ((all row).1 member) equal
  have versions := toolVersions_perm differ all allOthers collected otherCollected
  exact {
    facts := by
      rw [collected.facts, otherCollected.facts]
      exact replaceEach_perm (fun _ _ => sessionId_of_mem_facts) same fun row member other found equal =>
        keys row member other found (Option.some.inj equal)
    edges := by
      refine (List.filter_append_perm isSupersession _).symm.trans (.trans ?_ (List.filter_append_perm isSupersession _))
      rw [settled, otherSettled, computeVersionSupersessions_eq codec versions (untied_toolVersions differ all collected),
        collected.edges, otherCollected.edges]
      exact (replaceEach_perm (fun _ _ member => (sessionId_of_mem_edges member).1) same fun row member other found equal =>
        keys row member other found (Option.some.inj equal)).append_left _
    toolVersions := versions
    observations := by
      rw [collected.observations, otherCollected.observations]
      exact replaceEach_perm (fun _ _ => mem_observations) same keys }

/-! ## Ties -/

theorem Collected.hashed (hex : ∀ text, (sha256Hex text).length = 64) {visits : List SessionRow} {index : DerivedIndex}
    (collected : Collected codec sha256Hex db visits index) {version : ToolVersionRecord} (member : version ∈ index.toolVersions) :
    Hashed version.identity := by
  have known : version.identity ∈ index.toolVersions.map ToolVersionRecord.identity := List.mem_map_of_mem member
  rw [collected.toolVersions, mem_map_key_upsertAll ToolVersionRecord.identity_merge] at known
  obtain ⟨item, inside, same⟩ := List.mem_map.1 (known.resolve_left List.not_mem_nil)
  obtain ⟨row, _, listed⟩ := List.mem_flatMap.1 inside
  exact same ▸ hashed_of_mem_versionsOf hex listed

theorem Collected.firstSeen_eq {visits : List SessionRow} {index : DerivedIndex}
    (collected : Collected codec sha256Hex db visits index) (all : ∀ row, row ∈ visits ↔ row ∈ db.sessions)
    {listing version : ToolVersionRecord} (listed : listing ∈ listings codec sha256Hex db)
    (earliest : Earliest codec sha256Hex db listing) (member : version ∈ index.toolVersions)
    (same : version.identity = listing.identity) : version.firstSeenAtNs = listing.firstSeenAtNs := by
  obtain ⟨first, firstListed, firstEarliest, firstSame, seen, _⟩ := collected.firstListing all member
  have identical : first.identity = listing.identity := firstSame.trans same
  rw [← seen]
  exact le_antisymm (firstEarliest listing listed identical.symm) (earliest first firstListed identical)

/-- A version that is listed first in the session visited first has this for its first session. -/
theorem Collected.firstSession_of_visited_first {row : SessionRow} {rest : List SessionRow} {index : DerivedIndex}
    (collected : Collected codec sha256Hex db (row :: rest) index) (all : ∀ other, other ∈ row :: rest ↔ other ∈ db.sessions)
    {listing version : ToolVersionRecord} (listed : listing ∈ versionsOf codec sha256Hex db row)
    (earliest : Earliest codec sha256Hex db listing) (member : version ∈ index.toolVersions)
    (same : version.identity = listing.identity) : version.firstSessionId = listing.firstSessionId := by
  have merged := member
  rw [collected.toolVersions] at merged
  obtain ⟨first, others, group, rfl⟩ := exists_of_mem_upsertAll ToolVersionRecord.identity_merge merged
  rw [same, List.flatMap_cons, List.filter_append] at group
  -- The session lists the version once, so this is the first item of the group.
  have own : (versionsOf codec sha256Hex db row).filter (fun item => item.identity = listing.identity) ≠ [] :=
    List.ne_nil_of_mem (List.mem_filter.2 ⟨listed, by simp⟩)
  obtain ⟨head, tail, whole⟩ := List.exists_cons_of_ne_nil own
  rw [whole, List.cons_append, List.cons.injEq] at group
  obtain ⟨inside, identical⟩ := List.mem_filter.1 (whole ▸ List.mem_cons_self : head ∈ List.filter _ _)
  have tool : head.toolName = listing.toolName := by
    have fields := of_decide_eq_true identical
    simp only [ToolVersionRecord.identity, Prod.mk.injEq] at fields
    exact fields.2.1
  obtain rfl : head = listing := eq_of_mem_versionsOf inside listed tool
  obtain ⟨rfl, remaining⟩ := group
  refine (ToolVersionRecord.foldl_merge_first fun item later => ?_).1
  have visited : item ∈ ((row :: rest).flatMap (versionsOf codec sha256Hex db)).filter
      fun item => item.identity = head.identity := by
    rw [List.flatMap_cons, List.filter_append, whole, List.cons_append, remaining]
    exact List.mem_cons_of_mem _ later
  obtain ⟨somewhere, equal⟩ := List.mem_filter.1 visited
  exact earliest item ((mem_flatMap_versionsOf all).1 somewhere) (of_decide_eq_true equal)

section Tied
variable {first second : SessionRow} {rest : List SessionRow} {index : DerivedIndex} {a b : ToolVersionRecord}
  (collected : Collected codec sha256Hex db (first :: second :: rest) index)
  (left : a ∈ versionsOf codec sha256Hex db first) (right : b ∈ versionsOf codec sha256Hex db second)
  (tool : a.toolName = b.toolName) (differs : a.identity ≠ b.identity)

/-- Rows of the first two sessions are the first rows. -/
theorem Collected.fronts (collected : Collected codec sha256Hex db (first :: second :: rest) index) :
    (upsertAll ToolVersionRecord.identity ToolVersionRecord.merge [] (versionsOf codec sha256Hex db first)).map
        ToolVersionRecord.identity <+: index.toolVersions.map ToolVersionRecord.identity ∧
      (upsertAll ToolVersionRecord.identity ToolVersionRecord.merge []
          (versionsOf codec sha256Hex db first ++ versionsOf codec sha256Hex db second)).map
        ToolVersionRecord.identity <+: index.toolVersions.map ToolVersionRecord.identity := by
  rw [collected.toolVersions, List.flatMap_cons, List.flatMap_cons, ← List.append_assoc, upsertAll_append]
  have later := fun rows : List ToolVersionRecord => @map_key_prefix_upsertAll _ _ _ ToolVersionRecord.identity
    ToolVersionRecord.merge ToolVersionRecord.identity_merge rows
  refine ⟨List.IsPrefix.trans ?_ (later _ _), later _ _⟩
  rw [upsertAll_append]
  exact later _ _

theorem position_of_row {row : ToolVersionRow} (member : row ∈ index.listToolVersions) :
    ∃ position, row.id = position + 1 ∧
      (index.toolVersions.map ToolVersionRecord.identity)[position]? = some row.identity := by
  obtain ⟨position, id, found⟩ := mem_numbered_iff.1 (DerivedIndex.mem_listToolVersions.1 member)
  exact ⟨position, id, by rw [List.getElem?_map, found]; rfl⟩

include collected left right tool differs

theorem id_lt_of_visited_first {older newer : ToolVersionRow} (olderMember : older ∈ index.listToolVersions)
    (newerMember : newer ∈ index.listToolVersions) (olderSame : older.identity = a.identity)
    (newerSame : newer.identity = b.identity) :
    older.id < newer.id ∧ ∀ row ∈ index.listToolVersions, row.toolName = b.toolName → older.id < row.id → ¬row.id < newer.id := by
  obtain ⟨start, further⟩ := collected.fronts
  have unique := index.uniqueVersions
  have listed : ∀ items identity, identity ∈ (upsertAll ToolVersionRecord.identity ToolVersionRecord.merge []
      items).map ToolVersionRecord.identity ↔ identity ∈ items.map ToolVersionRecord.identity := by
    intro items identity
    rw [mem_map_key_upsertAll ToolVersionRecord.identity_merge]
    simp
  obtain ⟨i, olderId, olderFound⟩ := position_of_row olderMember
  obtain ⟨j, newerId, newerFound⟩ := position_of_row newerMember
  -- The first session lists the one version of the tool, and not the other.
  have onlyFirst : b.identity ∉ (versionsOf codec sha256Hex db first).map ToolVersionRecord.identity := by
    intro member
    obtain ⟨version, inside, same⟩ := List.mem_map.1 member
    have name : version.toolName = a.toolName := by
      simp only [ToolVersionRecord.identity, Prod.mk.injEq] at same
      rw [same.2.1, tool]
    rw [eq_of_mem_versionsOf inside left name] at same
    exact differs same
  have within := (position_lt_iff start unique olderFound).2 ((listed _ _).2 (olderSame ▸ List.mem_map_of_mem left))
  have beyond := mt (position_lt_iff start unique newerFound).1 fun member =>
    onlyFirst (newerSame ▸ (listed _ _).1 member)
  refine ⟨by omega, fun row member name above below => ?_⟩
  obtain ⟨k, rowId, rowFound⟩ := position_of_row member
  have newerWithin := (position_lt_iff further unique newerFound).2 ((listed _ _).2 (by
    rw [newerSame, List.map_append]
    exact List.mem_append_right _ (List.mem_map_of_mem right)))
  have rowListed := (listed _ _).1 ((position_lt_iff further unique rowFound).1 (by omega))
  obtain ⟨version, inside, same⟩ := List.mem_map.1 rowListed
  have versionName : version.toolName = b.toolName := by
    simp only [ToolVersionRecord.identity, Prod.mk.injEq] at same
    exact same.2.1.trans name
  -- A row between them would be a further version of the tool in one of the two sessions.
  have placed : ∀ {p q : Nat} {identity : VersionIdentity},
      (index.toolVersions.map ToolVersionRecord.identity)[p]? = some identity →
      (index.toolVersions.map ToolVersionRecord.identity)[q]? = some identity → p = q := by
    intro p q identity here there
    obtain ⟨inP, atP⟩ := List.getElem?_eq_some_iff.1 here
    exact (List.Nodup.getElem_inj_iff unique).1 (atP.trans (List.getElem?_eq_some_iff.1 there).2.symm)
  rcases List.mem_append.1 inside with ofFirst | ofSecond
  · rw [← same, eq_of_mem_versionsOf ofFirst left (versionName.trans tool.symm), ← olderSame] at rowFound
    have := placed rowFound olderFound
    omega
  · rw [← same, eq_of_mem_versionsOf ofSecond right versionName, ← newerSame] at rowFound
    have := placed rowFound newerFound
    omega

end Tied

theorem visited_singles_all {rows : List SessionRow} (listed : ∀ row ∈ rows, row ∈ db.sessions) :
    visited db (rows.map (fun row => some row.id.text) ++ [none]) = rows ++ selected db none := by
  have singles : ∀ row ∈ rows, selected db (some row.id.text) = [row] := by
    intro row member
    simp [selected, Database.resolveSessionId_text (listed row member), Except.toOption]
  rw [visited, List.flatMap_append, List.flatMap_singleton, List.flatMap_map, List.flatMap_congr singles,
    List.flatMap_singleton']

theorem covers_all (runs : List (Option String)) : Covers db (runs ++ [none]) :=
  fun row member => ⟨none, by simp, (List.mem_insertionSort _).2 member⟩

/-- The index after rebuilding the given sessions one by one, and then all of them. -/
theorem collected_singles_all {rows : List SessionRow} (listed : ∀ row ∈ rows, row ∈ db.sessions) :
    Collected codec sha256Hex db (rows ++ selected db none)
      (indexAfter codec sha256Hex db (rows.map (fun row => some row.id.text) ++ [none])) := by
  rw [← visited_singles_all listed]
  exact (indexAfter_collected codec sha256Hex db _).1

theorem mem_singles_all {rows : List SessionRow} (listed : ∀ row ∈ rows, row ∈ db.sessions) (row : SessionRow) :
    row ∈ rows ++ selected db none ↔ row ∈ db.sessions := by
  rw [← visited_singles_all listed]
  exact mem_visited_iff (covers_all _) row

/-- The row of a listed version. -/
theorem exists_row {visits : List SessionRow} {index : DerivedIndex} (collected : Collected codec sha256Hex db visits index)
    (all : ∀ row, row ∈ visits ↔ row ∈ db.sessions) {listing : ToolVersionRecord}
    (listed : listing ∈ listings codec sha256Hex db) : ∃ row ∈ index.listToolVersions, row.identity = listing.identity := by
  obtain ⟨version, member, same⟩ := List.mem_map.1 ((collected.mem_identities all).2 (List.mem_map_of_mem listed))
  obtain ⟨row, found, rfl⟩ := List.mem_map.1 ((DerivedIndex.perm_listToolVersions index).mem_iff.2 member)
  exact ⟨row, found, same⟩

/-- Where a row stands among the versions, by the first listing of its version. -/
theorem firstSeenOrder_row {visits : List SessionRow} {index : DerivedIndex}
    (collected : Collected codec sha256Hex db visits index) (all : ∀ row, row ∈ visits ↔ row ∈ db.sessions)
    {listing : ToolVersionRecord} (listed : listing ∈ listings codec sha256Hex db)
    (earliest : Earliest codec sha256Hex db listing) {row : ToolVersionRow} (member : row ∈ index.listToolVersions)
    (same : row.identity = listing.identity) : firstSeenOrder row.toToolVersionRecord = firstSeenOrder listing := by
  have seen := collected.firstSeen_eq all listed earliest (DerivedIndex.mem_toolVersions member) same
  simp only [ToolVersionRecord.identity, Prod.mk.injEq] at same
  rw [firstSeenOrder, firstSeenOrder, same.1, same.2.1, seen]

section Confluent
variable (confluent : ∀ runs others, Covers db runs → Covers db others →
  SameData (indexAfter codec sha256Hex db runs) (indexAfter codec sha256Hex db others))

include confluent

/-- Of two sessions that are the first to list a version, the one rebuilt first would be its first session. -/
theorem same_of_confluent {first second : SessionRow} (firstListed : first ∈ db.sessions) (secondListed : second ∈ db.sessions)
    {a b : ToolVersionRecord} (left : a ∈ versionsOf codec sha256Hex db first) (right : b ∈ versionsOf codec sha256Hex db second)
    (earliest : Earliest codec sha256Hex db a) (otherEarliest : Earliest codec sha256Hex db b)
    (same : a.identity = b.identity) : a = b := by
  have here : ∀ row ∈ [first], row ∈ db.sessions := by simpa using firstListed
  have there : ∀ row ∈ [second], row ∈ db.sessions := by simpa using secondListed
  have equal := (confluent _ _ (covers_all ([first].map fun row => some row.id.text))
    (covers_all ([second].map fun row => some row.id.text))).toolVersions
  have collected := @collected_singles_all codec sha256Hex db _ here
  have otherCollected := @collected_singles_all codec sha256Hex db _ there
  have known := (collected.mem_identities (mem_singles_all here)).2
    (List.mem_map_of_mem (List.mem_flatMap.2 ⟨first, firstListed, left⟩))
  obtain ⟨version, member, identical⟩ := List.mem_map.1 known
  have session : a.firstSessionId = b.firstSessionId := by
    rw [← collected.firstSession_of_visited_first (mem_singles_all here) left earliest member identical]
    exact otherCollected.firstSession_of_visited_first (mem_singles_all there) right otherEarliest (equal.mem_iff.1 member)
      (identical.trans same)
  have name : a.toolName = b.toolName := by
    simp only [ToolVersionRecord.identity, Prod.mk.injEq] at same
    exact same.2.1
  have sameSession : first = second := by
    obtain ⟨_, _, rfl⟩ := mem_versionsOf left
    obtain ⟨_, _, rfl⟩ := mem_versionsOf right
    exact Database.eq_of_id_text firstListed secondListed session
  subst sameSession
  exact eq_of_mem_versionsOf left right name

/-- Of two versions that were first seen at one time, the one rebuilt first would be said to be superseded. -/
theorem tied_of_confluent (hex : ∀ text, (sha256Hex text).length = 64) {first second : SessionRow}
    (firstListed : first ∈ db.sessions) (secondListed : second ∈ db.sessions)
    {a b : ToolVersionRecord} (left : a ∈ versionsOf codec sha256Hex db first) (right : b ∈ versionsOf codec sha256Hex db second)
    (earliest : Earliest codec sha256Hex db a) (otherEarliest : Earliest codec sha256Hex db b)
    (tied : firstSeenOrder a = firstSeenOrder b) : a.identity = b.identity := by
  by_contra differs
  have tool := (firstSeenOrder_injective tied).2.1
  have aListed := List.mem_flatMap.2 ⟨first, firstListed, left⟩
  have bListed := List.mem_flatMap.2 ⟨second, secondListed, right⟩
  have here : ∀ row ∈ [first, second], row ∈ db.sessions := by simp [firstListed, secondListed]
  have there : ∀ row ∈ [second, first], row ∈ db.sessions := by simp [firstListed, secondListed]
  have equal := (confluent _ _ (covers_all ([first, second].map fun row => some row.id.text))
    (covers_all ([second, first].map fun row => some row.id.text))).edges
  have collected := @collected_singles_all codec sha256Hex db _ here
  have otherCollected := @collected_singles_all codec sha256Hex db _ there
  have settled := (indexAfter_collected codec sha256Hex db
    ([first, second].map (fun row => some row.id.text) ++ [none])).2
  have otherSettled := (indexAfter_collected codec sha256Hex db
    ([second, first].map (fun row => some row.id.text) ++ [none])).2
  obtain ⟨older, olderMember, olderSame⟩ := exists_row collected (mem_singles_all here) aListed
  obtain ⟨newer, newerMember, newerSame⟩ := exists_row collected (mem_singles_all here) bListed
  have olderOrder := firstSeenOrder_row collected (mem_singles_all here) aListed earliest olderMember olderSame
  have newerOrder := firstSeenOrder_row collected (mem_singles_all here) bListed otherEarliest newerMember newerSame
  obtain ⟨less, between⟩ := id_lt_of_visited_first collected left right tool differs olderMember newerMember olderSame newerSame
  have superseded := supersession_mem_of_tied codec olderMember newerMember (olderOrder.trans (tied.trans newerOrder.symm)) less
    fun row member order => between row member (firstSeenOrder_injective (order.trans newerOrder)).2.1
  rw [← settled] at superseded
  have mirrored := equal.mem_iff.1 (List.mem_of_mem_filter superseded)
  have cross : _ ∈ List.filter isSupersession _ := List.mem_filter.2 ⟨mirrored, (List.mem_filter.1 superseded).2⟩
  rw [otherSettled] at cross
  -- In the other index the same edge would put the rows the other way round.
  obtain ⟨before, beforeMember, after, afterMember, below, _, same⟩ := exists_of_mem_computeVersionSupersessions cross
  have afterSame : after.identity = b.identity := by
    rw [← newerSame]
    exact (identity_of_toolVersionKeyFromRow (collected.hashed hex (DerivedIndex.mem_toolVersions newerMember))
      (otherCollected.hashed hex (DerivedIndex.mem_toolVersions afterMember)) (congrArg MemoryEdge.fromKey same)).symm
  have beforeSame : before.identity = a.identity := by
    rw [← olderSame]
    exact (identity_of_toolVersionKeyFromRow (collected.hashed hex (DerivedIndex.mem_toolVersions olderMember))
      (otherCollected.hashed hex (DerivedIndex.mem_toolVersions beforeMember)) (congrArg MemoryEdge.toKey same)).symm
  have beforeOrder := firstSeenOrder_row otherCollected (mem_singles_all there) aListed earliest beforeMember beforeSame
  have afterOrder := firstSeenOrder_row otherCollected (mem_singles_all there) bListed otherEarliest afterMember afterSame
  have reversed := (id_lt_of_visited_first otherCollected right left tool.symm (Ne.symm differs) afterMember beforeMember
    afterSame beforeSame).1
  obtain ⟨server, sameTool, seen⟩ := firstSeenOrder_injective (beforeOrder.trans (tied.trans afterOrder.symm))
  have ordered : before.id < after.id := by
    simpa [ToolVersionRow.sortKey, Prod.Lex.toLex_lt_toLex, server, sameTool, seen] using below
  omega

end Confluent

theorem rebuild_confluent_iff (codec : Codec) {sha256Hex : String → String} (hex : ∀ text, (sha256Hex text).length = 64)
    (db : Database) :
    (∀ runs others, Covers db runs → Covers db others →
      SameData (indexAfter codec sha256Hex db runs) (indexAfter codec sha256Hex db others)) ↔
        FirstListingsDiffer codec sha256Hex db := by
  constructor
  · intro confluent a listed b otherListed earliest otherEarliest tied
    obtain ⟨first, firstListed, left⟩ := List.mem_flatMap.1 listed
    obtain ⟨second, secondListed, right⟩ := List.mem_flatMap.1 otherListed
    exact same_of_confluent confluent firstListed secondListed left right earliest otherEarliest
      (tied_of_confluent confluent hex firstListed secondListed left right earliest otherEarliest tied)
  · exact fun differ runs others covers otherCovers => sameData_of_differ differ covers otherCovers

end Confluence

/-! ## One artifact imported twice -/

def firstImport : Uuid := ⟨"11111111-1111-4111-8111-111111111111", by decide +kernel⟩

def secondImport : Uuid := ⟨"22222222-2222-4222-8222-222222222222", by decide +kernel⟩

def importedServer (id : Uuid) : SessionRow where
  id := id
  client := "import"
  serverCommand := "node server.js"
  transport := "stdio"
  startedAtNs := 0
  endedAtNs := some 10
  totalMessages := 2
  droppedMessages := 0
  redactionPolicy := "default"
  redactionKeysJson := "[]"
  tags := "[]"

/-- A request for the tools and the answer that there is one. -/
def importedListing (id : Uuid) : List MessageRow :=
  ([McpMessage.mk 0 0 .clientToServer
      (.object [("id", .number (.posInt 1)), ("jsonrpc", .string "2.0"), ("method", .string "tools/list")]) 46,
    McpMessage.mk 1 5 .serverToClient
      (.object [("id", .number (.posInt 1)), ("jsonrpc", .string "2.0"),
        ("result", .object [("tools", .array [.object [("name", .string "search")]])])]) 66].map
    (StoredMessage.ofMessage Compact.codec)).map fun message =>
      MessageRow.ofStored id message.seq message.payloadBytes message

def importedTwice : Database where
  sessions := [importedServer firstImport, importedServer secondImport]
  messages := importedListing firstImport ++ importedListing secondImport
  uniqueIds := by decide +kernel
  uniqueKeys := by decide +kernel
  owned := by decide +kernel

/-- SHA-256 of what is digested here. -/
def importDigest (text : String) : String :=
  if text = "node server.js" then "bc6e225963253919eae3a755b4ea667dc7d9fd520134109a6e0f90f9e331c2d8"
  else if text = "\"\"" then "12ae32cb1ec02d01eda3581b127c1fee3b0dc53572ed6baf239721a03d82e126"
  else if text = "null" then "74234e98afe7498fb5daf1f36ac2d78acc339464f950703b8c019892f982b90b"
  else "f880a65ec4545c01cc189d38c21751d6d6cf27d4d4ba0c718bd04a3a1d85f8c3"

theorem importDigest_length (text : String) : (importDigest text).length = 64 := by
  unfold importDigest
  split_ifs <;> decide +kernel

theorem rebuild_confluent_importedTwice :
    (∀ runs others, Covers importedTwice runs → Covers importedTwice others →
      SameData (indexAfter Compact.codec importDigest importedTwice runs)
        (indexAfter Compact.codec importDigest importedTwice others)) ↔
      FirstListingsDiffer Compact.codec importDigest importedTwice :=
  rebuild_confluent_iff Compact.codec importDigest_length importedTwice

/-- The import that is rebuilt first becomes the first session of the tool, though both list it at one time. -/
theorem imports_diverge :
    (indexAfter Compact.codec importDigest importedTwice [some firstImport.text, none]).toolVersions.map
        ToolVersionRecord.firstSessionId = [firstImport.text] ∧
      (indexAfter Compact.codec importDigest importedTwice [some secondImport.text, none]).toolVersions.map
        ToolVersionRecord.firstSessionId = [secondImport.text] ∧
      ¬∀ runs others, Covers importedTwice runs → Covers importedTwice others →
        SameData (indexAfter Compact.codec importDigest importedTwice runs)
          (indexAfter Compact.codec importDigest importedTwice others) := by
  have first : (indexAfter Compact.codec importDigest importedTwice [some firstImport.text, none]).toolVersions.map
      ToolVersionRecord.firstSessionId = [firstImport.text] := by decide +kernel
  have second : (indexAfter Compact.codec importDigest importedTwice [some secondImport.text, none]).toolVersions.map
      ToolVersionRecord.firstSessionId = [secondImport.text] := by decide +kernel
  refine ⟨first, second, fun confluent => ?_⟩
  have same := ((confluent _ _ (covers_all [some firstImport.text])
    (covers_all [some secondImport.text])).toolVersions.map ToolVersionRecord.firstSessionId)
  rw [List.singleton_append, List.singleton_append, first, second] at same
  exact absurd (List.perm_singleton.1 same) (by decide +kernel)

end McpTracer.Proxy
