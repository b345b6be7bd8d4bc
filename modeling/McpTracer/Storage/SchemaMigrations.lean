import Mathlib.Tactic.IntervalCases
import McpTracer.Foundation.Ddl
import McpTracer.Foundation.Upgrade

/-! The schema of the database file and its migrations.

Any number of processes open one file at the same time. Each makes sure that there is a table for the version, takes
the write reservation and runs the migrations that the version leaves open, all in one transaction. So the file is
migrated once, whoever does it, and the recorded sessions and messages come through it.
-/

set_option autoImplicit false

namespace McpTracer.Storage
open McpTracer.Foundation

/-- A value of a column. -/
inductive SqlValue where
  | null
  | integer (value : Int)
  | real (bits : UInt64)
  | text (value : String)
  deriving DecidableEq

abbrev SqlStatement := DdlStatement String String SqlValue

/-- The database file with the definitions in it. -/
abbrev SchemaDatabase := TableDatabase String String SqlValue

def currentSchemaVersion : Nat := 5

/-! ## The migrations -/

def schemaBootstrap : SqlStatement := .createTable true "schema_version" [("version", "INTEGER PRIMARY KEY")] []

def migrationV1 : List SqlStatement := [
  .createTable true "sessions" [
    ("id", "TEXT PRIMARY KEY"),
    ("client", "TEXT NOT NULL"),
    ("server_command", "TEXT NOT NULL"),
    ("transport", "TEXT NOT NULL DEFAULT 'stdio'"),
    ("started_at", "INTEGER NOT NULL"),
    ("ended_at", "INTEGER"),
    ("total_messages", "INTEGER NOT NULL DEFAULT 0"),
    ("dropped_messages", "INTEGER NOT NULL DEFAULT 0"),
    ("redaction_policy", "TEXT NOT NULL DEFAULT 'none'"),
    ("tags", "TEXT NOT NULL DEFAULT '[]'")] [],
  .createTable true "messages" [
    ("id", "INTEGER PRIMARY KEY AUTOINCREMENT"),
    ("session_id", "TEXT NOT NULL REFERENCES sessions(id) ON DELETE CASCADE"),
    ("seq", "INTEGER NOT NULL"),
    ("ts", "INTEGER NOT NULL"),
    ("direction", "TEXT NOT NULL"),
    ("message_kind", "TEXT NOT NULL"),
    ("rpc_id", "TEXT"),
    ("method", "TEXT"),
    ("tool_name", "TEXT"),
    ("payload", "TEXT NOT NULL"),
    ("payload_bytes", "INTEGER NOT NULL"),
    ("is_error", "INTEGER NOT NULL DEFAULT 0"),
    ("error_code", "INTEGER")] [],
  .createIndex true true "idx_messages_session_seq" "messages" ["session_id", "seq"] none,
  .createIndex true false "idx_messages_session" "messages" ["session_id"] none,
  .createIndex true false "idx_messages_tool" "messages" ["tool_name"] (some "tool_name IS NOT NULL")]

def migrationV2 : List SqlStatement := [
  .createTable true "memory_facts" [
    ("id", "INTEGER PRIMARY KEY AUTOINCREMENT"),
    ("fact_type", "TEXT NOT NULL"),
    ("subject_type", "TEXT NOT NULL"),
    ("subject_key", "TEXT NOT NULL"),
    ("object_type", "TEXT"),
    ("object_key", "TEXT"),
    ("value_json", "TEXT NOT NULL DEFAULT '\x7b\x7d'"),
    ("confidence", "REAL NOT NULL DEFAULT 1.0"),
    ("session_id", "TEXT"),
    ("seq_start", "INTEGER"),
    ("seq_end", "INTEGER"),
    ("source", "TEXT NOT NULL"),
    ("observed_at", "INTEGER NOT NULL"),
    ("created_at", "INTEGER NOT NULL")] [],
  .createIndex true false "idx_memory_facts_session" "memory_facts" ["session_id"] none,
  .createIndex true false "idx_memory_facts_type_subject" "memory_facts" ["fact_type", "subject_type", "subject_key"]
    none,
  .createTable true "memory_edges" [
    ("id", "INTEGER PRIMARY KEY AUTOINCREMENT"),
    ("edge_type", "TEXT NOT NULL"),
    ("from_type", "TEXT NOT NULL"),
    ("from_key", "TEXT NOT NULL"),
    ("to_type", "TEXT NOT NULL"),
    ("to_key", "TEXT NOT NULL"),
    ("value_json", "TEXT NOT NULL DEFAULT '\x7b\x7d'"),
    ("session_id", "TEXT"),
    ("source", "TEXT NOT NULL"),
    ("observed_at", "INTEGER NOT NULL"),
    ("created_at", "INTEGER NOT NULL")] [],
  .createIndex true false "idx_memory_edges_session" "memory_edges" ["session_id"] none,
  .createIndex true false "idx_memory_edges_from" "memory_edges" ["from_type", "from_key"] none,
  .createIndex true false "idx_memory_edges_to" "memory_edges" ["to_type", "to_key"] none,
  .createTable true "tool_versions" [
    ("id", "INTEGER PRIMARY KEY AUTOINCREMENT"),
    ("server_key", "TEXT NOT NULL"),
    ("tool_name", "TEXT NOT NULL"),
    ("description_hash", "TEXT"),
    ("schema_hash", "TEXT"),
    ("description_redacted", "TEXT"),
    ("input_schema_redacted", "TEXT"),
    ("first_session_id", "TEXT NOT NULL"),
    ("first_seen_at", "INTEGER NOT NULL"),
    ("last_seen_at", "INTEGER NOT NULL")]
    ["UNIQUE(server_key, tool_name, description_hash, schema_hash)"],
  .createIndex true false "idx_tool_versions_tool" "tool_versions" ["server_key", "tool_name"] none,
  .createTable true "tool_version_observations" [
    ("id", "INTEGER PRIMARY KEY AUTOINCREMENT"),
    ("session_id", "TEXT NOT NULL"),
    ("server_key", "TEXT NOT NULL"),
    ("tool_name", "TEXT NOT NULL"),
    ("version_key", "TEXT NOT NULL"),
    ("description_hash", "TEXT"),
    ("schema_hash", "TEXT"),
    ("seq", "INTEGER"),
    ("observed_at", "INTEGER NOT NULL")]
    ["UNIQUE(session_id, server_key, tool_name, version_key)"],
  .createIndex true false "idx_tvo_tool" "tool_version_observations" ["server_key", "tool_name"] none,
  .createIndex true false "idx_tvo_session" "tool_version_observations" ["session_id"] none,
  .createTable true "route_definitions" [
    ("id", "TEXT PRIMARY KEY"),
    ("label", "TEXT NOT NULL"),
    ("description", "TEXT NOT NULL"),
    ("threshold", "REAL NOT NULL DEFAULT 1.0"),
    ("enabled", "INTEGER NOT NULL DEFAULT 1")] [],
  .createTable true "route_decisions" [
    ("id", "INTEGER PRIMARY KEY AUTOINCREMENT"),
    ("session_id", "TEXT NOT NULL"),
    ("route_id", "TEXT"),
    ("score", "REAL NOT NULL"),
    ("threshold", "REAL NOT NULL"),
    ("abstained", "INTEGER NOT NULL"),
    ("reasons_json", "TEXT NOT NULL"),
    ("commands_json", "TEXT NOT NULL"),
    ("created_at", "INTEGER NOT NULL")] []]

def migrationV3 : List SqlStatement :=
  [.addColumn "sessions" "redaction_keys" "TEXT NOT NULL DEFAULT '[]'" (.text "[]")]

/-- The tables of tool versions are made anew, as a column cannot be added to their constraints. -/
def migrationV4 : List SqlStatement := [
  .dropTableIfExists "tool_versions",
  .dropTableIfExists "tool_version_observations",
  .createTable false "tool_versions" [
    ("id", "INTEGER PRIMARY KEY AUTOINCREMENT"),
    ("server_key", "TEXT NOT NULL"),
    ("tool_name", "TEXT NOT NULL"),
    ("description_hash", "TEXT"),
    ("schema_hash", "TEXT"),
    ("contract_hash", "TEXT"),
    ("description_redacted", "TEXT"),
    ("input_schema_redacted", "TEXT"),
    ("first_session_id", "TEXT NOT NULL"),
    ("first_seen_at", "INTEGER NOT NULL"),
    ("last_seen_at", "INTEGER NOT NULL")]
    ["UNIQUE(server_key, tool_name, description_hash, schema_hash, contract_hash)"],
  .createIndex false false "idx_tool_versions_tool" "tool_versions" ["server_key", "tool_name"] none,
  .createTable false "tool_version_observations" [
    ("id", "INTEGER PRIMARY KEY AUTOINCREMENT"),
    ("session_id", "TEXT NOT NULL"),
    ("server_key", "TEXT NOT NULL"),
    ("tool_name", "TEXT NOT NULL"),
    ("version_key", "TEXT NOT NULL"),
    ("description_hash", "TEXT"),
    ("schema_hash", "TEXT"),
    ("contract_hash", "TEXT"),
    ("seq", "INTEGER"),
    ("observed_at", "INTEGER NOT NULL")]
    ["UNIQUE(session_id, server_key, tool_name, version_key)"],
  .createIndex false false "idx_tvo_tool" "tool_version_observations" ["server_key", "tool_name"] none,
  .createIndex false false "idx_tvo_session" "tool_version_observations" ["session_id"] none]

def migrationV5 : List SqlStatement := [
  .createTable true "baselines" [
    ("id", "INTEGER PRIMARY KEY AUTOINCREMENT"),
    ("project", "TEXT NOT NULL"),
    ("scenario", "TEXT NOT NULL"),
    ("environment", "TEXT NOT NULL"),
    ("session_id", "TEXT NOT NULL REFERENCES sessions(id) ON DELETE CASCADE"),
    ("state", "TEXT NOT NULL"),
    ("digest", "TEXT"),
    ("promoted_by", "TEXT"),
    ("promoted_at", "INTEGER"),
    ("promotion_reason", "TEXT"),
    ("revoked_at", "INTEGER"),
    ("revoked_reason", "TEXT"),
    ("created_at", "INTEGER NOT NULL")] [],
  .createIndex true false "idx_baselines_lookup" "baselines" ["project", "scenario", "environment", "state"] none]

/-- What is run to reach a version from the one before. -/
def migration : Nat → List SqlStatement
  | 1 => migrationV1
  | 2 => migrationV2
  | 3 => migrationV3
  | 4 => migrationV4
  | 5 => migrationV5
  | _ => []

/-! ## Initialization of the schema -/

inductive SchemaError where
  | negativeVersion (version : Int)
  | newerVersion (version : Int)
  | failed (error : DdlError String)
  deriving DecidableEq

def versionOf (row : TableRow String SqlValue) : Option Int :=
  match row.lookup "version" with
  | some (.integer version) => some version
  | _ => none

/-- The greatest version of the table, or 0 if there is none. -/
def schemaVersion (db : SchemaDatabase) : Int :=
  (((db.rows "schema_version").filterMap versionOf).max?).getD 0

def versionRow (version : Nat) : TableRow String SqlValue := [("version", .integer version)]

/-- Delete the versions and insert the new one. -/
def setVersion (db : SchemaDatabase) (version : Nat) : Except SchemaError SchemaDatabase :=
  if columns : db.catalog.columns? "schema_version" = some ["version"] then
    .ok (db.replaceRows "schema_version" [versionRow version] fun row member => by
      rw [List.mem_singleton.1 member]
      exact columns)
  else .error (.failed (.noSuchTable "schema_version"))

def schemaUpgrading : Upgrading SchemaDatabase Nat SchemaError where
  prepare db :=
    if (db.catalog.columns? "schema_version").isSome then none
    else some ((db.execute schemaBootstrap).mapError .failed)
  plan db :=
    let version := schemaVersion db
    if version < 0 then .error (.negativeVersion version)
    else if version > currentSchemaVersion then .error (.newerVersion version)
    else .ok (List.range' (version.toNat + 1) (currentSchemaVersion - version.toNat))
  carryOut db targetVersion := do
    let migrated ← (db.executeBatch (migration targetVersion)).mapError .failed
    setVersion migrated targetVersion

/-- What an opened store writes: rows, but neither definitions nor the version. -/
structure StoreWrite where
  apply : SchemaDatabase → SchemaDatabase
  catalog : ∀ db, (apply db).catalog = db.catalog
  version : ∀ db, (apply db).rows "schema_version" = db.rows "schema_version"

def StoreWrite.write (db : SchemaDatabase) (change : StoreWrite) : SchemaDatabase := change.apply db

abbrev SharedStore (P : Type) := SharedDatabase P SchemaDatabase Nat SchemaError StoreWrite

/-- Processes that open the file, in any order of their steps. -/
def initSchema {P : Type} [DecidableEq P] (found : SchemaDatabase) (steps : List (OpenerStep P StoreWrite)) :
    SharedStore P :=
  schemaUpgrading.run StoreWrite.write found steps

/-! ## The schema of each version -/

/-- The definitions that the migrations up to a version leave. -/
def schemaAt (version : Nat) : Except (DdlError String) (Catalog String String) :=
  (schemaBootstrap :: (List.range' 1 version).flatMap migration).foldlM Catalog.execute []

/-- A database file at a version. Before the first migration there may be nothing in it at all. -/
structure AtVersion (version : Nat) (db : SchemaDatabase) : Prop where
  catalog : schemaAt version = .ok db.catalog ∨ (version = 0 ∧ db.catalog = [])
  recorded : db.rows "schema_version" = if version = 0 then [] else [versionRow version]

/-- What the migrations from a version on make of the rows of a table. -/
def migratedRows (version : Nat) (name : String) (rows : List (TableRow String SqlValue)) :
    List (TableRow String SqlValue) :=
  if name = "schema_version" then [versionRow currentSchemaVersion]
  else if name = "sessions" ∧ version < 3 then rows.map (· ++ [("redaction_keys", .text "[]")])
  else if (name = "tool_versions" ∨ name = "tool_version_observations") ∧ version < 4 then []
  else rows

/-- The file is at the current version, with the rows that it had before. -/
structure Migrated (version : Nat) (found migrated : SchemaDatabase) : Prop where
  current : AtVersion currentSchemaVersion migrated
  rows : ∀ name, migrated.rows name = migratedRows version name (found.rows name)

theorem schemaAt_succ (version : Nat) :
    schemaAt (version + 1) = schemaAt version >>= (migration (version + 1)).foldlM Catalog.execute := by
  rw [schemaAt, List.range'_1_concat, List.flatMap_append, ← List.cons_append, List.foldlM_append, schemaAt,
    List.flatMap_singleton, Nat.add_comm 1 version]

theorem versionTable : ∀ version < currentSchemaVersion + 1,
    (schemaAt version).toOption.bind (·.columns? "schema_version") = some ["version"] := by
  decide +kernel

/-- Each version has a schema, and a table for the version in it. -/
theorem exists_schemaAt {version : Nat} (supported : version ≤ currentSchemaVersion) :
    ∃ catalog, schemaAt version = .ok catalog ∧ catalog.columns? "schema_version" = some ["version"] := by
  have known := versionTable version (Nat.lt_succ_of_le supported)
  cases schema : schemaAt version with
  | error failure => rw [schema] at known; cases known
  | ok catalog => rw [schema] at known; exact ⟨catalog, rfl, known⟩

/-! ## One migration after the other -/

/-- What one migration makes of the rows of all tables. -/
def stepRows (rows : String → List (TableRow String SqlValue)) (targetVersion : Nat) :
    String → List (TableRow String SqlValue) :=
  Function.update (DdlStatement.carryAll rows (migration targetVersion)) "schema_version" [versionRow targetVersion]

theorem setVersion_eq {db : SchemaDatabase} (columns : db.catalog.columns? "schema_version" = some ["version"])
    (version : Nat) : ∃ after, setVersion db version = .ok after ∧ after.catalog = db.catalog ∧
      after.rows = Function.update db.rows "schema_version" [versionRow version] := by
  rw [setVersion, dif_pos columns]
  exact ⟨_, rfl, rfl, rfl⟩

/-- A migration succeeds on the schema of the version before. -/
theorem carryOut_next {version : Nat} {db : SchemaDatabase} (before : version < currentSchemaVersion)
    (schema : schemaAt version = .ok db.catalog) :
    ∃ after, schemaUpgrading.carryOut db (version + 1) = .ok after ∧ schemaAt (version + 1) = .ok after.catalog ∧
      after.rows = stepRows db.rows (version + 1) := by
  obtain ⟨catalog, next, columns⟩ := exists_schemaAt (Nat.succ_le_of_lt before)
  have executed := next
  rw [schemaAt_succ, schema] at executed
  obtain ⟨migrated, batch, rfl, rows⟩ := TableDatabase.executeBatch_eq_ok executed
  obtain ⟨after, set, same, written⟩ := setVersion_eq columns (version + 1)
  refine ⟨after, ?_, by rw [next, same], by rw [written, rows, stepRows]⟩
  simp only [schemaUpgrading]
  rw [batch]
  exact set

theorem carryOut_rest {count version : Nat} {db : SchemaDatabase} (upTo : version + count = currentSchemaVersion)
    (schema : schemaAt version = .ok db.catalog) :
    ∃ after, (List.range' (version + 1) count).foldlM schemaUpgrading.carryOut db = .ok after ∧
      schemaAt currentSchemaVersion = .ok after.catalog ∧
      after.rows = (List.range' (version + 1) count).foldl stepRows db.rows := by
  induction count generalizing version db with
  | zero =>
    obtain rfl : version = currentSchemaVersion := upTo
    exact ⟨db, rfl, schema, rfl⟩
  | succ count ih =>
    obtain ⟨next, carried, reached, rows⟩ := carryOut_next (by omega) schema
    obtain ⟨after, done, current, written⟩ := ih (by omega) reached
    refine ⟨after, ?_, current, ?_⟩
    · rw [List.range'_succ, List.foldlM_cons, carried]
      exact done
    · rw [List.range'_succ, List.foldl_cons, ← rows]
      exact written

section Rows
variable (rows : String → List (TableRow String SqlValue))

theorem carryAll_of_kept {statements : List SqlStatement} (kept : ∀ statement ∈ statements, statement.altered = none) :
    DdlStatement.carryAll rows statements = rows :=
  funext fun _ => DdlStatement.carryAll_of_not_altered (fun statement member altered => by
    rw [kept statement member] at altered
    cases altered) rows

theorem stepRows_one : stepRows rows 1 = Function.update rows "schema_version" [versionRow 1] := by
  rw [stepRows, migration, carryAll_of_kept rows (by decide)]

theorem stepRows_two : stepRows rows 2 = Function.update rows "schema_version" [versionRow 2] := by
  rw [stepRows, migration, carryAll_of_kept rows (by decide)]

theorem stepRows_three {name : String} (differs : name ≠ "schema_version") : stepRows rows 3 name =
    if name = "sessions" then (rows name).map (· ++ [("redaction_keys", .text "[]")]) else rows name :=
  Function.update_of_ne differs ..

theorem stepRows_four {name : String} (differs : name ≠ "schema_version") : stepRows rows 4 name =
    if name = "tool_version_observations" then [] else if name = "tool_versions" then [] else rows name :=
  Function.update_of_ne differs ..

theorem stepRows_five : stepRows rows 5 = Function.update rows "schema_version" [versionRow 5] := by
  rw [stepRows, migration, carryAll_of_kept rows (by decide)]

end Rows

/-- The migrations after a version leave its rows as they say. -/
theorem foldl_stepRows {version : Nat} (supported : version ≤ currentSchemaVersion)
    (rows : String → List (TableRow String SqlValue)) (name : String)
    (recorded : version = currentSchemaVersion → rows "schema_version" = [versionRow currentSchemaVersion]) :
    (List.range' (version + 1) (currentSchemaVersion - version)).foldl stepRows rows name =
      migratedRows version name (rows name) := by
  by_cases same : name = "schema_version"
  · subst same
    rw [migratedRows, if_pos rfl]
    rcases Nat.eq_or_lt_of_le supported with last | before
    · rw [last, Nat.sub_self]
      exact recorded last
    · -- The last migration writes the current version.
      obtain ⟨count, left⟩ := Nat.exists_eq_add_of_lt before
      have rest : currentSchemaVersion - version = count + 1 := by omega
      have final : version + 1 + count = currentSchemaVersion := by omega
      rw [rest, List.range'_1_concat, List.foldl_append, List.foldl_cons, List.foldl_nil, final]
      exact Function.update_self ..
  · have other : ∀ (before : String → List (TableRow String SqlValue)) rows,
        Function.update before "schema_version" rows name = before name := fun _ _ => Function.update_of_ne same ..
    rw [migratedRows, if_neg same]
    have bound : version ≤ 5 := supported
    interval_cases version <;>
      simp only [currentSchemaVersion, Nat.reduceAdd, Nat.reduceSub, List.range', List.foldl_cons, List.foldl_nil,
        stepRows_one, stepRows_two, stepRows_five, stepRows_three _ same, stepRows_four _ same, other] <;>
      grind

/-! ## Opening one file -/

theorem AtVersion.version_eq {version : Nat} {db : SchemaDatabase} (held : AtVersion version db) :
    schemaVersion db = version := by
  rw [schemaVersion, held.recorded]
  split
  · rename_i none
    subst none
    rfl
  · rfl

theorem AtVersion.plan_eq {version : Nat} {db : SchemaDatabase} (held : AtVersion version db)
    (supported : version ≤ currentSchemaVersion) :
    schemaUpgrading.plan db = .ok (List.range' (version + 1) (currentSchemaVersion - version)) := by
  simp only [schemaUpgrading, held.version_eq]
  rw [if_neg (by omega), if_neg (by omega), Int.toNat_natCast]

/-- A file at a version has the table for it, unless there is nothing in the file. -/
theorem AtVersion.prepare {version : Nat} {db : SchemaDatabase} (held : AtVersion version db)
    (supported : version ≤ currentSchemaVersion) :
    ∃ prepared, schemaUpgrading.Prepared db prepared ∧ schemaAt version = .ok prepared.catalog ∧
      prepared.rows = db.rows ∧ (schemaAt version = .ok db.catalog → schemaUpgrading.prepare db = none) := by
  rcases held.catalog with schema | ⟨rfl, nothing⟩
  · obtain ⟨catalog, same, columns⟩ := exists_schemaAt supported
    cases schema.symm.trans same
    have none : schemaUpgrading.prepare db = none := by simp [schemaUpgrading, columns]
    exact ⟨db, by rw [Upgrading.Prepared, none]; rfl, schema, rfl, fun _ => none⟩
  · -- There is nothing in the file, so the table is created.
    have executed : db.catalog.execute schemaBootstrap =
        .ok [("schema_version", .table [("version", "INTEGER PRIMARY KEY")] [])] := by
      rw [nothing]
      rfl
    obtain ⟨prepared, done, catalog, rows⟩ := TableDatabase.execute_eq_ok executed
    have absent : db.catalog.columns? "schema_version" = none := by rw [nothing]; rfl
    refine ⟨prepared, ?_, by rw [catalog]; rfl, rows, fun schema => ?_⟩
    · simp [Upgrading.Prepared, schemaUpgrading, absent, done, Except.mapError]
    · rw [nothing] at schema
      exact absurd schema (by decide)

/-- One opener brings the file to the current version. -/
theorem AtVersion.bring {version : Nat} {found : SchemaDatabase} (held : AtVersion version found)
    (supported : version ≤ currentSchemaVersion) :
    ∃ migrated, schemaUpgrading.bring found = .ok migrated ∧ Migrated version found migrated := by
  obtain ⟨prepared, ready, schema, same, -⟩ := held.prepare supported
  have recorded : AtVersion version prepared := ⟨.inl schema, by rw [same]; exact held.recorded⟩
  obtain ⟨migrated, done, current, rows⟩ := carryOut_rest (Nat.add_sub_of_le supported) schema
  have result : ∀ name, migrated.rows name = migratedRows version name (found.rows name) := fun name => by
    rw [rows, same]
    refine foldl_stepRows supported _ name fun last => ?_
    rw [held.recorded, last]
    rfl
  refine ⟨migrated, ?_, ⟨.inl current, result "schema_version"⟩, result⟩
  rw [Upgrading.bring_eq ready, recorded.plan_eq supported]
  exact done

theorem prepares_once (found : SchemaDatabase) : schemaUpgrading.PreparesOnce found := by
  intro disk prepared
  simp only [schemaUpgrading] at prepared ⊢
  split_ifs at prepared with known
  rw [Option.some.injEq, mapError_eq_ok_iff] at prepared
  have absent : found.catalog.columns? "schema_version" = none := Option.not_isSome_iff_eq_none.1 known
  cases entry : found.catalog.lookup "schema_version" with
  | none =>
    obtain ⟨after, executed, catalog, -⟩ := @TableDatabase.execute_eq_ok _ _ _ _ found schemaBootstrap
      (found.catalog ++ [("schema_version", .table [("version", "INTEGER PRIMARY KEY")] [])])
      (by simp [schemaBootstrap, Catalog.execute, entry])
    cases prepared.symm.trans executed
    rw [if_pos]
    rw [catalog, Catalog.columns?, List.lookup_append, entry]
    rfl
  | some value =>
    cases value with
    | table columns constraints => simp [Catalog.columns?, entry] at absent
    | index unique on columns filter =>
      -- An index of that name is in the way of the table.
      have failed : found.catalog.execute schemaBootstrap = .error (.indexExists "schema_version") := by
        simp [schemaBootstrap, Catalog.execute, entry]
      rw [TableDatabase.execute_eq_error failed] at prepared
      cases prepared

theorem changes_keep {db : SchemaDatabase} (held : AtVersion currentSchemaVersion db) (changes : List StoreWrite) :
    AtVersion currentSchemaVersion (changes.foldl StoreWrite.write db) := by
  induction changes generalizing db with
  | nil => exact held
  | cons change rest ih =>
    exact ih ⟨by rw [StoreWrite.write, change.catalog]; exact held.catalog,
      by rw [StoreWrite.write, change.version]; exact held.recorded⟩

theorem AtVersion.stays {version : Nat} {found : SchemaDatabase} (held : AtVersion version found)
    (supported : version ≤ currentSchemaVersion) : schemaUpgrading.StaysUpgraded StoreWrite.write found := by
  intro done brought changes
  obtain ⟨migrated, same, result⟩ := held.bring supported
  cases brought.symm.trans same
  have current := changes_keep result.current changes
  obtain ⟨-, -, -, -, nothing⟩ := current.prepare (Nat.le_refl _)
  have schema : schemaAt currentSchemaVersion = .ok (changes.foldl StoreWrite.write done).catalog :=
    current.catalog.resolve_right fun zero => absurd zero.1 (by decide)
  exact ⟨nothing schema, by rw [current.plan_eq (Nat.le_refl _), Nat.sub_self]; rfl⟩

/-- The table for the version changes no rows. -/
theorem AtVersion.untouched {P : Type} {version : Nat} {found : SchemaDatabase} {shared : SharedStore P}
    (held : AtVersion version found) (supported : version ≤ currentSchemaVersion)
    (untouched : schemaUpgrading.Untouched found shared) :
    AtVersion version shared.disk ∧ shared.disk.rows = found.rows := by
  rcases untouched.disk with same | prepared
  · rw [same]
    exact ⟨held, rfl⟩
  · obtain ⟨disk, ready, schema, rows, -⟩ := held.prepare supported
    rw [Upgrading.Prepared, prepared] at ready
    cases ready
    exact ⟨⟨.inl schema, by rw [rows]; exact held.recorded⟩, rows⟩

section Processes
variable {P : Type} [DecidableEq P]

/-- A process that is alone opens the file. -/
theorem opens_alone {version : Nat} (supported : version ≤ currentSchemaVersion) {found : SchemaDatabase}
    (held : AtVersion version found) (opener : P) :
    ∃ steps, (initSchema found steps).openers opener = .opened ∧
      Migrated version found (initSchema found steps).disk := by
  obtain ⟨migrated, brought, result⟩ := held.bring supported
  obtain ⟨steps, opened, disk⟩ := Upgrading.run_alone brought opener
  exact ⟨steps, opened, disk ▸ result⟩

/-- However processes that open a file take turns, wait for each other, start over and die, none of them fails but for
the lock. The file is as it was found, and then nobody has opened it, or it was migrated once and has the rows that
opened stores have written since. -/
theorem opens_migrate_once {version : Nat} (supported : version ≤ currentSchemaVersion) {found : SchemaDatabase}
    (held : AtVersion version found) (steps : List (OpenerStep P StoreWrite)) :
    (∀ opener error, (initSchema found steps).openers opener ≠ .refused error) ∧
      ((AtVersion version (initSchema found steps).disk ∧ (initSchema found steps).disk.rows = found.rows ∧
          (initSchema found steps).changes = [] ∧ ∀ opener, (initSchema found steps).openers opener ≠ .opened) ∨
        ∃ migrated, Migrated version found migrated ∧
          (initSchema found steps).disk = (initSchema found steps).changes.foldl StoreWrite.write migrated ∧
          AtVersion currentSchemaVersion (initSchema found steps).disk) := by
  obtain ⟨migrated, brought, result⟩ := held.bring supported
  rcases Upgrading.run_untouched_or_upgraded (prepares_once found) (held.stays supported) steps with
    untouched | upgraded
  · -- Nobody has committed the migrations, so whoever fails fails alone too, which does not happen.
    obtain ⟨same, rows⟩ := held.untouched supported untouched
    refine ⟨fun opener error refused => ?_, .inl ⟨same, rows, untouched.unchanged, fun opener opened => ?_⟩⟩
    · have early := untouched.openers opener
      rw [← initSchema, refused] at early
      cases brought.symm.trans early
    · have early := untouched.openers opener
      rw [← initSchema, opened] at early
      exact early
  · obtain ⟨done, same, disk⟩ := upgraded.disk
    cases brought.symm.trans same
    refine ⟨fun opener error refused => ?_, .inr ⟨migrated, result, disk, ?_⟩⟩
    · have late := upgraded.openers opener
      rw [← initSchema, refused] at late
      exact late
    · rw [initSchema, disk]
      exact changes_keep result.current _

/-- A file of another program version is left alone: nobody opens it, and who fails says why. -/
theorem unsupported_version_refused {found : SchemaDatabase} {error : SchemaError}
    (table : (found.catalog.columns? "schema_version").isSome = true)
    (refused : schemaUpgrading.plan found = .error error) (steps : List (OpenerStep P StoreWrite)) :
    (initSchema found steps).disk = found ∧ (initSchema found steps).changes = [] ∧
      ∀ opener, (initSchema found steps).openers opener ≠ .opened ∧
        ∀ other, (initSchema found steps).openers opener = .refused other → other = error := by
  have nothing : schemaUpgrading.prepare found = none := by simp [schemaUpgrading, table]
  have ready : schemaUpgrading.Prepared found found := by rw [Upgrading.Prepared, nothing]; rfl
  have failed : schemaUpgrading.bring found = .error error := by
    rw [Upgrading.bring_eq ready, refused]
    rfl
  have stays : schemaUpgrading.StaysUpgraded StoreWrite.write found := fun done brought => by
    cases failed.symm.trans brought
  rcases Upgrading.run_untouched_or_upgraded (prepares_once found) stays steps with untouched | upgraded
  · refine ⟨untouched.disk.resolve_right fun prepared => ?_, untouched.unchanged, fun opener =>
      ⟨fun opened => ?_, fun other failure => ?_⟩⟩
    · rw [nothing] at prepared
      cases prepared
    · have early := untouched.openers opener
      rw [← initSchema, opened] at early
      exact early
    · have early := untouched.openers opener
      rw [← initSchema, failure] at early
      cases failed.symm.trans early
      rfl
  · obtain ⟨done, brought, -⟩ := upgraded.disk
    cases failed.symm.trans brought

end Processes

/-! ## A file of the second version -/

/-- The schema of a version that there is. -/
def catalogAt (version : Nat) : Catalog String String := (schemaAt version).toOption.getD []

def olderFile : SchemaDatabase where
  catalog := catalogAt 2
  rows name := if name = "schema_version" then [versionRow 2] else []
  shaped name row member := by
    split_ifs at member with same
    · rw [List.mem_singleton.1 member, same]
      decide +kernel
    · cases member

/-- Two processes open the file; the first finds it locked, and migrates it after the second has died. -/
def interruptedOpening : List (OpenerStep Bool StoreWrite) :=
  [.prepare true, .prepare false, .reserve false, .carryOut false, .findLocked true false, .die false, .prepare true,
    .reserve true] ++ List.replicate 4 (.carryOut true)

theorem opens_migrate_once_interrupted : AtVersion 2 olderFile ∧
    (initSchema olderFile interruptedOpening).openers true = .opened ∧
    ∀ opener error, (initSchema olderFile interruptedOpening).openers opener ≠ .refused error := by
  have held : AtVersion 2 olderFile := ⟨.inl (by decide +kernel), rfl⟩
  exact ⟨held, by rfl, (opens_migrate_once (by decide) held interruptedOpening).1⟩

end McpTracer.Storage
