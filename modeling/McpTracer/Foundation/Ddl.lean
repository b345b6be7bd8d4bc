import Mathlib.Logic.Function.Basic
import McpTracer.Foundation.Assoc
import McpTracer.Foundation.Outcome

/-! Tables with indexes, and the statements that change them.

A table has the rows that were put into it, each with the table's columns. What becomes of the definitions does not
depend on the rows, and what becomes of the rows does not depend on the definitions.
-/

set_option autoImplicit false

namespace McpTracer.Foundation

/-- What names N stand for: a table or an index of one. Types and constraints are declared by texts T. -/
inductive SchemaEntry (N T : Type) where
  | table (columns : List (N × T)) (constraints : List T)
  | index (unique : Bool) (on : N) (columns : List N) (filter : Option T)
  deriving DecidableEq

/-- The definitions of a database, in the order of their creation. -/
abbrev Catalog (N T : Type) := List (N × SchemaEntry N T)

inductive DdlError (N : Type) where
  | tableExists (name : N)
  | indexExists (name : N)
  | noSuchTable (name : N)
  | noSuchColumn (name : N)
  | duplicateColumn (name : N)
  deriving DecidableEq

/-- The statements that change definitions; C are the values of columns. -/
inductive DdlStatement (N T C : Type) where
  | createTable (unlessExists : Bool) (name : N) (columns : List (N × T)) (constraints : List T)
  | createIndex (unlessExists unique : Bool) (name on : N) (columns : List N) (filter : Option T)
  | addColumn (table column : N) (declared : T) (default : C)
  | dropTableIfExists (name : N)

abbrev TableRow (N C : Type) := List (N × C)

variable {N T C : Type} [DecidableEq N]

namespace Catalog

def columns? (catalog : Catalog N T) (name : N) : Option (List N) :=
  match catalog.lookup name with
  | some (.table columns _) => some (columns.map Prod.fst)
  | _ => none

def addColumnTo (table column : N) (declared : T) (entry : N × SchemaEntry N T) : N × SchemaEntry N T :=
  match entry with
  | (name, .table columns constraints) =>
    if name = table then (name, .table (columns ++ [(column, declared)]) constraints) else entry
  | _ => entry

/-- Neither the table nor an index of it. -/
def survives (dropped : N) : N × SchemaEntry N T → Bool
  | (name, .table _ _) => decide (name ≠ dropped)
  | (_, .index _ on _ _) => decide (on ≠ dropped)

def execute (catalog : Catalog N T) : DdlStatement N T C → Except (DdlError N) (Catalog N T)
  | .createTable unlessExists name columns constraints =>
    match catalog.lookup name with
    | some (.table _ _) => if unlessExists then .ok catalog else .error (.tableExists name)
    | some (.index _ _ _ _) => .error (.indexExists name)
    | none => .ok (catalog ++ [(name, .table columns constraints)])
  | .createIndex unlessExists unique name on columns filter =>
    match catalog.lookup name, catalog.columns? on with
    | some (.table _ _), _ => .error (.tableExists name)
    | some (.index _ _ _ _), _ => if unlessExists then .ok catalog else .error (.indexExists name)
    | none, none => .error (.noSuchTable on)
    | none, some known =>
      match columns.find? (· ∉ known) with
      | some column => .error (.noSuchColumn column)
      | none => .ok (catalog ++ [(name, .index unique on columns filter)])
  | .addColumn table column declared _ =>
    match catalog.columns? table with
    | none => .error (.noSuchTable table)
    | some known =>
      if column ∈ known then .error (.duplicateColumn column)
      else .ok (catalog.map (addColumnTo table column declared))
  | .dropTableIfExists name => .ok (catalog.filter (survives name))

end Catalog

namespace DdlStatement

/-- What becomes of the rows of each table. -/
def carry (rows : N → List (TableRow N C)) : DdlStatement N T C → N → List (TableRow N C)
  | .addColumn table column _ default, name =>
    if name = table then (rows name).map (· ++ [(column, default)]) else rows name
  | .dropTableIfExists dropped, name => if name = dropped then [] else rows name
  | _, name => rows name

/-- The table whose rows the statement changes. -/
def altered : DdlStatement N T C → Option N
  | .addColumn table _ _ _ => some table
  | .dropTableIfExists name => some name
  | _ => none

def carryAll (rows : N → List (TableRow N C)) (statements : List (DdlStatement N T C)) : N → List (TableRow N C) :=
  statements.foldl carry rows

theorem carry_of_not_altered (rows : N → List (TableRow N C)) {statement : DdlStatement N T C} {name : N}
    (apart : statement.altered ≠ some name) : statement.carry rows name = rows name := by
  cases statement with
  | addColumn table column declared default =>
    exact if_neg fun same => apart (congrArg some same.symm)
  | dropTableIfExists dropped => exact if_neg fun same => apart (congrArg some same.symm)
  | _ => rfl

theorem carryAll_of_not_altered {statements : List (DdlStatement N T C)} {name : N}
    (apart : ∀ statement ∈ statements, statement.altered ≠ some name) (rows : N → List (TableRow N C)) :
    carryAll rows statements name = rows name := by
  induction statements generalizing rows with
  | nil => rfl
  | cons statement rest ih =>
    rw [carryAll, List.foldl_cons, ← carryAll, ih fun other member => apart other (List.mem_cons_of_mem _ member),
      carry_of_not_altered rows (apart statement List.mem_cons_self)]

end DdlStatement

/-! ## Rows have the columns of their table -/

namespace Catalog
variable {catalog : Catalog N T} {name : N} {columns : List N}

theorem columns?_eq_some_iff : catalog.columns? name = some columns ↔
    ∃ declared constraints, catalog.lookup name = some (.table declared constraints) ∧
      declared.map Prod.fst = columns := by
  unfold columns?
  cases found : catalog.lookup name with
  | none => simp
  | some entry => cases entry <;> simp

theorem columns?_append (entry : N × SchemaEntry N T) (known : catalog.columns? name = some columns) :
    columns? (catalog ++ [entry]) name = some columns := by
  obtain ⟨declared, constraints, found, rfl⟩ := columns?_eq_some_iff.1 known
  exact columns?_eq_some_iff.2 ⟨declared, constraints, by rw [List.lookup_append, found]; rfl, rfl⟩

theorem columns?_filter_survives {dropped : N} (differs : name ≠ dropped)
    (known : catalog.columns? name = some columns) :
    columns? (catalog.filter (survives dropped)) name = some columns := by
  obtain ⟨declared, constraints, found, rfl⟩ := columns?_eq_some_iff.1 known
  refine columns?_eq_some_iff.2 ⟨declared, constraints, ?_, rfl⟩
  clear known
  induction catalog with
  | nil => cases found
  | cons entry rest ih =>
    obtain ⟨key, value⟩ := entry
    by_cases same : name = key
    · subst same
      rw [lookup_cons_same, Option.some.injEq] at found
      have stays : survives dropped (name, value) = true := by simp [found, survives, differs]
      rw [List.filter_cons_of_pos stays, lookup_cons_same, found]
    · rw [lookup_cons_other same] at found
      rw [List.filter_cons]
      split
      · rw [lookup_cons_other same, ih found]
      · exact ih found

theorem lookup_map_addColumnTo (table column : N) (declared : T) :
    (catalog.map (addColumnTo table column declared)).lookup name =
      (catalog.lookup name).map fun entry => (addColumnTo table column declared (name, entry)).2 := by
  induction catalog with
  | nil => rfl
  | cons entry rest ih =>
    obtain ⟨key, value⟩ := entry
    have keeps : addColumnTo table column declared (key, value) =
        (key, (addColumnTo table column declared (key, value)).2) := by
      unfold addColumnTo
      split <;> (try split) <;> simp_all
    rw [List.map_cons, keeps]
    by_cases same : name = key
    · subst same
      simp
    · rw [lookup_cons_other same, lookup_cons_other same, ih]

theorem columns?_addColumn (table column : N) (declared : T) (known : catalog.columns? name = some columns) :
    columns? (catalog.map (addColumnTo table column declared)) name =
      some (if name = table then columns ++ [column] else columns) := by
  obtain ⟨fields, constraints, found, rfl⟩ := columns?_eq_some_iff.1 known
  refine columns?_eq_some_iff.2 ?_
  rw [lookup_map_addColumnTo, found]
  by_cases same : name = table
  · exact ⟨fields ++ [(column, declared)], constraints, by simp [addColumnTo, same], by simp [same]⟩
  · exact ⟨fields, constraints, by simp [addColumnTo, same], by simp [same]⟩

end Catalog

/-- A database in which each row has the columns of its table. -/
structure TableDatabase (N T C : Type) [DecidableEq N] where
  catalog : Catalog N T
  rows : N → List (TableRow N C)
  shaped : ∀ name, ∀ row ∈ rows name, catalog.columns? name = some (row.map Prod.fst)

namespace TableDatabase

theorem shaped_execute (db : TableDatabase N T C) {statement : DdlStatement N T C} {catalog : Catalog N T}
    (executed : db.catalog.execute statement = .ok catalog) {name : N} {row : TableRow N C}
    (member : row ∈ statement.carry db.rows name) : catalog.columns? name = some (row.map Prod.fst) := by
  cases statement with
  | createTable unlessExists table columns constraints =>
    have known := db.shaped name row member
    simp only [Catalog.execute] at executed
    split at executed
    · split_ifs at executed
      cases executed
      exact known
    · cases executed
    · cases executed
      exact Catalog.columns?_append _ known
  | createIndex unlessExists unique index on columns filter =>
    have known := db.shaped name row member
    simp only [Catalog.execute] at executed
    split at executed
    · cases executed
    · split_ifs at executed
      cases executed
      exact known
    · cases executed
    · split at executed
      · cases executed
      · cases executed
        exact Catalog.columns?_append _ known
  | addColumn table column declared default =>
    simp only [Catalog.execute] at executed
    split at executed
    · cases executed
    · split_ifs at executed
      cases executed
      by_cases same : name = table
      · rw [DdlStatement.carry, if_pos same] at member
        obtain ⟨before, inside, rfl⟩ := List.mem_map.1 member
        rw [Catalog.columns?_addColumn _ _ _ (db.shaped name before inside), if_pos same]
        simp
      · rw [DdlStatement.carry, if_neg same] at member
        rw [Catalog.columns?_addColumn _ _ _ (db.shaped name row member), if_neg same]
  | dropTableIfExists dropped =>
    cases executed
    by_cases same : name = dropped
    · rw [DdlStatement.carry, if_pos same] at member
      cases member
    · rw [DdlStatement.carry, if_neg same] at member
      exact Catalog.columns?_filter_survives same (db.shaped name row member)

def execute (db : TableDatabase N T C) (statement : DdlStatement N T C) :
    Except (DdlError N) (TableDatabase N T C) :=
  match executed : db.catalog.execute statement with
  | .error error => .error error
  | .ok catalog => .ok ⟨catalog, statement.carry db.rows, fun _ _ member => db.shaped_execute executed member⟩

/-- One statement after the other; the first that fails is the failure of all. -/
def executeBatch (db : TableDatabase N T C) (statements : List (DdlStatement N T C)) :
    Except (DdlError N) (TableDatabase N T C) :=
  statements.foldlM execute db

theorem execute_eq_ok {db : TableDatabase N T C} {statement : DdlStatement N T C} {catalog : Catalog N T}
    (executed : db.catalog.execute statement = .ok catalog) :
    ∃ after, db.execute statement = .ok after ∧ after.catalog = catalog ∧ after.rows = statement.carry db.rows := by
  unfold execute
  split
  · rename_i error failed
    cases executed.symm.trans failed
  · rename_i other same
    cases executed.symm.trans same
    exact ⟨_, rfl, rfl, rfl⟩

theorem execute_eq_error {db : TableDatabase N T C} {statement : DdlStatement N T C} {error : DdlError N}
    (failed : db.catalog.execute statement = .error error) : db.execute statement = .error error := by
  unfold execute
  split
  · rename_i other same
    cases failed.symm.trans same
    rfl
  · rename_i catalog executed
    cases failed.symm.trans executed

/-- A batch succeeds on a database if it does on the definitions alone. -/
theorem executeBatch_eq_ok {statements : List (DdlStatement N T C)} {db : TableDatabase N T C}
    {catalog : Catalog N T} (executed : statements.foldlM Catalog.execute db.catalog = .ok catalog) :
    ∃ after, db.executeBatch statements = .ok after ∧ after.catalog = catalog ∧
      after.rows = DdlStatement.carryAll db.rows statements := by
  induction statements generalizing db with
  | nil =>
    cases executed
    exact ⟨db, rfl, rfl, rfl⟩
  | cons statement rest ih =>
    rw [List.foldlM_cons, bind_eq_ok_iff] at executed
    obtain ⟨next, first, executed⟩ := executed
    obtain ⟨middle, done, rfl, rows⟩ := execute_eq_ok first
    obtain ⟨after, batch, same, carried⟩ := ih executed
    refine ⟨after, ?_, same, ?_⟩
    · rw [executeBatch, List.foldlM_cons, done]
      exact batch
    · rw [carried, rows]
      rfl

/-- Put other rows into one table. -/
def replaceRows (db : TableDatabase N T C) (table : N) (rows : List (TableRow N C))
    (shaped : ∀ row ∈ rows, db.catalog.columns? table = some (row.map Prod.fst)) : TableDatabase N T C where
  catalog := db.catalog
  rows := Function.update db.rows table rows
  shaped := by
    refine (Function.forall_update_iff db.rows fun name rows =>
      ∀ row ∈ rows, db.catalog.columns? name = some (row.map Prod.fst)).2 ⟨shaped, fun name _ => db.shaped name⟩

end TableDatabase

end McpTracer.Foundation
