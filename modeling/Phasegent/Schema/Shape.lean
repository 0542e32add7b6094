import Phasegent.Schema.Statements

namespace Phasegent.Schema
open Sql Interleaving

def declared : List Ddl :=
  schema ++ worktreeLeasesSchema ++ [scopesTaskIdx] ++ branchLinksSchema ++ [linksTaskIdx] ++ schemaIndex

def added : List (String × Column) :=
  migrations ++ [("worktree_leases", ⟨"release_reason", "TEXT"⟩),
    ("worktree_lease_scopes", ⟨"task_id", "INTEGER"⟩), ("branch_issue_links", ⟨"task_id", "INTEGER"⟩)]

def tablesAgree : Ddl → Ddl → Bool
  | .table name columns constraints, .table name' columns' constraints' =>
      decide (name = name' → columns = columns' ∧ constraints = constraints')
  | _, _ => true

def indexesAgree : Ddl → Ddl → Bool
  | .index name index, .index name' index' => decide (name = name' → index = index')
  | _, _ => true

def wellDeclared : Ddl → Bool
  | .table _ columns _ => decide (columns.map Column.name).Nodup
  | .index name index => decide ((index.unique → index = activeRepoPath) ∧ name ≠ repoPathIdx)

def addedTo (entry : String × Column) : Ddl → Bool
  | .table name columns _ => name == entry.1 && columns.contains entry.2
  | .index .. => false

theorem schema_consistent :
    (∀ a ∈ declared, wellDeclared a ∧ ∀ b ∈ declared, tablesAgree a b ∧ indexesAgree a b) ∧
      ∀ entry ∈ added, declared.any (addedTo entry) ∧ entry.1 ≠ documentsTable ∧ entry.1 ≠ searchTable ∧
        (entry.1 = "worktree_leases" → entry.2.name ∉ "status" :: activeRepoPath.columns) := by
  decide +kernel

theorem declared_table_unique {name : String} {columns columns' : List Column}
    {constraints constraints' : List String} (first : .table name columns constraints ∈ declared)
    (second : .table name columns' constraints' ∈ declared) :
    columns = columns' ∧ constraints = constraints' :=
  of_decide_eq_true ((schema_consistent.1 _ first).2 _ second).1 rfl

theorem declared_index_unique {name : String} {index index' : IndexDef}
    (first : .index name index ∈ declared) (second : .index name index' ∈ declared) : index = index' :=
  of_decide_eq_true ((schema_consistent.1 _ first).2 _ second).2 rfl

theorem declared_names_nodup {name : String} {columns : List Column} {constraints : List String}
    (among : .table name columns constraints ∈ declared) : (columns.map Column.name).Nodup :=
  of_decide_eq_true (schema_consistent.1 _ among).1

theorem declared_unique_index {name : String} {index : IndexDef} (among : .index name index ∈ declared)
    (unique : index.unique) : index = activeRepoPath :=
  (of_decide_eq_true (schema_consistent.1 _ among).1).1 unique

theorem declared_not_retired {name : String} {index : IndexDef} (among : .index name index ∈ declared) :
    name ≠ repoPathIdx :=
  (of_decide_eq_true (schema_consistent.1 _ among).1).2

theorem added_declared {table : String} {column : Column} (among : (table, column) ∈ added) :
    ∃ columns constraints, .table table columns constraints ∈ declared ∧ column ∈ columns := by
  obtain ⟨ddl, member, holds⟩ := List.any_eq_true.mp (schema_consistent.2 _ among).1
  cases ddl with
  | table name columns constraints =>
      simp only [addedTo, Bool.and_eq_true, beq_iff_eq, List.contains_iff_mem] at holds
      obtain ⟨rfl, inside⟩ := holds
      exact ⟨columns, constraints, member, inside⟩
  | index name found => cases holds

theorem added_elsewhere {table : String} {column : Column} (among : (table, column) ∈ added) :
    table ≠ documentsTable ∧ table ≠ searchTable ∧
      (table = "worktree_leases" → column.name ∉ "status" :: activeRepoPath.columns) :=
  (schema_consistent.2 _ among).2

/-- A table of some release: the columns of today, less some that were added since. -/
structure TableShape (name : String) (table : TableState) : Prop where
  declared : ∃ columns, .table name columns table.constraints ∈ declared ∧
    (∀ column ∈ table.columns, column ∈ columns) ∧
      ∀ column ∈ columns, (name, column) ∉ added → column ∈ table.columns
  nodup : table.names.Nodup

structure Shaped (db : Catalog) : Prop where
  tables : ∀ name table, db.tables name = some table → TableShape name table
  indexes : ∀ name index, db.indexes name = some index →
    .index name index ∈ declared ∨ name = repoPathIdx ∧ index = repoPath
  paths : ∀ table, db.tables "worktree_leases" = some table → activeRepoPath.Admits table.rows
  rowids : ((documents db).map fun row => row "rowid").Nodup

theorem TableShape.column_of_name {name : String} {table : TableState} (shape : TableShape name table)
    {column : Column} (among : (name, column) ∈ added) (named : column.name ∈ table.names) :
    column ∈ table.columns := by
  obtain ⟨columns, listed, inside, -⟩ := shape.declared
  obtain ⟨columns', constraints', listed', member⟩ := added_declared among
  obtain ⟨rfl, -⟩ := declared_table_unique listed listed'
  obtain ⟨other, present, same⟩ := List.mem_map.mp named
  have distinct := List.inj_on_of_nodup_map (declared_names_nodup listed)
  rwa [← distinct (inside other present) member same]

def HasPathIndex (db : Catalog) : Prop :=
  db.indexes repoPathIdx = some repoPath ∨ db.indexes activeRepoPathIdx = some activeRepoPath

/-- The rows of a table keep the values of its columns, less the cleared project ids. -/
def SameValues (name : String) (table table' : TableState) : Prop :=
  List.Forall₂ (fun row row' => ∀ c ∈ table.names, (name, c) ∉ legacyProjectIds → row' c = row c)
    table.rows table'.rows

structure Grown (name : String) (table table' : TableState) : Prop where
  columns : ∀ column ∈ table.columns, column ∈ table'.columns
  rows : name ≠ searchTable → SameValues name table table'

structure Later (db db' : Catalog) : Prop where
  tables : ∀ name table, db.tables name = some table →
    ∃ table', db'.tables name = some table' ∧ Grown name table table'
  indexes : ∀ name index, name ≠ repoPathIdx → db.indexes name = some index →
    db'.indexes name = some index
  retired : db.indexes repoPathIdx = none → db'.indexes repoPathIdx = none
  path : HasPathIndex db → HasPathIndex db'
  corpus : documents db' = documents db

theorem Grown.refl (name : String) (table : TableState) : Grown name table table where
  columns _ present := present
  rows _ := List.forall₂_same.mpr fun _ _ _ _ _ => rfl

theorem Grown.names {name : String} {table table' : TableState} (grown : Grown name table table')
    {c : String} (named : c ∈ table.names) : c ∈ table'.names := by
  obtain ⟨column, present, rfl⟩ := List.mem_map.mp named
  exact List.mem_map_of_mem (grown.columns column present)

theorem Grown.trans {name : String} {a b c : TableState} (first : Grown name a b)
    (second : Grown name b c) : Grown name a c where
  columns column present := second.columns column (first.columns column present)
  rows other := by
    refine forall₂_chain (fun _ _ _ same same' k known apart => ?_) (first.rows other)
      (second.rows other)
    rw [same' k (first.names known) apart, same k known apart]

theorem Later.refl (db : Catalog) : Later db db where
  tables name table found := ⟨table, found, .refl name table⟩
  indexes _ _ _ found := found
  retired gone := gone
  path has := has
  corpus := rfl

theorem Later.trans {a b c : Catalog} (first : Later a b) (second : Later b c) : Later a c where
  tables name table found := by
    obtain ⟨table', found', grown⟩ := first.tables name table found
    obtain ⟨table'', found'', grown'⟩ := second.tables name table' found'
    exact ⟨table'', found'', grown.trans grown'⟩
  indexes name index other found := second.indexes name index other (first.indexes name index other found)
  retired gone := second.retired (first.retired gone)
  path has := second.path (first.path has)
  corpus := second.corpus.trans first.corpus

end Phasegent.Schema
