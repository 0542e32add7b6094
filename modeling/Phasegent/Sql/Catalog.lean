import Phasegent.Sql.Table
import Mathlib.Data.List.Forall2
import Mathlib.Logic.Function.Basic

namespace Sql

inductive Value where
  | null
  | integer (n : Int)
  | real (literal : String)
  | text (s : String)
  deriving DecidableEq, Repr

abbrev Row := String → Value

structure Column where
  name : String
  declared : String
  deriving DecidableEq, Repr

structure TableState where
  columns : List Column
  constraints : List String
  rows : List Row

def TableState.names (table : TableState) : List String := table.columns.map Column.name

/-- An index, and the text that a column of its rows has where it covers only some of them. -/
structure IndexDef where
  table : String
  columns : List String
  descending : List String
  unique : Bool
  only : Option (String × String)
  deriving DecidableEq, Repr

inductive SqlError where
  | noSuchTable (table : String)
  | noSuchColumn (column : String)
  | duplicateColumn (column : String)
  | uniqueFailed (table : String)
  deriving DecidableEq, Repr

def SqlError.message : SqlError → String
  | .noSuchTable table => "no such table: " ++ table
  | .noSuchColumn column => "no such column: " ++ column
  | .duplicateColumn column => "duplicate column name: " ++ column
  | .uniqueFailed table => "UNIQUE constraint failed: " ++ table

structure Catalog where
  tables : String → Option TableState
  indexes : String → Option IndexDef

namespace Catalog

def empty : Catalog := ⟨fun _ => none, fun _ => none⟩

def setTable (name : String) (table : TableState) (db : Catalog) : Catalog :=
  { db with tables := Function.update db.tables name (some table) }

def setIndex (name : String) (index : Option IndexDef) (db : Catalog) : Catalog :=
  { db with indexes := Function.update db.indexes name index }

def hasColumn (table column : String) (db : Catalog) : Bool :=
  (db.tables table).any fun state => state.names.contains column

/-- `CREATE TABLE IF NOT EXISTS`. -/
def createTable (name : String) (columns : List Column) (constraints : List String) (db : Catalog) :
    Catalog :=
  match db.tables name with
  | some _ => db
  | none => db.setTable name ⟨columns, constraints, []⟩

end Catalog

def IndexDef.covers (index : IndexDef) (row : Row) : Bool :=
  index.only.all fun (column, text) => row column == .text text

def IndexDef.clash (index : IndexDef) (a b : Row) : Bool :=
  index.covers a && index.covers b && index.columns.all fun c => a c == b c && a c != .null

def IndexDef.Admits (index : IndexDef) (rows : List Row) : Prop :=
  index.unique → rows.Pairwise fun a b => index.clash a b = false

instance (index : IndexDef) (rows : List Row) : Decidable (index.Admits rows) :=
  inferInstanceAs (Decidable (_ → _))

namespace Catalog

/-- `CREATE INDEX IF NOT EXISTS`. -/
def createIndex (name : String) (index : IndexDef) (db : Catalog) : Except SqlError Catalog :=
  match db.indexes name with
  | some _ => .ok db
  | none =>
      match db.tables index.table with
      | none => .error (.noSuchTable index.table)
      | some table =>
          match index.columns.find? fun c => !table.names.contains c with
          | some column => .error (.noSuchColumn column)
          | none =>
              if index.Admits table.rows then .ok (db.setIndex name (some index))
              else .error (.uniqueFailed index.table)

/-- `DROP INDEX IF EXISTS`. -/
def dropIndex (name : String) (db : Catalog) : Catalog := db.setIndex name none

/-- `ALTER TABLE … ADD COLUMN`. -/
def addColumn (table : String) (column : Column) (db : Catalog) : Except SqlError Catalog :=
  match db.tables table with
  | none => .error (.noSuchTable table)
  | some state =>
      if state.names.contains column.name then .error (.duplicateColumn column.name)
      else .ok (db.setTable table { state with
        columns := state.columns ++ [column]
        rows := state.rows.map fun row => Function.update row column.name .null })

def setRows (table : String) (set : List Row → List Row) (db : Catalog) : Catalog :=
  match db.tables table with
  | none => db
  | some state => db.setTable table { state with rows := set state.rows }

def rows (table : String) (db : Catalog) : List Row := ((db.tables table).map TableState.rows).getD []

section Simp
variable {db : Catalog} {name other : String} {table : TableState} {index : Option IndexDef}

@[simp] theorem setTable_indexes : (db.setTable name table).indexes = db.indexes := rfl

@[simp] theorem setIndex_tables : (db.setIndex name index).tables = db.tables := rfl

@[simp] theorem setTable_self : (db.setTable name table).tables name = some table := by
  simp [setTable]

theorem setTable_other (different : other ≠ name) :
    (db.setTable name table).tables other = db.tables other := by
  simp [setTable, different]

@[simp] theorem setIndex_self : (db.setIndex name index).indexes name = index := by
  simp [setIndex]

theorem setIndex_other (different : other ≠ name) :
    (db.setIndex name index).indexes other = db.indexes other := by
  simp [setIndex, different]

theorem setTable_tables (other : String) :
    (db.setTable name table).tables other = if other = name then some table else db.tables other := by
  simp [setTable, Function.update_apply]

theorem setIndex_indexes (other : String) :
    (db.setIndex name index).indexes other = if other = name then index else db.indexes other := by
  simp [setIndex, Function.update_apply]

end Simp

end Catalog

theorem forall₂_chain {α β γ : Type} {first : α → β → Prop} {second : β → γ → Prop}
    {both : α → γ → Prop} (chain : ∀ a b c, first a b → second b c → both a c) {xs : List α}
    {ys : List β} {zs : List γ} (here : List.Forall₂ first xs ys) (there : List.Forall₂ second ys zs) :
    List.Forall₂ both xs zs := by
  induction here generalizing zs with
  | nil =>
      cases there
      exact .nil
  | cons holds rest ih =>
      cases there with
      | cons holds' rest' => exact .cons (chain _ _ _ holds holds') (ih rest')

end Sql
