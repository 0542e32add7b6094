import Phasegent.Interleaving.Adversary
import Phasegent.Schema.Opens

namespace Phasegent.Schema
open Sql Interleaving

section Untouched

def Untouched (db db' : Catalog) : Prop :=
  documents db' = documents db ∧ db'.rows searchTable = db.rows searchTable

theorem Untouched.refl (db : Catalog) : Untouched db db := ⟨rfl, rfl⟩

theorem Untouched.trans {a b c : Catalog} (first : Untouched a b) (second : Untouched b c) :
    Untouched a c :=
  ⟨second.1.trans first.1, second.2.trans first.2⟩

variable {db db' : Catalog}

theorem untouched_setTable {name : String} {table : TableState} (notDocuments : name ≠ documentsTable)
    (notSearch : name ≠ searchTable) : Untouched db (db.setTable name table) := by
  refine ⟨documents_setTable notDocuments, ?_⟩
  rw [Catalog.rows, Catalog.rows, Catalog.setTable_other notSearch.symm]

theorem rows_createTable (name other : String) (columns : List Column) (constraints : List String) :
    (db.createTable name columns constraints).rows other = db.rows other := by
  unfold Catalog.createTable Catalog.rows
  cases found : db.tables name with
  | some table => rfl
  | none =>
      rw [Catalog.setTable_tables]
      split
      · next here => simp [here, found]
      · rfl

theorem createIndex_tables {name : String} {index : IndexDef} (ran : db.createIndex name index = .ok db') :
    db'.tables = db.tables := by
  unfold Catalog.createIndex at ran
  split at ran
  · cases ran
    rfl
  · split at ran
    · cases ran
    · split at ran
      · cases ran
      · split at ran
        · cases ran
          rfl
        · cases ran

theorem untouched_of_tables (same : db'.tables = db.tables) : Untouched db db' := by
  simp only [Untouched, documents, Catalog.rows, same, and_self]

theorem addColumn_untouched {table : String} {column : Column} (among : (table, column) ∈ added)
    (ran : db.addColumn table column = .ok db') : Untouched db db' := by
  obtain ⟨notDocuments, notSearch, -⟩ := added_elsewhere among
  unfold Catalog.addColumn at ran
  split at ran
  · cases ran
  · split at ran
    · cases ran
    · cases ran
      exact untouched_setTable notDocuments notSearch

theorem migrateColumn_untouched {entry : String × Column} (among : entry ∈ added)
    (ran : migrateColumn db entry = .ok db') : Untouched db db' := by
  unfold migrateColumn at ran
  split at ran
  · cases ran
    exact .refl db
  · split at ran
    · next db₁ grown =>
        cases ran
        exact addColumn_untouched among grown
    · split at ran
      · cases ran
        exact .refl db
      · cases ran

theorem migrateColumns_untouched {entries : List (String × Column)} (among : ∀ entry ∈ entries, entry ∈ added)
    (ran : entries.foldlM migrateColumn db = .ok db') : Untouched db db' := by
  induction entries generalizing db with
  | nil =>
      cases ran
      exact .refl _
  | cons entry rest ih =>
      rw [List.foldlM_cons, Fallible.bind_eq_ok] at ran
      obtain ⟨db₁, first, onward⟩ := ran
      have here := migrateColumn_untouched (among entry List.mem_cons_self) first
      exact here.trans (ih (fun other member => among other (.tail _ member)) onward)

theorem clearColumn_untouched {entry : String × String} (among : entry ∈ legacyProjectIds) :
    Untouched db (clearColumn db entry) := by
  have elsewhere : ∀ entry ∈ legacyProjectIds, entry.1 ≠ documentsTable ∧ entry.1 ≠ searchTable := by
    decide
  obtain ⟨notDocuments, notSearch⟩ := elsewhere entry among
  unfold clearColumn Catalog.setRows
  split
  · split
    · exact .refl db
    · exact untouched_setTable notDocuments notSearch
  · exact .refl db

theorem clearColumns_untouched {entries : List (String × String)}
    (among : ∀ entry ∈ entries, entry ∈ legacyProjectIds) :
    Untouched db (entries.foldl clearColumn db) := by
  induction entries generalizing db with
  | nil => exact .refl db
  | cons entry rest ih =>
      exact (clearColumn_untouched (among entry List.mem_cons_self)).trans
        (ih fun other member => among other (.tail _ member))

theorem migration_untouched (ran : migrationBody db = .ok db') : Untouched db db' := by
  unfold migrationBody at ran
  rw [Fallible.bind_eq_ok] at ran
  obtain ⟨db₁, migrated, cleared⟩ := ran
  cases cleared
  exact (migrateColumns_untouched (fun _ member => List.mem_append_left _ member) migrated).trans
    (clearColumns_untouched fun _ member => member)

theorem settle_untouched {ε : Type} {result : Except ε Catalog}
    (untouched : ∀ db', result = .ok db' → Untouched db db') : Untouched db (settle db result).2 := by
  cases result with
  | ok db' => exact untouched db' rfl
  | error e => exact .refl db

end Untouched

def SchemaOp.Known : SchemaOp → Prop
  | .addColumn table column => (table, column) ∈ added
  | _ => True

def SchemaOp.Calm : SchemaOp → Prop
  | .clearSearch => False
  | .fillSearch => False
  | .addColumn table column => (table, column) ∈ added
  | _ => True

theorem calm_untouched {op : SchemaOp} (calm : op.Calm) (db : Catalog) : Untouched db (op.perform db).2 := by
  cases op with
  | create ddl =>
      apply settle_untouched
      intro db' ran
      cases ddl with
      | table name columns constraints =>
          cases ran
          simp only [Untouched, documents, rows_createTable, and_self]
      | index name created => exact untouched_of_tables (createIndex_tables ran)
  | hasColumn table column => exact .refl db
  | addColumn table column => exact settle_untouched fun db' ran => addColumn_untouched calm ran
  | applyMigrations => exact settle_untouched fun db' ran => migration_untouched ran
  | pathIndexes => exact .refl db
  | activePathIndex =>
      apply settle_untouched
      intro db' ran
      have same : db'.tables = (db.dropIndex repoPathIdx).tables := createIndex_tables ran
      exact untouched_of_tables same
  | countDocuments => exact .refl db
  | countSearch => exact .refl db
  | clearSearch => exact calm.elim
  | fillSearch => exact calm.elim

abbrev Act := Interleaving.Act SchemaOp SchemaOp.Ret

abbrev Past := History SchemaOp SchemaOp.Ret

def Cleared : Past → Prop
  | [] => False
  | act :: before =>
      match act with
      | ⟨.clearSearch, _⟩ => True
      | ⟨.fillSearch, .ok _⟩ => False
      | _ => Cleared before

/-- The process has filled the search table, or found it as large as the documents. -/
def Passed (past : Past) : Prop :=
  ⟨.fillSearch, .ok ()⟩ ∈ past ∨
    ∃ n, ⟨.countDocuments, .ok n⟩ ∈ past ∧ ⟨.countSearch, .ok n⟩ ∈ past

theorem Passed.later {past : Past} (passed : Passed past) (act : Act) : Passed (act :: past) := by
  cases passed with
  | inl filled => exact .inl (.tail _ filled)
  | inr equal =>
      obtain ⟨n, counted, found⟩ := equal
      exact .inr ⟨n, .tail _ counted, .tail _ found⟩

theorem cleared_calm {op : SchemaOp} (calm : op.Calm) (answer : op.Ret) (past : Past) :
    Cleared (⟨op, answer⟩ :: past) ↔ Cleared past := by
  cases op with
  | clearSearch => exact calm.elim
  | fillSearch => exact calm.elim
  | _ => exact Iff.rfl

section Traces

def Even (opened : Prop) (past : Past) : Prop := ¬Cleared past ∧ (opened → Passed past)

theorem even_calm {opened : Prop} {op : SchemaOp} (calm : op.Calm) (answer : op.Ret) {past : Past}
    (even : Even opened past) : Even opened (⟨op, answer⟩ :: past) :=
  ⟨fun cleared => even.1 ((cleared_calm calm answer past).mp cleared),
    fun isOpened => (even.2 isOpened).later _⟩

def Leaves (opened : Prop) (p : SchemaM Unit) (opened' : Prop) : Prop :=
  Traced (fun _ => SchemaOp.Known) (Even opened) p (fun _ => Even opened') fun _ _ => True

theorem calm_known {op : SchemaOp} (calm : op.Calm) : op.Known := by
  cases op with
  | addColumn table column => exact calm
  | _ => trivial

theorem leaves_calm {opened : Prop} {p : SchemaM Unit} (performs : Performs SchemaOp.Calm p) :
    Leaves opened p opened := by
  have traced : Traced (fun _ => SchemaOp.Known) (Even opened) p (fun _ => Even opened)
      fun _ => Even opened := by
    apply traced_performs _ _ performs
    · exact fun _ op _ calm => calm_known calm
    · exact fun _ op answer even calm => even_calm calm answer even
  exact traced.weaken (fun _ _ even => even) fun _ _ _ => trivial

theorem Leaves.seq {opened opened' opened'' : Prop} {p q : SchemaM Unit} (first : Leaves opened p opened')
    (rest : Leaves opened' q opened'') : Leaves opened (p >>= fun _ => q) opened'' :=
  traced_bind first fun _ => rest

theorem calm_batch (context : String) (statements : List Ddl) :
    Performs SchemaOp.Calm (executeBatch context statements) := by
  induction statements with
  | nil => exact performs_pure ()
  | cons ddl rest ih => exact performs_bind (performs_request trivial) fun _ => ih

theorem calm_column {table : String} {column : Column} (context : String) (among : (table, column) ∈ added) :
    Performs SchemaOp.Calm (ensureColumn table column context) := by
  refine performs_bind (performs_request trivial) fun present => ?_
  cases present with
  | true => exact performs_pure ()
  | false => exact performs_request among

theorem calm_storage : Performs SchemaOp.Calm initialise :=
  performs_bind (calm_batch _ _) fun _ => performs_request trivial

theorem calm_leases : Performs SchemaOp.Calm ensureLeaseSchema := by
  refine performs_bind (calm_batch _ _) fun _ => performs_bind (calm_column _ (by decide)) fun _ =>
    performs_bind (performs_bind (calm_column _ (by decide)) fun _ => performs_request trivial)
      fun _ => performs_bind (performs_request trivial) fun names => ?_
  cases migrationComplete names with
  | true => exact performs_pure ()
  | false => exact performs_request trivial

theorem calm_links : Performs SchemaOp.Calm ensureBranchSchema :=
  performs_bind (calm_batch _ _) fun _ =>
    performs_bind (calm_column _ (by decide)) fun _ => performs_request trivial

theorem leaves_populated {opened : Prop} : Leaves opened ensureFtsPopulated True := by
  have stated : ∀ context (r : Except SqlError Nat) n, stating context r = .ok n → r = .ok n := by
    intro context r n same
    simpa [stating] using same
  have corpus : SchemaOp.Calm .countDocuments := trivial
  have search : SchemaOp.Calm .countSearch := trivial
  refine traced_bind (M := fun n past => Even opened past ∧ ⟨.countDocuments, .ok n⟩ ∈ past)
    (traced_request (fun _ _ => trivial) fun past r even => ends_of_ok fun n same =>
      ⟨even_calm corpus r even, by rw [stated _ _ _ same]; exact List.mem_cons_self⟩) fun n => ?_
  refine traced_bind (M := fun m past => Even opened past ∧ ⟨.countDocuments, .ok n⟩ ∈ past ∧
      ⟨.countSearch, .ok m⟩ ∈ past)
    (traced_request (fun _ _ => trivial) fun past r even => ends_of_ok fun m same =>
      ⟨even_calm search r even.1, .tail _ even.2,
        by rw [stated _ _ _ same]; exact List.mem_cons_self⟩) fun m => ?_
  split
  · next equal =>
      subst equal
      exact traced_pure fun past even => ⟨even.1.1, fun _ => .inr ⟨n, even.2⟩⟩
  · refine traced_bind (M := fun _ _ => True) (traced_requested fun _ _ => trivial) fun _ => ?_
    refine traced_request (fun _ _ => trivial) fun past r _ => ends_of_ok fun _ same => ?_
    cases r with
    | error e => cases same
    | ok done => exact ⟨fun cleared => cleared, fun _ => .inl List.mem_cons_self⟩

theorem leaves_part {opened : Prop} (part : Part) : Leaves opened part.run (opened ∨ part = .index) := by
  have still : part ≠ .index → Performs SchemaOp.Calm part.run →
      Leaves opened part.run (opened ∨ part = .index) := fun other calm =>
    (leaves_calm calm).weaken (fun _ _ even => ⟨even.1, fun either => even.2 (either.resolve_right other)⟩)
      fun _ _ failed => failed
  cases part with
  | storage => exact still (by decide) calm_storage
  | leases => exact still (by decide) calm_leases
  | links => exact still (by decide) calm_links
  | index =>
      have whole : Leaves opened initialiseIndex True := (leaves_calm (calm_batch _ _)).seq leaves_populated
      exact whole.weaken (fun _ _ even => ⟨even.1, fun _ => even.2 trivial⟩) fun _ _ failed => failed

theorem leaves_opening {opened : Prop} (parts : List Part) :
    Leaves opened (opening parts) (opened ∨ .index ∈ parts) := by
  induction parts generalizing opened with
  | nil =>
      exact traced_pure fun _ even => ⟨even.1, fun either => even.2 (either.resolve_right (by simp))⟩
  | cons part rest ih =>
      refine ((leaves_part part).seq ih).weaken (fun _ _ even => ⟨even.1, fun either => even.2 ?_⟩)
        fun _ _ failed => failed
      simp only [List.mem_cons] at either
      tauto

end Traces

end Phasegent.Schema
