import Phasegent.Schema.Shape

namespace Phasegent.Schema
open Sql Interleaving

section Tables
variable {db : Catalog} {name : String} {table : TableState}

theorem documents_setTable (other : name ≠ documentsTable) :
    documents (db.setTable name table) = documents db := by
  rw [documents, documents, Catalog.rows, Catalog.rows, Catalog.setTable_other other.symm]

theorem Shaped.setTable (shaped : Shaped db) (shape : TableShape name table)
    (paths : name = "worktree_leases" → activeRepoPath.Admits table.rows)
    (same : documents (db.setTable name table) = documents db) : Shaped (db.setTable name table) where
  tables other found listed := by
    rw [Catalog.setTable_tables] at listed
    split at listed
    · next here =>
        cases listed
        rwa [here]
    · exact shaped.tables other found listed
  indexes := shaped.indexes
  paths found listed := by
    rw [Catalog.setTable_tables] at listed
    split at listed
    · next here =>
        cases listed
        exact paths here.symm
    · exact shaped.paths found listed
  rowids := by
    rw [same]
    exact shaped.rowids

theorem Later.setTable (grown : ∀ old, db.tables name = some old → Grown name old table)
    (same : documents (db.setTable name table) = documents db) : Later db (db.setTable name table) where
  tables other found listed := by
    rw [Catalog.setTable_tables]
    split
    · next here =>
        subst here
        exact ⟨table, rfl, grown found listed⟩
    · exact ⟨found, listed, .refl other found⟩
  indexes _ _ _ found := found
  retired gone := gone
  path has := has
  corpus := same

theorem Shaped.setIndex {index : Option IndexDef} (shaped : Shaped db)
    (listed : ∀ created, index = some created → .index name created ∈ declared) :
    Shaped (db.setIndex name index) where
  tables := shaped.tables
  indexes other found present := by
    rw [Catalog.setIndex_indexes] at present
    split at present
    · next here =>
        subst here
        exact .inl (listed found present)
    · exact shaped.indexes other found present
  paths := shaped.paths
  rowids := shaped.rowids

end Tables

section Create
variable {db : Catalog} {name : String}

theorem created_shape {columns : List Column} {constraints : List String}
    (among : .table name columns constraints ∈ declared) :
    TableShape name ⟨columns, constraints, []⟩ where
  declared := ⟨columns, among, fun _ inside => inside, fun _ inside _ => inside⟩
  nodup := declared_names_nodup among

theorem create_table {columns : List Column} {constraints : List String} (shaped : Shaped db)
    (among : .table name columns constraints ∈ declared) :
    Shaped (db.createTable name columns constraints) ∧
      Later db (db.createTable name columns constraints) ∧
        ∃ table, (db.createTable name columns constraints).tables name = some table := by
  unfold Catalog.createTable
  cases found : db.tables name with
  | some table => exact ⟨shaped, .refl db, table, found⟩
  | none =>
      have same : documents (db.setTable name ⟨columns, constraints, []⟩) = documents db := by
        by_cases here : name = documentsTable
        · subst here
          simp [documents, Catalog.rows, found]
        · exact documents_setTable here
      have grown : ∀ old, db.tables name = some old → Grown name old ⟨columns, constraints, []⟩ := by
        intro old listed
        rw [found] at listed
        cases listed
      exact ⟨shaped.setTable (created_shape among) (fun _ _ => .nil) same, .setTable grown same,
        _, Catalog.setTable_self⟩

theorem HasPathIndex.setIndex {index : IndexDef} (absent : db.indexes name = none) (has : HasPathIndex db) :
    HasPathIndex (db.setIndex name (some index)) := by
  have kept : ∀ other found, db.indexes other = some found →
      (db.setIndex name (some index)).indexes other = some found := by
    intro other found present
    rw [Catalog.setIndex_other, present]
    rintro rfl
    rw [absent] at present
    cases present
  exact has.imp (kept _ _) (kept _ _)

theorem Later.setIndex {index : IndexDef} (absent : db.indexes name = none)
    (among : .index name index ∈ declared) : Later db (db.setIndex name (some index)) where
  tables other table found := ⟨table, found, .refl other table⟩
  indexes other found _ present := by
    rw [Catalog.setIndex_other, present]
    rintro rfl
    rw [absent] at present
    cases present
  retired gone := by rw [Catalog.setIndex_other (declared_not_retired among).symm, gone]
  path := .setIndex absent
  corpus := rfl

theorem create_index {index : IndexDef} (shaped : Shaped db) (among : .index name index ∈ declared)
    {table : TableState} (found : db.tables index.table = some table)
    (columns : ∀ c ∈ index.columns, c ∈ table.names) :
    ∃ db', db.createIndex name index = .ok db' ∧ Shaped db' ∧ Later db db' ∧
      db'.indexes name = some index := by
  unfold Catalog.createIndex
  cases present : db.indexes name with
  | some old =>
      have same : old = index := by
        cases shaped.indexes name old present with
        | inl listed => exact declared_index_unique listed among
        | inr retired => exact absurd retired.1 (declared_not_retired among)
      exact ⟨db, rfl, shaped, .refl db, by rw [present, same]⟩
  | none =>
      have all : index.columns.find? (fun c => !table.names.contains c) = none := by
        simpa using columns
      have admits : index.Admits table.rows := by
        intro unique
        obtain rfl := declared_unique_index among unique
        exact shaped.paths table found unique
      simp only [found, all, if_pos admits]
      exact ⟨_, rfl, shaped.setIndex fun _ same => by cases same; exact among,
        .setIndex present among, Catalog.setIndex_self⟩

end Create

section Columns
variable {db : Catalog} {name : String} {column : Column}

theorem admits_map {index : IndexDef} {f : Row → Row}
    (watched : ∀ row, index.covers (f row) = index.covers row ∧ ∀ c ∈ index.columns, f row c = row c)
    {rows : List Row} (admits : index.Admits rows) : index.Admits (rows.map f) := by
  intro unique
  rw [List.pairwise_map]
  refine (admits unique).imp fun {a b} apart => ?_
  rw [← apart]
  unfold IndexDef.clash
  rw [(watched a).1, (watched b).1]
  congr 1
  apply Bool.eq_iff_iff.mpr
  rw [List.all_eq_true, List.all_eq_true]
  constructor
  · intro each c listed
    rw [← (watched a).2 c listed, ← (watched b).2 c listed]
    exact each c listed
  · intro each c listed
    rw [(watched a).2 c listed, (watched b).2 c listed]
    exact each c listed

theorem add_column (shaped : Shaped db) (among : (name, column) ∈ added) {table : TableState}
    (found : db.tables name = some table) (absent : db.hasColumn name column.name = false) :
    ∃ db', db.addColumn name column = .ok db' ∧ Shaped db' ∧ Later db db' ∧
      ∃ table', db'.tables name = some table' ∧ column ∈ table'.columns := by
  obtain ⟨notDocuments, notSearch, elsewhere⟩ := added_elsewhere among
  have missing : column.name ∉ table.names := by
    simpa [Catalog.hasColumn, found] using absent
  have shape := shaped.tables name table found
  obtain ⟨columns, listed, inside, required⟩ := shape.declared
  obtain ⟨columns', constraints', listed', member⟩ := added_declared among
  obtain ⟨rfl, -⟩ := declared_table_unique listed listed'
  have same : ∀ state, documents (db.setTable name state) = documents db :=
    fun state => documents_setTable notDocuments
  unfold Catalog.addColumn
  simp only [found, List.contains_iff_mem, if_neg missing]
  refine ⟨_, rfl, shaped.setTable ⟨⟨columns, listed, ?_, ?_⟩, ?_⟩ ?_ (same _), .setTable ?_ (same _),
    _, Catalog.setTable_self, by simp⟩
  · intro other present
    cases List.mem_append.mp present with
    | inl old => exact inside other old
    | inr new => rwa [List.mem_singleton.mp new]
  · exact fun other listed early => List.mem_append_left _ (required other listed early)
  · rw [TableState.names, List.map_append, List.map_singleton, List.nodup_append]
    refine ⟨shape.nodup, List.nodup_singleton _, fun c old c' new => ?_⟩
    rintro rfl
    exact missing (List.mem_singleton.mp new ▸ old)
  · intro here
    subst here
    have apart := elsewhere rfl
    apply admits_map _ (shaped.paths table found)
    intro row
    have kept : ∀ c ∈ "status" :: activeRepoPath.columns, Function.update row column.name .null c = row c :=
      fun c watched => Function.update_of_ne (fun equal : c = column.name => apart (equal ▸ watched)) _ _
    exact ⟨by simp [IndexDef.covers, activeRepoPath, kept "status" List.mem_cons_self],
      fun c listed => kept c (.tail _ listed)⟩
  · intro old present
    obtain rfl := Option.some.inj (found.symm.trans present)
    refine ⟨fun other old => List.mem_append_left _ old, fun _ => ?_⟩
    rw [SameValues, List.forall₂_map_right_iff, List.forall₂_same]
    intro row _ c named _
    exact Function.update_of_ne (fun equal : c = column.name => missing (equal ▸ named)) _ _

theorem clear_column (shaped : Shaped db) (among : (name, c) ∈ legacyProjectIds) :
    Shaped (clearColumn db (name, c)) ∧ Later db (clearColumn db (name, c)) := by
  have elsewhere : ∀ entry ∈ legacyProjectIds, entry.1 ≠ documentsTable ∧ entry.1 ≠ searchTable ∧
      entry.1 ≠ "worktree_leases" := by
    decide
  obtain ⟨notDocuments, notSearch, notLeases⟩ := elsewhere _ among
  unfold clearColumn
  split
  · unfold Catalog.setRows
    cases found : db.tables name with
    | none => exact ⟨shaped, .refl db⟩
    | some table =>
        have shape := shaped.tables name table found
        refine ⟨shaped.setTable ⟨shape.declared, shape.nodup⟩ (fun here => absurd here notLeases)
          (documents_setTable notDocuments), .setTable ?_ (documents_setTable notDocuments)⟩
        intro old present
        obtain rfl := Option.some.inj (found.symm.trans present)
        refine ⟨fun _ present => present, fun _ => ?_⟩
        rw [SameValues, update, List.forall₂_map_right_iff, List.forall₂_same]
        intro row _ k _ apart
        split
        · refine Function.update_of_ne (fun equal => apart ?_) _ _
          rwa [equal]
        · rfl
  · exact ⟨shaped, .refl db⟩

theorem migrate_columns {entries : List (String × Column)} (among : ∀ entry ∈ entries, entry ∈ added)
    (shaped : Shaped db) (exist : ∀ entry ∈ entries, ∃ table, db.tables entry.1 = some table) :
    ∃ db', entries.foldlM migrateColumn db = .ok db' ∧ Shaped db' ∧ Later db db' ∧
      ∀ entry ∈ entries, ∃ table, db'.tables entry.1 = some table ∧ entry.2 ∈ table.columns := by
  induction entries generalizing db with
  | nil => exact ⟨db, rfl, shaped, .refl db, by simp⟩
  | cons entry rest ih =>
      obtain ⟨name, column⟩ := entry
      have listed := among _ List.mem_cons_self
      obtain ⟨table, found⟩ := exist _ List.mem_cons_self
      have first : ∃ db', migrateColumn db (name, column) = .ok db' ∧ Shaped db' ∧ Later db db' ∧
          ∃ table', db'.tables name = some table' ∧ column ∈ table'.columns := by
        unfold migrateColumn
        cases present : db.hasColumn name column.name with
        | true =>
            have named : column.name ∈ table.names := by
              simpa [Catalog.hasColumn, found] using present
            exact ⟨db, rfl, shaped, .refl db, table, found,
              (shaped.tables name table found).column_of_name listed named⟩
        | false =>
            obtain ⟨db', ran, rest⟩ := add_column shaped listed found present
            exact ⟨db', by simp [ran], rest⟩
      obtain ⟨db₁, ran, shaped₁, later₁, table₁, found₁, present₁⟩ := first
      have exist₁ : ∀ entry ∈ rest, ∃ table, db₁.tables entry.1 = some table := by
        intro entry member
        obtain ⟨table, found⟩ := exist entry (.tail _ member)
        obtain ⟨table', found', -⟩ := later₁.tables _ _ found
        exact ⟨table', found'⟩
      obtain ⟨db₂, ran₂, shaped₂, later₂, all⟩ :=
        ih (fun entry member => among entry (.tail _ member)) shaped₁ exist₁
      refine ⟨db₂, by simp [List.foldlM_cons, ran, ran₂], shaped₂, later₁.trans later₂, ?_⟩
      intro entry member
      cases member with
      | head =>
          obtain ⟨table₂, found₂, grown⟩ := later₂.tables _ _ found₁
          exact ⟨table₂, found₂, grown.columns column present₁⟩
      | tail _ among => exact all entry among

theorem clear_columns {entries : List (String × String)} (among : ∀ entry ∈ entries, entry ∈ legacyProjectIds)
    (shaped : Shaped db) :
    Shaped (entries.foldl clearColumn db) ∧ Later db (entries.foldl clearColumn db) := by
  induction entries generalizing db with
  | nil => exact ⟨shaped, .refl db⟩
  | cons entry rest ih =>
      obtain ⟨shaped₁, later₁⟩ := clear_column shaped (among entry List.mem_cons_self)
      obtain ⟨shaped₂, later₂⟩ := ih (fun entry member => among entry (.tail _ member)) shaped₁
      exact ⟨shaped₂, later₁.trans later₂⟩

theorem migrate (shaped : Shaped db) (exist : ∀ entry ∈ migrations, ∃ table, db.tables entry.1 = some table) :
    ∃ db', migrationBody db = .ok db' ∧ Shaped db' ∧ Later db db' ∧
      ∀ entry ∈ migrations, ∃ table, db'.tables entry.1 = some table ∧ entry.2 ∈ table.columns := by
  obtain ⟨db₁, ran, shaped₁, later₁, all⟩ :=
    migrate_columns (fun entry member => List.mem_append_left _ member) shaped exist
  obtain ⟨shaped₂, later₂⟩ := clear_columns (fun entry member => member) shaped₁
  refine ⟨legacyProjectIds.foldl clearColumn db₁, by simp [migrationBody, ran], shaped₂,
    later₁.trans later₂, fun entry member => ?_⟩
  obtain ⟨table, found, present⟩ := all entry member
  obtain ⟨table', found', grown⟩ := later₂.tables _ _ found
  exact ⟨table', found', grown.columns _ present⟩

end Columns

section Paths
variable {db : Catalog}

theorem retire_path_index (shaped : Shaped db) {table : TableState}
    (found : db.tables "worktree_leases" = some table)
    (columns : ∀ c ∈ activeRepoPath.columns, c ∈ table.names) :
    ∃ db', (db.dropIndex repoPathIdx).createIndex activeRepoPathIdx activeRepoPath = .ok db' ∧
      Shaped db' ∧ Later db db' ∧ db'.indexes repoPathIdx = none ∧
        db'.indexes activeRepoPathIdx = some activeRepoPath := by
  have among : .index activeRepoPathIdx activeRepoPath ∈ declared := by
    decide
  have dropped : Shaped (db.dropIndex repoPathIdx) := shaped.setIndex fun _ none => by cases none
  obtain ⟨db', ran, shaped', later, active⟩ := create_index dropped among found columns
  have gone : db'.indexes repoPathIdx = none := later.retired Catalog.setIndex_self
  refine ⟨db', ran, shaped', ⟨later.tables, fun name index other present => ?_, fun _ => gone,
    fun _ => .inr active, later.corpus⟩, gone, active⟩
  apply later.indexes name index other
  rw [Catalog.dropIndex, Catalog.setIndex_other other, present]

end Paths

section Search
variable {db : Catalog}

def mirrored (db : Catalog) : List Row := (documents db).map searchRow

theorem rowids_mirrored : (mirrored db).map (fun row => row "rowid") =
    (documents db).map fun row => row "rowid" := by
  simp [mirrored, searchRow]

theorem search_apart : searchTable ≠ documentsTable := by decide

theorem setSearch (shaped : Shaped db) {search : TableState} (found : db.tables searchTable = some search)
    (rows : List Row) : Shaped (db.setTable searchTable { search with rows }) ∧
      Later db (db.setTable searchTable { search with rows }) := by
  have shape := shaped.tables _ _ found
  have same : documents (db.setTable searchTable { search with rows }) = documents db :=
    documents_setTable search_apart
  refine ⟨shaped.setTable ⟨shape.declared, shape.nodup⟩ (fun here => absurd here (by decide)) same,
    .setTable ?_ same⟩
  intro old present
  obtain rfl := Option.some.inj (found.symm.trans present)
  exact ⟨fun _ present => present, fun other => absurd rfl other⟩

theorem populate_ok (shaped : Shaped db) {corpus search : TableState}
    (documented : db.tables documentsTable = some corpus) (found : db.tables searchTable = some search)
    (unpopulated : db.rows searchTable = []) :
    ∃ db', populate db = .ok db' ∧ Shaped db' ∧ Later db db' := by
  have none : search.rows = [] := by
    simpa [Catalog.rows, found] using unpopulated
  have nodup : ((search.rows ++ (documents db).map searchRow).map fun row => row "rowid").Nodup := by
    rw [none, List.nil_append]
    exact rowids_mirrored ▸ shaped.rowids
  obtain ⟨shaped', later⟩ := setSearch shaped found (search.rows ++ (documents db).map searchRow)
  exact ⟨_, by simp only [populate, documented, found, if_pos nodup], shaped', later⟩

end Search

end Phasegent.Schema
