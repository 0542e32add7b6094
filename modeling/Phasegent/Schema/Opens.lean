import Phasegent.Schema.Effects

namespace Phasegent.Schema
open Sql Interleaving

inductive Fact where
  | table (name : String)
  | column (table : String) (column : Column)
  | index (name : String) (index : IndexDef)
  | retired
  deriving DecidableEq

def Fact.Holds (db : Catalog) : Fact → Prop
  | .table name => ∃ state, db.tables name = some state
  | .column name wanted => ∃ state, db.tables name = some state ∧ wanted ∈ state.columns
  | .index name created => name ≠ repoPathIdx ∧ db.indexes name = some created
  | .retired => db.indexes repoPathIdx = none

def All (facts : List Fact) (db : Catalog) : Prop := ∀ fact ∈ facts, fact.Holds db

theorem Fact.Holds.later {fact : Fact} {db db' : Catalog} (holds : fact.Holds db) (later : Later db db') :
    fact.Holds db' := by
  cases fact with
  | table name =>
      obtain ⟨table, found⟩ := holds
      obtain ⟨table', found', -⟩ := later.tables name table found
      exact ⟨table', found'⟩
  | column name column =>
      obtain ⟨table, found, present⟩ := holds
      obtain ⟨table', found', grown⟩ := later.tables name table found
      exact ⟨table', found', grown.columns column present⟩
  | index name index => exact ⟨holds.1, later.indexes name index holds.1 holds.2⟩
  | retired => exact later.retired holds

theorem All.later {facts : List Fact} {db db' : Catalog} (all : All facts db) (later : Later db db') :
    All facts db' :=
  fun fact member => (all fact member).later later

theorem All.cons {facts : List Fact} {fact : Fact} {db : Catalog} (holds : fact.Holds db)
    (all : All facts db) : All (fact :: facts) db := by
  intro other member
  cases member with
  | head => exact holds
  | tail _ old => exact all other old

def Ddl.fact : Ddl → Fact
  | .table name _ _ => .table name
  | .index name created => .index name created

def assured (facts : List Fact) (table c : String) : Bool :=
  declared.any fun ddl => match ddl with
    | .table name columns _ => name == table && columns.any fun column =>
        column.name == c && (!added.contains (table, column) || facts.contains (.column table column))
    | .index _ _ => false

def Ddl.ready (facts : List Fact) (ddl : Ddl) : Bool :=
  declared.contains ddl && match ddl with
    | .table _ _ _ => true
    | .index _ created =>
        facts.contains (.table created.table) && created.columns.all (assured facts created.table)

def orderly (facts : List Fact) : List Ddl → Bool
  | [] => true
  | ddl :: rest => ddl.ready facts && orderly (ddl.fact :: facts) rest

section Ready
variable {facts facts' : List Fact} (subset : ∀ fact ∈ facts, fact ∈ facts')

include subset

theorem assured_mono {table c : String} (holds : assured facts table c) : assured facts' table c := by
  obtain ⟨ddl, member, holds⟩ := List.any_eq_true.mp holds
  refine List.any_eq_true.mpr ⟨ddl, member, ?_⟩
  cases ddl with
  | index name created => cases holds
  | table name columns constraints =>
      simp only [Bool.and_eq_true, List.any_eq_true, Bool.or_eq_true, List.contains_iff_mem] at holds ⊢
      obtain ⟨here, column, listed, named, known⟩ := holds
      exact ⟨here, column, listed, named, known.imp id (subset _)⟩

theorem ready_mono {ddl : Ddl} (holds : ddl.ready facts) : ddl.ready facts' := by
  unfold Ddl.ready at holds ⊢
  cases ddl with
  | table name columns constraints => exact holds
  | index name created =>
      simp only [Bool.and_eq_true, List.all_eq_true, List.contains_iff_mem] at holds ⊢
      exact ⟨holds.1, subset _ holds.2.1, fun c listed => assured_mono subset (holds.2.2 c listed)⟩

theorem orderly_mono {statements : List Ddl} (holds : orderly facts statements) :
    orderly facts' statements := by
  induction statements generalizing facts facts' with
  | nil => rfl
  | cons ddl rest ih =>
      simp only [orderly, Bool.and_eq_true] at holds ⊢
      refine ⟨ready_mono subset holds.1, ih ?_ holds.2⟩
      intro fact member
      cases member with
      | head => exact List.mem_cons_self
      | tail _ old => exact .tail _ (subset fact old)

end Ready

theorem assured_column {db : Catalog} {facts : List Fact} {name c : String} (shaped : Shaped db)
    (all : All facts db) (holds : assured facts name c) {table : TableState}
    (found : db.tables name = some table) : c ∈ table.names := by
  obtain ⟨ddl, member, holds⟩ := List.any_eq_true.mp holds
  cases ddl with
  | index other created => cases holds
  | table other columns constraints =>
      simp only [Bool.and_eq_true, List.any_eq_true, Bool.or_eq_true, List.contains_iff_mem, beq_iff_eq,
        Bool.not_eq_true'] at holds
      obtain ⟨rfl, column, listed, rfl, known⟩ := holds
      obtain ⟨columns', listed', -, required⟩ := (shaped.tables _ table found).declared
      obtain ⟨rfl, -⟩ := declared_table_unique member listed'
      cases known with
      | inl early => exact List.mem_map_of_mem (required column listed (by simpa using early))
      | inr fact =>
          obtain ⟨table', found', present⟩ := all _ fact
          obtain rfl := Option.some.inj (found.symm.trans found')
          exact List.mem_map_of_mem present

/-- A step that does not fail on what another open did since the check before it. -/
def Unraced (_ : Pid) (db : Catalog) : (op : SchemaOp) → op.Ret → Prop
  | .addColumn table column, _ => db.hasColumn table column.name = false
  | .fillSearch, _ => (db.rows searchTable).isEmpty
  | _, _ => True

instance decidableUnraced (i : Pid) (db : Catalog) :
    (op : SchemaOp) → (answer : op.Ret) → Decidable (Unraced i db op answer)
  | .addColumn _ _, _ => inferInstanceAs (Decidable (_ = _))
  | .fillSearch, _ => inferInstanceAs (Decidable (_ = _))
  | .create _, _ => .isTrue trivial
  | .hasColumn _ _, _ => .isTrue trivial
  | .applyMigrations, _ => .isTrue trivial
  | .pathIndexes, _ => .isTrue trivial
  | .activePathIndex, _ => .isTrue trivial
  | .countDocuments, _ => .isTrue trivial
  | .countSearch, _ => .isTrue trivial
  | .clearSearch, _ => .isTrue trivial

def unraced : World Catalog SchemaOp SchemaOp.Ret := schemaWorld.guard Unraced

def growing : Contract Catalog where
  Inv := Shaped
  guarantee _ := Later

theorem stable_all (i : Pid) (facts : List Fact) : growing.Stable i (All facts) :=
  fun _ _ _ _ ⟨_, _, later⟩ all => all.later later

/-- From databases with the old facts the program does not fail, and the new facts hold after it. -/
def Establishes (facts : List Fact) (p : SchemaM Unit) (facts' : List Fact) : Prop :=
  ∀ i, HoareElse unraced growing i (All facts) p (fun _ => All facts') fun _ _ => False

section Rules
variable {facts facts' : List Fact}

theorem stable_failed (i : Pid) (e : String) : growing.Stable i ((fun _ _ => False) e) :=
  Contract.stable_const i False

theorem Establishes.seq {facts'' : List Fact} {p q : SchemaM Unit} (first : Establishes facts p facts')
    (rest : Establishes facts' q facts'') : Establishes facts (p >>= fun _ => q) facts'' :=
  fun i => else_bind (stable_failed i) (first i) fun _ => rest i

theorem Establishes.subset {p : SchemaM Unit} (establishes : Establishes facts p facts')
    {fewer : List Fact} (subset : ∀ fact ∈ fewer, fact ∈ facts') : Establishes facts p fewer :=
  fun i => (establishes i).weaken (fun _ _ all fact member => all fact (subset fact member))
    fun _ _ failed => failed

theorem establishes_pure : Establishes facts (pure ()) facts :=
  fun i => else_pure (stable_all i facts) fun _ _ all => all

theorem establishes_request {op : SchemaOp} {decode : op.Ret → Except String Unit}
    (ran : ∀ i db answer, Shaped db → All facts db → Unraced i db op answer →
      decode (op.perform db).1 = .ok () ∧ Shaped (op.perform db).2 ∧ Later db (op.perform db).2 ∧
        All facts' (op.perform db).2) : Establishes facts (request op decode) facts' := by
  intro i
  refine else_request (stable_all i facts) (fun _ => stable_all i facts') (stable_failed i) ?_
  intro db answer db' shaped all step
  obtain ⟨performed, clear⟩ := step
  obtain ⟨succeeds, shaped', later, all'⟩ := ran i db answer shaped all clear
  rw [performed] at succeeds shaped' later all'
  refine ⟨shaped', later, ?_⟩
  rw [succeeds]
  exact all'

theorem establishes_asked {op : SchemaOp} {γ : Type} {decode : op.Ret → Except String γ}
    {f : γ → SchemaM Unit} (known : γ → List Fact) (asks : ∀ db, (op.perform db).2 = db)
    (ran : ∀ db, Shaped db → All facts db → ∃ answer, decode (op.perform db).1 = .ok answer ∧
      All (known answer) db) (rest : ∀ answer, Establishes (known answer) (f answer) facts') :
    Establishes facts (request op decode >>= f) facts' := by
  intro i
  refine else_bind (stable_failed i) (M := fun answer => All (known answer)) ?_ fun answer => rest answer i
  refine else_request (stable_all i facts) (fun answer => stable_all i (known answer)) (stable_failed i) ?_
  intro db answer db' shaped all step
  obtain ⟨performed, -⟩ := step
  have still := asks db
  obtain ⟨decoded, succeeds, all'⟩ := ran db shaped all
  rw [performed] at succeeds still
  cases still
  refine ⟨shaped, Later.refl _, ?_⟩
  rw [succeeds]
  exact all'

theorem establishes_create {ddl : Ddl} (context : String) (ready : ddl.ready facts) :
    Establishes facts (request (.create ddl) (stating context)) (ddl.fact :: facts) := by
  apply establishes_request
  intro i db _ shaped all _
  unfold Ddl.ready at ready
  rw [Bool.and_eq_true, List.contains_iff_mem] at ready
  obtain ⟨among, ready⟩ := ready
  cases ddl with
  | table name columns constraints =>
      obtain ⟨shaped', later, made⟩ := create_table shaped among
      exact ⟨rfl, shaped', later, (all.later later).cons made⟩
  | index name created =>
      rw [Bool.and_eq_true, List.contains_iff_mem, List.all_eq_true] at ready
      obtain ⟨table, found⟩ := all _ ready.1
      obtain ⟨db', ran, shaped', later, made⟩ := create_index shaped among found fun c listed =>
        assured_column shaped all (ready.2 c listed) found
      have performed : (SchemaOp.create (.index name created)).perform db = (.ok (), db') := by
        simp only [SchemaOp.perform, Ddl.execute, ran, settle]
      rw [performed]
      exact ⟨rfl, shaped', later, (all.later later).cons ⟨declared_not_retired among, made⟩⟩

theorem establishes_batch {statements : List Ddl} (context : String) (holds : orderly facts statements) :
    Establishes facts (executeBatch context statements) ((statements.map Ddl.fact).reverse ++ facts) := by
  induction statements generalizing facts with
  | nil => exact establishes_pure
  | cons ddl rest ih =>
      simp only [orderly, Bool.and_eq_true] at holds
      rw [List.map_cons, List.reverse_cons, List.append_assoc]
      change Establishes facts (request (.create ddl) (stating context) >>= fun _ =>
        executeBatch context rest) _
      exact (establishes_create context holds.1).seq (ih holds.2)

theorem establishes_column {table : String} {column : Column} (context : String)
    (known : .table table ∈ facts) (among : (table, column) ∈ added) :
    Establishes facts (ensureColumn table column context) (.column table column :: facts) := by
  refine establishes_asked (fun present => if present then .column table column :: facts else facts)
    (fun _ => rfl) ?_ ?_
  · intro db shaped all
    refine ⟨db.hasColumn table column.name, rfl, ?_⟩
    cases present : db.hasColumn table column.name with
    | false => exact all
    | true =>
        obtain ⟨state, found⟩ := all _ known
        have named : column.name ∈ state.names := by
          simpa [Catalog.hasColumn, found] using present
        have holds : Fact.Holds db (.column table column) :=
          ⟨state, found, (shaped.tables _ _ found).column_of_name among named⟩
        exact all.cons holds
  · intro present
    cases present with
    | true => exact establishes_pure
    | false =>
        apply establishes_request
        intro i db _ shaped all absent
        obtain ⟨state, found⟩ := all _ known
        obtain ⟨db', ran, shaped', later, made⟩ := add_column shaped among found absent
        have performed : (SchemaOp.addColumn table column).perform db = (.ok (), db') := by
          simp only [SchemaOp.perform, ran, settle]
        rw [performed]
        exact ⟨rfl, shaped', later, (all.later later).cons made⟩

theorem establishes_migrations (known : ∀ entry ∈ migrations, .table entry.1 ∈ facts) :
    Establishes facts (request .applyMigrations id)
      (migrations.map (fun entry => .column entry.1 entry.2) ++ facts) := by
  apply establishes_request
  intro i db _ shaped all _
  obtain ⟨db', ran, shaped', later, made⟩ := migrate shaped fun entry member => all _ (known entry member)
  have performed : SchemaOp.applyMigrations.perform db = (.ok (), db') := by
    simp only [SchemaOp.perform, ran, settle]
  rw [performed]
  refine ⟨rfl, shaped', later, fun fact member => ?_⟩
  cases List.mem_append.mp member with
  | inl new =>
      obtain ⟨entry, listed, rfl⟩ := List.mem_map.mp new
      exact made entry listed
  | inr old => exact all.later later fact old

theorem retired_of_complete {db : Catalog} (complete : migrationComplete (SchemaOp.pathIndexes.perform db).1) :
    db.indexes repoPathIdx = none := by
  unfold migrationComplete at complete
  rw [Bool.and_eq_true, Bool.not_eq_true'] at complete
  have absent : repoPathIdx ∉ (SchemaOp.pathIndexes.perform db).1 := by
    simpa using complete.1
  simpa [SchemaOp.perform] using absent

theorem establishes_path_index (table : .table "worktree_leases" ∈ facts) :
    Establishes facts ensureActivePathIndex (.retired :: facts) := by
  refine establishes_asked (fun names => if migrationComplete names then .retired :: facts else facts)
    (fun _ => rfl) ?_ ?_
  · intro db shaped all
    refine ⟨(SchemaOp.pathIndexes.perform db).1, rfl, ?_⟩
    cases complete : migrationComplete (SchemaOp.pathIndexes.perform db).1 with
    | false => exact all
    | true =>
        have holds : Fact.Holds db .retired := retired_of_complete complete
        exact all.cons holds
  · intro names
    cases migrationComplete names with
    | true => exact establishes_pure
    | false =>
        apply establishes_request
        intro i db _ shaped all _
        obtain ⟨state, found⟩ := all _ table
        have columns : ∀ c ∈ activeRepoPath.columns, assured facts "worktree_leases" c := by
          have early : ∀ c ∈ activeRepoPath.columns, assured [] "worktree_leases" c := by
            decide
          exact fun c listed => assured_mono (by simp) (early c listed)
        obtain ⟨db', ran, shaped', later, gone, -⟩ := retire_path_index shaped found fun c listed =>
          assured_column shaped all (columns c listed) found
        have performed : SchemaOp.activePathIndex.perform db = (.ok (), db') := by
          simp only [SchemaOp.perform, ran, settle]
        rw [performed]
        exact ⟨rfl, shaped', later, (all.later later).cons gone⟩

theorem establishes_populated (corpus : .table documentsTable ∈ facts) (search : .table searchTable ∈ facts) :
    Establishes facts ensureFtsPopulated facts := by
  have counted : ∀ db table rows, (∃ state, db.tables table = some state) → ∀ context,
      stating context (countRows db table rows) = .ok rows.length := by
    intro db table rows ⟨state, found⟩ context
    simp [stating, countRows, found, Except.mapError]
  refine establishes_asked (fun _ => facts) (fun _ => rfl)
    (fun db _ all => ⟨_, counted _ _ _ (all _ corpus) _, all⟩) fun docCount => ?_
  refine establishes_asked (fun _ => facts) (fun _ => rfl)
    (fun db _ all => ⟨_, counted _ _ _ (all _ search) _, all⟩) fun ftsCount => ?_
  split
  · exact establishes_pure
  · have cleared : Establishes facts (request .clearSearch (stating "could not rebuild FTS index: ")) facts := by
      apply establishes_request
      intro i db _ shaped all _
      obtain ⟨state, found⟩ := all _ search
      obtain ⟨shaped', later⟩ := setSearch shaped found []
      have performed : SchemaOp.clearSearch.perform db =
          (.ok (), db.setTable searchTable { state with rows := [] }) := by
        simp only [SchemaOp.perform, found, settle]
      rw [performed]
      exact ⟨rfl, shaped', later, all.later later⟩
    refine cleared.seq (establishes_request ?_)
    · intro i db _ shaped all unpopulated
      obtain ⟨state, documented⟩ := all _ corpus
      obtain ⟨state', found⟩ := all _ search
      obtain ⟨db', ran, shaped', later⟩ := populate_ok shaped documented found (List.isEmpty_iff.mp unpopulated)
      have performed : SchemaOp.fillSearch.perform db = (.ok (), db') := by
        simp only [SchemaOp.perform, ran, settle]
      rw [performed]
      exact ⟨rfl, shaped', later, all.later later⟩

end Rules

def Part.facts : Part → List Fact
  | .storage => schema.map Ddl.fact ++ migrations.map fun entry => .column entry.1 entry.2
  | .leases => worktreeLeasesSchema.map Ddl.fact ++
      [.column "worktree_leases" ⟨"release_reason", "TEXT"⟩,
        .column "worktree_lease_scopes" ⟨"task_id", "INTEGER"⟩, scopesTaskIdx.fact, .retired]
  | .links => branchLinksSchema.map Ddl.fact ++
      [.column "branch_issue_links" ⟨"task_id", "INTEGER"⟩, linksTaskIdx.fact]
  | .index => schemaIndex.map Ddl.fact

section Parts
variable (facts : List Fact)

theorem establishes_storage : Establishes facts initialise (Part.storage.facts ++ facts) := by
  have first : Establishes facts (executeBatch _ schema) _ := establishes_batch "could not initialise phasegent schema: "
    (orderly_mono (fun _ none => by cases none) (by decide : orderly [] schema))
  have known : ∀ entry ∈ migrations, .table entry.1 ∈ (schema.map Ddl.fact).reverse := by
    decide
  refine (first.seq (establishes_migrations fun entry member =>
    List.mem_append_left _ (known entry member))).subset fun fact member => ?_
  simp only [Part.facts, List.mem_append, List.mem_reverse] at member ⊢
  tauto

theorem establishes_indexed_column {facts : List Fact} {table name : String} {column : Column}
    {created : IndexDef} (context context' : String) (known : .table table ∈ facts)
    (among : (table, column) ∈ added)
    (ready : Ddl.ready [.column table column, .table table] (.index name created)) :
    Establishes facts (ensureColumn table column context >>= fun _ =>
        request (.create (.index name created)) (stating context'))
      (.index name created :: .column table column :: facts) := by
  refine (establishes_column context known among).seq (establishes_create context' (ready_mono ?_ ready))
  intro fact member
  simp only [List.mem_cons, List.not_mem_nil, or_false] at member ⊢
  cases member with
  | inl here => exact .inl here
  | inr there =>
      subst there
      exact .inr known

theorem establishes_leases : Establishes facts ensureLeaseSchema (Part.leases.facts ++ facts) := by
  have first : Establishes facts (executeBatch _ worktreeLeasesSchema) _ := establishes_batch "could not initialise worktree lease table: "
    (orderly_mono (fun _ none => by cases none) (by decide : orderly [] worktreeLeasesSchema))
  have tables : .table "worktree_leases" ∈ (worktreeLeasesSchema.map Ddl.fact).reverse ∧
      .table "worktree_lease_scopes" ∈ (worktreeLeasesSchema.map Ddl.fact).reverse := by
    decide
  have reason := establishes_column "could not migrate worktree lease table: "
    (List.mem_append_left facts tables.1) (by decide : (_, ⟨"release_reason", "TEXT"⟩) ∈ added)
  have task := establishes_indexed_column "could not migrate worktree lease scope table: "
    "could not index worktree lease scope task column: "
    (.tail (.column "worktree_leases" ⟨"release_reason", "TEXT"⟩) (List.mem_append_left facts tables.2))
    (by decide : (_, ⟨"task_id", "INTEGER"⟩) ∈ added)
    (by decide : Ddl.ready _ scopesTaskIdx)
  have path := establishes_path_index
    (.tail scopesTaskIdx.fact (.tail (.column "worktree_lease_scopes" ⟨"task_id", "INTEGER"⟩)
      (.tail (.column "worktree_leases" ⟨"release_reason", "TEXT"⟩) (List.mem_append_left facts tables.1))))
  refine (first.seq (reason.seq (task.seq path))).subset fun fact member => ?_
  simp only [Part.facts, List.mem_append, List.mem_cons, List.mem_reverse, List.not_mem_nil] at member ⊢
  tauto

theorem establishes_links : Establishes facts ensureBranchSchema (Part.links.facts ++ facts) := by
  have first : Establishes facts (executeBatch _ branchLinksSchema) _ := establishes_batch "could not initialise branch link table: "
    (orderly_mono (fun _ none => by cases none) (by decide : orderly [] branchLinksSchema))
  have table : .table "branch_issue_links" ∈ (branchLinksSchema.map Ddl.fact).reverse := by
    decide
  have task := establishes_indexed_column "could not migrate branch link table: "
    "could not index branch link task column: " (List.mem_append_left facts table)
    (by decide : (_, ⟨"task_id", "INTEGER"⟩) ∈ added)
    (by decide : Ddl.ready _ linksTaskIdx)
  refine (first.seq task).subset fun fact member => ?_
  simp only [Part.facts, List.mem_append, List.mem_cons, List.mem_reverse, List.not_mem_nil] at member ⊢
  tauto

theorem establishes_index : Establishes facts initialiseIndex (Part.index.facts ++ facts) := by
  have first : Establishes facts (executeBatch _ schemaIndex) _ := establishes_batch "could not initialise issue index schema: "
    (orderly_mono (fun _ none => by cases none) (by decide +kernel : orderly [] schemaIndex))
  have tables : .table documentsTable ∈ (schemaIndex.map Ddl.fact).reverse ∧
      .table searchTable ∈ (schemaIndex.map Ddl.fact).reverse := by
    decide
  refine (first.seq (establishes_populated (List.mem_append_left facts tables.1)
    (List.mem_append_left facts tables.2))).subset fun fact member => ?_
  simpa only [Part.facts, List.mem_append, List.mem_reverse] using member

theorem establishes_part (part : Part) : Establishes facts part.run (part.facts ++ facts) := by
  cases part with
  | storage => exact establishes_storage facts
  | leases => exact establishes_leases facts
  | links => exact establishes_links facts
  | index => exact establishes_index facts

theorem establishes_opening (parts : List Part) :
    Establishes facts (opening parts) (parts.flatMap Part.facts ++ facts) := by
  induction parts generalizing facts with
  | nil => exact establishes_pure
  | cons part rest ih =>
      refine ((establishes_part facts part).seq (ih _)).subset fun fact member => ?_
      simp only [List.flatMap_cons, List.mem_append] at member ⊢
      tauto

end Parts

end Phasegent.Schema
