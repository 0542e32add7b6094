import Phasegent.Schema.Search

namespace Phasegent.Schema
open Sql Interleaving

section Search
variable {commands : Pid → Option (List Part)} {db : Catalog}

abbrev Moment := Catalog × List (Event Catalog SchemaOp SchemaOp.Ret)

/-- The search table mirrors the documents, or is empty where nobody has looked yet or somebody is
about to fill it. -/
structure Balanced (n : Nat) (s : Moment) : Prop where
  size : (documents s.1).length = n
  counts : ∀ event ∈ s.2, ∀ m, event.act = ⟨.countDocuments, .ok m⟩ → m = n
  search : s.1.rows searchTable = mirrored s.1 ∨ s.1.rows searchTable = [] ∧
    ((∃ i, Cleared (historyOf i s.2)) ∨
      ∀ event ∈ s.2, event.act ≠ ⟨.fillSearch, .ok ()⟩ ∧ event.act ≠ ⟨.countSearch, .ok n⟩)

theorem historyOf_cons (i : Pid) (event : Event Catalog SchemaOp SchemaOp.Ret)
    (events : List (Event Catalog SchemaOp SchemaOp.Ret)) :
    historyOf i (event :: events) =
      if event.pid = i then event.act :: historyOf i events else historyOf i events := by
  by_cases same : event.pid = i <;> simp [historyOf, same]

theorem countRows_ok {table : String} {rows : List Row} {m : Nat} (counted : countRows db table rows = .ok m) :
    m = rows.length := by
  unfold countRows at counted
  split at counted
  · cases counted
  · cases counted
    rfl

theorem balanced_calm {n : Nat} {s : Moment} (balanced : Balanced n s) {op : SchemaOp} (calm : op.Calm)
    {i : Pid} {db' : Catalog} {answer : op.Ret} (performed : op.perform s.1 = (answer, db')) :
    Balanced n (db', ⟨i, op, answer, s.1, db'⟩ :: s.2) := by
  obtain ⟨sameDocuments, sameRows⟩ := calm_untouched calm s.1
  rw [performed] at sameDocuments sameRows
  have sameMirror : mirrored db' = mirrored s.1 := by rw [mirrored, mirrored, sameDocuments]
  refine ⟨by rw [sameDocuments, balanced.size], fun event member m same => ?_, ?_⟩
  · cases member with
    | head =>
        cases same
        rw [countRows_ok (Prod.mk.inj performed).1, balanced.size]
    | tail _ old => exact balanced.counts event old m same
  · rw [sameRows, sameMirror]
    cases balanced.search with
    | inl mirror => exact .inl mirror
    | inr gap =>
        obtain ⟨empty, why⟩ := gap
        by_cases counted : (⟨op, answer⟩ : Act) = ⟨.countSearch, .ok n⟩
        · cases counted
          have none : n = 0 := by
            rw [countRows_ok (Prod.mk.inj performed).1, empty, List.length_nil]
          have nothing : documents s.1 = [] := List.eq_nil_of_length_eq_zero (balanced.size.trans none)
          exact .inl (by rw [empty, mirrored, nothing, List.map_nil])
        · refine .inr ⟨empty, ?_⟩
          cases why with
          | inl cleared =>
              obtain ⟨j, cleared⟩ := cleared
              refine .inl ⟨j, ?_⟩
              rw [historyOf_cons]
              split
              · exact (cleared_calm calm answer _).mpr cleared
              · exact cleared
          | inr untouched =>
              refine .inr fun event member => ?_
              cases member with
              | head =>
                  refine ⟨fun filled => ?_, counted⟩
                  cases filled
                  exact calm
              | tail _ old => exact untouched event old

theorem clear_rows (db : Catalog) : (SchemaOp.clearSearch.perform db).2.rows searchTable = [] ∧
    documents (SchemaOp.clearSearch.perform db).2 = documents db := by
  unfold SchemaOp.perform
  cases found : db.tables searchTable with
  | none => exact ⟨by simp [settle, Catalog.rows, found], rfl⟩
  | some search => exact ⟨by simp [settle, Catalog.rows], documents_setTable search_apart⟩

theorem fill_rows {db db' : Catalog} {answer : Except SqlError Unit} (empty : db.rows searchTable = [])
    (performed : SchemaOp.fillSearch.perform db = (answer, db')) :
    documents db' = documents db ∧
      ((answer = .ok () ∧ db'.rows searchTable = mirrored db) ∨ ∃ e, answer = .error e ∧ db' = db) := by
  unfold SchemaOp.perform at performed
  cases filled : populate db with
  | error e =>
      rw [filled] at performed
      cases performed
      exact ⟨rfl, .inr ⟨e, rfl, rfl⟩⟩
  | ok after =>
      rw [filled] at performed
      cases performed
      unfold populate at filled
      split at filled
      · cases filled
      · cases filled
      · next corpus search documented found =>
          have none : search.rows = [] := by
            simpa [Catalog.rows, found] using empty
          simp only [none, List.nil_append] at filled
          split at filled
          · cases filled
            exact ⟨documents_setTable search_apart, .inl ⟨rfl, by simp [Catalog.rows, mirrored]⟩⟩
          · cases filled

theorem balanced_step {n : Nat} {s : Moment} (balanced : Balanced n s) {op : SchemaOp} (known : op.Known)
    {i : Pid} {db' : Catalog} {answer : op.Ret} (performed : op.perform s.1 = (answer, db'))
    (clear : Unraced i s.1 op answer) : Balanced n (db', ⟨i, op, answer, s.1, db'⟩ :: s.2) := by
  cases op with
  | clearSearch =>
      obtain ⟨empty, sameDocuments⟩ := clear_rows s.1
      rw [performed] at empty sameDocuments
      refine ⟨by rw [sameDocuments, balanced.size], fun event member m same => ?_,
        .inr ⟨empty, .inl ⟨i, ?_⟩⟩⟩
      · cases member with
        | head => cases same
        | tail _ old => exact balanced.counts event old m same
      · rw [historyOf_cons, if_pos rfl]
        trivial
  | fillSearch =>
      have empty := List.isEmpty_iff.mp clear
      obtain ⟨sameDocuments, outcome⟩ := fill_rows empty performed
      have counts : ∀ event ∈ (⟨i, .fillSearch, answer, s.1, db'⟩ :: s.2 : List (Event _ _ _)), ∀ m,
          event.act = ⟨.countDocuments, .ok m⟩ → m = n := by
        intro event member m same
        cases member with
        | head => cases same
        | tail _ old => exact balanced.counts event old m same
      refine ⟨by rw [sameDocuments, balanced.size], counts, ?_⟩
      cases outcome with
      | inl filled => exact .inl (by rw [filled.2, mirrored, mirrored, sameDocuments])
      | inr failed =>
          obtain ⟨e, rfl, rfl⟩ := failed
          cases balanced.search with
          | inl mirror => exact .inl mirror
          | inr gap =>
              refine .inr ⟨empty, ?_⟩
              cases gap.2 with
              | inl cleared =>
                  obtain ⟨j, cleared⟩ := cleared
                  refine .inl ⟨j, ?_⟩
                  rw [historyOf_cons]
                  split
                  · exact cleared
                  · exact cleared
              | inr untouched =>
                  refine .inr fun event member => ?_
                  cases member with
                  | head => exact ⟨(by intro same; cases same), (by intro same; cases same)⟩
                  | tail _ old => exact untouched event old
  | addColumn table column =>
      have calm : SchemaOp.Calm (.addColumn table column) := known
      exact balanced_calm balanced calm performed
  | create ddl => exact balanced_calm balanced (show SchemaOp.Calm (.create ddl) from trivial) performed
  | hasColumn table column => exact balanced_calm balanced (show SchemaOp.Calm (.hasColumn table column) from trivial) performed
  | applyMigrations => exact balanced_calm balanced (show SchemaOp.Calm .applyMigrations from trivial) performed
  | pathIndexes => exact balanced_calm balanced (show SchemaOp.Calm .pathIndexes from trivial) performed
  | activePathIndex => exact balanced_calm balanced (show SchemaOp.Calm .activePathIndex from trivial) performed
  | countDocuments => exact balanced_calm balanced (show SchemaOp.Calm .countDocuments from trivial) performed
  | countSearch => exact balanced_calm balanced (show SchemaOp.Calm .countSearch from trivial) performed

theorem traced_opening (parts : List Part) :
    Traced (fun _ => SchemaOp.Known) (· = []) (opening parts) (fun _ => Even (.index ∈ parts))
      fun _ _ => True := by
  have leaves : Leaves False (opening parts) (False ∨ .index ∈ parts) := leaves_opening parts
  refine (leaves.pre fun past same => ?_).weaken (fun _ _ even => ⟨even.1, fun among => even.2 (.inr among)⟩)
    fun _ _ failed => failed
  rw [same]
  exact ⟨fun cleared => cleared, False.elim⟩

theorem along_opens {i : Pid} {p : Prog SchemaOp SchemaOp.Ret (Except String Unit)}
    (started : (opens commands db).procs i = some p) :
    ∃ parts, commands i = some parts ∧ p = (opening parts).run := by
  obtain ⟨parts, given, same⟩ := Option.map_eq_some_iff.mp started
  exact ⟨parts, given, same.symm⟩

variable {c : Config Moment SchemaOp SchemaOp.Ret (Except String Unit)}

theorem known_event (run : Run unraced.record (opens commands db).record c)
    {event : Event Catalog SchemaOp SchemaOp.Ret} {earlier : List (Event Catalog SchemaOp SchemaOp.Ret)}
    (split : c.shared.2 = event :: earlier) : event.effect.Known := by
  have along : ∀ i p, (opens commands db).procs i = some p →
      p.Along (fun _ => SchemaOp.Known) (fun _ _ => True) [] := by
    intro i p started
    obtain ⟨parts, -, rfl⟩ := along_opens started
    exact ((traced_opening parts).reaches .start).2.weaken fun _ _ _ => trivial
  have split' : c.shared.2 = [] ++ event :: earlier := split
  exact Run.needs run along split'

theorem balanced_run (run : Run unraced.record (opens commands db).record c)
    (search : db.rows searchTable = [] ∨ db.rows searchTable = mirrored db) :
    Balanced (documents db).length c.shared := by
  induction run with
  | refl =>
      refine ⟨rfl, fun _ none => (nomatch none), ?_⟩
      exact search.symm.imp id fun empty => ⟨empty, .inr fun _ none => nomatch none⟩
  | @tail c c' before step ih =>
      cases step with
      | crash running effect => exact effect.1.elim
      | @perform i op next answer s' running effect =>
          obtain ⟨db', events⟩ := s'
          have known := known_event (before.tail (.perform running effect)) effect.2
          obtain ⟨⟨performed, clear⟩, recorded⟩ := effect
          dsimp only at recorded performed
          subst recorded
          exact balanced_step ih known performed clear

end Search

section Schemas

def sameTable : Option TableState → Option TableState → Prop
  | none, none => True
  | some table, some table' => table.columns.Perm table'.columns ∧ table.constraints = table'.constraints
  | _, _ => False

/-- The same tables with the same columns, whatever their order, and the same indexes. -/
def SameSchema (db db' : Catalog) : Prop :=
  (∀ name, sameTable (db.tables name) (db'.tables name)) ∧ ∀ name, db.indexes name = db'.indexes name

def wholeOpening : List Part := [.storage, .leases, .links, .index]

def fresh : Catalog := (execute SchemaOp.perform (opening wholeOpening).run Catalog.empty).2

structure Current (db : Catalog) : Prop where
  shaped : Shaped db
  facts : All (wholeOpening.flatMap Part.facts) db

theorem declared_fact {ddl : Ddl} (among : ddl ∈ declared) : ddl.fact ∈ wholeOpening.flatMap Part.facts := by
  have listed : ∀ ddl ∈ declared, ddl.fact ∈ wholeOpening.flatMap Part.facts := by
    decide
  exact listed ddl among

theorem added_fact {table : String} {column : Column} (among : (table, column) ∈ added) :
    .column table column ∈ wholeOpening.flatMap Part.facts := by
  have listed : ∀ entry ∈ added, .column entry.1 entry.2 ∈ wholeOpening.flatMap Part.facts := by
    decide
  exact listed _ among

theorem Current.columns {db : Catalog} (current : Current db) {name : String} {table : TableState}
    (found : db.tables name = some table) : ∃ columns, .table name columns table.constraints ∈ declared ∧
      table.columns.Perm columns := by
  have shape := current.shaped.tables name table found
  obtain ⟨columns, listed, inside, required⟩ := shape.declared
  have all : ∀ column ∈ columns, column ∈ table.columns := by
    intro column member
    by_cases late : (name, column) ∈ added
    · obtain ⟨table', found', present⟩ := current.facts _ (added_fact late)
      obtain rfl := Option.some.inj (found.symm.trans found')
      exact present
    · exact required column member late
  refine ⟨columns, listed, (List.perm_ext_iff_of_nodup ?_ ?_).mpr fun column => ⟨inside column, all column⟩⟩
  · exact shape.nodup.of_map _
  · exact (declared_names_nodup listed).of_map _

theorem Current.table {db : Catalog} (current : Current db) {name : String} {columns : List Column}
    {constraints : List String} (listed : .table name columns constraints ∈ declared) :
    ∃ table, db.tables name = some table :=
  current.facts _ (declared_fact listed)

theorem Current.index {db : Catalog} (current : Current db) {name : String} {index : IndexDef} :
    db.indexes name = some index ↔ .index name index ∈ declared := by
  constructor
  · intro present
    cases current.shaped.indexes name index present with
    | inl listed => exact listed
    | inr retired =>
        have gone : db.indexes repoPathIdx = none :=
          current.facts .retired (by decide)
        rw [retired.1, gone] at present
        cases present
  · intro listed
    exact (current.facts _ (declared_fact listed)).2

theorem Current.same {db db' : Catalog} (current : Current db) (current' : Current db') :
    SameSchema db db' := by
  constructor
  · intro name
    cases found : db.tables name with
    | none =>
        cases found' : db'.tables name with
        | none => trivial
        | some table =>
            obtain ⟨columns, listed, -⟩ := current'.columns found'
            obtain ⟨table', there⟩ := current.table listed
            rw [found] at there
            cases there
    | some table =>
        obtain ⟨columns, listed, same⟩ := current.columns found
        obtain ⟨table', there⟩ := current'.table listed
        rw [there]
        obtain ⟨columns', listed', same'⟩ := current'.columns there
        obtain ⟨rfl, equal⟩ := declared_table_unique listed listed'
        exact ⟨same.trans same'.symm, equal⟩
  · intro name
    apply Option.ext
    intro index
    rw [current.index, current'.index]

theorem empty_shaped : Shaped Catalog.empty where
  tables _ _ found := nomatch found
  indexes _ _ found := nomatch found
  paths _ found := nomatch found
  rowids := .nil

theorem fresh_current : Current fresh := by
  have alone : admitted SchemaOp.perform (fun db op => decide (Unraced 0 db op (op.perform db).1))
      (opening wholeOpening).run Catalog.empty = true := by
    decide
  have safe := (establishes_opening [] wholeOpening 0).triple Catalog.empty empty_shaped
    fun _ none => nomatch none
  have sound : ∀ (db : Catalog) (op : SchemaOp), decide (Unraced 0 db op (op.perform db).1) = true →
      unraced.step 0 db op (op.perform db).1 (op.perform db).2 :=
    fun _ _ clear => ⟨rfl, of_decide_eq_true clear⟩
  obtain ⟨shaped, ended⟩ := execute_safe sound empty_shaped safe alone
  refine ⟨shaped, ?_⟩
  cases result : (execute SchemaOp.perform (opening wholeOpening).run Catalog.empty).1 with
  | error e =>
      rw [result] at ended
      exact ended.elim
  | ok done =>
      rw [result] at ended
      exact fun fact member => ended fact (List.mem_append_left _ member)

end Schemas

section Runs
variable {commands : Pid → Option (List Part)} {db : Catalog}
  {c : Config Catalog SchemaOp SchemaOp.Ret (Except String Unit)}

/-- The database of some release: each table has the columns of today less some that were added
since, the lease rows fit the index over them, and the search table is unpopulated or up to date. -/
structure Legacy (db : Catalog) : Prop where
  tables : ∀ name table, db.tables name = some table → TableShape name table
  indexes : ∀ name index, db.indexes name = some index →
    .index name index ∈ declared ∨ name = repoPathIdx ∧ index = repoPath
  paths : ∀ table, db.tables "worktree_leases" = some table →
    repoPath.Admits table.rows ∨ activeRepoPath.Admits table.rows
  rowids : ((documents db).map fun row => row "rowid").Nodup
  search : db.rows searchTable = [] ∨ db.rows searchTable = mirrored db

theorem repoPath_admits {rows : List Row} (admits : repoPath.Admits rows) : activeRepoPath.Admits rows := by
  intro _
  refine (admits rfl).imp fun {a b} apart => ?_
  have same : activeRepoPath.clash a b =
      (activeRepoPath.covers a && activeRepoPath.covers b && repoPath.clash a b) := rfl
  rw [same, apart, Bool.and_false]

theorem Legacy.shaped (legacy : Legacy db) : Shaped db :=
  ⟨legacy.tables, legacy.indexes, fun table found => (legacy.paths table found).elim repoPath_admits id,
    legacy.rowids⟩

def Promised (commands : Pid → Option (List Part)) (i : Pid) : Except String Unit → Catalog → Prop :=
  Ends (fun _ => All (((commands i).getD []).flatMap Part.facts)) fun _ _ => False

theorem opens_safe (shaped : Shaped db) :
    (opens commands db).Safe unraced growing (Promised commands) := by
  refine ⟨shaped, fun i p started => ?_⟩
  obtain ⟨parts, given, rfl⟩ := along_opens started
  have safe := (establishes_opening [] parts i).triple db shaped fun _ none => nomatch none
  simpa [Promised, given, opens] using safe

theorem no_crash (i : Pid) (s s' : Catalog) (_ : growing.Inv s) (crashed : unraced.crash i s s') :
    growing.Inv s' ∧ growing.guarantee i s s' :=
  crashed.elim

theorem reached_safe (shaped : Shaped db) (run : Run unraced (opens commands db) c) :
    c.Safe unraced growing (Promised commands) :=
  Run.safe no_crash (opens_safe shaped) run

theorem later_of_run {early : Config Catalog SchemaOp SchemaOp.Ret (Except String Unit)} (shaped : Shaped db)
    (before : Run unraced (opens commands db) early) (run : Run unraced early c) :
    Later early.shared c.shared :=
  Run.guaranteed Later.refl Later.trans id no_crash (reached_safe shaped before) run

theorem open_succeeds (shaped : Shaped db) (run : Run unraced (opens commands db) c) {i : Pid}
    {result : Except String Unit} (finished : c.result i = some result) :
    result = .ok () ∧ All (((commands i).getD []).flatMap Part.facts) c.shared := by
  have promised := (reached_safe shaped run).result finished
  cases result with
  | ok done => exact ⟨rfl, promised⟩
  | error e => exact promised.elim

/-- Every started open has ended, and every part of the schema was opened by some process. -/
structure Finished (commands : Pid → Option (List Part))
    (c : Config Catalog SchemaOp SchemaOp.Ret (Except String Unit)) : Prop where
  ended : ∀ i parts, commands i = some parts → ∃ result, c.result i = some result
  whole : ∀ part, ∃ i parts, commands i = some parts ∧ part ∈ parts

theorem finished_current (shaped : Shaped db) (run : Run unraced (opens commands db) c)
    (finished : Finished commands c) : Current c.shared := by
  refine ⟨(reached_safe shaped run).1, fun fact member => ?_⟩
  obtain ⟨part, -, among⟩ := List.mem_flatMap.mp member
  obtain ⟨i, parts, given, opened⟩ := finished.whole part
  obtain ⟨result, ended⟩ := finished.ended i parts given
  apply (open_succeeds shaped run ended).2
  rw [given]
  exact List.mem_flatMap.mpr ⟨part, opened, among⟩

theorem mem_historyOf {i : Pid} {events : List (Event Catalog SchemaOp SchemaOp.Ret)} {act : Act}
    (member : act ∈ historyOf i events) : ∃ event ∈ events, event.act = act := by
  obtain ⟨event, among, same⟩ := List.mem_map.mp member
  exact ⟨event, (List.mem_filter.mp among).1, same⟩

theorem finished_mirrored (legacy : Legacy db) (run : Run unraced (opens commands db) c)
    (finished : Finished commands c) : c.shared.rows searchTable = mirrored c.shared := by
  obtain ⟨events, recorded⟩ := run.remember
  have balanced := balanced_run recorded legacy.search
  have along : ∀ i p, (opens commands db).procs i = some p → p.Along (fun _ => SchemaOp.Known)
      (Ends (fun _ => Even (.index ∈ (commands i).getD [])) fun _ _ => True) [] := by
    intro i p started
    obtain ⟨parts, given, rfl⟩ := along_opens started
    simpa [given] using ((traced_opening parts).reaches .start).2
  have even : ∀ i parts, commands i = some parts → Even (.index ∈ parts) (historyOf i events) := by
    intro i parts given
    obtain ⟨result, ended⟩ := finished.ended i parts given
    obtain ⟨rfl, -⟩ := open_succeeds legacy.shaped run ended
    have fits := Run.ended recorded along ended
    simpa [given, Ends] using fits
  cases balanced.search with
  | inl mirror => exact mirror
  | inr gap =>
      cases gap.2 with
      | inl cleared =>
          obtain ⟨j, cleared⟩ := cleared
          cases given : commands j with
          | some parts => exact absurd cleared (even j parts given).1
          | none =>
              have silent : historyOf j events = [] := by
                rw [historyOf, List.map_eq_nil_iff, List.filter_eq_nil_iff]
                intro event member same
                obtain ⟨p, started⟩ := recorded.started event member
                obtain ⟨parts, given', -⟩ := along_opens started
                rw [beq_iff_eq.mp same, given] at given'
                cases given'
              rw [silent] at cleared
              exact cleared.elim
      | inr untouched =>
          obtain ⟨i, parts, given, opened⟩ := finished.whole .index
          cases (even i parts given).2 opened with
          | inl filled =>
              obtain ⟨event, among, same⟩ := mem_historyOf filled
              exact absurd same (untouched event among).1
          | inr equal =>
              obtain ⟨n, counted, found⟩ := equal
              obtain ⟨event, among, same⟩ := mem_historyOf counted
              obtain rfl := balanced.counts event among n same
              obtain ⟨event', among', same'⟩ := mem_historyOf found
              exact absurd same' (untouched event' among').2

/-- In every run without a raced statement, from every legacy database: every open succeeds, the rows
keep their values, a path index stays, and in the end the schema is a fresh one and the search table
holds one row for each document. -/
theorem opens_converge (legacy : Legacy db) (run : Run unraced (opens commands db) c) :
    (∀ i result, c.result i = some result → result = .ok ()) ∧
    (∀ name table, name ≠ searchTable → db.tables name = some table →
      ∃ table', c.shared.tables name = some table' ∧ SameValues name table table') ∧
    (∀ early, Run unraced (opens commands db) early → Run unraced early c →
      HasPathIndex early.shared → HasPathIndex c.shared) ∧
    (Finished commands c → SameSchema c.shared fresh ∧ documents c.shared = documents db ∧
      c.shared.rows searchTable = (documents db).map searchRow ∧
        ((documents db).map fun row => row "rowid").Nodup) := by
  have later : Later db c.shared := later_of_run legacy.shaped .refl run
  refine ⟨fun i result finished => (open_succeeds legacy.shaped run finished).1, ?_, ?_, ?_⟩
  · intro name table other found
    obtain ⟨table', found', grown⟩ := later.tables name table found
    exact ⟨table', found', grown.rows other⟩
  · exact fun early before after has => (later_of_run legacy.shaped before after).path has
  · intro finished
    refine ⟨(finished_current legacy.shaped run finished).same fresh_current, later.corpus, ?_, legacy.rowids⟩
    rw [finished_mirrored legacy run finished, mirrored, later.corpus]

end Runs

section Race

def documentColumns : List Column :=
  match schemaIndex with
  | .table _ columns _ :: _ => columns
  | _ => []

def olderDocument (rowid : Int) (title : String) (deleted : Int) : Row := fun c =>
  if c = "rowid" then .integer rowid else if c = "title" then .text title
  else if c = "body" then .text (title ++ " in full") else if c = "deleted" then .integer deleted else .null

-- A release whose branch links had no task references and that had no search table yet; one of its
-- documents is deleted.
def olderLinks : Catalog :=
  (Catalog.empty.setTable documentsTable {
    columns := documentColumns
    constraints := ["PRIMARY KEY (source, project, external_id)"]
    rows := [olderDocument 1 "Crash" 0, olderDocument 2 "Typo" 1, olderDocument 3 "Leak" 0] }).setTable
  "branch_issue_links" {
    columns := branchLinkColumns.filter (·.name != "task_id")
    constraints := ["PRIMARY KEY (repo_key, branch, provider, project, external_id)"]
    rows := [fun c => if c = "repo_key" then .text "repo" else if c = "branch" then .text "work" else .null] }

theorem olderLinks_legacy : Legacy olderLinks where
  tables name table found := by
    rw [olderLinks, Catalog.setTable_tables] at found
    split at found
    · next here =>
        cases found
        subst here
        exact ⟨⟨branchLinkColumns, by decide, by decide, by decide⟩,
          by decide⟩
    · rw [Catalog.setTable_tables] at found
      split at found
      · next here =>
          cases found
          subst here
          exact ⟨⟨documentColumns, by decide, by decide, by decide⟩, by decide⟩
      · cases found
  indexes _ _ found := nomatch found
  paths table found := by
    rw [olderLinks, Catalog.setTable_tables, if_neg (by decide), Catalog.setTable_tables, if_neg (by decide)] at found
    cases found
  rowids := by decide
  search := .inl (by decide)

def faultless (_ : Pid) (db : Catalog) (op : SchemaOp) : op.Ret × Catalog := op.perform db

def linkOpens (first : List Part) : Pid → Option (List Part)
  | 0 => some first
  | 1 => some [.links]
  | _ => none

def linkRun (first : List Part) (schedule : List Pid) :
    Config Catalog SchemaOp SchemaOp.Ret (Except String Unit) :=
  (opens (linkOpens first) olderLinks).replay faultless schedule

/-- Two opens that both miss the column: the second one fails. -/
theorem second_open_fails :
    Legacy olderLinks ∧
      Run schemaWorld (opens (linkOpens [.links]) olderLinks)
        (linkRun [.links] [0, 0, 0, 0, 0, 1, 1, 1, 1, 1, 0, 1]) ∧
      (linkRun [.links] [0, 0, 0, 0, 0, 1, 1, 1, 1, 1, 0, 1]).result 1 =
        some (.error "could not migrate branch link table: duplicate column name: task_id") :=
  ⟨olderLinks_legacy, .replay (fun _ _ _ => rfl) _ _, by decide⟩

def linksInTurn : Config Catalog SchemaOp SchemaOp.Ret (Except String Unit) :=
  linkRun wholeOpening (List.replicate 60 0 ++ List.replicate 10 1)

theorem linksInTurn_finished : Finished (linkOpens wholeOpening) linksInTurn where
  ended i parts given := by
    have first : linksInTurn.result 0 = some (.ok ()) := by decide +kernel
    have second : linksInTurn.result 1 = some (.ok ()) := by decide +kernel
    match i with
    | 0 => exact ⟨_, first⟩
    | 1 => exact ⟨_, second⟩
    | _ + 2 => cases given
  whole part := ⟨0, wholeOpening, rfl, by cases part <;> decide⟩

theorem linksInTurn_converge :
    Legacy olderLinks ∧ Finished (linkOpens wholeOpening) linksInTurn ∧ SameSchema linksInTurn.shared fresh ∧
      (linksInTurn.shared.rows searchTable).map (fun row => row "title") = [.text "Crash", .text "Leak"] := by
  have run : Run unraced (opens (linkOpens wholeOpening) olderLinks) linksInTurn :=
    .replay_guard (fun _ _ _ => rfl) _ _ (by decide)
  have converge := opens_converge olderLinks_legacy run
  obtain ⟨schema, -, mirrored, -⟩ := converge.2.2.2 linksInTurn_finished
  refine ⟨olderLinks_legacy, linksInTurn_finished, schema, ?_⟩
  rw [mirrored]
  decide

end Race

end Phasegent.Schema
