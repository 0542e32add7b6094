import Phasegent.Interleaving.History
import Phasegent.Interleaving.Replay
import Phasegent.Sql.Catalog
import Phasegent.Sql.Transaction

namespace Phasegent.Schema
open Sql Interleaving

inductive Ddl where
  | table (name : String) (columns : List Column) (constraints : List String)
  | index (name : String) (index : IndexDef)
  deriving DecidableEq, Repr

def columns (declared : List (String × String)) : List Column :=
  declared.map fun (name, kind) => ⟨name, kind⟩

def lookup (table : String) (columns : List String) : IndexDef := ⟨table, columns, [], false, none⟩

def schema : List Ddl := [
  .table "role_config" (columns [("role", "TEXT PRIMARY KEY"), ("provider", "TEXT"),
    ("api_base", "TEXT"), ("repository", "TEXT")]) [],
  .table "role_forgejo_config" (columns [("role", "TEXT PRIMARY KEY"), ("api_base", "TEXT NOT NULL"),
    ("repository", "TEXT NOT NULL"), ("source", "TEXT NOT NULL"), ("updated_at", "INTEGER NOT NULL")]) [],
  .table "role_redmine_config" (columns [("role", "TEXT PRIMARY KEY"), ("api_base", "TEXT"),
    ("project_id", "TEXT"), ("close_status_id", "INTEGER")]) [],
  .table "role_gitlab_config" (columns [("role", "TEXT PRIMARY KEY"), ("api_base", "TEXT"),
    ("project_id", "INTEGER")]) [],
  .table "role_credential" (columns [("role", "TEXT NOT NULL"), ("provider", "TEXT NOT NULL"),
    ("credential", "TEXT NOT NULL"), ("fingerprint", "TEXT"), ("credential_updated_at", "INTEGER")])
    ["PRIMARY KEY (role, provider)"],
  .table "role_redmine_user" (columns [("role", "TEXT PRIMARY KEY"),
    ("user_id", "INTEGER NOT NULL CHECK (user_id > 0)"), ("login", "TEXT NOT NULL")]) [],
  .table "global_setting" (columns [("name", "TEXT PRIMARY KEY"), ("value", "TEXT")]) [],
  .table "execution_timer_runs" (columns [("run_id", "TEXT PRIMARY KEY"),
    ("issue_id", "INTEGER NOT NULL CHECK (issue_id > 0)"), ("phase", "TEXT NOT NULL"),
    ("role", "TEXT NOT NULL"), ("attempt", "INTEGER NOT NULL CHECK (attempt > 0)"),
    ("started_at", "INTEGER NOT NULL"), ("finished_at", "INTEGER"), ("status", "TEXT NOT NULL"),
    ("elapsed_seconds", "INTEGER"), ("rounded_hours", "REAL"), ("activity_id", "INTEGER"),
    ("redmine_time_entry_id", "INTEGER"), ("sync_status", "TEXT NOT NULL DEFAULT 'pending'"),
    ("sync_error", "TEXT"), ("owner_session_id", "TEXT"), ("owner_call_id", "TEXT"),
    ("projection_token", "TEXT"), ("projection_claimed_at", "INTEGER")]) [],
  .index "execution_timer_runs_issue_phase_idx"
    (lookup "execution_timer_runs" ["issue_id", "phase", "role", "attempt"]),
  .index "execution_timer_runs_status_idx"
    ⟨"execution_timer_runs", ["status", "started_at"], ["started_at"], false, none⟩,
  .table "notification_deliveries" (columns [("id", "INTEGER PRIMARY KEY AUTOINCREMENT"),
    ("created_at", "INTEGER NOT NULL"), ("event", "TEXT NOT NULL"), ("channel", "TEXT NOT NULL"),
    ("title", "TEXT NOT NULL"), ("body", "TEXT NOT NULL"), ("issue_id", "INTEGER"),
    ("status", "TEXT NOT NULL DEFAULT 'pending'"), ("error", "TEXT")]) [],
  .index "notification_deliveries_created_idx"
    ⟨"notification_deliveries", ["created_at"], ["created_at"], false, none⟩,
  .table "task_bindings" (columns [("task_id", "INTEGER PRIMARY KEY AUTOINCREMENT"),
    ("provider", "TEXT NOT NULL CHECK (length(provider) > 0)"),
    ("instance", "TEXT NOT NULL CHECK (length(instance) > 0)"),
    ("project", "TEXT NOT NULL CHECK (length(project) > 0)"),
    ("external_id", "TEXT NOT NULL CHECK (length(external_id) > 0)"),
    ("created_at", "INTEGER NOT NULL CHECK (created_at > 0)")])
    ["UNIQUE (provider, instance, project, external_id)"],
  .index "task_bindings_external_idx" (lookup "task_bindings" ["external_id"]),
  .index "task_bindings_project_idx" (lookup "task_bindings" ["provider", "instance", "project"]),
  .table "task_repo_memberships" (columns [("repo_key", "TEXT NOT NULL CHECK (length(repo_key) > 0)"),
    ("task_id", "INTEGER NOT NULL REFERENCES task_bindings(task_id) ON DELETE RESTRICT"),
    ("created_at", "INTEGER NOT NULL CHECK (created_at > 0)")]) ["PRIMARY KEY (repo_key, task_id)"],
  .index "task_repo_memberships_task_idx" (lookup "task_repo_memberships" ["task_id"])]

def migrations : List (String × Column) := [
  ("role_credential", ⟨"fingerprint", "TEXT"⟩),
  ("role_credential", ⟨"credential_updated_at", "INTEGER"⟩),
  ("execution_timer_runs", ⟨"owner_session_id", "TEXT"⟩),
  ("execution_timer_runs", ⟨"owner_call_id", "TEXT"⟩),
  ("execution_timer_runs", ⟨"projection_token", "TEXT"⟩),
  ("execution_timer_runs", ⟨"projection_claimed_at", "INTEGER"⟩)]

def legacyProjectIds : List (String × String) :=
  [("role_redmine_config", "project_id"), ("role_gitlab_config", "project_id")]

def repoPathIdx : String := "worktree_leases_repo_path_idx"

def activeRepoPathIdx : String := "worktree_leases_active_repo_path_idx"

/-- The full-table index of older databases. -/
def repoPath : IndexDef :=
  ⟨"worktree_leases", ["repo_identity", "worktree_path"], [], true, none⟩

def activeRepoPath : IndexDef :=
  ⟨"worktree_leases", ["repo_identity", "worktree_path"], [], true, some ("status", "active")⟩

def worktreeLeasesSchema : List Ddl := [
  .table "worktree_leases" (columns [("lease_id", "TEXT PRIMARY KEY"), ("repo_identity", "TEXT NOT NULL"),
    ("issue", "INTEGER NOT NULL"), ("session", "TEXT NOT NULL DEFAULT ''"),
    ("checkout_path", "TEXT NOT NULL"), ("worktree_path", "TEXT NOT NULL"), ("branch", "TEXT NOT NULL"),
    ("status", "TEXT NOT NULL"), ("created_at", "INTEGER NOT NULL"),
    ("heartbeat_at", "INTEGER NOT NULL"), ("release_reason", "TEXT")]) [],
  .index activeRepoPathIdx activeRepoPath,
  .index "worktree_leases_repo_status_idx" (lookup "worktree_leases" ["repo_identity", "status"]),
  .table "worktree_lease_scopes" (columns [("lease_id", "TEXT PRIMARY KEY"),
    ("provider", "TEXT NOT NULL CHECK (length(provider) > 0)"),
    ("project", "TEXT NOT NULL CHECK (length(project) > 0)"),
    ("external_id", "INTEGER NOT NULL CHECK (external_id > 0)"), ("task_id", "INTEGER"),
    ("created_at", "INTEGER NOT NULL")]) [],
  .index "worktree_lease_scopes_issue_idx"
    (lookup "worktree_lease_scopes" ["provider", "project", "external_id"])]

def branchLinkColumns : List Column :=
  columns [("repo_key", "TEXT NOT NULL"), ("branch", "TEXT NOT NULL"),
    ("provider", "TEXT NOT NULL"), ("project", "TEXT NOT NULL"), ("external_id", "TEXT NOT NULL"),
    ("task_id", "INTEGER"), ("issue_number", "INTEGER NOT NULL CHECK (issue_number > 0)"),
    ("status", "TEXT NOT NULL CHECK (status IN ('linked', 'detached'))"), ("source", "TEXT NOT NULL"),
    ("created_at", "INTEGER NOT NULL CHECK (created_at > 0)"),
    ("updated_at", "INTEGER NOT NULL CHECK (updated_at > 0)"),
    ("detached_at", "INTEGER CHECK (detached_at IS NULL OR detached_at > 0)"),
    ("detached_reason", "TEXT")]

def branchLinksSchema : List Ddl := [
  .table "branch_issue_links" branchLinkColumns
    ["PRIMARY KEY (repo_key, branch, provider, project, external_id)"],
  .index "branch_issue_links_branch_idx" (lookup "branch_issue_links" ["repo_key", "branch", "status"]),
  .index "branch_issue_links_issue_idx"
    (lookup "branch_issue_links" ["provider", "project", "external_id", "status"]),
  .index "branch_issue_links_repo_issue_idx"
    (lookup "branch_issue_links" ["repo_key", "provider", "project", "external_id"])]

def documentsTable : String := "issue_documents"

def searchTable : String := "issue_fts"

def schemaIndex : List Ddl := [
  .table documentsTable (columns [("source", "TEXT NOT NULL"), ("project", "TEXT NOT NULL"),
    ("external_id", "TEXT NOT NULL"), ("issue_number", "INTEGER NOT NULL CHECK (issue_number >= 0)"),
    ("title", "TEXT NOT NULL"), ("body", "TEXT NOT NULL"), ("state", "TEXT NOT NULL"), ("url", "TEXT"),
    ("provider_updated_at",
      "INTEGER CHECK (provider_updated_at IS NULL OR provider_updated_at > 0)"),
    ("indexed_at", "INTEGER NOT NULL CHECK (indexed_at > 0)"), ("content_hash", "TEXT NOT NULL"),
    ("deleted", "INTEGER NOT NULL DEFAULT 0 CHECK (deleted IN (0, 1))"),
    ("deleted_at", "INTEGER CHECK (deleted_at IS NULL OR deleted_at > 0)")])
    ["PRIMARY KEY (source, project, external_id)"],
  .table "issue_chunks" (columns [("source", "TEXT NOT NULL"), ("project", "TEXT NOT NULL"),
    ("external_id", "TEXT NOT NULL"), ("ordinal", "INTEGER NOT NULL CHECK (ordinal >= 0)"),
    ("text", "TEXT NOT NULL"), ("byte_start", "INTEGER NOT NULL CHECK (byte_start >= 0)"),
    ("byte_end", "INTEGER NOT NULL CHECK (byte_end >= byte_start)"), ("hash", "TEXT NOT NULL")])
    ["PRIMARY KEY (source, project, external_id, ordinal)",
      "FOREIGN KEY (source, project, external_id) " ++
        "REFERENCES issue_documents(source, project, external_id) ON DELETE CASCADE"],
  .index "issue_chunks_doc_idx" (lookup "issue_chunks" ["source", "project", "external_id"]),
  .table searchTable (columns [("title", ""), ("body", "")]) ["fts5", "tokenize='unicode61'"]]

inductive SchemaOp where
  | create (ddl : Ddl)
  | hasColumn (table column : String)
  | addColumn (table : String) (column : Column)
  | applyMigrations
  | pathIndexes
  | activePathIndex
  | countDocuments
  | countSearch
  | clearSearch
  | fillSearch

abbrev SchemaOp.Ret : SchemaOp → Type
  | .create _ => Except SqlError Unit
  | .hasColumn _ _ => Bool
  | .addColumn _ _ => Except SqlError Unit
  | .applyMigrations => Except String Unit
  | .pathIndexes => List String
  | .activePathIndex => Except SqlError Unit
  | .countDocuments => Except SqlError Nat
  | .countSearch => Except SqlError Nat
  | .clearSearch => Except SqlError Unit
  | .fillSearch => Except SqlError Unit

def Ddl.execute (ddl : Ddl) (db : Catalog) : Except SqlError Catalog :=
  match ddl with
  | .table name columns constraints => .ok (db.createTable name columns constraints)
  | .index name created => db.createIndex name created

def tolerated : SqlError → Bool
  | .duplicateColumn _ => true
  | _ => false

def migrateColumn (db : Catalog) (migration : String × Column) : Except String Catalog :=
  if db.hasColumn migration.1 migration.2.name then .ok db
  else
    match db.addColumn migration.1 migration.2 with
    | .ok db' => .ok db'
    | .error error =>
        if tolerated error then .ok db
        else .error ("could not migrate column " ++ migration.1 ++ "." ++ migration.2.name ++ ": " ++
          error.message)

def clearColumn (db : Catalog) (cleared : String × String) : Catalog :=
  if db.hasColumn cleared.1 cleared.2 then
    db.setRows cleared.1 (update (fun row => row cleared.2 != .null) fun row =>
      Function.update row cleared.2 .null)
  else db

def migrationBody (db : Catalog) : Except String Catalog := do
  let db ← migrations.foldlM migrateColumn db
  return legacyProjectIds.foldl clearColumn db

def documents (db : Catalog) : List Row :=
  (db.rows documentsTable).filter fun row => row "deleted" == .integer 0

def searchRow (document : Row) : Row := fun column =>
  if column = "rowid" ∨ column = "title" ∨ column = "body" then document column else .null

def populate (db : Catalog) : Except SqlError Catalog :=
  match db.tables documentsTable, db.tables searchTable with
  | none, _ => .error (.noSuchTable documentsTable)
  | _, none => .error (.noSuchTable searchTable)
  | some _, some search =>
      let rows := search.rows ++ (documents db).map searchRow
      if (rows.map fun row => row "rowid").Nodup then .ok (db.setTable searchTable { search with rows })
      else .error (.uniqueFailed searchTable)

/-- A statement commits its change, and changes nothing when it fails. -/
def settle {ε : Type} (db : Catalog) : Except ε Catalog → Except ε Unit × Catalog
  | .ok db' => (.ok (), db')
  | .error error => (.error error, db)

def countRows (db : Catalog) (table : String) (rows : List Row) : Except SqlError Nat :=
  match db.tables table with
  | none => .error (.noSuchTable table)
  | some _ => .ok rows.length

def SchemaOp.perform (db : Catalog) : (op : SchemaOp) → op.Ret × Catalog
  | .create ddl => settle db (ddl.execute db)
  | .hasColumn table column => (db.hasColumn table column, db)
  | .addColumn table column => settle db (db.addColumn table column)
  | .applyMigrations => settle db (migrationBody db)
  | .pathIndexes => ([repoPathIdx, activeRepoPathIdx].filter fun name => (db.indexes name).isSome, db)
  | .activePathIndex =>
      settle db ((db.dropIndex repoPathIdx).createIndex activeRepoPathIdx activeRepoPath)
  | .countDocuments => (countRows db documentsTable (documents db), db)
  | .countSearch => (countRows db searchTable (db.rows searchTable), db)
  | .clearSearch => settle db (match db.tables searchTable with
      | none => .error (.noSuchTable searchTable)
      | some search => .ok (db.setTable searchTable { search with rows := [] }))
  | .fillSearch => settle db (populate db)

abbrev SchemaM := Attempt SchemaOp SchemaOp.Ret String

def stating (context : String) {α : Type} (result : Except SqlError α) : Except String α :=
  result.mapError fun error => context ++ error.message

def executeBatch (context : String) (statements : List Ddl) : SchemaM Unit :=
  statements.forM fun ddl => request (.create ddl) (stating context)

def initialise : SchemaM Unit := do
  executeBatch "could not initialise phasegent schema: " schema
  request .applyMigrations id

def ensureColumn (table : String) (column : Column) (context : String) : SchemaM Unit := do
  let present ← request (.hasColumn table column.name) .ok
  if present then pure () else request (.addColumn table column) (stating context)

def ensureReleaseReasonColumn : SchemaM Unit :=
  ensureColumn "worktree_leases" ⟨"release_reason", "TEXT"⟩ "could not migrate worktree lease table: "

def scopesTaskIdx : Ddl :=
  .index "worktree_lease_scopes_task_idx" (lookup "worktree_lease_scopes" ["task_id"])

def ensureScopeTaskIdColumn : SchemaM Unit := do
  ensureColumn "worktree_lease_scopes" ⟨"task_id", "INTEGER"⟩
    "could not migrate worktree lease scope table: "
  request (.create scopesTaskIdx) (stating "could not index worktree lease scope task column: ")

def migrationComplete (names : List String) : Bool :=
  !names.contains repoPathIdx && names.contains activeRepoPathIdx

def ensureActivePathIndex : SchemaM Unit := do
  let names ← request .pathIndexes .ok
  if migrationComplete names then pure ()
  else request .activePathIndex (stating "could not migrate worktree lease index: ")

def ensureLeaseSchema : SchemaM Unit := do
  executeBatch "could not initialise worktree lease table: " worktreeLeasesSchema
  ensureReleaseReasonColumn
  ensureScopeTaskIdColumn
  ensureActivePathIndex

def linksTaskIdx : Ddl :=
  .index "branch_issue_links_task_idx" (lookup "branch_issue_links" ["task_id"])

def ensureTaskIdColumn : SchemaM Unit := do
  ensureColumn "branch_issue_links" ⟨"task_id", "INTEGER"⟩ "could not migrate branch link table: "
  request (.create linksTaskIdx) (stating "could not index branch link task column: ")

def ensureBranchSchema : SchemaM Unit := do
  executeBatch "could not initialise branch link table: " branchLinksSchema
  ensureTaskIdColumn

def ensureFtsPopulated : SchemaM Unit := do
  let docCount ← request .countDocuments (stating "could not count documents for FTS sync: ")
  let ftsCount ← request .countSearch (stating "could not count FTS rows: ")
  if docCount = ftsCount then pure ()
  else do
    request .clearSearch (stating "could not rebuild FTS index: ")
    request .fillSearch (stating "could not rebuild FTS index: ")

def initialiseIndex : SchemaM Unit := do
  executeBatch "could not initialise issue index schema: " schemaIndex
  ensureFtsPopulated

inductive Part where
  | storage | leases | links | index
  deriving DecidableEq, Repr

def Part.run : Part → SchemaM Unit
  | .storage => initialise
  | .leases => ensureLeaseSchema
  | .links => ensureBranchSchema
  | .index => initialiseIndex

/-- One process: the initialisations that its command runs, in order. -/
def opening (parts : List Part) : SchemaM Unit := parts.forM Part.run

-- The main database and the index are two files with different tables: one catalog stands for both.
def schemaWorld : World Catalog SchemaOp SchemaOp.Ret where
  step _ db op answer db' := op.perform db = (answer, db')
  crash _ _ _ := False

def opens (commands : Pid → Option (List Part)) (db : Catalog) :
    Config Catalog SchemaOp SchemaOp.Ret (Except String Unit) :=
  ⟨db, fun i => (commands i).map fun parts => (opening parts).run⟩

end Phasegent.Schema
