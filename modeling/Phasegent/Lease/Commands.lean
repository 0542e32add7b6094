import Phasegent.Lease.Acquire

namespace Phasegent.Lease
open Fallible Interleaving

def noteReason (leaseId : String) : Option String → LeaseM Unit
  | some reason => do
      let _ ← sql (.recordReleaseReason leaseId reason)
      return ()
  | none => pure ()

def releaseLeaseInner (leaseId : String) (retain : Bool) (reason : Option String) :
    LeaseM ReleaseOutcome := do
  let target := if retain then TerminalStatus.retained else .released
  match ← sql (.loadLease leaseId) with
  | none => throw (.new "state" "lease not found")
  | some existing =>
      if existing.status ≠ .active then
        return { leaseId := existing.leaseId, status := existing.status, forced := false,
                 reason := none }
      else
        let now ← ask .nowUnixSecs
        let _ ← sql (.updateStatus leaseId target now)
        noteReason leaseId reason
        return { leaseId := leaseId, status := target.status, forced := reason.isSome,
                 reason := reason }

def heartbeatLease (leaseId session : String) (now : Int) : LeaseM LeaseRow := do
  fromExcept do
    refuse (trimText session = "") (.new "argument" "session must not be empty")
    refuse (128 < session.toList.length) (.new "argument" "session must be <= 128 chars")
  if ← sql (.heartbeatActiveLease leaseId session now) then
    match ← sql (.loadLease leaseId) with
    | some row => return row
    | none => throw (.new "state" "lease disappeared during heartbeat")
  else
    match ← sql (.loadLease leaseId) with
    | none => throw (.new "state" "lease not found")
    | some row =>
        if row.status ≠ .active then
          throw (.new "state" ("lease is not active (status '" ++ row.status.text ++ "')"))
        else
          throw (.new "state" ("lease is owned by session '" ++ row.session ++ "', not '" ++
            session ++ "'"))

def releaseActiveLeasesForIssue (identity : String) (issue : Nat) (reason : String) :
    LeaseM Nat := do
  fromExcept (refuse (issue = 0) (.new "argument" "issue must be > 0"))
  let now ← ask .nowUnixSecs
  sql (.retainForIssue identity issue reason now)

def retainActiveLeasesForScope (identity : String) (repoKey : Option String) (scope : LeaseScope)
    (reason : String) (now : Int) : LeaseM Nat := do
  let rows ← sql (.listAllForRepo identity)
  let scopes ← sql (.scopeMap identity repoKey)
  let resolve ← ask .canonicalPaths
  let approved := scopedRetentionProof resolve scope.externalId rows scopes
  let leaseIds := (rows.filter fun row =>
    row.isActive && scopes.lookup row.leaseId == some scope).map (·.leaseId)
  let again ← ask .canonicalPaths
  sql (.retainForScopeIds again identity repoKey scope leaseIds approved reason now)

inductive Command where
  | acquire (identity repoPath : String) (issue : Nat) (session : String) (options : AcquireOptions)
  | acquireScoped (identity repoPath session : String) (options : AcquireOptions)
      (scope : LeaseScope)
  | heartbeat (leaseId session : String) (now : Int)
  | release (leaseId : String) (retain : Bool) (reason : Option String)
  | retainIssue (identity : String) (issue : Nat) (reason : String)
  | retainScope (identity : String) (repoKey : Option String) (scope : LeaseScope)
      (reason : String) (now : Int)
  | recoverStale (identity : String) (repoKey : Option String) (staleBefore : Int)
      (reason : String) (now : Int) (recoveryScope : StaleRecoveryScope)
  | releaseAbsent (resolve : String → Directory) (probe : String → PathProbe)
      (clock : String → Int) (identity : String) (repoKey : Option String)
      (targets : List (String × LeaseStatus × String)) (approved : ScopedRetentionProof)
  | releaseRemoved (leaseId : String)
  | bindTask (binding : Phasegent.Task.BindingRow) (membership : MembershipRow)

-- What a command reports: an acquire its outcome, every other command nothing more than success.
def silent {α : Type} (p : LeaseM α) : LeaseM (Option AcquireOutcome) := do
  let _ ← p
  return none

def Command.run : Command → LeaseM (Option AcquireOutcome)
  | .acquire identity repoPath issue session options => do
      return some (← acquireLeaseSeeded identity repoPath issue session options)
  | .acquireScoped identity repoPath session options scope => do
      return some (← acquireLeaseScoped identity repoPath session options scope)
  | .heartbeat leaseId session now => silent (heartbeatLease leaseId session now)
  | .release leaseId retain reason => silent (releaseLeaseInner leaseId retain reason)
  | .retainIssue identity issue reason =>
      silent (releaseActiveLeasesForIssue identity issue reason)
  | .retainScope identity repoKey scope reason now =>
      silent (retainActiveLeasesForScope identity repoKey scope reason now)
  | .recoverStale identity repoKey staleBefore reason now recoveryScope =>
      silent (sql (.recoverStale identity repoKey staleBefore reason now recoveryScope))
  | .releaseAbsent resolve probe clock identity repoKey targets approved =>
      silent (sql (.releaseAbsent resolve probe clock identity repoKey targets approved))
  | .releaseRemoved leaseId => do
      let now ← ask .nowUnixSecs
      silent (sql (.updateStatus leaseId .released now))
  | .bindTask binding membership => silent (sql (.bindTask binding membership))

section World
variable {F : Type} (urls : UrlLibrary)
  (outside : F → (op : LeaseOp) → op.Ret → F → Prop)

-- A statement or transaction takes effect in one step, or fails and changes nothing; everything
-- else happens outside of the store.
inductive LeaseStep : LeaseDb × F → (op : LeaseOp) → op.Ret → LeaseDb × F → Prop
  | sql {db : LeaseDb} {f : F} {op : SqlOp} :
      LeaseStep (db, f) (.sql op) ((op.tx urls).commit db).1 (((op.tx urls).commit db).2, f)
  | fault {db : LeaseDb} {f : F} {op : SqlOp} {error : WorktreeError} :
      LeaseStep (db, f) (.sql op) (.error error) (db, f)
  | outside {db : LeaseDb} {f f' : F} {op : LeaseOp} {answer : op.Ret} (external : !op.isSql)
      (effect : outside f op answer f') : LeaseStep (db, f) op answer (db, f')

def leaseWorld : World (LeaseDb × F) LeaseOp LeaseOp.Ret where
  step _ := LeaseStep urls outside
  crash _ s s' := s' = s

theorem LeaseStep.related {urls : UrlLibrary} {outside : F → (op : LeaseOp) → op.Ret → F → Prop}
    {s s' : LeaseDb × F} {op : LeaseOp} {answer : op.Ret}
    (condition : (op : LeaseOp) → op.Ret → Prop) (law : LeaseDb → LeaseDb → Prop)
    (refl : law s.1 s.1)
    (write : ∀ (op : SqlOp) (a : op.Ret) (db' : LeaseDb), op.tx urls s.1 = .ok (a, db') →
      condition (.sql op) (.ok a) → law s.1 db')
    (step : LeaseStep urls outside s op answer s') (allowed : condition op answer) :
    law s.1 s'.1 := by
  cases step with
  | @sql db f op =>
      cases run : op.tx urls db with
      | error e => simpa only [Sql.Tx.commit, run] using refl
      | ok result =>
          simp only [Sql.Tx.commit, run] at allowed ⊢
          exact write op result.1 result.2 run allowed
  | fault => exact refl
  | outside external effect => exact refl

theorem LeaseStep.sql_ok {urls : UrlLibrary} {outside : F → (op : LeaseOp) → op.Ret → F → Prop}
    {s s' : LeaseDb × F} {op : SqlOp} {a : op.Ret}
    (step : LeaseStep urls outside s (.sql op) (.ok a) s') : op.tx urls s.1 = .ok (a, s'.1) := by
  generalize written : (Except.ok a : Except WorktreeError op.Ret) = answer at step
  cases step with
  | sql => exact Sql.Tx.commit_ok written.symm
  | fault => cases written
  | outside external effect => cases external

theorem LeaseStep.unchanged {urls : UrlLibrary}
    {outside : F → (op : LeaseOp) → op.Ret → F → Prop} {s s' : LeaseDb × F} {op : LeaseOp}
    {answer : op.Ret} (step : LeaseStep urls outside s op answer s')
    (reads : ∀ (query : SqlOp) (a : query.Ret) (db' : LeaseDb), op = .sql query →
      query.tx urls s.1 = .ok (a, db') → db' = s.1) : s'.1 = s.1 :=
  step.related (fun op' _ => op = op') (fun db db' => db' = db) rfl
    (fun query a db' run same => reads query a db' same run) rfl

theorem LeaseStep.failed {urls : UrlLibrary} {outside : F → (op : LeaseOp) → op.Ret → F → Prop}
    {s s' : LeaseDb × F} {op : SqlOp} {e : WorktreeError}
    (step : LeaseStep urls outside s (.sql op) (.error e) s') : s'.1 = s.1 := by
  generalize written : (Except.error e : Except WorktreeError op.Ret) = answer at step
  cases step with
  | sql => exact Sql.Tx.commit_error written.symm
  | fault => rfl
  | outside external effect => cases external

def fleet (commands : Pid → Option Command) (start : LeaseDb × F) :
    Config (LeaseDb × F) LeaseOp LeaseOp.Ret (Except WorktreeError (Option AcquireOutcome)) where
  shared := start
  procs i := (commands i).map fun command => command.run.run

end World

section Oracle
variable {F : Type} (urls : UrlLibrary) (respond : F → (op : LeaseOp) → op.Ret × F)

def answered (f : F) (op : LeaseOp) (answer : op.Ret) (f' : F) : Prop :=
  respond f op = (answer, f')

def perform (_ : Pid) (s : LeaseDb × F) : (op : LeaseOp) → op.Ret × (LeaseDb × F)
  | .sql op => (((op.tx urls).commit s.1).1, (((op.tx urls).commit s.1).2, s.2))
  | op => ((respond s.2 op).1, (s.1, (respond s.2 op).2))

theorem perform_sound (i : Pid) (s : LeaseDb × F) (op : LeaseOp) :
    (leaseWorld urls (answered respond)).step i s op (perform urls respond i s op).1
      (perform urls respond i s op).2 := by
  cases op with
  | sql op => exact .sql
  | _ => exact .outside rfl rfl

def emptyStore : LeaseDb where
  leases := []
  scopes := []
  bindings := []
  memberships := []
  valid := by constructor <;> decide

def heldLease : LeaseRow where
  leaseId := "lease-64-0"
  repoIdentity := "/repo/.git"
  issue := 7
  session := "main"
  checkoutPath := "/repo"
  worktreePath := "/repo"
  branch := "main"
  status := .active
  createdAt := 100
  heartbeatAt := 100
  releaseReason := none

def heldStore : LeaseDb where
  leases := [heldLease]
  scopes := []
  bindings := []
  memberships := []
  valid := by constructor <;> decide

theorem issue_in_range : 0 < 7 ∧ 7 ≤ Task.i64Max := by decide

theorem issue_untasked : (none : Option Int).isSome = (none : Option String).isSome := rfl

def redmineScope : LeaseScope := ⟨"redmine", "web", 7, none, none, issue_in_range, issue_untasked⟩

def sandbox (clock : Nat) : (op : LeaseOp) → op.Ret × Nat
  | .sql _ => (.error (storageError "closed"), clock)
  | .nowUnixSecs => (clock, clock + 1)
  | .newLeaseId => ("lease-64-" ++ clock.repr, clock + 1)
  | .shortHexSuffix => ("00" ++ clock.repr, clock + 1)
  | .cacheBaseDir => (some "/cache", clock)
  | .createDirAll _ => (.ok (), clock)
  | .pathExists _ => (false, clock)
  | .isClean _ | .refResolvesToCommit .. => (.ok true, clock)
  | .currentBranchFor _ => (.ok "main", clock)
  | .worktreeAdd .. | .worktreeRemove .. => (.ok (), clock)
  | .finalizeCheckout _ => ([], clock)
  | .verifiedRepoKey _ => (none, clock)
  | .canonicalPaths => (fun path => [path], clock)

end Oracle

end Phasegent.Lease
