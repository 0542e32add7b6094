import Phasegent.Lease.Statements

namespace Phasegent.Lease
open Fallible Sql Phasegent.Task

inductive PathProbe where
  | absent
  | present
  | failed (error : String)
  deriving DecidableEq, Repr

section Transactions
variable (urls : UrlLibrary)

def tables : LeaseTx Tables := fun db => .ok (db.toTables, db)

def readTables {α : Type} (query : Tables → Except WorktreeError α) : LeaseTx α :=
  Tx.read fun db => query db.toTables

def insertMessages : TaskMessages where
  unknownKey := "a durable task scope requires a verified repository key"
  unknownTask := "lease scope references an unknown durable task"
  mismatch := "lease scope does not match its durable task"
  foreign := "the durable task is not a member of this repository"

-- The durable task of a scope is proven inside the write boundary.
def proveScope (scope : LeaseScope) (repoKey : Option String) (now : Tables) :
    Except WorktreeError Unit :=
  match scope.taskId with
  | none => .ok ()
  | some taskId => do
      let _ ← proveTask urls now insertMessages repoKey scope.provider scope.project
        scope.externalId taskId
      return ()

def insertLeaseScoped (lease : NewLease) (scope : LeaseScope) (repoKey : Option String) :
    LeaseTx Unit := do
  readTables fun _ => refuse (lease.issue ≠ scope.externalId)
    (.new "argument" "lease issue and scoped external id must match")
  readTables fun now => ensureNoUnscopedCollision now lease.identity lease.issue
  readTables (proveScope urls scope repoKey)
  insertLeaseOn lease
  statement (labelled "insert lease scope") fun now =>
    { now with scopes := now.scopes ++ [{
        leaseId := lease.leaseId, provider := scope.provider, project := scope.project,
        externalId := asI64 scope.externalId, taskId := scope.taskId,
        createdAt := lease.createdAt }] }

def flipStale (staleBefore : Int) (reason : String) (now : Int)
    (recoveryScope : StaleRecoveryScope) (scopes : ScopeMap) :
    List LeaseRow → LeaseTx (List LeaseRow)
  | [] => pure []
  | row :: rest => do
      if recoveryScope.allows (scopes.lookup row.leaseId) then
        let updated ← updateLeases "flip stale lease"
          (fun _ stored => stored.leaseId == row.leaseId && stored.isActive &&
            stored.heartbeatAt < staleBefore)
          (retain now reason)
        let flipped ← flipStale staleBefore reason now recoveryScope scopes rest
        return if updated == 1 then retain now reason row :: flipped else flipped
      else flipStale staleBefore reason now recoveryScope scopes rest

def recoverStaleActiveLeasesForScope (identity : String) (repoKey : Option String)
    (staleBefore : Int) (reason : String) (now : Int) (recoveryScope : StaleRecoveryScope) :
    LeaseTx (List LeaseRow) := do
  let reason := trimText reason
  readTables fun _ => refuse (reason = "")
    (.new "argument" "stale recovery requires a non-empty reason")
  let stored ← tables
  let candidates := staleActiveLeases stored identity staleBefore
  let scopes ← readTables fun now => scopeMapForConnectionWithKey urls now identity repoKey
  flipStale staleBefore reason now recoveryScope scopes candidates

def verifySidecars (scope : LeaseScope) : List String → LeaseTx Unit
  | [] => pure ()
  | leaseId :: rest => do
      let stored ← tables
      let proof := (stored.scopes.filter fun sidecar =>
        sidecar.leaseId == leaseId && sidecar.provider == scope.provider &&
          sidecar.project == scope.project && sidecar.externalId == asI64 scope.externalId).length
      readTables fun _ => refuse (proof ≠ 1)
        (storageError "scoped lease proof changed before retention")
      verifySidecars scope rest

def retainVerified (identity : String) (scope : LeaseScope) (reason : String) (now : Int) :
    List String → LeaseTx Nat
  | [] => pure 0
  | leaseId :: rest => do
      let updated ← updateLeases "retain verified leases"
        (fun _ row => row.repoIdentity == identity && row.leaseId == leaseId &&
          row.issue == asI64 scope.externalId && row.isActive)
        (retain now reason)
      let more ← retainVerified identity scope reason now rest
      return updated + more

def retainActiveLeasesForScopeIds (resolve : String → Directory) (identity : String)
    (repoKey : Option String) (scope : LeaseScope) (leaseIds : List String)
    (approved : ScopedRetentionProof) (reason : String) (now : Int) : LeaseTx Nat := do
  let stored ← tables
  let rows := repoRows stored identity
  let scopes ← readTables fun now => scopeMapForConnectionWithKey urls now identity repoKey
  let current := scopedRetentionProof resolve scope.externalId rows scopes
  readTables fun _ => refuse (current ≠ approved)
    (storageError "scoped ownership proof changed before retention")
  verifySidecars scope leaseIds
  retainVerified identity scope reason now leaseIds

def checkAbsent (probe : String → PathProbe) (rows : List LeaseRow) :
    List (String × LeaseStatus × String) → Except WorktreeError Unit
  | [] => .ok ()
  | (leaseId, status, worktreePath) :: rest => do
      let some row := rows.find? (·.leaseId == leaseId)
        | throw (storageError "absent-path lease disappeared before release")
      refuse (row.status ≠ status ∨ row.worktreePath ≠ worktreePath)
        (storageError "absent-path lease identity or status changed before release")
      match probe row.worktreePath with
      | .absent => checkAbsent probe rows rest
      | .present => throw (storageError "absent-path directory reappeared before release")
      | .failed error =>
          throw (storageError ("could not verify absent-path directory: " ++ error))

def releaseAbsent (identity : String) (clock : String → Int) :
    List (String × LeaseStatus × String) → LeaseTx (List String)
  | [] => pure []
  | (leaseId, status, worktreePath) :: rest => do
      let updated ← updateLeases "release absent lease"
        (fun _ row => row.repoIdentity == identity && row.leaseId == leaseId &&
          row.status == status && row.worktreePath == worktreePath)
        fun row =>
          { row with
            status := .released, heartbeatAt := clock leaseId,
            releaseReason := some "worktree directory absent" }
      readTables fun _ => refuse (updated ≠ 1)
        (storageError "absent-path lease changed during release")
      let flipped ← releaseAbsent identity clock rest
      return leaseId :: flipped

def releaseAbsentLeasesProven (resolve : String → Directory) (probe : String → PathProbe)
    (clock : String → Int) (identity : String) (repoKey : Option String)
    (targets : List (String × LeaseStatus × String)) (approved : ScopedRetentionProof) :
    LeaseTx (List String) := do
  let stored ← tables
  let rows := repoRows stored identity
  let scopes ← readTables fun now => scopeMapForConnectionWithKey urls now identity repoKey
  let canonical ← readTables fun _ =>
    match approved.directories.head? with
    | some canonical => .ok canonical
    | none => .error (storageError "absent-release ownership proof has no directory")
  let current := directoryOwnershipProof resolve canonical rows scopes
  readTables fun _ => refuse (current ≠ approved)
    (storageError "directory ownership proof changed before absent-path release")
  readTables fun _ => checkAbsent probe rows targets
  releaseAbsent identity clock targets

def bindTask (binding : BindingRow) (membership : MembershipRow) : LeaseTx Unit :=
  statement (labelled "task binding") fun now =>
    { now with
      bindings := now.bindings ++ [binding], memberships := now.memberships ++ [membership] }

inductive SqlOp where
  | findActiveLease (identity : String) (issue : Nat) (session : String)
  | findActiveLeaseForScope (identity session : String) (scope : LeaseScope)
  | findActiveLeaseForPath (identity worktreePath : String)
  | ensureNoUnscopedCollision (identity : String) (issue : Nat)
  | loadLease (leaseId : String)
  | listAllForRepo (identity : String)
  | scopeMap (identity : String) (repoKey : Option String)
  | insertLease (lease : NewLease)
  | insertLeaseScoped (lease : NewLease) (scope : LeaseScope) (repoKey : Option String)
  | refreshHeartbeat (leaseId : String) (now : Int)
  | heartbeatActiveLease (leaseId session : String) (now : Int)
  | updateStatus (leaseId : String) (target : TerminalStatus) (now : Int)
  | recordReleaseReason (leaseId reason : String)
  | recoverStale (identity : String) (repoKey : Option String) (staleBefore : Int)
      (reason : String) (now : Int) (recoveryScope : StaleRecoveryScope)
  | retainForIssue (identity : String) (issue : Nat) (reason : String) (now : Int)
  | retainForScopeIds (resolve : String → Directory) (identity : String) (repoKey : Option String)
      (scope : LeaseScope) (leaseIds : List String) (approved : ScopedRetentionProof)
      (reason : String) (now : Int)
  | releaseAbsent (resolve : String → Directory) (probe : String → PathProbe)
      (clock : String → Int) (identity : String) (repoKey : Option String)
      (targets : List (String × LeaseStatus × String)) (approved : ScopedRetentionProof)
  | bindTask (binding : BindingRow) (membership : MembershipRow)

abbrev SqlOp.Ret : SqlOp → Type
  | .findActiveLease .. | .findActiveLeaseForScope .. | .findActiveLeaseForPath .. => Option LeaseRow
  | .ensureNoUnscopedCollision .. => Unit
  | .loadLease _ => Option LeaseRow
  | .listAllForRepo _ => List LeaseRow
  | .scopeMap .. => ScopeMap
  | .insertLease _ | .insertLeaseScoped .. => Unit
  | .refreshHeartbeat .. => Nat
  | .heartbeatActiveLease .. => Bool
  | .updateStatus .. | .recordReleaseReason .. => Nat
  | .recoverStale .. => List LeaseRow
  | .retainForIssue .. | .retainForScopeIds .. => Nat
  | .releaseAbsent .. => List String
  | .bindTask .. => Unit

def SqlOp.tx : (op : SqlOp) → LeaseTx op.Ret
  | .findActiveLease identity issue session =>
      readTables fun now => .ok (Lease.findActiveLease now identity issue session)
  | .findActiveLeaseForScope identity session scope =>
      readTables fun now => .ok (Lease.findActiveLeaseForScope now identity session scope)
  | .findActiveLeaseForPath identity worktreePath =>
      readTables fun now => .ok (Lease.findActiveLeaseForPath now identity worktreePath)
  | .ensureNoUnscopedCollision identity issue =>
      readTables fun now => Lease.ensureNoUnscopedCollision now identity issue
  | .loadLease leaseId => readTables fun now => .ok (Lease.loadLease now leaseId)
  | .listAllForRepo identity => readTables fun now => .ok (repoRows now identity)
  | .scopeMap identity repoKey =>
      readTables fun now => scopeMapForConnectionWithKey urls now identity repoKey
  | .insertLease lease => insertLeaseOn lease
  | .insertLeaseScoped lease scope repoKey => Lease.insertLeaseScoped urls lease scope repoKey
  | .refreshHeartbeat leaseId now => Lease.refreshHeartbeat leaseId now
  | .heartbeatActiveLease leaseId session now => Lease.heartbeatActiveLease leaseId session now
  | .updateStatus leaseId target now => Lease.updateStatus leaseId target now
  | .recordReleaseReason leaseId reason => Lease.recordReleaseReason leaseId reason
  | .recoverStale identity repoKey staleBefore reason now recoveryScope =>
      recoverStaleActiveLeasesForScope urls identity repoKey staleBefore reason now recoveryScope
  | .retainForIssue identity issue reason now =>
      retainActiveLeasesForIssue identity issue reason now
  | .retainForScopeIds resolve identity repoKey scope leaseIds approved reason now =>
      retainActiveLeasesForScopeIds urls resolve identity repoKey scope leaseIds approved reason now
  | .releaseAbsent resolve probe clock identity repoKey targets approved =>
      releaseAbsentLeasesProven urls resolve probe clock identity repoKey targets approved
  | .bindTask binding membership => Lease.bindTask binding membership

end Transactions

end Phasegent.Lease
