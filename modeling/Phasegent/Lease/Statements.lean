import Phasegent.Lease.Db
import Phasegent.Lease.Evidence

namespace Phasegent.Lease
open Fallible Sql Phasegent.Task

abbrev LeaseTx := Tx WorktreeError LeaseDb

def storageError (message : String) : WorktreeError := .new "storage" message

section Reads
variable (tables : Tables)

def hasSidecar (leaseId : String) : Bool := tables.scopes.any (·.leaseId == leaseId)

def newest (sel : LeaseRow → Bool) : Option LeaseRow :=
  (orderDesc (·.createdAt) (tables.leases.filter sel)).head?

def findActiveLease (identity : String) (issue : Nat) (session : String) : Option LeaseRow :=
  newest tables fun row =>
    row.repoIdentity == identity && row.issue == asI64 issue && row.session == session &&
      row.isActive && !hasSidecar tables row.leaseId

def findActiveLeaseForScope (identity session : String) (scope : LeaseScope) : Option LeaseRow :=
  newest tables fun row =>
    row.repoIdentity == identity && row.session == session && row.isActive &&
      tables.scopes.any fun sidecar =>
        sidecar.leaseId == row.leaseId && sidecar.provider == scope.provider &&
          sidecar.project == scope.project && sidecar.externalId == asI64 scope.externalId &&
          sidecar.taskId == scope.taskId

def findActiveLeaseForPath (identity worktreePath : String) : Option LeaseRow :=
  newest tables fun row =>
    row.repoIdentity == identity && row.worktreePath == worktreePath && row.isActive

def loadLease (leaseId : String) : Option LeaseRow :=
  tables.leases.find? (·.leaseId == leaseId)

def repoRows (identity : String) : List LeaseRow :=
  orderDesc (·.createdAt) (tables.leases.filter (·.repoIdentity == identity))

def maxLeasesPerQuery : Nat := 256

def staleActiveLeases (identity : String) (staleBefore : Int) : List LeaseRow :=
  (orderAsc (·.heartbeatAt) (tables.leases.filter fun row =>
    row.repoIdentity == identity && row.isActive && row.heartbeatAt < staleBefore)).take
      maxLeasesPerQuery

def ensureNoUnscopedCollision (identity : String) (issue : Nat) : Except WorktreeError Unit :=
  refuse (tables.leases.any fun row =>
      row.repoIdentity == identity && row.issue == asI64 issue && !hasSidecar tables row.leaseId)
    (.new "scope_conflict" ("unscoped lease has the same issue number; establish its ownership " ++
      "before scoped acquire"))

def taskRepoMembershipExistsOn (repoKey : String) (taskId : Int) : Except String Bool := do
  let repoKey ← validateRepoKey repoKey
  refuse (taskId ≤ 0) "task id must be greater than zero"
  let joined := tables.memberships.flatMap fun membership =>
    if membership.repoKey == repoKey && membership.taskId == taskId then
      tables.bindings.filter (·.taskId == membership.taskId)
    else []
  return joined.length == 1

variable {tables}

theorem newest_some {sel : LeaseRow → Bool} {row : LeaseRow} (found : newest tables sel = some row) :
    row ∈ tables.leases ∧ sel row := by
  have member := List.mem_of_head? found
  rw [mem_orderDesc, List.mem_filter] at member
  exact member

theorem newest_none {sel : LeaseRow → Bool} (nothing : newest tables sel = none) {row : LeaseRow}
    (member : row ∈ tables.leases) : ¬sel row := by
  intro chosen
  have listed : row ∈ orderDesc (·.createdAt) (tables.leases.filter sel) :=
    mem_orderDesc.mpr (List.mem_filter.mpr ⟨member, chosen⟩)
  rw [List.head?_eq_none_iff.mp nothing] at listed
  cases listed

end Reads

section Scopes
variable (urls : UrlLibrary) (tables : Tables)

def bindingForTaskIdOn (taskId : Int) : Except String (Option TaskBinding) := do
  refuse (taskId ≤ 0) "task id must be greater than zero"
  match tables.bindings.find? (·.taskId == taskId) with
  | none => return none
  | some row => return some (← decodeBinding urls row)

structure TaskMessages where
  unknownKey : String
  unknownTask : String
  mismatch : String
  foreign : String

/-- The task of a sidecar, proven to exist, to match the sidecar and to belong to the repository. -/
def proveTask (messages : TaskMessages) (repoKey : Option String) (provider project : String)
    (externalId : Nat) (taskId : Int) : Except WorktreeError TaskKey := do
  let some repoKey := repoKey | throw (storageError messages.unknownKey)
  let binding ← (bindingForTaskIdOn urls tables taskId).mapError storageError
  let some binding := binding | throw (storageError messages.unknownTask)
  refuse (binding.key.provider ≠ provider ∨ binding.key.project ≠ project ∨
      binding.key.externalNumber ≠ some externalId)
    (storageError messages.mismatch)
  let member ← (taskRepoMembershipExistsOn tables repoKey taskId).mapError storageError
  refuse (!member) (storageError messages.foreign)
  return binding.key

def sidecarMessages : TaskMessages where
  unknownKey := "lease scope references a durable task but the repository key is unknown"
  unknownTask := "lease scope references an unknown durable task"
  mismatch := "lease scope does not match its durable task"
  foreign := "lease scope references a durable task that is not a member of this repository"

def scopeOfSidecar (repoKey : Option String) (sidecar : ScopeRow) (issue : Int) :
    Except WorktreeError LeaseScope := do
  refuse (issue ≠ sidecar.externalId) (storageError "lease scope does not match issue number")
  let externalId := sidecar.externalId.toNat
  match sidecar.taskId with
  | some taskId =>
      let key ← proveTask urls tables sidecarMessages repoKey sidecar.provider sidecar.project
        externalId taskId
      LeaseScope.forTask urls sidecar.provider sidecar.project externalId taskId key.inst
  | none => LeaseScope.new urls sidecar.provider sidecar.project externalId

def joinedSidecars (identity : String) : List (ScopeRow × LeaseRow) :=
  tables.scopes.flatMap fun sidecar =>
    (tables.leases.filter fun row =>
      row.leaseId == sidecar.leaseId && row.repoIdentity == identity).map (sidecar, ·)

def decodeSidecars (repoKey : Option String) :
    List (ScopeRow × LeaseRow) → Except WorktreeError ScopeMap
  | [] => .ok []
  | (sidecar, row) :: rest => do
      let scope ← scopeOfSidecar urls tables repoKey sidecar row.issue
      let scopes ← decodeSidecars repoKey rest
      return (sidecar.leaseId, scope) :: scopes

def scopeMapForConnectionWithKey (identity : String) (repoKey : Option String) :
    Except WorktreeError ScopeMap :=
  decodeSidecars urls tables repoKey (joinedSidecars tables identity)

end Scopes

section Writes

def statement (fail : String → WorktreeError) (change : Tables → Tables) : LeaseTx Unit := fun db =>
  match LeaseDb.store (change db.toTables) with
  | .ok db' => .ok ((), db')
  | .error text => .error (fail text)

def labelled (label text : String) : WorktreeError := storageError (label ++ ": " ++ text)

def updateLeases (label : String) (sel : Tables → LeaseRow → Bool) (set : LeaseRow → LeaseRow) :
    LeaseTx Nat := do
  let db ← get
  statement (labelled label) fun tables =>
    { tables with leases := Sql.update (sel tables) set tables.leases }
  return (db.leases.filter (sel db.toTables)).length

def repoPathConflictGuidance : String :=
  "current directory already has a worktree lease for this repository; add --isolate to acquire " ++
    "a separate worktree, or review existing leases with \x60worktree status\x60 / " ++
    "\x60worktree list\x60"

def mentions (text part : String) : Bool := (Text.splitOnce part.toList text.toList).isSome

def isRepoPathConflict (text : String) : Bool :=
  mentions text "worktree_leases_repo_path_idx" ||
    mentions text "worktree_leases_active_repo_path_idx" ||
    (mentions text "repo_identity" && mentions text "worktree_path")

def insertLeaseError (text : String) : WorktreeError :=
  if isRepoPathConflict text then storageError repoPathConflictGuidance
  else labelled "insert lease" text

def insertLeaseOn (lease : NewLease) : LeaseTx Unit :=
  statement insertLeaseError fun tables => { tables with leases := tables.leases ++ [lease.row] }

def refreshHeartbeat (leaseId : String) (now : Int) : LeaseTx Nat :=
  updateLeases "heartbeat" (fun _ row => row.leaseId == leaseId)
    fun row => { row with heartbeatAt := now }

def recordReleaseReason (leaseId reason : String) : LeaseTx Nat :=
  updateLeases "record reason" (fun _ row => row.leaseId == leaseId)
    fun row => { row with releaseReason := some reason }

def updateStatus (leaseId : String) (target : TerminalStatus) (now : Int) : LeaseTx Nat :=
  updateLeases "release" (fun _ row => row.leaseId == leaseId)
    fun row => { row with status := target.status, heartbeatAt := now }

def heartbeatActiveLease (leaseId session : String) (now : Int) : LeaseTx Bool := do
  let updated ← updateLeases "heartbeat lease"
    (fun _ row => row.leaseId == leaseId && row.isActive && row.session == session)
    fun row => { row with heartbeatAt := now }
  return updated == 1

def retain (now : Int) (reason : String) (row : LeaseRow) : LeaseRow :=
  { row with status := .retained, heartbeatAt := now, releaseReason := some reason }

def retainActiveLeasesForIssue (identity : String) (issue : Nat) (reason : String) (now : Int) :
    LeaseTx Nat :=
  updateLeases "release issue leases" (fun tables row =>
      row.repoIdentity == identity && row.issue == asI64 issue && row.isActive &&
        !hasSidecar tables row.leaseId)
    (retain now reason)

end Writes

end Phasegent.Lease
