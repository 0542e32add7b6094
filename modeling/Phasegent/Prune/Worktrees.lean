import Mathlib.Data.String.Basic
import Phasegent.Cleanup.Removal
import Phasegent.Closure.Source
import Phasegent.Lease.Absent

namespace Phasegent.Prune
open Fallible Interleaving Cleanup
open Closure (IssueClosure TaskScopeRef)
open Lease (LeaseRow LeaseScope LeaseStatus ScopeMap ScopedRetentionProof StaleRecoveryScope AbsentTarget
  WorktreeError Directory directoryOwnershipProof)

inductive PruneMode where
  | report | remove
  deriving DecidableEq, Repr

-- How the closure of an issue is read: of the configured provider, through the directory's own task,
-- or through the task of another number.
inductive ClosureRead where
  | configured
  | ownTask (task : TaskScopeRef)
  | associated
  deriving DecidableEq, Repr

inductive PathEntry where
  | present
  | missing
  | unreadable (error : String)
  deriving DecidableEq, Repr

inductive PruneOp where
  | cleanup (op : CleanupOp)
  | canonicalPaths
  | pathEntry (path : String)
  | closure (read : ClosureRead) (issue : Nat)
  | invalidate (issues : List Nat)
  | staleActiveLeases (identity : String) (staleBefore : Int)
  | recoverStaleActiveLeases (identity : String) (repoKey : Option String) (staleBefore : Int)
      (reason : String) (now : Int) (scope : StaleRecoveryScope)
  | releaseAbsentLeases (identity : String) (repoKey : Option String) (targets : List AbsentTarget)
      (approved : ScopedRetentionProof)
  | updateStatus (leaseId : String) (status : LeaseStatus)
  | loadLease (leaseId : String)
  deriving DecidableEq

-- One set of canonical paths resolves a path once, so that its answers are a function.
abbrev PruneOp.Ret : PruneOp → Type
  | .cleanup op => op.Ret
  | .canonicalPaths => String → String
  | .pathEntry _ => PathEntry
  | .closure .. => IssueClosure
  | .invalidate _ => Unit
  | .staleActiveLeases .. => Except WorktreeError (List LeaseRow)
  | .recoverStaleActiveLeases .. => Except WorktreeError (List LeaseRow)
  | .releaseAbsentLeases .. => Except WorktreeError (List String)
  | .updateStatus .. => Except WorktreeError Unit
  | .loadLease _ => Except WorktreeError (Option LeaseRow)

abbrev PruneProg := Prog PruneOp PruneOp.Ret

abbrev PruneHistory := History PruneOp PruneOp.Ret

abbrev PruneM := Attempt PruneOp PruneOp.Ret String

def cleanupCalls : Embedding CleanupOp CleanupOp.Ret PruneOp PruneOp.Ret where
  effect := .cleanup
  answer _ r := r

def hosting : Embedding HostOp HostOp.Ret PruneOp PruneOp.Ret where
  effect op := .cleanup (.host op)
  answer _ r := r

structure PruneSetup where
  mode : PruneMode
  confirmation : MovePolicy
  providerScope : Option (String × String)
  legacyNumericLeases : Bool
  selection : Option (String → String → String → Except String Bool)
  recoveryScope : StaleRecoveryScope
  -- The reason to record, where stale leases are to be released as well.
  recovery : Option String
  staleDays : Nat
  staleBefore : Int
  now : Int

section Groups

structure ScopedLeaseKey where
  provider : String
  project : String
  taskId : Option Int
  inst : Option String
  deriving DecidableEq, Repr

structure DirectoryGroup where
  canonicalPath : String
  worktreePath : String
  branch : String
  status : String
  heartbeatAt : Int
  leaseIds : List String
  issues : List Nat
  rows : List LeaseRow
  scopedLeaseIds : List String
  scopedLeaseKeys : List ScopedLeaseKey
  deriving DecidableEq, Repr

namespace DirectoryGroup

def isScoped (group : DirectoryGroup) : Bool := group.scopedLeaseIds ≠ []

def start (canonical : String) (row : LeaseRow) : DirectoryGroup where
  canonicalPath := canonical
  worktreePath := row.worktreePath
  branch := row.branch
  status := row.status.text
  heartbeatAt := row.heartbeatAt
  leaseIds := [row.leaseId]
  issues := [row.issueNumber]
  rows := [row]
  scopedLeaseIds := []
  scopedLeaseKeys := []

def join (group : DirectoryGroup) (row : LeaseRow) : DirectoryGroup :=
  { group with
    leaseIds := group.leaseIds ++ [row.leaseId]
    issues := if row.issueNumber ∈ group.issues then group.issues
      else group.issues ++ [row.issueNumber]
    rows := group.rows ++ [row]
    status := if group.status ≠ row.status.text then "mixed" else group.status }

end DirectoryGroup

def addRow (canonical : String) (row : LeaseRow) : List DirectoryGroup → List DirectoryGroup
  | [] => [.start canonical row]
  | group :: rest =>
      if group.canonicalPath = canonical then group.join row :: rest
      else group :: addRow canonical row rest

def components (path : String) : Directory := (path.splitOn "/").filter fun part => part ≠ "" ∧ part ≠ "."

def groupOrdered (resolve : String → String) (rows : List LeaseRow) : List DirectoryGroup :=
  rows.foldl (fun groups row => addRow (resolve row.worktreePath) row groups) []

/-- The rows by directory: rows in the order of their ids, directories in the order of their paths. -/
def groupRows (resolve : String → String) (rows : List LeaseRow) : List DirectoryGroup :=
  let ordered := rows.insertionSort fun left right => left.leaseId ≤ right.leaseId
  let groups := (groupOrdered resolve ordered).map fun group =>
    { group with issues := group.issues.insertionSort (· ≤ ·) }
  groups.insertionSort fun left right =>
    components left.canonicalPath ≤ components right.canonicalPath

def keyOf (scope : LeaseScope) : ScopedLeaseKey := ⟨scope.provider, scope.project, scope.taskId, scope.inst⟩

def attachScopeProof (scopes : ScopeMap) (group : DirectoryGroup) : DirectoryGroup :=
  { group with
    scopedLeaseIds := group.leaseIds.filter fun id => (scopes.lookup id).isSome
    scopedLeaseKeys := group.leaseIds.filterMap fun id => (scopes.lookup id).map keyOf }

def groupScope (group : DirectoryGroup) : Option ScopedLeaseKey :=
  match group.scopedLeaseKeys with
  | [] => none
  | first :: rest => if rest.any (· ≠ first) then none else some first

def scopedGroupMatches (providerScope : Option (String × String)) (group : DirectoryGroup) : Bool :=
  if group.isScoped = false ∨ group.scopedLeaseIds.length ≠ group.leaseIds.length then false
  else
    match groupScope group with
    | none => false
    | some key =>
        match key.taskId with
        | some _ => true
        | none => providerScope == some (key.provider, key.project)

def sameNumberAmbiguous (issue : Nat) (rows : List LeaseRow) (scopes : ScopeMap) : Bool :=
  rows.any (fun row => row.issueNumber == issue && (scopes.lookup row.leaseId).isSome) &&
    rows.any fun row => row.issueNumber == issue && (scopes.lookup row.leaseId).isNone

/-- The task that the scope of a directory proves, with the issue of its first scoped row. -/
def ownTaskScope (group : DirectoryGroup) : Option (TaskScopeRef × Nat) := do
  let key ← groupScope group
  let taskId ← key.taskId
  let row ← group.rows.find? fun row => group.scopedLeaseIds.contains row.leaseId
  return (⟨taskId, key.provider, key.project, key.inst.getD ""⟩, row.issueNumber)

def representative (group : DirectoryGroup) : LeaseRow :=
  group.rows.headD ⟨"", "", 0, "", "", group.worktreePath, group.branch, .other group.status,
    group.heartbeatAt, group.heartbeatAt, none⟩

def pinnedActivePaths (resolve : String → String) (rows : List LeaseRow) : List String :=
  (rows.filter (·.isActive)).map fun row => resolve row.worktreePath

end Groups

inductive PruneDisposition where
  | skippedActive
  | skippedUnknownStatus
  | missingDirectory
  | skippedProtected (reason : String)
  | skippedIssue (reason : String)
  deriving DecidableEq, Repr

-- Why a directory is kept, or the root `.cache` it was assessed with where it is removable.
abbrev Classification := Except PruneDisposition (Option CacheInventory)

def Classification.cache : Classification → Option CacheInventory
  | .ok cache => cache
  | .error _ => none

abbrev ClassifyM := Attempt PruneOp PruneOp.Ret PruneDisposition

section Classify
variable (setup : PruneSetup) (identity : String) (pinned : List String) (resolve : String → String)
  (rows : List LeaseRow) (scopes : ScopeMap) (group : DirectoryGroup)

def checkOwnership : Except PruneDisposition Unit := do
  refuse (group.issues.any (sameNumberAmbiguous · rows scopes) = true)
    (.skippedIssue "same-number unscoped history makes the ownership ambiguous")
  refuse (setup.legacyNumericLeases = false ∧ group.isScoped = false)
    (.skippedIssue "the selected provider does not own unscoped legacy history")
  refuse (group.isScoped = true ∧ scopedGroupMatches setup.providerScope group = false)
    (.skippedIssue scopedLease)

def checkStatuses : Except PruneDisposition Unit := do
  refuse (group.rows.any (·.isActive) = true ∨ group.canonicalPath ∈ pinned) .skippedActive
  refuse (group.rows.any (fun row => row.status ∉ [.active, .retained, .released]) = true)
    .skippedUnknownStatus

def admitEntry : PathEntry → Except PruneDisposition Unit
  | .present => .ok ()
  | .missing => .error .missingDirectory
  | .unreadable error =>
      .error (.skippedProtected ("could not verify the worktree directory: " ++ Lease.bounded error))

/-- What needs nothing of the host: ownership, the recorded statuses, the entry, the Git guards. -/
def localVerdict : ClassifyM (Option CacheInventory) := do
  fromExcept (checkOwnership setup rows scopes group)
  fromExcept (checkStatuses pinned group)
  request (.pathEntry group.canonicalPath) admitEntry
  renameFailure .skippedProtected
    (embed cleanupCalls (evaluateGuards resolve identity rows none (representative group)))

def snapshotBlocker (sessions : List LocatedSession) : Except PruneDisposition Unit :=
  match sessions.find? fun session => sameDirectory resolve session.directory group.canonicalPath with
  | none => .ok ()
  | some session => .error (.skippedProtected ("running OpenCode session '" ++ session.id ++
      "' currently occupies this directory"))

def closureRead (own : Option (TaskScopeRef × Nat)) (issue : Nat) : ClosureRead :=
  match own with
  | none => .configured
  | some (task, ownIssue) => if issue = ownIssue then .ownTask task else .associated

/-- Every issue is asked about, also after one that keeps the directory. -/
def keepReasons (own : Option (TaskScopeRef × Nat)) : List Nat → ClassifyM (List String)
  | [] => return []
  | issue :: rest => do
      let verdict ← request (.closure (closureRead own issue) issue) .ok
      let reasons ← keepReasons own rest
      match verdict with
      | .closed => return reasons
      | .keep reason => return reason :: reasons

def closureOf : ClassifyM Unit := do
  let reasons ← keepReasons (ownTaskScope group) group.issues
  fromExcept (refuse (reasons ≠ []) (.skippedIssue ("; ".intercalate reasons)))

def verdict (running : Except String (List LocatedSession)) (cache : Option CacheInventory) :
    ClassifyM (Option CacheInventory) := do
  let sessions ← fromExcept (running.mapError .skippedProtected)
  fromExcept (snapshotBlocker resolve group sessions)
  closureOf group
  return cache

def classifyGroup : ClassifyM (Option CacheInventory) := do
  let cache ← localVerdict setup identity pinned resolve rows scopes group
  let running ← outcome (embed hosting runningSessions)
  verdict resolve group running cache

end Classify

section Scan

-- The answers of the host that one invocation's scans share, failures included.
structure ScanHostCache where
  active : Option (Except ApiError (List String))
  sessions : List (String × Except ApiError LocatedSession)
  deriving DecidableEq, Repr

def ScanHostCache.serve (memo : ScanHostCache) : (op : HostOp) → PruneProg (op.Ret × ScanHostCache)
  | .session id =>
      match memo.sessions.lookup id with
      | some answer => .done (answer, memo)
      | none => .call (.cleanup (.host (.session id))) fun answer =>
          .done (answer, { memo with sessions := (id, answer) :: memo.sessions })
  | .activeSessions =>
      match memo.active with
      | some answer => .done (answer, memo)
      | none => .call (.cleanup (.host .activeSessions)) fun answer =>
          .done (answer, { memo with active := some answer })
  | .list .. => .done (.error (.plain
      "the prune scan reads only the running-session set; it never enumerates history"), memo)
  | .moveSession .. => .done (.error (.plain
      "the prune scan cache is read-only and never moves a session"), memo)
  | op => .call (.cleanup (.host op)) fun r => .done (r, memo)

structure DirectoryCandidate where
  canonicalPath : String
  worktreePath : String
  branch : String
  status : String
  heartbeatAt : Int
  leaseIds : List String
  releasedLeaseIds : List String
  issues : List Nat
  classification : Classification
  wasScoped : Bool
  leaseProof : List AbsentTarget
  releaseProof : ScopedRetentionProof

def DirectoryCandidate.cache (candidate : DirectoryCandidate) : Option CacheInventory :=
  candidate.classification.cache

variable (setup : PruneSetup) (identity : String) (pinned : List String) (resolve : String → String)
  (rows : List LeaseRow) (scopes : ScopeMap)

def candidateOf (group : DirectoryGroup) (classification : Classification) : DirectoryCandidate where
  canonicalPath := group.canonicalPath
  worktreePath := group.worktreePath
  branch := group.branch
  status := group.status
  heartbeatAt := group.heartbeatAt
  leaseIds := group.leaseIds
  releasedLeaseIds := (group.rows.filter (·.status = .released)).map (·.leaseId)
  issues := group.issues
  classification := classification
  wasScoped := group.isScoped
  leaseProof := group.rows.map fun row => (row.leaseId, row.status, row.worktreePath)
  releaseProof := directoryOwnershipProof (fun path => components (resolve path))
    (components group.canonicalPath) rows scopes

def classify (group : DirectoryGroup) (memo : ScanHostCache) :
    PruneProg (DirectoryCandidate × ScanHostCache) := do
  let candidate := candidateOf resolve rows scopes group
  match ← (localVerdict setup identity pinned resolve rows scopes group).run with
  | .error disposition => return (candidate (.error disposition), memo)
  | .ok cache => do
      let (running, memo) ← runningSessions.run.serve ScanHostCache.serve memo
      let result ← (verdict resolve group running cache).run
      return (candidate result, memo)

def scanGroups : List DirectoryGroup → ScanHostCache →
    PruneProg (List DirectoryCandidate × ScanHostCache)
  | [], memo => .done ([], memo)
  | group :: rest, memo => do
      let (candidate, memo) ←
        classify setup identity pinned resolve rows scopes (attachScopeProof scopes group) memo
      let (candidates, memo) ← scanGroups rest memo
      return (candidate :: candidates, memo)

end Scan

section Recheck
variable (setup : PruneSetup) (identity : String) (repoKey : Option String) (pinned : List String)
  (candidate : DirectoryCandidate)

def selectionError (error : String) : String := "the explicit provider selection is invalid: " ++ error

def checkSelection (group : DirectoryGroup) : Except String Unit :=
  match groupScope group, setup.selection with
  | some key, some accepts =>
      if key.taskId.isNone then .ok ()
      else do
        let agrees ← (accepts key.provider (key.inst.getD "") key.project).mapError selectionError
        refuse (agrees = false)
          "the explicit provider selection does not match the durable task"
  | _, _ => .ok ()

def ensureGroupScope (wasScoped : Bool) (group : DirectoryGroup) : Except String Unit := do
  refuse (wasScoped = true ∧ group.isScoped = false) "scoped provider lease scope evidence disappeared"
  refuse (group.isScoped = true ∧ scopedGroupMatches setup.providerScope group = false) scopedLease
  checkSelection setup group

def recheckReason : PruneDisposition → String
  | .skippedActive => "an active lease re-appeared"
  | .skippedUnknownStatus => "a lease status became unrecognised"
  | .skippedProtected reason => reason
  | .skippedIssue reason => reason
  | .missingDirectory => "the directory vanished"

def listAllForRepo : PruneM (List LeaseRow) :=
  request (.cleanup (.listAllForRepo identity))
    (·.mapError fun error => "could not re-read leases: " ++ error.message)

def scopeMapForRepo : PruneM ScopeMap :=
  request (.cleanup (.scopeMapForRepo identity repoKey))
    (·.mapError fun error => "could not re-read lease scopes: " ++ error.message)

def emptyGroup : DirectoryGroup where
  canonicalPath := candidate.canonicalPath
  worktreePath := candidate.worktreePath
  branch := candidate.branch
  status := candidate.status
  heartbeatAt := candidate.heartbeatAt
  leaseIds := []
  issues := []
  rows := []
  scopedLeaseIds := []
  scopedLeaseKeys := []

def rowsGone : String :=
  "the candidate's lease row is gone after the moves (" ++ candidate.worktreePath ++ ")"

structure Fresh where
  rows : List LeaseRow
  resolve : String → String
  scopes : ScopeMap
  group : DirectoryGroup

def reread (regroup : Option DirectoryGroup → Except String DirectoryGroup) : PruneM Fresh := do
  let rows ← listAllForRepo identity
  let resolve ← request .canonicalPaths .ok
  fromExcept (refuse (resolve candidate.worktreePath ≠ candidate.canonicalPath)
    "the directory path changed its target")
  let group ← fromExcept (regroup
    ((groupRows resolve rows).find? (·.canonicalPath = candidate.canonicalPath)))
  let scopes ← scopeMapForRepo identity repoKey
  let group := attachScopeProof scopes group
  fromExcept (ensureGroupScope setup candidate.wasScoped group)
  request (.invalidate group.issues) .ok
  return ⟨rows, resolve, scopes, group⟩

def classifyFresh (fresh : Fresh) : ClassifyM (Option CacheInventory) :=
  classifyGroup setup identity pinned fresh.resolve fresh.rows fresh.scopes fresh.group

def recheck : PruneM (List String × Option CacheInventory) := do
  let fresh ← reread setup identity repoKey candidate fun found =>
    .ok (found.getD (emptyGroup candidate))
  let cache ← renameFailure recheckReason (classifyFresh setup identity pinned fresh)
  return (rootSessions (fresh.group.rows.map (·.session)), cache)

def regroupFound (found : Option DirectoryGroup) : Except String DirectoryGroup :=
  match found with
  | some group => .ok group
  | none => .error (rowsGone candidate)

-- A full listing without a session in the directory; the assessment moves nothing.
def verifyVacancy (fresh : Fresh) : PruneM Unit := do
  let assessed ← embed hosting (finalizeFamilyIn fresh.resolve .verify candidate.canonicalPath
    (associatedSessions fresh.resolve fresh.rows candidate.canonicalPath) none .noWait)
  fromExcept (match assessed.keepReason with
    | none => .ok ()
    | some reason => .error reason)

def postMoveRecheck (compareCache : Bool) : PruneM Unit := do
  let fresh ← reread setup identity repoKey candidate (regroupFound candidate)
  let classification ← outcome (classifyFresh setup identity pinned fresh)
  fromExcept (refuse (compareCache = true ∧ Classification.cache classification ≠ candidate.cache)
    "the root .cache inventory changed after the moves")
  let _ ← fromExcept (classification.mapError recheckReason)
  if compareCache then return ()
  else verifyVacancy candidate fresh

end Recheck

inductive PruneResult where
  | noop | skippedActive | skippedUnknown | skippedProtected | skippedIssue | absent | prunable | pruned
  | failed
  deriving DecidableEq, Repr

structure PruneAction where
  worktreePath : String
  branch : String
  status : String
  heartbeatAt : Int
  leaseIds : List String
  issues : List Nat
  prunable : Bool
  result : PruneResult
  message : Option String
  deriving DecidableEq, Repr

namespace PruneAction

def ofCandidate (candidate : DirectoryCandidate) : PruneAction where
  worktreePath := candidate.worktreePath
  branch := candidate.branch
  status := candidate.status
  heartbeatAt := candidate.heartbeatAt
  leaseIds := candidate.leaseIds
  issues := candidate.issues
  prunable := false
  result := .noop
  message := none

def finish (action : PruneAction) (result : PruneResult) (message : String) : PruneAction :=
  { action with result := result, message := some message }

end PruneAction

section Apply
variable (setup : PruneSetup) (identity repoPath : String) (repoKey : Option String)
  (pinned : List String) (scanned : List LeaseRow) (candidate : DirectoryCandidate)

def absentMessage : String :=
  "worktree directory already absent; the historical lease path stays recorded"

def reloadStatuses : List String → PruneAction → PruneProg (Except String PruneAction)
  | [], action => .done (.ok action)
  | leaseId :: rest, action => .call (.loadLease leaseId) fun
      | .ok (some updated) => reloadStatuses rest { action with status := updated.status.text }
      | .ok none => .done (.error ("lease row '" ++ leaseId ++ "' disappeared"))
      | .error error => .done (.error error.message)

def absentTargets : List AbsentTarget :=
  candidate.leaseProof.filter fun target => !candidate.releasedLeaseIds.contains target.1

def releaseAbsent (action : PruneAction) : PruneProg PruneAction :=
  .call (.releaseAbsentLeases identity repoKey (absentTargets candidate) candidate.releaseProof) fun
    | .error error => .done (action.finish .skippedProtected
        ("kept before absent-path release: " ++ error.kind ++ ": " ++ error.message))
    | .ok [] => .done action
    | .ok _ => (reloadStatuses candidate.leaseIds action).map fun
        | .ok action => action
        | .error reason => action.finish .failed ("could not re-read lease status: " ++ reason)

def applyMissing (action : PruneAction) : PruneProg PruneAction :=
  let action := action.finish .absent absentMessage
  if setup.mode = .remove ∧ absentTargets candidate ≠ [] then
    releaseAbsent identity repoKey candidate action
  else .done action

def dryRunMessage : Nat → String
  | 0 => "dry-run: would call git worktree remove"
  | 1 => "dry-run: would return 1 idle OpenCode session to the main checkout, then call git worktree remove"
  | many => "dry-run: would return " ++ many.repr ++
      " idle OpenCode sessions to the main checkout, then call git worktree remove"

def previewFamily (resolve : String → String) : PruneProg FamilyOutcome :=
  (finalizeFamilyWith resolve .preview candidate.canonicalPath
    (associatedSessions resolve scanned candidate.canonicalPath) none .noWait).embed hosting

def previewCacheDetail : PruneProg (Option String) :=
  ((inspect candidate.canonicalPath).run.embed cleanupCalls).map fun
    | .ok (.cacheOnly inventory) => some ("would delete cache-only .cache (" ++
        inventory.entries.length.repr ++ " entries, no tracked files)")
    | _ => none

def preview (action : PruneAction) : PruneProg PruneAction :=
  .call .canonicalPaths fun resolve => do
    let family ← previewFamily scanned candidate resolve
    match family with
    | .keep reason => return action.finish .skippedProtected reason
    | family => do
        let base := match family with
          | .releasable sessions => dryRunMessage sessions.length
          | _ => dryRunMessage 0
        let detail ← previewCacheDetail candidate
        return { action.finish .prunable (match detail with
          | some detail => base ++ "; " ++ detail
          | none => base) with prunable := true }

/-- Every lease of the directory is flipped, up to the first that fails. -/
def flipLeases (removed : String) : List String → PruneAction → PruneProg PruneAction
  | [], action => .done { action.finish .pruned removed with prunable := true }
  | leaseId :: rest, action => .call (.updateStatus leaseId .released) fun
      | .ok () => flipLeases removed rest action
      | .error error => .done { action.finish .failed
          ("worktree removed but lease flip failed: " ++ error.message) with prunable := true }

def removedMessage : Option CacheInventory → String
  | some cache => "removed cache-only .cache (" ++ cache.entries.length.repr ++
      " entries); git worktree remove succeeded"
  | none => "git worktree remove succeeded"

def clearAndRecheck : PruneM Unit := do
  renameFailure (fun reason => "kept on re-check: " ++ reason)
    (embed cleanupCalls (clearCacheOnly candidate.worktreePath candidate.cache))
  renameFailure (fun reason => "kept after cache cleanup: " ++ reason)
    (postMoveRecheck setup identity repoKey pinned candidate false)

def applyRemoval (action : PruneAction) : PruneProg PruneAction := do
  match ← (clearAndRecheck setup identity repoKey pinned candidate).run with
  | .error reason => return action.finish .skippedProtected reason
  | .ok () =>
      match ← (worktreeRemove repoPath candidate.worktreePath).run.embed cleanupCalls with
      | .ok () => flipLeases (removedMessage candidate.cache) candidate.leaseIds action
      | .error error => return action.finish .failed ("worktree_remove error: " ++ error.message)

/-- What has to hold before the directory itself is touched; idle sessions of the directory's leases
are returned to the main checkout on the way. -/
def relocate : PruneM Unit := do
  let (associated, cache) ← recheck setup identity repoKey pinned candidate
  fromExcept (refuse (cache ≠ candidate.cache) "the root .cache inventory changed before the moves")
  let resolve ← request .canonicalPaths .ok
  let _ ← embed hosting (finalizeFamilyIn resolve .prune candidate.canonicalPath associated none
    setup.confirmation)
  postMoveRecheck setup identity repoKey pinned candidate true

def applyRemovable (action : PruneAction) : PruneProg PruneAction :=
  if setup.mode = .report then preview scanned candidate action
  else do
    match ← (relocate setup identity repoKey pinned candidate).run with
    | .error reason => return action.finish .skippedProtected ("kept on re-check: " ++ reason)
    | .ok () => applyRemoval setup identity repoPath repoKey pinned candidate action

def applyCandidate : PruneProg PruneAction :=
  let action := PruneAction.ofCandidate candidate
  match candidate.classification with
  | .error .skippedActive =>
      .done (action.finish .skippedActive "active lease references this directory")
  | .error .skippedUnknownStatus =>
      .done (action.finish .skippedUnknown "unrecognised lease status; kept safely")
  | .error (.skippedProtected reason) => .done (action.finish .skippedProtected reason)
  | .error (.skippedIssue reason) => .done (action.finish .skippedIssue reason)
  | .error .missingDirectory => applyMissing setup identity repoKey candidate action
  | .ok _ => applyRemovable setup identity repoPath repoKey pinned scanned candidate action

end Apply

section Pass

structure PruneSummary where
  scanned : Nat
  actions : List PruneAction
  dryRun : Bool
  staleDays : Nat
  deriving DecidableEq, Repr

def PruneSummary.count (summary : PruneSummary) (result : PruneResult) : Nat :=
  summary.actions.countP (·.result = result)

variable (setup : PruneSetup) (identity repoPath : String) (pinned : List String)
  (rows : List LeaseRow)

def protectedAction (reason : String) (group : DirectoryGroup) : PruneAction where
  worktreePath := group.worktreePath
  branch := group.branch
  status := group.status
  heartbeatAt := group.heartbeatAt
  leaseIds := group.leaseIds
  issues := group.issues
  prunable := false
  result := .skippedProtected
  message := some reason

def scopeErrorSummary (reason : String) : PruneProg PruneSummary :=
  .call .canonicalPaths fun resolve =>
    let actions := (groupRows resolve rows).map (protectedAction reason)
    .done ⟨actions.length, actions, false, 0⟩

def applyCandidates (repoKey : Option String) : List DirectoryCandidate → PruneProg (List PruneAction)
  | [] => .done []
  | candidate :: rest => do
      let action ← applyCandidate setup identity repoPath repoKey pinned rows candidate
      let actions ← applyCandidates repoKey rest
      return action :: actions

/-- Every directory is classified before the first of them is touched. -/
def prunePassWithPolicy (memo : ScanHostCache) : PruneProg (PruneSummary × ScanHostCache) :=
  .call (.cleanup (.verifiedRepoKey identity)) fun repoKey =>
    .call (.cleanup (.scopeMapForRepo identity repoKey)) fun
      | .error error => do
          let summary ← scopeErrorSummary rows ("could not read lease scopes: " ++ error.message)
          return (summary, memo)
      | .ok scopes => .call .canonicalPaths fun resolve => do
          let (candidates, memo) ←
            scanGroups setup identity pinned resolve rows scopes (groupRows resolve rows) memo
          let actions ← applyCandidates setup identity repoPath pinned rows repoKey candidates
          return (⟨candidates.length, actions, setup.mode = .report, setup.staleDays⟩, memo)

end Pass

section Invocation

structure RepoScope where
  identity : String
  path : String
  repoKey : Option String
  deriving DecidableEq, Repr

inductive Scope where
  | resolved (scope : RepoScope)
  | skipped (identity reason : String)
  deriving DecidableEq, Repr

structure ReleaseStaleSummary where
  repoIdentity : String
  applied : Bool
  candidates : List LeaseRow
  released : Nat
  reason : Option String
  deriving DecidableEq, Repr

def scanSummary (identity : String) (candidates : List LeaseRow) : ReleaseStaleSummary :=
  ⟨identity, false, candidates, 0, none⟩

-- Only what the recovery has flipped is reported of what the scan had listed.
def recoverySummary (identity reason : String) (candidates flipped : List LeaseRow) :
    ReleaseStaleSummary :=
  ⟨identity, true, candidates.filter fun row => flipped.any (·.leaseId == row.leaseId),
    flipped.length, some reason⟩

structure PruneRepoOutcome where
  repoIdentity : String
  repoPath : Option String
  skippedReason : Option String
  leases : Option ReleaseStaleSummary
  worktrees : Option PruneSummary
  deriving DecidableEq, Repr

variable (setup : PruneSetup)

abbrev InvocationM := Attempt PruneOp PruneOp.Ret WorktreeError

def recoverStale (scope : RepoScope) (candidates : List LeaseRow) : InvocationM ReleaseStaleSummary :=
  match setup.recovery with
  | none => return scanSummary scope.identity candidates
  | some reason => do
      let flipped ← request (.recoverStaleActiveLeases scope.identity scope.repoKey setup.staleBefore
        reason setup.now setup.recoveryScope) id
      return recoverySummary scope.identity reason candidates flipped

def refreshedRows (identity : String) (start : List LeaseRow) (summary : ReleaseStaleSummary) :
    InvocationM (List LeaseRow) :=
  if summary.applied = true ∧ 0 < summary.released then
    request (.cleanup (.listAllForRepo identity)) id
  else return start

/-- One repository: the directories that hold an active lease when it begins are pinned before any
lease is recovered. -/
def pruneRepository (scope : RepoScope) (memo : ScanHostCache) :
    InvocationM (PruneRepoOutcome × ScanHostCache) := do
  match ← request (.cleanup (.scopeMapForRepo scope.identity scope.repoKey)) .ok with
  | .error error =>
      return (⟨scope.identity, some scope.path,
        some ("could not validate lease scopes: " ++ error.message), none, none⟩, memo)
  | .ok scopes => do
      let start ← request (.cleanup (.listAllForRepo scope.identity)) id
      let resolve ← request .canonicalPaths .ok
      let stale ← request (.staleActiveLeases scope.identity setup.staleBefore) id
      let candidates := stale.filter fun row => setup.recoveryScope.allows (scopes.lookup row.leaseId)
      let leases ← recoverStale setup scope candidates
      let rows ← refreshedRows scope.identity start leases
      let (worktrees, memo) ← ExceptT.mk ((prunePassWithPolicy setup scope.identity scope.path
        (pinnedActivePaths resolve start) rows memo).map Except.ok)
      return (⟨scope.identity, some scope.path, none, some leases, some worktrees⟩, memo)

def skippedOutcome (identity reason : String) : PruneRepoOutcome := ⟨identity, none, some reason, none, none⟩

def pruneRepositories : List Scope → ScanHostCache → InvocationM (List PruneRepoOutcome)
  | [], _ => return []
  | .skipped identity reason :: rest, memo => do
      let outcomes ← pruneRepositories rest memo
      return skippedOutcome identity reason :: outcomes
  | .resolved scope :: rest, memo => do
      let (outcome, memo) ← pruneRepository setup scope memo
      let outcomes ← pruneRepositories rest memo
      return outcome :: outcomes

/-- An invocation that only previews recovers nothing, also where a reason is given. -/
def executePrune (releaseStale : Bool) (reason : Option String) (scopes : List Scope) :
    InvocationM (List PruneRepoOutcome) := do
  let reason := (reason.map trimText).filter (· ≠ "")
  let applies := releaseStale && setup.mode == .remove
  fromExcept (refuse (applies = true ∧ reason = none) ⟨"argument",
    "worktree prune --release-stale requires a non-empty --reason"⟩)
  pruneRepositories { setup with recovery := if applies then reason else none } scopes ⟨none, []⟩

end Invocation

end Phasegent.Prune
