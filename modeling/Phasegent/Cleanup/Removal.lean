import Phasegent.Cleanup.Sessions
import Phasegent.Lease.Evidence
import Phasegent.Lease.Naming
import Phasegent.Restore.Git

namespace Phasegent.Cleanup
open Fallible Interleaving
open Lease (LeaseRow LeaseScope ScopeMap GitOutput WorktreeError joinPath)
open Restore (isBlank statusFailed)

structure FileIdentity where
  dev : Nat
  ino : Nat
  mtime : Int
  mtimeNsec : Int
  ctime : Int
  ctimeNsec : Int
  len : Nat
  directory : Bool
  deriving DecidableEq, Repr

structure CacheEntry where
  path : String
  identity : FileIdentity
  deriving DecidableEq, Repr

structure CacheInventory where
  root : FileIdentity
  entries : List CacheEntry
  deriving DecidableEq, Repr

inductive CacheMetadata where
  | notFound
  | unreadable (error : String)
  | symlink
  | file
  | directory
  deriving DecidableEq, Repr

inductive CleanupOp where
  | host (op : HostOp)
  | git (arguments : List String) (workdir : String)
  | pathExists (path : String)
  | cacheMetadata (worktree : String)
  | sameFilesystem (worktree : String)
  | inventory (worktree : String)
  | removeCache (worktree : String)
  | repoIdentity (repoPath : String)
  | openStore
  | ensureSchema
  | verifiedRepoKey (identity : String)
  | listAllForRepo (identity : String)
  | scopeMapForRepo (identity : String) (repoKey : Option String)
  | releaseActiveLeases (identity : String) (issue : Nat) (reason : String)
  | refresh
  | confirmOthersClosed (issue : Nat) (issues : List Nat)
  deriving DecidableEq, Repr

abbrev CleanupOp.Ret : CleanupOp → Type
  | .host op => op.Ret
  | .git .. => Except WorktreeError GitOutput
  | .pathExists _ => Bool
  | .cacheMetadata _ => CacheMetadata
  | .sameFilesystem _ => Bool
  | .inventory _ => Except String CacheInventory
  | .removeCache _ => Except String Unit
  | .repoIdentity _ => Except WorktreeError String
  | .openStore => Except String Unit
  | .ensureSchema => Except String Unit
  | .verifiedRepoKey _ => Option String
  | .listAllForRepo _ => Except WorktreeError (List LeaseRow)
  | .scopeMapForRepo .. => Except WorktreeError ScopeMap
  | .releaseActiveLeases .. => Except WorktreeError Nat
  | .refresh => Unit
  | .confirmOthersClosed .. => Except String Unit

abbrev CleanupProg := Prog CleanupOp CleanupOp.Ret

abbrev CleanupM := Attempt CleanupOp CleanupOp.Ret String

abbrev CleanupHistory := History CleanupOp CleanupOp.Ret

def hostCalls : Embedding HostOp HostOp.Ret CleanupOp CleanupOp.Ret where
  effect := .host
  answer _ r := r

section Git

def runGit (arguments : List String) (workdir : String) :
    Attempt CleanupOp CleanupOp.Ret WorktreeError GitOutput :=
  request (.git arguments workdir) id

def readStatus (output : GitOutput) : Except WorktreeError Bool := do
  refuse (output.status ≠ 0) (statusFailed output)
  return isBlank output.stdout

def isClean (worktree : String) : Attempt CleanupOp CleanupOp.Ret WorktreeError Bool := do
  let output ← runGit ["status", "--porcelain"] worktree
  fromExcept (readStatus output)

def worktreeRemove (repoRoot target : String) : Attempt CleanupOp CleanupOp.Ret WorktreeError Unit := do
  let output ← runGit ["worktree", "remove", target] repoRoot
  fromExcept (refuse (output.status ≠ 0)
    (.new "git" ("git worktree remove failed with exit status " ++ toString output.status)))

def readGitDir (canonical : String → String) (directory identity : String) (output : GitOutput) :
    Except WorktreeError Bool := do
  refuse (output.status ≠ 0)
    (.new "git" ("git rev-parse --git-dir failed with exit status " ++ toString output.status))
  refuse (isBlank output.stdout) (.new "git" "git rev-parse --git-dir returned an empty path")
  return sameDirectory canonical (joinPath directory (trimText output.stdout)) identity

def isMainCheckout (canonical : String → String) (directory identity : String) :
    Attempt CleanupOp CleanupOp.Ret WorktreeError Bool := do
  let output ← runGit ["rev-parse", "--git-dir"] directory
  fromExcept (readGitDir canonical directory identity output)

end Git

section Cache

def maxCacheEntries : Nat := 4096

inductive CacheInspection where
  | cacheOnly (inventory : CacheInventory)
  | notCacheOnly
  deriving DecidableEq, Repr

def probe (arguments : List String) (worktree unreadable failed : String) : CleanupM String := do
  let output ← renameFailure (fun error => unreadable ++ ": " ++ Lease.bounded error.message)
    (runGit arguments worktree)
  fromExcept (refuse (output.status ≠ 0) failed)
  return output.stdout

def outsideCache : List String :=
  ["status", "--porcelain=v1", "-z", "--untracked-files=all", "--", ".", ":(exclude).cache"]

def insideCache : List String :=
  ["status", "--porcelain=v1", "-z", "--untracked-files=all", "--", ".cache"]

def inspectInventory (worktree : String) : CleanupM CacheInspection := do
  let inventory ← request (.inventory worktree) id
  fromExcept (refuse (maxCacheEntries < inventory.entries.length)
    ("the worktree .cache exceeds the " ++ maxCacheEntries.repr ++ "-entry inventory limit"))
  return .cacheOnly inventory

def inspectDirectory (worktree : String) : CleanupM CacheInspection := do
  let same ← request (.sameFilesystem worktree) .ok
  fromExcept (refuse (same = false) "the worktree .cache is on a different filesystem")
  let tracked ← probe ["ls-files", "--", ".cache"] worktree
    "the tracked paths under .cache could not be listed" "git ls-files failed while checking .cache"
  if isBlank tracked = false then return .notCacheOnly
  else do
    let outside ← probe outsideCache worktree "the worktree status outside .cache could not be read"
      "git status failed while checking paths outside .cache"
    if isBlank outside = false then return .notCacheOnly
    else do
      let inside ← probe insideCache worktree "the worktree status of .cache could not be read"
        "git status failed while checking .cache"
      if "?? ".toList.isPrefixOf (Text.trim inside.toList) = false then return .notCacheOnly
      else inspectInventory worktree

/-- Whether the only untracked content of a worktree is its root `.cache`. -/
def inspect (worktree : String) : CleanupM CacheInspection := do
  match ← request (.cacheMetadata worktree) .ok with
  | .notFound => return .notCacheOnly
  | .unreadable error =>
      throw ("the worktree .cache could not be inspected: " ++ Lease.bounded error)
  | .symlink => throw "the worktree .cache is a symlink, not a real directory"
  | .file => return .notCacheOnly
  | .directory => inspectDirectory worktree

def requireClean (worktree dirty unreadable : String) : CleanupM Unit := do
  let clean ← renameFailure (fun error => unreadable ++ ": " ++ Lease.bounded error.message)
    (isClean worktree)
  fromExcept (refuse (clean = false) dirty)

def expectCache (expected : CacheInventory) : CacheInspection → Except String Unit
  | .cacheOnly fresh => refuse (fresh ≠ expected) "the root .cache contents changed before cleanup"
  | .notCacheOnly => .error "the worktree has changes other than an untracked root .cache"

def clearCacheOnly (worktree : String) : Option CacheInventory → CleanupM Unit
  | none => requireClean worktree "the worktree became dirty after the local guard"
      "cleanliness probe failed"
  | some expected => do
      let inspection ← inspect worktree
      fromExcept (expectCache expected inspection)
      request (.removeCache worktree) (·.mapError fun error =>
        "removing the root .cache failed: " ++ Lease.bounded error)
      requireClean worktree "the worktree became dirty after the cache cleanup"
        "cleanliness probe after cache cleanup failed"

end Cache

section Context
variable (canonical : String → String)

structure CleanupContext where
  identity : String
  rows : List LeaseRow
  scopes : ScopeMap

def CleanupContext.hasIssue (context : CleanupContext) (issue : Nat) : Bool :=
  context.rows.any (·.issueNumber == issue)

def rowsOf (rows : List LeaseRow) (directory : String) : List LeaseRow :=
  rows.filter fun row => sameDirectory canonical row.worktreePath directory

def scopeAllows (allowed scope : LeaseScope) : Bool :=
  if scope.provider ≠ allowed.provider ∨ scope.project ≠ allowed.project then false
  else
    match allowed.taskId with
    | some taskId => scope.taskId == some taskId
    | none => true

/-- A directory without a scoped lease is free to any pass; one with a scoped lease only to a pass
whose scope every one of its leases shares. -/
def CleanupContext.directoryScopeAllowed (context : CleanupContext) (directory : String)
    (allowed : Option LeaseScope) : Bool :=
  let rows := rowsOf canonical context.rows directory
  if rows.any (fun row => (context.scopes.lookup row.leaseId).isSome) = false then true
  else
    match allowed with
    | none => false
    | some allowed => rows.all fun row => (context.scopes.lookup row.leaseId).any (scopeAllows allowed)

def CleanupContext.load (identity : String) : CleanupM CleanupContext := do
  let repoKey ← request (.verifiedRepoKey identity) .ok
  let rows ← request (.listAllForRepo identity) (·.mapError (·.message))
  let scopes ← request (.scopeMapForRepo identity repoKey) (·.mapError (·.message))
  return ⟨identity, rows, scopes⟩

def contextWarning (issue : Nat) (what detail : String) : String :=
  "issue " ++ issue.repr ++ " closed; " ++ what ++ ": " ++ bounded detail

def resolveContext (repoPath : String) (issue : Nat) : CleanupM CleanupContext :=
  if issue = 0 then return ⟨"", [], []⟩
  else do
    let identity ← request (.repoIdentity repoPath) (·.mapError fun error =>
      contextWarning issue "could not resolve repository identity for worktree cleanup" error.message)
    request .openStore (·.mapError
      (contextWarning issue "could not open the lease store for worktree cleanup"))
    request .ensureSchema (·.mapError
      (contextWarning issue "could not initialise the lease store for worktree cleanup"))
    renameFailure (contextWarning issue "could not read worktree leases for cleanup")
      (CleanupContext.load identity)

def associatedIssues (rows : List LeaseRow) (directory : String) : List Nat :=
  (((rowsOf canonical rows directory).map (·.issueNumber)).insertionSort (· ≤ ·)).destutter (· ≠ ·)

def associatedSessions (rows : List LeaseRow) (directory : String) : List String :=
  rootSessions ((rowsOf canonical rows directory).map (·.session))

end Context

section Guards
variable (canonical : String → String)

def foreignActiveLease (rows : List LeaseRow) (session : Option String) (row : LeaseRow) :
    Option LeaseRow :=
  rows.find? fun other => other.isActive && session ≠ some other.session &&
    sameDirectory canonical other.worktreePath row.worktreePath

def refuseForeign (rows : List LeaseRow) (session : Option String) (row : LeaseRow) :
    Except String Unit :=
  match foreignActiveLease canonical rows session row with
  | none => .ok ()
  | some other => .error ("session '" ++ other.session ++ "' holds an active lease for issue " ++
      other.issueNumber.repr)

def cleanOrCache (path : String) : CleanupM (Option CacheInventory) := do
  let clean ← renameFailure (fun error => "cleanliness probe failed: " ++ bounded error.message)
    (isClean path)
  if clean then return none
  else
    match ← inspect path with
    | .cacheOnly cache => return some cache
    | .notCacheOnly => throw "uncommitted or untracked files"

def notMainCheckout (identity path : String) : CleanupM Unit := do
  let isMain ← renameFailure
    (fun error => "could not verify the main-checkout guard: " ++ bounded error.message)
    (isMainCheckout canonical path identity)
  fromExcept (refuse (isMain = true) "main checkout is never removed")

def evaluateGuards (identity : String) (rows : List LeaseRow) (session : Option String)
    (row : LeaseRow) : CleanupM (Option CacheInventory) := do
  notMainCheckout canonical identity row.worktreePath
  fromExcept (refuseForeign canonical rows session row)
  cleanOrCache row.worktreePath

inductive OccupancyGuard where
  | direct
  | sync
  deriving DecidableEq, Repr

-- The host's answers of one reconciliation pass, and whether one of them has been used.
structure HostMemo where
  sessions : List (String × LocatedSession)
  pages : List ((String × Option String) × SessionPage)
  hit : Bool
  deriving DecidableEq, Repr

def HostMemo.begin (memo : HostMemo) : HostMemo := { memo with hit := false }

def HostMemo.serve (memo : HostMemo) : (op : HostOp) → CleanupProg (op.Ret × HostMemo)
  | .session id =>
      match memo.sessions.lookup id with
      | some answer => .done (.ok answer, { memo with hit := true })
      | none => .call (.host (.session id)) fun
          | .ok answer => .done (.ok answer, { memo with sessions := (id, answer) :: memo.sessions })
          | .error error => .done (.error error, memo)
  | .list directory cursor =>
      match memo.pages.lookup (directory, cursor) with
      | some answer => .done (.ok answer, { memo with hit := true })
      | none => .call (.host (.list directory cursor)) fun
          | .ok answer =>
              .done (.ok answer, { memo with pages := ((directory, cursor), answer) :: memo.pages })
          | .error error => .done (.error error, memo)
  | .moveSession .. =>
      .done (.error (.plain "the reconciliation pass never moves an OpenCode session"), memo)
  | op => .call (.host op) fun r => .done (r, memo)

def FamilyOutcome.keepReason : FamilyOutcome → Option String
  | .keep reason => some reason
  | _ => none

section Occupied
variable (mode : CleanupMode) (directory : String) (associated : List String)
  (closing : Option String)

def occupancyOutcome : Prog HostOp HostOp.Ret FamilyOutcome :=
  finalizeFamilyWith canonical mode directory associated closing .noWait

def directOccupancy : CleanupProg (Option String) :=
  ((occupancyOutcome canonical mode directory associated closing).embed hostCalls).map
    FamilyOutcome.keepReason

/-- A verdict that would free the directory on remembered answers is asked again of the host. -/
def syncOccupancy (memo : HostMemo) : CleanupProg (Option String × HostMemo) := do
  let (outcome, memo) ←
    (occupancyOutcome canonical mode directory associated closing).serve HostMemo.serve memo.begin
  if outcome.keepReason = none ∧ memo.hit = true then do
    let reason ← directOccupancy canonical mode directory associated closing
    return (reason, memo)
  else return (outcome.keepReason, memo)

def OccupancyGuard.keepReason (guard : OccupancyGuard) (memo : HostMemo) :
    CleanupProg (Option String × HostMemo) :=
  if guard = .sync ∧ mode = .sync then
    syncOccupancy canonical mode directory associated closing memo
  else do
    let reason ← directOccupancy canonical mode directory associated closing
    return (reason, memo)

end Occupied

end Guards

section Pass
variable (canonical : String → String) (guard : OccupancyGuard) (mode : CleanupMode)
  (identity : String) (issue : Nat) (session : Option String) (allowed : Option LeaseScope)

def scopedLease : String := "scoped provider lease requires provider-aware cleanup"

def evaluateFresh (context : CleanupContext) (directory gone : String)
    (explain : String → String) : CleanupM (Option CacheInventory) := do
  fromExcept (refuse (context.directoryScopeAllowed canonical directory allowed = false) scopedLease)
  match context.rows.find? fun row => sameDirectory canonical row.worktreePath directory with
  | none => throw gone
  | some row => renameFailure explain (evaluateGuards canonical identity context.rows session row)

def reload (unreadable : String) : CleanupM CleanupContext := do
  request .refresh .ok
  request .openStore id
  renameFailure (fun reason => unreadable ++ ": " ++ reason) (CleanupContext.load identity)

def reverifyAfterMovement (directory : String) (expected : Option CacheInventory) : CleanupM Unit :=
  if mode.mayMoveSessions = false then return ()
  else do
    let context ← reload identity "the lease evidence could not be re-read after the moves"
    let cache ← evaluateFresh canonical identity session allowed context directory
      ("the candidate's lease row is gone after the moves (" ++ directory ++ "); the directory survives")
      fun reason => "the directory changed after the moves (" ++ reason ++ ")"
    fromExcept (refuse (cache ≠ expected) "the root .cache inventory changed after the moves")
    request (.confirmOthersClosed issue (associatedIssues canonical context.rows directory))
      (·.mapError fun reason =>
        "the directory's issue closures changed after the moves (" ++ reason ++ ")")

def vacated (occupancy : CleanupProg (Option String)) : CleanupM Unit :=
  ExceptT.mk (occupancy.map fun
    | none => .ok ()
    | some reason => .error reason)

def recheckAfterCache (directory : String) : CleanupM Unit := do
  let context ← reload identity "the lease evidence could not be re-read"
  let cache ← evaluateFresh canonical identity session allowed context directory
    "the candidate's lease row disappeared" id
  fromExcept (refuse (cache ≠ none) "a root .cache reappeared before the worktree removal")
  request (.confirmOthersClosed issue (associatedIssues canonical context.rows directory)) id
  let associated := associatedSessions canonical context.rows directory
  -- Neither guard remembers anything in this mode.
  if associated = [] then return ()
  else vacated (directOccupancy canonical .verify directory associated none)

def removeWorktree (directory : String) (expected : Option CacheInventory) : CleanupM Unit := do
  reverifyAfterMovement canonical mode identity issue session allowed directory expected
  (if mode = .report then return ()
  else do
    renameFailure (fun reason => "cache cleanup could not finish (" ++ reason ++ ")")
      (clearCacheOnly directory expected)
    renameFailure (fun reason => "kept after cache cleanup (" ++ reason ++ ")")
      (recheckAfterCache canonical identity issue session allowed directory))
  renameFailure (fun error => "worktree removal failed (" ++ bounded error.message ++ ")")
    (worktreeRemove directory directory)

def assessRow (context : CleanupContext) (row : LeaseRow) : CleanupM (Option CacheInventory) := do
  fromExcept (refuse (context.directoryScopeAllowed canonical row.worktreePath allowed = false)
    scopedLease)
  let cache ← evaluateGuards canonical identity context.rows session row
  request (.confirmOthersClosed issue (associatedIssues canonical context.rows row.worktreePath)) id
  return cache

inductive RowOutcome where
  | absent
  | kept (reason : String)
  | removed
  deriving DecidableEq, Repr

def RowOutcome.ofResult : Except String Unit → RowOutcome
  | .ok () => .removed
  | .error reason => .kept reason

def cleanPresent (context : CleanupContext) (row : LeaseRow) (memo : HostMemo) :
    CleanupProg (RowOutcome × HostMemo) := do
  match ← (assessRow canonical identity issue session allowed context row).run with
  | .error reason => return (.kept reason, memo)
  | .ok cache => do
      let (blocked, memo) ← guard.keepReason canonical mode row.worktreePath
        (associatedSessions canonical context.rows row.worktreePath) session memo
      match blocked with
      | some reason => return (.kept reason, memo)
      | none => do
          let result ← (removeWorktree canonical mode identity issue session allowed row.worktreePath
            cache).run
          return (.ofResult result, memo)

def cleanRow (context : CleanupContext) (row : LeaseRow) (memo : HostMemo) :
    CleanupProg (RowOutcome × HostMemo) := do
  let present ← .call (.pathExists row.worktreePath) .done
  if present = false then return (.absent, memo)
  else cleanPresent canonical guard mode identity issue session allowed context row memo

def keptEntry (issue : Nat) (reason directory : String) : String :=
  "issue " ++ issue.repr ++ " closed; kept worktree (" ++ reason ++ "): " ++ directory

structure Tally where
  removed : Nat
  kept : List String
  deriving DecidableEq, Repr

def Tally.count (issue : Nat) (directory : String) (tally : Tally) : RowOutcome → Tally
  | .absent => tally
  | .kept reason => { tally with kept := keptEntry issue reason directory :: tally.kept }
  | .removed => { tally with removed := tally.removed + 1 }

def cleanRows (context : CleanupContext) :
    List LeaseRow → HostMemo → CleanupProg (Tally × HostMemo)
  | [], memo => .done (⟨0, []⟩, memo)
  | row :: rest, memo => do
      let (outcome, memo) ←
        cleanRow canonical guard mode identity issue session allowed context row memo
      let (tally, memo) ← cleanRows context rest memo
      return (tally.count issue row.worktreePath outcome, memo)

inductive AutoCleanupOutcome where
  | noop
  | cleaned (removed : Nat) (kept : List String)
  | warning (reason : String)
  deriving DecidableEq, Repr

def AutoCleanupOutcome.ofTally (tally : Tally) : AutoCleanupOutcome :=
  if tally.removed = 0 ∧ tally.kept = [] then .noop else .cleaned tally.removed tally.kept

def namedSession (session : Option String) : Option String :=
  (session.map trimText).filter (· ≠ "")

def candidates (context : CleanupContext) (issue : Nat) (allowed : Option LeaseScope) :
    List LeaseRow :=
  (context.rows.filter (·.issueNumber == issue)).filter fun row =>
    match allowed with
    | some scope => context.scopes.lookup row.leaseId == some scope
    | none => true

def cleanupClosedIssueWorktreesInContext (context : CleanupContext) (memo : HostMemo) :
    CleanupProg (AutoCleanupOutcome × HostMemo) :=
  if context.hasIssue issue = false then return (.noop, memo)
  else do
    let (tally, memo) ← cleanRows canonical guard mode context.identity issue (namedSession session)
      allowed context (candidates context issue allowed) memo
    return (.ofTally tally, memo)

end Pass

end Phasegent.Cleanup
