import Phasegent.Lease.Effects
import Phasegent.Lease.Naming

namespace Phasegent.Lease
open Fallible Interleaving

structure AcquireOptions where
  cacheBase : Option String
  isolate : Bool
  base : Option String
  reuse : Bool
  deriving DecidableEq, Repr

structure AcquireRequest where
  identity : String
  repoPath : String
  issue : Nat
  session : String
  options : AcquireOptions
  scope : Option LeaseScope
  repoKey : Option String

def validateAcquire (issue : Nat) (session : String) (options : AcquireOptions) :
    Except WorktreeError Unit := do
  refuse (issue = 0) (.new "argument" "issue must be > 0")
  refuse (128 < session.toList.length) (.new "argument" "session must be <= 128 chars")
  refuse (options.isolate ∧ options.reuse)
    (.new "argument" "explicit --isolate and --reuse are mutually exclusive; pass one or neither")

inductive DirtyState where
  | clean | dirty | unknown
  deriving DecidableEq, Repr

def probeDirtyState (repoPath : String) : LeaseM (DirtyState × Option String) := do
  match ← ask (.isClean repoPath) with
  | .ok true => return (.clean, none)
  | .ok false => return (.dirty, none)
  | .error error =>
      return (.unknown, some ("dirty probe failed (" ++ error.message ++
        "); git status could not determine the checkout state"))

def withWarnings (result : LeaseM AcquireOutcome) (warnings : List String) :
    LeaseM AcquireOutcome := do
  let outcome ← result
  let finalized ← ask (.finalizeCheckout outcome.path)
  return { outcome with warnings := warnings ++ finalized }

def insertSelectedLease (request : AcquireRequest) (lease : NewLease) : LeaseM Unit :=
  match request.scope with
  | some scope => sql (.insertLeaseScoped lease scope request.repoKey)
  | none => sql (.insertLease lease)

def acquireReuseCurrent (request : AcquireRequest) : LeaseM AcquireOutcome := do
  let branch ← attempt (ask (.currentBranchFor request.repoPath))
  let leaseId ← ask .newLeaseId
  let now ← ask .nowUnixSecs
  insertSelectedLease request
    { leaseId := leaseId, identity := request.identity, issue := request.issue,
      session := request.session, checkoutPath := request.repoPath,
      worktreePath := request.repoPath, branch := branch, status := .active, createdAt := now,
      heartbeatAt := now }
  return { leaseId := leaseId, path := request.repoPath, branch := branch,
           repoIdentity := request.identity, created := false, reason := "no_conflict",
           warnings := [] }

def validateBaseRef (repoPath reference : String) : LeaseM Unit := do
  match ← ask (.refResolvesToCommit repoPath reference) with
  | .ok true => return ()
  | .ok false =>
      throw (.new "git" ("base ref '" ++ reference ++ "' does not resolve to a commit"))
  | .error error =>
      throw (.new "git" ("base ref '" ++ reference ++ "' could not be resolved: " ++ error.message))

def cacheBaseOr : Option String → LeaseM String
  | some base => pure base
  | none => do
      match ← ask .cacheBaseDir with
      | some base => return base
      | none => throw (.new "storage" "could not resolve phasegent cache dir")

def cacheRoot (cacheBase : Option String) (fingerprint : String) : LeaseM String := do
  let base ← cacheBaseOr cacheBase
  let cache := joinPath (joinPath base "worktrees") fingerprint
  attempt (ask (.createDirAll cache))
  return cache

def removeAndFail (request : AcquireRequest) (lease : NewLease) (error : WorktreeError) :
    LeaseM Unit := do
  let _ ← ask (.worktreeRemove request.repoPath lease.worktreePath)
  throw error

-- A failed insert takes the fresh worktree away again and keeps the insert's own error.
def insertOrRemove (request : AcquireRequest) (lease : NewLease) : LeaseM Unit :=
  tryCatch (insertSelectedLease request lease) (removeAndFail request lease)

def validateBase (repoPath : String) : Option String → LeaseM Unit
  | some reference => validateBaseRef repoPath reference
  | none => pure ()

def nameWorktree (request : AcquireRequest) : LeaseM (String × String) := do
  let short ← ask .shortHexSuffix
  let branch ← fromExcept (generateBranch request.issue short)
  let slug ← fromExcept (slugFromBranch branch)
  let root ← cacheRoot request.options.cacheBase (computeFingerprint request.identity)
  return (branch, joinPath root slug)

def acquireNewWorktree (request : AcquireRequest) (base : Option String) :
    LeaseM AcquireOutcome := do
  validateBase request.repoPath base
  let (branch, worktreePath) ← nameWorktree request
  let present ← ask (.pathExists worktreePath)
  fromExcept (refuse present
    (.new "state" ("worktree path already exists: " ++ worktreePath)))
  attempt (ask (.worktreeAdd request.repoPath worktreePath branch (base.getD "HEAD")))
  let leaseId ← ask .newLeaseId
  let now ← ask .nowUnixSecs
  insertOrRemove request
    { leaseId := leaseId, identity := request.identity, issue := request.issue,
      session := request.session, checkoutPath := request.repoPath, worktreePath := worktreePath,
      branch := branch, status := .active, createdAt := now, heartbeatAt := now }
  return { leaseId := leaseId, path := worktreePath, branch := branch,
           repoIdentity := request.identity, created := true, reason := "new_worktree",
           warnings := [] }

def isolationRequired (issue : Nat) (trigger : String) : WorktreeError :=
  .new "isolation" (trigger ++ "; isolation is opt-in: keep the current path only if it is safe, " ++
    "or run \x60phasegent worktree acquire --issue " ++ issue.repr ++ " --isolate\x60")

def pathConflictNote : String :=
  "only an active lease on this checkout path forces isolation; --isolate remains accepted as " ++
    "the explicit opt-in"

-- The checkout is occupied: a reusing caller is told so, every other one isolates.
def acquireOccupied (request : AcquireRequest) (occupant : LeaseRow) (warnings : List String) :
    LeaseM AcquireOutcome :=
  let trigger := "checkout occupied by session '" ++ occupant.session ++ "' (issue " ++
    occupant.issueNumber.repr ++ ")"
  if request.options.reuse then throw (isolationRequired request.issue trigger)
  else
    withWarnings (acquireNewWorktree request request.options.base)
      (warnings ++ [trigger ++ " (lease " ++ occupant.leaseId ++ "); acquiring issue " ++
        request.issue.repr ++ " in an isolated worktree (" ++ pathConflictNote ++ ")"])

def acquireFree (request : AcquireRequest) (warnings : List String) : LeaseM AcquireOutcome :=
  if request.options.isolate then
    withWarnings (acquireNewWorktree request request.options.base)
      (warnings ++ ["explicit isolation requested (--isolate); acquiring issue " ++
        request.issue.repr ++ " in an isolated worktree"])
  else withWarnings (acquireReuseCurrent request) warnings

def advisory (state : DirtyState) (detail : String) : List String :=
  match state with
  | .clean => []
  | .dirty => ["checkout is dirty; reusing it (dirty state is advisory only and never forces " ++
      "isolation)"]
  | .unknown => [detail ++ "; reusing the current checkout despite the unknown dirty state (no " ++
      "--isolate; an unknown state never counts as clean)"]

def acquireFresh (request : AcquireRequest) : LeaseM AcquireOutcome := do
  match request.options.base with
  | some reference =>
      withWarnings (acquireNewWorktree request (some reference))
        ["explicit --base '" ++ reference ++ "' requested; acquiring issue " ++
          request.issue.repr ++ " in a fresh worktree from '" ++ reference ++ "'"]
  | none =>
      let (state, failure) ← probeDirtyState request.repoPath
      let detail := failure.getD "git status failed"
      if state = .unknown ∧ request.options.isolate then
        withWarnings (acquireNewWorktree request none)
          [detail ++ "; explicit --isolate requested, creating an isolated worktree because " ++
            "the checkout state is unknown"]
      else
        let warnings := advisory state detail
        match ← sql (.findActiveLeaseForPath request.identity request.repoPath) with
        | some occupant => acquireOccupied request occupant warnings
        | none => acquireFree request warnings

def findExisting (request : AcquireRequest) : LeaseM (Option LeaseRow) :=
  match request.scope with
  | some scope => sql (.findActiveLeaseForScope request.identity request.session scope)
  | none => sql (.findActiveLease request.identity request.issue request.session)

def comeHome (existing : LeaseRow) : LeaseM AcquireOutcome := do
  let now ← ask .nowUnixSecs
  let _ ← sql (.refreshHeartbeat existing.leaseId now)
  withWarnings
    (pure { leaseId := existing.leaseId, path := existing.worktreePath, branch := existing.branch,
            repoIdentity := existing.repoIdentity, created := false, reason := "idempotent",
            warnings := [] })
    []

def acquireLeaseInner (request : AcquireRequest) : LeaseM AcquireOutcome := do
  match ← findExisting request with
  | some existing => comeHome existing
  | none => acquireFresh request

def acquireLeaseSeeded (identity repoPath : String) (issue : Nat) (session : String)
    (options : AcquireOptions) : LeaseM AcquireOutcome := do
  fromExcept (validateAcquire issue session options)
  acquireLeaseInner ⟨identity, repoPath, issue, session, options, none, none⟩

def acquireLeaseScoped (identity repoPath session : String) (options : AcquireOptions)
    (scope : LeaseScope) : LeaseM AcquireOutcome := do
  fromExcept (validateAcquire scope.externalId session options)
  sql (.ensureNoUnscopedCollision identity scope.externalId)
  let repoKey ← ask (.verifiedRepoKey identity)
  acquireLeaseInner
    ⟨identity, repoPath, scope.externalId, session, options, some scope, repoKey⟩

section Probing

def LeaseOp.probes : LeaseOp → Bool
  | .isClean _ | .refResolvesToCommit .. | .shortHexSuffix | .cacheBaseDir | .createDirAll _ => true
  | _ => false

def Probing {α : Type} (p : LeaseM α) : Prop := Performs (fun op => op.probes) p

theorem probing_ask {op : LeaseOp} (probes : op.probes) : Performs (fun op => op.probes) (ask op) :=
  performs_ask probes

theorem probing_validateBase (repoPath : String) (base : Option String) :
    Probing (validateBase repoPath base) := by
  cases base with
  | none => exact performs_pure ()
  | some reference =>
      refine performs_bind (probing_ask rfl) fun answer => ?_
      match answer with
      | .ok true => exact performs_pure ()
      | .ok false => exact performs_throw _
      | .error e => exact performs_throw _

theorem probing_cacheBaseOr (cacheBase : Option String) : Probing (cacheBaseOr cacheBase) := by
  cases cacheBase with
  | some base => exact performs_pure base
  | none =>
      refine performs_bind (probing_ask rfl) fun base => ?_
      cases base with
      | some base => exact performs_pure base
      | none => exact performs_throw _

theorem probing_nameWorktree (request : AcquireRequest) : Probing (nameWorktree request) := by
  refine performs_bind (probing_ask rfl) fun short => ?_
  refine performs_bind (performs_fromExcept _) fun branch => ?_
  refine performs_bind (performs_fromExcept _) fun slug => ?_
  apply performs_bind
  · refine performs_bind (probing_cacheBaseOr _) fun base => ?_
    exact performs_bind (performs_attempt (probing_ask rfl)) fun _ => performs_pure _
  · exact fun root => performs_pure _

theorem probing_probeDirtyState (repoPath : String) : Probing (probeDirtyState repoPath) := by
  refine performs_bind (probing_ask rfl) fun answer => ?_
  match answer with
  | .ok true => exact performs_pure _
  | .ok false => exact performs_pure _
  | .error e => exact performs_pure _

theorem external_ask {op : LeaseOp} (external : External op) : Performs External (ask op) :=
  performs_ask external

theorem Probing.external {α : Type} {p : LeaseM α} (probing : Probing p) : Performs External p := by
  apply Performs.mono probing
  intro op probes
  cases op with
  | sql op => cases probes
  | _ => rfl

end Probing

end Phasegent.Lease
