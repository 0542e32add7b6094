import Phasegent.Restore.Git

namespace Phasegent.Restore
open Fallible Interleaving
open Cleanup (LocatedSession allSessions isOpencodeSession sameDirectory)
open Lease (bounded LeaseRow)

inductive UpstreamOutcome where
  | updated
  | skipped (reason : String)
  | failed (reason : String)
  deriving DecidableEq, Repr

def UpstreamOutcome.state : UpstreamOutcome → UpdateState
  | .updated => .updated
  | .skipped _ => .skipped
  | .failed _ => .failed

inductive RestoreOutcome where
  | noop
  | restored (branch : String) (update : UpstreamOutcome)
  | warning (reason : String)
  deriving DecidableEq, Repr

structure CloseTarget where
  identity : String
  mainCheckout : String
  deriving DecidableEq, Repr

structure CloseParams where
  target : CloseTarget
  provider : Option String
  project : Option String
  issueNumber : Nat
  session : Option String
  deriving DecidableEq, Repr

-- What does not change during a call: canonical paths, and the canonical form of a remote address.
structure Surroundings where
  canonical : String → String
  absoluteGitDir : String → String
  canonicalGitUrl : String → Except String String

def statement (op : BaselineOp) : Checked op.Ret := request (.baseline op) id

def readBaseline (scope : BaselineScope) : Checked (Option BaselineRecord) := do
  let found ← statement (.read scope)
  return found.map fun record => { record with scope }

def readOriginUrl {ε : Type} : Attempt CheckoutOp CheckoutOp.Ret ε (Option String) :=
  request (.git ["remote", "get-url", "origin"]) fun
    | .ok output =>
        .ok (if output.status ≠ 0 ∨ isBlank output.stdout then none else some (trimText output.stdout))
    | .error _ => .ok none

def localKeyPrefix : String := "local:"

section Gates
variable (env : Surroundings) (params : CloseParams)

def resolveRepoKey (origin : Option String) : Except String String :=
  match origin with
  | some url => env.canonicalGitUrl url
  | none => do
      refuse (isBlank params.target.mainCheckout) "checkout path is empty"
      return localKeyPrefix ++ trimText params.target.mainCheckout

def activeLease (rows : List LeaseRow) : Except String Unit :=
  match rows.find? (·.isActive) with
  | some row => .error ("active lease " ++ row.leaseId ++ " for issue " ++ row.issueNumber.repr ++
      " still references '" ++ row.worktreePath ++ "'")
  | none => .ok ()

def closingSession : Except String String :=
  match (params.session.map trimText).filter isOpencodeSession with
  | some session => .ok session
  | none => .error "close has no OpenCode session identity; occupancy cannot be verified"

def otherOccupant (session : String) (sessions : List LocatedSession) : Except String Unit :=
  match sessions.find? fun located =>
      sameDirectory env.canonical located.directory params.target.mainCheckout &&
        located.id != session with
  | some other => .error ("OpenCode session '" ++ other.id ++ "' is still hosted in the main checkout")
  | none => .ok ()

def requireBranch (expected branch : String) : Except String Unit :=
  refuse (branch ≠ expected) ("main checkout is on '" ++ branch ++ "', expected '" ++ expected ++ "'")

def mainGates (expected : String) : Checked Unit := do
  requireClean
  let branch ← currentBranch
  fromExcept (requireBranch expected branch)
  let rows ← request (.leases params.target.identity) (·.mapError fun error =>
    "could not read worktree leases: " ++ bounded error.message)
  fromExcept (activeLease rows)
  let session ← fromExcept (closingSession params)
  let sessions ← renameFailure
    (fun error => "could not read complete host occupancy: " ++ error.message)
    (embed hostEmbedding allSessions)
  fromExcept (otherOccupant env params session sessions)

end Gates

section Update
variable (env : Surroundings) (params : CloseParams)

abbrev UpdateM := Attempt CheckoutOp CheckoutOp.Ret UpstreamOutcome

def orFail {α : Type} (p : Checked α) : UpdateM α := renameFailure .failed p

def usableUpstream : Upstream → Except UpstreamOutcome (String × String)
  | .configured remote mergeRef branch =>
      if isBlank branch then .error (.skipped "configured upstream branch is empty")
      else .ok (remote, mergeRef)
  | .none => .error (.skipped "branch has no configured remote upstream")
  | .unsupported reason => .error (.skipped reason)

def requireHead (head : Option String) : Except UpstreamOutcome String :=
  match head with
  | some head => .ok head
  | none => .error (.failed "HEAD is unborn or cannot be resolved")

def requireAncestor (ancestor : Bool) : Except UpstreamOutcome Unit :=
  refuse (ancestor = false)
    (.failed "local branch is ahead of or diverged from its upstream; nothing was overwritten")

def requireFetched (fetched head : String) : Except UpstreamOutcome Unit :=
  refuse (head ≠ fetched) (.failed ("fast-forward did not take effect (HEAD is '" ++ head ++ "')"))

/-- Fast-forward the branch to its own upstream; every early exit says what state it leaves. -/
def advance (branch : String) : UpdateM Unit := do
  let upstream ← orFail (resolveUpstream branch)
  let (remote, mergeRef) ← fromExcept (usableUpstream upstream)
  orFail (mainGates env params branch)
  let fetched ← orFail (fetchUpstream remote mergeRef)
  let head ← orFail headRev
  let head ← fromExcept (requireHead head)
  let ancestor ← orFail (isAncestor head fetched)
  fromExcept (requireAncestor ancestor)
  orFail (mainGates env params branch)
  orFail (fastForward fetched)
  let head ← orFail headRev
  let head ← fromExcept (requireHead head)
  fromExcept (requireFetched fetched head)

def UpstreamOutcome.ofResult : Except UpstreamOutcome Unit → UpstreamOutcome
  | .ok _ => .updated
  | .error outcome => outcome

def retryUpstream (record : BaselineRecord) : Checked UpstreamOutcome := do
  let result ← outcome (advance env params record.baselineBranch)
  let _ ← statement (.setUpdateState record.scope (UpstreamOutcome.ofResult result).state)
  return .ofResult result

end Update

section Restore
variable (env : Surroundings) (params : CloseParams)

abbrev CloseM := Attempt CheckoutOp CheckoutOp.Ret RestoreOutcome

def warning (what detail : String) : RestoreOutcome :=
  .warning ("issue " ++ params.issueNumber.repr ++ " closed; " ++ what ++ ": " ++ bounded detail)

def orWarn {α : Type} (what : String) (p : Checked α) : CloseM α :=
  renameFailure (warning params what) p

def transitionTo (record : BaselineRecord) (state : CheckoutState) : Checked (Option CheckoutState) := do
  let _ ← statement (.transitionPending record.scope state)
  return some state

def recoverPending (record : BaselineRecord) : Checked (Option CheckoutState) := do
  let branch ← currentBranch
  if branch = record.issueBranch then transitionTo record .active
  else do
    let head ← headRev
    if branch = record.baselineBranch ∧ head = some record.baselineHead then
      transitionTo record .aborted
    else throw ("pending baseline does not match the captured issue branch or unchanged baseline " ++
      "(current '" ++ branch ++ "')")

def recoveredState (record : BaselineRecord) : CloseM (Option CheckoutState) :=
  if record.state = .pending then
    orWarn params "pending checkout baseline remains unresolved" (recoverPending record)
  else return some record.state

def finishUpstream (record : BaselineRecord) : CloseM RestoreOutcome := do
  let update ← orWarn params "upstream update was not completed" (retryUpstream env params record)
  return .restored record.baselineBranch update

def recordRestored (record : BaselineRecord) (what : String) : CloseM Unit := do
  let now ← request .now .ok
  let _ ← orWarn params what (statement (.markRestored record.scope .pending (max now 1)))

def existingBranch (branch : String) : Checked Unit := do
  let found ← renameFailure
    (fun reason => "the captured baseline branch '" ++ branch ++ "' could not be verified: " ++ reason)
    (localBranchExists branch)
  fromExcept (refuse (found = false)
    ("the captured baseline branch '" ++ branch ++ "' no longer exists"))

def verifySwitched (branch : String) : Checked Unit := do
  let current ← currentBranch
  fromExcept (refuse (current ≠ branch) ("HEAD ended on '" ++ current ++ "'"))

def switchBack (record : BaselineRecord) (current : String) : CloseM Unit := do
  orWarn params "checkout is on a third-party branch" (fromExcept (refuse (current ≠ record.issueBranch)
    ("current branch '" ++ current ++ "' is neither the issue branch nor the baseline")))
  orWarn params "checkout restoration was skipped" (mainGates env params record.issueBranch)
  orWarn params "checkout restoration was skipped" (existingBranch record.baselineBranch)
  orWarn params "checkout restoration failed" (checkout record.baselineBranch)
  orWarn params "checkout restoration could not be verified" (verifySwitched record.baselineBranch)

def restoreBranch (record : BaselineRecord) : CloseM RestoreOutcome := do
  let current ← orWarn params "checkout branch could not be read before restoration" currentBranch
  if current = record.baselineBranch then do
    recordRestored params record
      "checkout is on the baseline branch but its state could not be recorded"
    finishUpstream env params record
  else do
    switchBack env params record current
    recordRestored params record "checkout was restored but its state could not be recorded"
    finishUpstream env params record

def restoreRecord (record : BaselineRecord) : CloseM RestoreOutcome := do
  let state ← recoveredState params record
  if state = none ∨ state = some .aborted then return .noop
  else if record.restoredAt.isSome then
    if record.updateState = .updated ∨ record.updateState = .skipped then return .noop
    else finishUpstream env params record
  else restoreBranch env params record

def known (value : Option String) : Option String := value.filter fun text => !isBlank text

-- An unknown scope is never permission to look at another scope.
def closeScope (repoKey : String) : CloseM BaselineScope :=
  match known params.provider, known params.project with
  | some provider, some project =>
      orWarn params "could not scope the checkout baseline" (fromExcept (BaselineScope.new repoKey
        provider project params.issueNumber (env.canonical params.target.mainCheckout)))
  | _, _ => throw .noop

def restoreIn : CloseM RestoreOutcome := do
  orWarn params "could not prepare the lease store" (request .ensureLeaseSchema id)
  orWarn params "could not prepare the checkout baseline store" (request .ensureBaselineSchema id)
  let origin ← readOriginUrl
  let repoKey ← orWarn params "could not resolve the repository key"
    (fromExcept (resolveRepoKey env params origin))
  let scope ← closeScope env params repoKey
  let found ← orWarn params "could not read the checkout baseline" (readBaseline scope)
  match found with
  | none => return .noop
  | some record => restoreRecord env params record

def RestoreOutcome.ofResult : Except RestoreOutcome RestoreOutcome → RestoreOutcome
  | .ok outcome => outcome
  | .error outcome => outcome

/-- Whatever goes wrong is a warning, never a failure of the close. -/
def restoreOnClose : Prog CheckoutOp CheckoutOp.Ret RestoreOutcome :=
  (restoreIn env params).run.map .ofResult

end Restore

end Phasegent.Restore
