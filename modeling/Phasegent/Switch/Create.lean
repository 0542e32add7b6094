import Phasegent.Restore.Evidence
import Phasegent.Restore.Store
import Phasegent.Switch.Policy

namespace Phasegent.Switch
open Fallible Interleaving
open Lease (OsText osText repoIdentity)
open Restore (CheckoutOp CaptureParams CaptureOutcome BaselineScope BaselineTable BaselineOp isBlank
  localKeyPrefix symbolicRef statusPorcelain prepareIn finalizeAfterCheckout checkoutStep)
open Phasegent.Task (IssueKey LinkParams Statement TaskTables TaskOp TaskStep)

-- Git in the directory of the caller, the store, and what is done in the checkout itself.
inductive SwitchOp where
  | here (arguments : List String)
  | openStorage
  | ensureLinkSchema
  | link (s : Statement)
  | checkout (op : CheckoutOp)
  | elsewhere

abbrev SwitchOp.Ret : SwitchOp → Type
  | .here _ => GitAnswer
  | .openStorage => Except String Unit
  | .ensureLinkSchema => Except String Unit
  | .link s => s.Ret
  | .checkout op => op.Ret
  | .elsewhere => Unit

def linkEmbedding : Embedding Statement Statement.Ret SwitchOp SwitchOp.Ret := ⟨.link, fun _ r => r⟩

def checkoutEmbedding : Embedding CheckoutOp CheckoutOp.Ret SwitchOp SwitchOp.Ret :=
  ⟨.checkout, fun _ r => r⟩

structure Host extends Restore.Surroundings where
  parseRemote : String → Option String
  workingDir : Except String String
  canonicalize : OsText → Option OsText

section Key
variable (env : Host)

def joinPath (dir path : String) : String :=
  if dir.toList.getLast? = some '/' then dir ++ path else dir ++ "/" ++ path

def filesystemFallbackKey (path : String) : Except String String := do
  let absolute ← if path.toList.head? = some '/' then .ok path
    else (env.workingDir.mapError ("could not resolve current directory: " ++ ·)).map (joinPath · path)
  refuse (isBlank absolute) "checkout path is empty"
  return localKeyPrefix ++ trimText absolute

def checkoutRoot (top : Option String) : String := top.getD (env.workingDir.toOption.getD ".")

def resolveRepoKey (origin top : Option String) : Except String String :=
  match origin with
  | some url => env.canonicalGitUrl url
  | none => filesystemFallbackKey env (checkoutRoot env top)

end Key

section Program
variable (env : Host) (params : IssueSwitchParams)

abbrev SwitchM := Attempt SwitchOp SwitchOp.Ret CreateSwitchOutcome

def here {α : Type} (arguments : List String) (decode : GitAnswer → Except CreateSwitchOutcome α) :
    SwitchM α :=
  request (.here arguments) decode

def warn (what error : String) : CreateSwitchOutcome := .warning (what ++ ": " ++ error)

def ensureBranch (base : String) : SwitchM Unit := do
  let found ← here ["show-ref", "--verify", "--quiet", "refs/heads/" ++ params.target]
    (branchExists params)
  if found then return ()
  else here ["branch", params.target, base] (branchCreated params base)

def locate : SwitchM (String × String) := do
  let origin ← here ["remote", "get-url", "origin"] fun r => .ok (originIdentity env.parseRemote r)
  fromExcept ((currentCheckoutMatches origin params.explicitRepository).mapError .skipped)
  let current ← here symbolicRef fun r => (currentBranch r).mapError (noBranch params)
  let url ← here ["remote", "get-url", "origin"] fun r => .ok (originUrl r)
  let top ← here ["rev-parse", "--show-toplevel"] fun r => .ok (topLevel r)
  let repoKey ← fromExcept ((resolveRepoKey env url top).mapError (warn "cannot scope branch link"))
  request .openStorage (·.mapError (warn "cannot record branch link"))
  request .ensureLinkSchema (·.mapError (warn "cannot initialise branch link table"))
  ensureBranch params ((nonBlank params.base).getD "HEAD")
  return (current, repoKey)

-- A failure to read the links of the branch is no note.
def recordBranchLink (repoKey project : String) : SwitchM (Option String) := do
  let issue ← fromExcept ((IssueKey.new params.scopeProvider project params.issueText).mapError
    (warn "cannot scope branch link"))
  let now ← request (.checkout .now) .ok
  let _ ← renameFailure (warn "cannot record branch link") (embed linkEmbedding
    (Task.link ⟨repoKey, params.target, issue, params.issueId, "issue-create", max now 1⟩))
  request (.link (.issuesForBranch repoKey params.target)) fun r =>
    .ok (r.toOption.bind (collisionNote params project))

def detectDefaultBranch : SwitchM (Option String) := do
  let cached ← here ["symbolic-ref", "refs/remotes/origin/HEAD"] fun r =>
    .ok (readDefault parseSymbolicRef r)
  match cached with
  | some branch => return some branch
  | none => here ["remote", "show", "-n", "origin"] fun r => .ok (readDefault parseRemoteShow r)

def verifyLeases (current : String) : SwitchM Unit := do
  let identity ← request (.checkout (.git ["rev-parse", "--git-common-dir"])) fun r =>
    (repoIdentity env.canonicalize r (osText params.repoPath.toList)).mapError
      (unverifiedLeases params "verify" current)
  let rows ← request (.checkout (.leases identity)) (·.mapError (unverifiedLeases params "read" current))
  fromExcept (leaseConflict params current rows)

def switchGates (project current repoKey : String) : SwitchM (Option String) := do
  let note ← recordBranchLink params repoKey project
  fromExcept (refuseShared params note)
  fromExcept (refuse (params.target = current) (.switched params.target params.issueId))
  request (.checkout (.git statusPorcelain)) fun r => refuseDirty params (isClean r)
  let default ← detectDefaultBranch
  fromExcept (refuseElsewhere params current default)
  verifyLeases env params current
  return default

def captureParams (project current repoKey : String) (default : Option String) : CaptureParams where
  repoPath := params.repoPath
  repoKey := repoKey
  provider := params.scopeProvider
  project := project
  issueNumber := params.issueId
  issueBranch := params.target
  baselineBranch := current
  defaultBranch := default

def baselineScope (current : String) : CaptureOutcome → Except CreateSwitchOutcome (Option BaselineScope)
  | .pending scope => .ok (some scope)
  | .skipped _ => .ok none
  | .failed reason => .error (params.linkedOnly ("linked '" ++ params.target ++
      "' but could not record the pre-switch baseline (" ++ reason ++ "); leaving '" ++ current ++
      "' untouched — " ++ params.byHand ++ " once verified"))

def settle (scope : Option BaselineScope) : SwitchM Unit :=
  match scope with
  | none => return ()
  | some scope => do
      let _ ← outcome (embed checkoutEmbedding (finalizeAfterCheckout scope))
      return ()

def switchOver (project current repoKey : String) (default : Option String) :
    SwitchM CreateSwitchOutcome := do
  let result ← outcome (embed checkoutEmbedding
    (prepareIn env.toSurroundings (captureParams params project current repoKey default)))
  let scope ← fromExcept (baselineScope params current (.ofResult result))
  let done ← here ["checkout", params.target] fun r => .ok (checkedOut params r)
  settle scope
  return done

def createIn : SwitchM CreateSwitchOutcome := do
  let project ← fromExcept params.admission
  let (current, repoKey) ← locate env params
  let default ← switchGates env params project current repoKey
  switchOver env params project current repoKey default

def CreateSwitchOutcome.ofResult : Except CreateSwitchOutcome CreateSwitchOutcome → CreateSwitchOutcome
  | .ok outcome => outcome
  | .error outcome => outcome

/-- No outcome of the switch fails the create that came before it. -/
def createLinkAndSwitch : Prog SwitchOp SwitchOp.Ret CreateSwitchOutcome :=
  (createIn env params).run.map .ofResult

end Program

section World
variable (urls : UrlLibrary)

structure SwitchTables where
  links : TaskTables
  baselines : BaselineTable

def switchStep (s : SwitchTables) : (op : SwitchOp) → op.Ret → SwitchTables → Prop
  | .link statement, answer, s' =>
      TaskStep urls s.links (.statement statement) answer s'.links ∧ s'.baselines = s.baselines
  | .checkout op, answer, s' => checkoutStep s.baselines op answer s'.baselines ∧ s'.links = s.links
  | .elsewhere, _, _ => True
  | _, _, s' => s' = s

def switchWorld : World SwitchTables SwitchOp SwitchOp.Ret where
  step _ := switchStep urls
  crash _ s s' := s' = s

end World

end Phasegent.Switch
