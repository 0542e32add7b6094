import Phasegent.Restore.Close

namespace Phasegent.Restore
open Fallible Interleaving
open Lease (bounded GitOutput)

structure CaptureParams where
  repoPath : String
  repoKey : String
  provider : String
  project : String
  issueNumber : Nat
  issueBranch : String
  baselineBranch : String
  defaultBranch : Option String
  deriving DecidableEq, Repr

inductive CaptureOutcome where
  | skipped (reason : String)
  | pending (scope : BaselineScope)
  | failed (reason : String)
  deriving DecidableEq, Repr

section Capture
variable (env : Surroundings) (params : CaptureParams)

abbrev CaptureM := Attempt CheckoutOp CheckoutOp.Ret CaptureOutcome

def gitDirs (gitDir common : GitOutput) : Except String (String × String) := do
  refuse (gitDir.status ≠ 0 ∨ common.status ≠ 0)
    "git rev-parse --git-dir/--git-common-dir failed"
  let absolute := fun raw => if raw = "" then "" else bounded (env.absoluteGitDir raw)
  return (absolute (trimText gitDir.stdout), absolute (trimText common.stdout))

def checkoutGitDirs : Checked (String × String) := do
  let gitDir ← git ["rev-parse", "--git-dir"] .ok
  let common ← git ["rev-parse", "--git-common-dir"] .ok
  fromExcept (gitDirs env gitDir common)

def requirePrimary : CaptureM Unit := do
  let (gitDir, common) ← renameFailure
    (fun reason => .skipped ("could not verify the primary checkout: " ++ bounded reason))
    (checkoutGitDirs env)
  fromExcept (refuse (gitDir = "" ∨ gitDir ≠ common) (.skipped "checkout is not the primary checkout"))

def requireUnchanged (actual : String) : Except CaptureOutcome Unit :=
  refuse (actual ≠ params.baselineBranch) (.failed ("current branch changed to '" ++ actual ++
    "' after the switch gates; refusing to capture a stale baseline"))

def orFailed {α : Type} (what : String) (p : Checked α) : CaptureM α :=
  renameFailure (fun reason => .failed (what ++ bounded reason)) p

def bornHead : Option String → Except CaptureOutcome String
  | some head => .ok head
  | none => .error (.failed "HEAD is unborn or cannot be resolved")

/-- The first baseline of a scope stays; a later capture is answered with it. -/
def insertPending (new : NewBaseline) : Checked InsertOutcome := do
  fromExcept (validateNew new)
  let inserted ← statement (.insertPending new)
  let found ← readBaseline new.scope
  match found with
  | none => throw "checkout baseline disappeared after insert"
  | some record => return if inserted then .created record else .preserved record

def prepareIn : CaptureM CaptureOutcome := do
  requirePrimary env
  let actual ← orFailed "could not re-read the current branch: " currentBranch
  fromExcept (requireUnchanged params actual)
  let head ← orFailed "could not resolve HEAD: " headRev
  let head ← fromExcept (bornHead head)
  let scope ← renameFailure CaptureOutcome.failed (fromExcept (BaselineScope.new params.repoKey
    params.provider params.project params.issueNumber (env.canonical params.repoPath)))
  renameFailure CaptureOutcome.failed (request .ensureBaselineSchema id)
  let now ← request .now .ok
  let _ ← renameFailure CaptureOutcome.failed (insertPending
    ⟨scope, params.issueBranch, params.baselineBranch, head, cleanEvidence, params.defaultBranch,
      max now 1⟩)
  return .pending scope

def CaptureOutcome.ofResult : Except CaptureOutcome CaptureOutcome → CaptureOutcome
  | .ok outcome => outcome
  | .error outcome => outcome

def preparePending : Prog CheckoutOp CheckoutOp.Ret CaptureOutcome :=
  (prepareIn env params).run.map .ofResult

end Capture

section Settle

def readable {α : Type} (p : Checked α) : Checked (Option α) := do
  let result ← outcome p
  return result.toOption

def settle (record : BaselineRecord) (branch head : Option String) : Checked CheckoutState :=
  if branch = some record.issueBranch then do
    let _ ← statement (.transitionPending record.scope .active)
    return .active
  else if branch = some record.baselineBranch ∧ head = some record.baselineHead then do
    let _ ← statement (.transitionPending record.scope .aborted)
    return .aborted
  else return .pending

/-- Classify the branch that the checkout command left behind. -/
def finalizeAfterCheckout (scope : BaselineScope) : Checked CheckoutState := do
  let found ← readBaseline scope
  match found with
  | none => throw "checkout baseline is missing after capture"
  | some record => do
      let branch ← readable currentBranch
      let head ← readable headRev
      settle record branch head.join

end Settle

end Phasegent.Restore
