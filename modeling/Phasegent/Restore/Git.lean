import Phasegent.Cleanup.Host
import Phasegent.Interleaving.Embedding
import Phasegent.Lease.Identity
import Phasegent.Restore.Baseline

namespace Phasegent.Restore
open Fallible Interleaving
open Cleanup (HostOp)
open Lease (WorktreeError GitOutput LeaseRow bounded)

-- What the lifecycle of a checkout asks of its surroundings; Git runs in that checkout.
inductive CheckoutOp where
  | ensureLeaseSchema
  | ensureBaselineSchema
  | baseline (op : BaselineOp)
  | git (arguments : List String)
  | leases (identity : String)
  | host (op : HostOp)
  | now
  deriving DecidableEq, Repr

abbrev CheckoutOp.Ret : CheckoutOp → Type
  | .ensureLeaseSchema => Except String Unit
  | .ensureBaselineSchema => Except String Unit
  | .baseline op => Except String op.Ret
  | .git _ => Except WorktreeError GitOutput
  | .leases _ => Except WorktreeError (List LeaseRow)
  | .host op => op.Ret
  | .now => Int

abbrev Checked := Attempt CheckoutOp CheckoutOp.Ret String

def hostEmbedding : Embedding HostOp HostOp.Ret CheckoutOp CheckoutOp.Ret where
  effect := .host
  answer _ r := r

def isUnsafeArgument (text : String) : Bool :=
  isBlank text || text.toList.head? == some '-' || hasControl text

def git {α : Type} (arguments : List String) (decode : GitOutput → Except String α) : Checked α :=
  request (.git arguments) fun
    | .ok output => decode output
    | .error error => .error (bounded error.message)

def exitText (what : String) (output : GitOutput) : String :=
  what ++ " (exit status " ++ toString output.status ++ ")"

section Checkout

def readBranch (output : GitOutput) : Except String String := do
  refuse (output.status ≠ 0) (bounded "HEAD is detached; pick a named branch before acquire")
  refuse (isBlank output.stdout) (bounded "HEAD is detached; pick a named branch before acquire")
  return bounded (trimText output.stdout)

def currentBranch : Checked String := git ["symbolic-ref", "--quiet", "--short", "HEAD"] readBranch

def readHead (output : GitOutput) : Except String (Option String) :=
  if output.status ≠ 0 ∨ isBlank output.stdout then .ok none
  else .ok (some (bounded (trimText output.stdout)))

def headRev : Checked (Option String) := git ["rev-parse", "--verify", "--quiet", "HEAD"] readHead

def statusFailed (output : GitOutput) : WorktreeError :=
  .new "git" ("git status failed with exit status " ++ toString output.status)

def cleanlinessUnknown (error : WorktreeError) : String :=
  "main checkout cleanliness is unknown: " ++ bounded error.message

def readClean (output : GitOutput) : Except String Unit := do
  refuse (output.status ≠ 0) (cleanlinessUnknown (statusFailed output))
  refuse (isBlank output.stdout = false) "main checkout has uncommitted or untracked files"

def requireClean : Checked Unit :=
  request (.git ["status", "--porcelain"]) fun
    | .ok output => readClean output
    | .error error => .error (cleanlinessUnknown error)

end Checkout

section Upstream

inductive Upstream where
  | configured (remote mergeRef branch : String)
  | none
  | unsupported (reason : String)
  deriving DecidableEq, Repr

def validateRemote (remote : String) : Except String Unit := do
  refuse (isBlank remote) "remote name is empty"
  refuse (isUnsafeArgument remote) "remote name is not a safe Git argument"

def stripPrefix (pre text : String) : Option String :=
  if pre.toList.isPrefixOf text.toList then some (String.ofList (text.toList.drop pre.toList.length))
  else .none

def validateMergeRef (mergeRef : String) : Except String String :=
  match stripPrefix "refs/heads/" mergeRef with
  | .none => .error "configured upstream is not a local branch ref"
  | some branch =>
      if isUnsafeArgument branch then .error "configured upstream branch is unusable" else .ok branch

def readConfig (what : String) (output : GitOutput) : Except String (Option String) :=
  if output.status = 0 then .ok (some (trimText output.stdout))
  else if output.status = 1 then .ok .none
  else .error (exitText ("could not read " ++ what) output)

def configured (key what : String) : Checked (Option String) :=
  git ["config", "--get", key] (readConfig what)

def admitUpstream (remote mergeRef : String) : Except Upstream String := do
  refuse (remote = "") .none
  (validateRemote remote).mapError .unsupported
  refuse (remote = ".") (.unsupported "local-only upstream is not fetched or updated")
  (validateMergeRef mergeRef).mapError .unsupported

def readRemoteUrl (remote : String) (output : GitOutput) : Except String (Option String) :=
  if output.status = 0 ∧ isBlank output.stdout = false then .ok .none
  else if output.status = 0 ∨ output.status = 1 then
    .ok (some ("remote '" ++ remote ++ "' has no configured URL"))
  else .error (exitText "could not read remote URL" output)

def confirmUpstream (remote mergeRef : String) : Checked Upstream :=
  match admitUpstream remote mergeRef with
  | .error upstream => return upstream
  | .ok branch => do
      let missing ← git ["config", "--get", "remote." ++ remote ++ ".url"] (readRemoteUrl remote)
      return match missing with
        | some reason => .unsupported reason
        | .none => .configured remote mergeRef branch

def upstreamWithMergeRef (branch remote : String) : Checked Upstream := do
  let mergeRef ← configured ("branch." ++ branch ++ ".merge") "branch merge ref"
  match mergeRef with
  | .none => return .unsupported "branch has a remote but no configured merge ref"
  | some mergeRef => confirmUpstream remote mergeRef

def resolveUpstream (branch : String) : Checked Upstream := do
  fromExcept (refuse (isUnsafeArgument branch) "baseline branch is unusable for upstream lookup")
  let remote ← configured ("branch." ++ branch ++ ".remote") "branch remote"
  match remote with
  | .none => return .none
  | some remote => upstreamWithMergeRef branch remote

def readFetch (remote mergeRef : String) (output : GitOutput) : Except String Unit :=
  refuse (output.status ≠ 0) ("fetching '" ++ remote ++ " " ++ mergeRef ++
    "' failed with exit status " ++ toString output.status)

def readFetched (output : GitOutput) : Except String String :=
  if output.status = 0 ∧ isBlank output.stdout = false then .ok (trimText output.stdout)
  else .error (exitText "fetched upstream commit could not be resolved" output)

def fetchUpstream (remote mergeRef : String) : Checked String := do
  fromExcept (validateRemote remote)
  fromExcept (refuse (isBlank mergeRef || mergeRef.toList.head? == some '-')
    "upstream ref is not a safe Git argument")
  git ["fetch", "--no-tags", remote, mergeRef] (readFetch remote mergeRef)
  git ["rev-parse", "--verify", "FETCH_HEAD"] readFetched

end Upstream

section Branches

def readAnswer (what : String) (output : GitOutput) : Except String Bool :=
  if output.status = 0 then .ok true
  else if output.status = 1 then .ok false
  else .error (what ++ " failed with exit status " ++ toString output.status)

def isAncestor (ancestor descendant : String) : Checked Bool :=
  git ["merge-base", "--is-ancestor", ancestor, descendant] (readAnswer "ancestry check")

def validateBranch (branch : String) : Except String Unit :=
  refuse (isUnsafeArgument branch) "baseline branch is not a safe Git argument"

def localBranchExists (branch : String) : Checked Bool := do
  fromExcept (validateBranch branch)
  git ["show-ref", "--verify", "--quiet", "refs/heads/" ++ branch] (readAnswer "local branch check")

def checkout (branch : String) : Checked Unit := do
  fromExcept (validateBranch branch)
  git ["switch", "--no-guess", branch] fun output =>
    refuse (output.status ≠ 0)
      ("switch to '" ++ branch ++ "' failed with exit status " ++ toString output.status)

def fastForward (target : String) : Checked Unit :=
  git ["merge", "--ff-only", target] fun output =>
    refuse (output.status ≠ 0)
      ("fast-forward to the fetched upstream failed with exit status " ++ toString output.status)

end Branches

end Phasegent.Restore
