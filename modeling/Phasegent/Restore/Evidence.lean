import Phasegent.Cleanup.Moves
import Phasegent.Restore.Capture

namespace Phasegent.Restore
open Fallible Interleaving
open Cleanup (HostOp HostHistory Listing LocatedSession isOpencodeSession sameDirectory)
open Lease (GitOutput LeaseRow)

abbrev CheckoutHistory := History CheckoutOp CheckoutOp.Ret

abbrev ran (arguments : List String) (output : GitOutput) : Act CheckoutOp CheckoutOp.Ret :=
  ⟨.git arguments, .ok output⟩

def CheckoutOp.command : CheckoutOp → Option String
  | .git arguments => arguments.head?
  | _ => none

-- The commands that change no branch; a fetch writes FETCH_HEAD only.
def gitReaders : List String :=
  ["config", "show-ref", "rev-parse", "merge-base", "symbolic-ref", "status", "remote"]

def gitQuiet : List String := "fetch" :: gitReaders

def CheckoutOp.quiet : CheckoutOp → Bool
  | .git arguments => gitQuiet.contains (arguments.headD "")
  | .baseline (.markRestored ..) => false
  | .baseline (.read _) => false
  | .host (.moveSession ..) => false
  | _ => true

def CheckoutOp.mutates : CheckoutOp → Bool
  | .git arguments => !gitReaders.contains (arguments.headD "")
  | .baseline (.read _) => false
  | .baseline _ => true
  | .host (.moveSession ..) => true
  | _ => false

def Switches (op : CheckoutOp) : Prop := op.command = some "switch"

def Forwards (op : CheckoutOp) : Prop := op.command = some "merge"

def CheckoutOp.Quiet (op : CheckoutOp) : Prop := op.quiet = true

theorem quiet_command {op : CheckoutOp} {command : String} (quiet : op.Quiet)
    (named : op.command = some command) : command ∈ gitQuiet := by
  cases op with
  | git arguments =>
      cases arguments with
      | nil => nomatch named
      | cons first rest =>
          rw [CheckoutOp.command, List.head?_cons, Option.some.injEq] at named
          rw [CheckoutOp.Quiet, CheckoutOp.quiet, List.headD_cons, named] at quiet
          exact List.contains_iff_mem.mp quiet
  | _ => nomatch named

theorem not_switches {op : CheckoutOp} (quiet : op.Quiet) : ¬Switches op :=
  fun switches => absurd (quiet_command quiet switches) (by decide)

theorem not_forwards {op : CheckoutOp} (quiet : op.Quiet) : ¬Forwards op :=
  fun forwards => absurd (quiet_command quiet forwards) (by decide)

section Evidence
variable (env : Surroundings) (params : CloseParams)

def RowRead (record : BaselineRecord) (h : CheckoutHistory) : Prop :=
  ∃ row, ⟨.baseline (.read record.scope), .ok (some row)⟩ ∈ h ∧ record = { row with scope := record.scope }

def OnBranch (branch : String) (output : GitOutput) : Prop := readBranch output = .ok branch

abbrev symbolicRef : List String := ["symbolic-ref", "--quiet", "--short", "HEAD"]
abbrev statusPorcelain : List String := ["status", "--porcelain"]
abbrev verifyHead : List String := ["rev-parse", "--verify", "--quiet", "HEAD"]

/-- One evaluation of the gates that saw a clean tree, the branch, no active lease and nobody but
the closing session in the main checkout. -/
def Gated (branch : String) (gates : CheckoutHistory) : Prop :=
  ∃ listing rows head status seen sessions session,
    gates = listing ++ [⟨.leases params.target.identity, .ok rows⟩, ran symbolicRef head,
      ran statusPorcelain status] ∧
    (status.status = 0 ∧ isBlank status.stdout = true) ∧ OnBranch branch head ∧
    (∀ row ∈ rows, ¬row.isActive) ∧
    (Listing none sessions seen ∧ Shows hostEmbedding seen listing) ∧
    (params.session.map trimText = some session ∧ isOpencodeSession session = true) ∧
    ∀ located ∈ sessions,
      sameDirectory env.canonical located.directory params.target.mainCheckout = true →
        located.id = session

def Configured (branch remote mergeRef : String) (upstream : CheckoutHistory) : Prop :=
  ∃ url merge origin,
    upstream = [ran ["config", "--get", "remote." ++ remote ++ ".url"] url,
      ran ["config", "--get", "branch." ++ branch ++ ".merge"] merge,
      ran ["config", "--get", "branch." ++ branch ++ ".remote"] origin] ∧
    (origin.status = 0 ∧ trimText origin.stdout = remote) ∧
    (merge.status = 0 ∧ trimText merge.stdout = mergeRef)

def Fetched (remote mergeRef commit : String) (fetch : CheckoutHistory) : Prop :=
  ∃ head done, fetch = [ran ["rev-parse", "--verify", "FETCH_HEAD"] head,
      ran ["fetch", "--no-tags", remote, mergeRef] done] ∧
    done.status = 0 ∧ head.status = 0 ∧ trimText head.stdout = commit

def SwitchJustified (h : CheckoutHistory) (arguments : List String) : Prop :=
  ∃ record exists' gates older,
    h = ran ["show-ref", "--verify", "--quiet", "refs/heads/" ++ record.baselineBranch] exists' ::
      (gates ++ older) ∧
    arguments = ["switch", "--no-guess", record.baselineBranch] ∧
    RowRead record older ∧ Gated env params record.issueBranch gates ∧
    ∀ act ∈ h, ¬Switches act.effect

def ForwardJustified (h : CheckoutHistory) (arguments : List String) : Prop :=
  ∃ record commit secondGates ancestor head current fetch remote mergeRef firstGates upstream older,
    h = secondGates ++ ran ["merge-base", "--is-ancestor", current, commit] ancestor ::
      ran verifyHead head :: (fetch ++ firstGates ++ upstream ++ older) ∧
    arguments = ["merge", "--ff-only", commit] ∧ RowRead record older ∧
    Gated env params record.baselineBranch secondGates ∧ ancestor.status = 0 ∧
    readHead head = .ok (some current) ∧ Fetched remote mergeRef commit fetch ∧
    Gated env params record.baselineBranch firstGates ∧
    Configured record.baselineBranch remote mergeRef upstream

def RecordJustified (h : CheckoutHistory) (scope : BaselineScope) : Prop :=
  ∃ record now head older, h = ⟨.now, now⟩ :: ran symbolicRef head :: older ∧
    scope = record.scope ∧ RowRead record older ∧ OnBranch record.baselineBranch head

structure Justified (h : CheckoutHistory) (op : CheckoutOp) : Prop where
  switch : ∀ arguments, op = .git arguments → Switches op → SwitchJustified env params h arguments
  forward : ∀ arguments, op = .git arguments → Forwards op → ForwardJustified env params h arguments
  record : ∀ scope update now, op = .baseline (.markRestored scope update now) →
    RecordJustified h scope
  otherwise : op.Quiet ∨ Switches op ∨ Forwards op ∨ ∃ op', op = .baseline op'

end Evidence

end Phasegent.Restore
