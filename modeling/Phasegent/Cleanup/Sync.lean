import Phasegent.Cleanup.Removal

namespace Phasegent.Cleanup
open Fallible Interleaving
open Lease (LeaseRow LeaseScope GitOutput WorktreeError endsWith)

def denyOtherIssues (currentIssue : Nat) (issues : List Nat) : Except String Unit :=
  let others := (issues.filter (· ≠ currentIssue)).map Nat.repr
  refuse (others ≠ []) ("the directory is also associated with issue(s) " ++ ", ".intercalate others ++
    " whose closure is not confirmed here")

section Passes
variable (canonical : String → String)

def freshMemo : HostMemo := ⟨[], [], false⟩

def cleanupClosedIssueWorktreesWith (mode : CleanupMode) (repoPath : String) (issue : Nat)
    (session : Option String) : CleanupProg AutoCleanupOutcome := do
  match ← (resolveContext repoPath issue).run with
  | .error reason => return .warning reason
  | .ok context => do
      let (outcome, _) ← cleanupClosedIssueWorktreesInContext canonical .direct mode issue session none
        context freshMemo
      return outcome

def keptEntries : AutoCleanupOutcome → List String
  | .cleaned _ kept => kept
  | .warning reason => [bounded reason]
  | .noop => []

def keptFor (directory : String) (kept : List String) : Option String :=
  kept.find? fun entry => endsWith entry (": " ++ directory)

def unclassifiedKeepReason (issue : Nat) (directory : String) : String :=
  "issue " ++ issue.repr ++ " synced; kept worktree (the cleanup guards kept it): " ++ directory

section Report

inductive Verdict where
  | wouldClean
  | wouldKeep (reason : String)
  deriving DecidableEq, Repr

-- Git as the report runs it: a removal is written down and succeeds.
def dryRunGit (removals : List String) (workdir : String) :
    List String → CleanupProg (Except WorktreeError GitOutput × List String)
  | "worktree" :: "remove" :: target :: _ => .done (.ok ⟨0, ""⟩, removals ++ [target])
  | arguments => .call (.git arguments workdir) fun r => .done (r, removals)

def dryRun (removals : List String) : (op : CleanupOp) → CleanupProg (op.Ret × List String)
  | .git arguments workdir => dryRunGit removals workdir arguments
  | op => .call op fun r => .done (r, removals)

def reportVerdict (repoPath : String) (issue : Nat) (row : LeaseRow) : CleanupProg Verdict := do
  let (outcome, removals) ← (cleanupClosedIssueWorktreesWith canonical .report repoPath issue
    (some row.session)).serve dryRun []
  if removals.contains row.worktreePath then return .wouldClean
  else return .wouldKeep (match outcome with
    | .cleaned _ kept =>
        (keptFor row.worktreePath kept).getD (unclassifiedKeepReason issue row.worktreePath)
    | .warning reason => bounded reason
    | .noop => "issue " ++ issue.repr ++ " synced; kept worktree (no cleanup candidate): " ++
        row.worktreePath)

end Report

section Clean

inductive SyncAction where
  | kept
  | cleaned
  deriving DecidableEq, Repr

structure SyncDirectoryReport where
  path : String
  action : SyncAction
  reason : Option String
  deriving DecidableEq, Repr

structure CleanReport where
  releasedLeases : Nat
  cleaned : Nat
  directories : List SyncDirectoryReport
  warnings : List String
  deriving DecidableEq, Repr

def syncReleaseReason : String := "issue closed on the remote (issue sync)"

def classifyRow (issue : Nat) (kept : List String) (row : LeaseRow) :
    CleanupProg SyncDirectoryReport :=
  match keptFor row.worktreePath kept with
  | some reason => return ⟨row.worktreePath, .kept, some reason⟩
  | none => do
      let present ← .call (.pathExists row.worktreePath) .done
      return if present then
          ⟨row.worktreePath, .kept, some (unclassifiedKeepReason issue row.worktreePath)⟩
        else ⟨row.worktreePath, .cleaned, none⟩

def classifyRows (issue : Nat) (kept : List String) :
    List LeaseRow → CleanupProg (List SyncDirectoryReport)
  | [] => return []
  | row :: rest => do
      let entry ← classifyRow issue kept row
      let entries ← classifyRows issue kept rest
      return entry :: entries

def cleanPass (identity : String) (issue : Nat) (memo : HostMemo) :
    CleanupProg (AutoCleanupOutcome × HostMemo) := do
  match ← (CleanupContext.load identity).run with
  | .ok context =>
      cleanupClosedIssueWorktreesInContext canonical .sync .sync issue none none context memo
  | .error message => return (.warning ("issue " ++ issue.repr ++
      " closed; could not read worktree leases for cleanup: " ++ bounded message), memo)

def outcomeWarnings : AutoCleanupOutcome → List String
  | .warning reason => [bounded reason]
  | _ => []

def keptOf (rows : List LeaseRow) : AutoCleanupOutcome → List String
  | .warning reason => rows.map fun row => bounded reason ++ ": " ++ row.worktreePath
  | outcome => keptEntries outcome

def cleanIssue (identity : String) (issue : Nat) (rows : List LeaseRow) (memo : HostMemo) :
    CleanupProg (Except String CleanReport × HostMemo) := do
  match ← .call (.releaseActiveLeases identity issue syncReleaseReason) .done with
  | .error error => return (.error error.message, memo)
  | .ok released => do
      let (outcome, memo) ← cleanPass canonical identity issue memo
      let directories ← classifyRows issue (keptOf rows outcome) rows
      return (.ok ⟨released, (directories.filter (·.action == .cleaned)).length, directories,
        outcomeWarnings outcome⟩, memo)

end Clean

end Passes

end Phasegent.Cleanup
