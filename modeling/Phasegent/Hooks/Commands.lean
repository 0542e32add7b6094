import Phasegent.Hooks.Message
import Phasegent.Branch.Resolution
import Phasegent.Switch.Policy
import Mathlib.Data.List.Sort

namespace Phasegent.Hooks
open Branch Fallible
open Switch (GitError GitAnswer currentBranch)

structure RawOutput where
  status : Int
  stdout : Bytes
  deriving DecidableEq

/-- What the hooks read of the repository and of the link store. -/
structure HookRepo where
  head : GitAnswer
  defaultBranch : Option String
  rows : Option (List LinkedIssue)
  commentConfig : Except GitError RawOutput

inductive HookBindings where
  | none
  | issues (ids : List Nat)
  deriving DecidableEq, Repr

def namedBindings (branch : String) (default : Option String) : HookBindings :=
  match namedBranchIssue branch default with
  | some id => .issues [id]
  | none => .none

def scopeNumbers (refs : List ScopedIssueRef) : List Nat :=
  (refs.map (·.issueNumber)).dedup.insertionSort (· ≤ ·)

def scopesOf (refs : List ScopedIssueRef) (number : Nat) : List (String × String) :=
  ((refs.filter (·.issueNumber = number)).map fun ref => (ref.provider, ref.project)).dedup

def ambiguousMessage (ambiguous : List Nat) : String :=
  "issue(s) " ++ toString ambiguous ++ " are linked to this branch under more than one provider/project " ++
    "scope; refusing to guess which binding a commit belongs to"

def linkedBindings (refs : List ScopedIssueRef) : Except GitError HookBindings := do
  let ambiguous := (scopeNumbers refs).filter fun number => 1 < (scopesOf refs number).length
  refuse (ambiguous ≠ []) ⟨"conflict", ambiguousMessage ambiguous⟩
  return .issues (scopeNumbers refs)

def resolveHookIssueIds (repo : HookRepo) : Except GitError HookBindings :=
  match currentBranch repo.head with
  | .error error => if error.kind = "branch" then .ok .none else .error error
  | .ok branch =>
      if isProtectedBranch branch repo.defaultBranch then .ok .none
      else
        match repo.rows with
        | some rows =>
            if (linkedRefs rows).isEmpty then .ok (namedBindings branch repo.defaultBranch)
            else linkedBindings (linkedRefs rows)
        | none => .ok (namedBindings branch repo.defaultBranch)

def boundIssueIds (repo : HookRepo) : Except GitError (Option (List Nat)) := do
  match ← resolveHookIssueIds repo with
  | .none => return none
  | .issues ids => return some ids

section Marker

def splitOn (sep : UInt8) : Bytes → List Bytes
  | [] => [[]]
  | b :: rest =>
      if b = sep then [] :: splitOn sep rest
      else
        match splitOn sep rest with
        | [] => [[b]]
        | part :: parts => (b :: part) :: parts

def isCommentKey (key : Bytes) : Bool := key == ascii "core.commentchar" || key == ascii "core.commentstring"

-- The last record decides.
def readMarker (marker : Bytes) : List Bytes → Except GitError Bytes
  | [] => .ok marker
  | record :: rest =>
      if lf ∉ record then .error ⟨"git", "invalid Git comment configuration framing"⟩
      else if !isCommentKey (record.takeWhile (· ≠ lf)) then
        .error ⟨"git", "unexpected Git comment configuration key"⟩
      else readMarker ((record.dropWhile (· ≠ lf)).tail) rest

def checkMarker (marker : Bytes) : Except GitError Bytes := do
  refuse (marker = ascii "auto") ⟨"argument", "issue-bound hooks require a fixed core.commentChar/" ++
    "core.commentString; select a fixed marker instead of auto; message unchanged"⟩
  refuse (marker = [] ∨ lf ∈ marker ∨ cr ∈ marker)
    ⟨"argument", "invalid fixed Git comment marker; message unchanged"⟩
  return marker

def commentMarker (config : Except GitError RawOutput) : Except GitError Bytes := do
  let output ← config
  if output.status = 1 then return ascii "#"
  refuse (output.status ≠ 0) ⟨"git", "cannot read effective Git comment configuration; message unchanged"⟩
  refuse (output.stdout.getLast? ≠ some 0) ⟨"git", "invalid Git comment configuration framing"⟩
  let marker ← readMarker (ascii "#") ((splitOn 0 output.stdout).filter (· ≠ []))
  checkMarker marker

end Marker

inductive HookKind where
  | prepareCommitMsg
  | commitMsg
  deriving DecidableEq, Repr

def HookKind.name : HookKind → String
  | .prepareCommitMsg => "prepare-commit-msg"
  | .commitMsg => "commit-msg"

def skipSources : List String := ["merge", "squash", "commit"]

inductive HookReport where
  | noop (hook : HookKind) (reason : String)
  | appended (issueIds : List Nat) (trailers : List String) (trailer : Option String)
  | valid
  deriving DecidableEq, Repr

def trailer (id : Nat) : String := "Refs #" ++ toString id

def appendedReport (ids : List Nat) : HookReport :=
  .appended ids (ids.map trailer) (match ids with | [id] => some (trailer id) | _ => none)

/-- The report, and the bytes of the message file afterwards. -/
def prepareCommitMsg (repo : HookRepo) (write : Except GitError Unit) (bytes : Bytes)
    (source : Option String) : Except GitError (HookReport × Bytes) := do
  if source.any skipSources.contains then return (.noop .prepareCommitMsg "git-generated source", bytes)
  match ← boundIssueIds repo with
  | none => return (.noop .prepareCommitMsg "no branch binding", bytes)
  | some ids =>
      let marker ← commentMarker repo.commentConfig
      let message := Message.new bytes marker
      if message.references ≠ [] then
        return (.noop .prepareCommitMsg "message already references an issue", bytes)
      write
      return (appendedReport ids, message.insertMany ids)

def conflictMessage (conflicts ids : List Nat) : String :=
  "message references issue(s) " ++ toString conflicts ++ " but this branch is bound to issue(s) " ++
    toString ids ++ "; fix the message or commit with --no-verify"

def duplicateMessage (duplicates id : Nat) : String :=
  "message contains " ++ toString duplicates ++ " identical '" ++ trailer id ++ "' trailers; keep exactly one"

def refuseDuplicates (message : Message) : List Nat → Except GitError Unit
  | [] => .ok ()
  | id :: rest => do
      refuse (1 < message.generatedCount id) ⟨"conflict", duplicateMessage (message.generatedCount id) id⟩
      refuseDuplicates message rest

def commitMsg (repo : HookRepo) (bytes : Bytes) : Except GitError HookReport := do
  match ← boundIssueIds repo with
  | none => return .noop .commitMsg "no branch binding"
  | some ids =>
      let marker ← commentMarker repo.commentConfig
      let message := Message.new bytes marker
      let conflicts := message.references.filter (· ∉ ids)
      refuse (conflicts ≠ []) ⟨"conflict", conflictMessage conflicts ids⟩
      refuseDuplicates message ids
      return .valid

end Phasegent.Hooks
