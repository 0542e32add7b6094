import Phasegent.Interleaving.Embedding
import Phasegent.Sql.Transaction
import Phasegent.Task.Store
import Mathlib.Data.String.Basic

namespace Phasegent.Task
open Fallible Interleaving Sql Phasegent.Lease

def maxProviderLen : Nat := 64

def maxProjectLen : Nat := 200

def maxExternalIdLen : Nat := 128

structure IssueKey where
  provider : String
  project : String
  externalId : String
  deriving DecidableEq, Repr

def validatePart (value field : String) (maxChars : Nat) : Except String Unit := do
  let trimmed := trimText value
  refuse (trimmed = "") (field ++ " must be non-empty")
  refuse (maxChars < trimmed.toList.length)
    (field ++ " must be at most " ++ toString maxChars ++ " characters")
  refuse (trimmed.toList.any Text.isControl) (field ++ " must not contain control characters")

def IssueKey.new (provider project externalId : String) : Except String IssueKey := do
  validatePart provider "provider" maxProviderLen
  validatePart project "project" maxProjectLen
  validatePart externalId "external_id" maxExternalIdLen
  return ⟨trimText provider, trimText project, trimText externalId⟩

def IssueKey.fromNumber (provider project : String) (issue : Nat) : Except String IssueKey := do
  refuse (issue = 0) "issue number must be greater than zero"
  IssueKey.new provider project (toString issue)

-- The primary key of a link row.
structure Slot where
  repoKey : String
  branch : String
  provider : String
  project : String
  externalId : String
  deriving DecidableEq, Repr

def LinkRow.slot (row : LinkRow) : Slot :=
  ⟨row.repoKey, row.branch, row.provider, row.project, row.externalId⟩

def LinkRow.issue (row : LinkRow) : IssueKey := ⟨row.provider, row.project, row.externalId⟩

def LinkRow.relinked (row : LinkRow) (issueNumber : Nat) (source : String) (now : Int) : LinkRow :=
  { row with
    status := .linked
    issueNumber := asI64 issueNumber
    source := source
    updatedAt := now
    detachedAt := none
    detachedReason := none }

def LinkRow.detached (row : LinkRow) (reason : String) (now : Int) : LinkRow :=
  { row with
    status := .detached
    updatedAt := now
    detachedAt := some now
    detachedReason := some reason }

def IssueKey.slot (issue : IssueKey) (repoKey branch : String) : Slot :=
  ⟨repoKey, branch, issue.provider, issue.project, issue.externalId⟩

structure LinkParams where
  repoKey : String
  branch : String
  issue : IssueKey
  issueNumber : Nat
  source : String
  now : Int
  deriving DecidableEq, Repr

def LinkParams.slot (params : LinkParams) : Slot := params.issue.slot params.repoKey params.branch

inductive LinkOutcome where
  | created | alreadyLinked | relinked
  deriving DecidableEq, Repr

inductive DetachOutcome where
  | detached | alreadyDetached | notFound
  deriving DecidableEq, Repr

structure TaskTables where
  bindings : List BindingRow
  memberships : List MembershipRow
  links : List LinkRow
  deriving DecidableEq, Repr

section Statements

inductive Statement where
  | insertBinding (key : TaskKey) (now : Int)
  | selectBinding (key : TaskKey)
  | bindingsForRepoNumber (repoKey : String) (number : Nat)
  | countBindings (taskId : Int)
  | insertMembership (repoKey : String) (taskId now : Int)
  | linkStatus (slot : Slot)
  | insertLink (slot : Slot) (issueNumber : Nat) (source : String) (now : Int)
  | relink (slot : Slot) (issueNumber : Nat) (source : String) (now : Int)
  | linkTask (slot : Slot)
  | attachTask (slot : Slot) (taskId : Int)
  | detachLink (slot : Slot) (reason : String) (now : Int)
  | issuesForBranch (repoKey branch : String)

abbrev Statement.Ret : Statement → Type
  | .insertBinding .. | .insertMembership .. | .insertLink .. | .relink .. | .attachTask ..
  | .detachLink .. => Except String Unit
  | .selectBinding _ => Except String (Option TaskBinding)
  | .bindingsForRepoNumber .. => Except String (List TaskBinding)
  | .countBindings _ => Except String Nat
  | .linkStatus _ => Except String (Option LinkStatus)
  | .linkTask _ => Except String (Option (Option Int))
  | .issuesForBranch .. => Except String (List LinkRow)

def TaskKey.keys (key : TaskKey) (row : BindingRow) : Bool :=
  row.provider == key.provider && row.inst == key.inst && row.project == key.project &&
    row.externalId == key.externalId

namespace TaskTables
variable (tables : TaskTables)

def empty : TaskTables := ⟨[], [], []⟩

-- The id after the greatest one: rows are never deleted.
def nextTaskId : Int := (tables.bindings.map (·.taskId)).foldr max 0 + 1

def insertBinding (key : TaskKey) (now : Int) : Except String TaskTables := do
  refuse (key.provider = "" ∨ key.inst = "" ∨ key.project = "" ∨ key.externalId = "" ∨ now ≤ 0)
    "CHECK constraint failed: task_bindings"
  if tables.bindings.any key.keys then return tables
  else return { tables with bindings := tables.bindings ++ [key.row tables.nextTaskId now] }

def insertMembership (repoKey : String) (taskId now : Int) : Except String TaskTables := do
  refuse (repoKey = "" ∨ now ≤ 0) "CHECK constraint failed: task_repo_memberships"
  if tables.memberships.any fun row => row.repoKey == repoKey && row.taskId == taskId then
    return tables
  else return { tables with memberships := tables.memberships ++ [⟨repoKey, taskId, now⟩] }

def row? (slot : Slot) : Option LinkRow := tables.links.find? (·.slot == slot)

def newLink (slot : Slot) (issueNumber : Nat) (source : String) (now : Int) : LinkRow where
  repoKey := slot.repoKey
  branch := slot.branch
  provider := slot.provider
  project := slot.project
  externalId := slot.externalId
  taskId := none
  issueNumber := asI64 issueNumber
  status := .linked
  source := source
  createdAt := now
  updatedAt := now
  detachedAt := none
  detachedReason := none

def insertLink (slot : Slot) (issueNumber : Nat) (source : String) (now : Int) :
    Except String TaskTables := do
  refuse (asI64 issueNumber ≤ 0 ∨ now ≤ 0) "CHECK constraint failed: branch_issue_links"
  refuse (tables.row? slot).isSome "UNIQUE constraint failed: branch_issue_links.repo_key"
  return { tables with links := tables.links ++ [newLink slot issueNumber source now] }

def updateLink (slot : Slot) (set : LinkRow → LinkRow) : TaskTables :=
  { tables with links := update (·.slot == slot) set tables.links }

def relink (slot : Slot) (issueNumber : Nat) (source : String) (now : Int) :
    Except String TaskTables := do
  refuse ((tables.row? slot).isSome ∧ (asI64 issueNumber ≤ 0 ∨ now ≤ 0))
    "CHECK constraint failed: branch_issue_links"
  return tables.updateLink slot (·.relinked issueNumber source now)

def attachTask (slot : Slot) (taskId : Int) : TaskTables :=
  tables.updateLink slot fun row => { row with taskId := some taskId }

def detachLink (slot : Slot) (reason : String) (now : Int) : Except String TaskTables := do
  refuse ((tables.row? slot).isSome ∧ now ≤ 0) "CHECK constraint failed: branch_issue_links"
  return tables.updateLink slot (·.detached reason now)

def issuesForBranch (repoKey branch : String) : List LinkRow :=
  orderAsc (fun row => toLex (row.provider, toLex (row.project, row.externalId))) <|
    tables.links.filter fun row =>
      row.repoKey == repoKey && row.branch == branch && row.status == .linked

def selectBinding (urls : UrlLibrary) (key : TaskKey) : Except String (Option TaskBinding) :=
  match tables.bindings.find? key.keys with
  | none => return none
  | some row => do
      let binding ← decodeBinding urls row
      return some binding

def written (result : Except String TaskTables) : Except String Unit × TaskTables :=
  match result with
  | .ok tables' => (.ok (), tables')
  | .error text => (.error text, tables)

end TaskTables

def Statement.perform (urls : UrlLibrary) (tables : TaskTables) :
    (s : Statement) → s.Ret × TaskTables
  | .insertBinding key now => tables.written (tables.insertBinding key now)
  | .selectBinding key => (tables.selectBinding urls key, tables)
  | .bindingsForRepoNumber repoKey number =>
      (Task.bindingsForRepoNumber urls tables.bindings tables.memberships repoKey number, tables)
  | .countBindings taskId => (.ok (tables.bindings.filter (·.taskId == taskId)).length, tables)
  | .insertMembership repoKey taskId now => tables.written (tables.insertMembership repoKey taskId now)
  | .linkStatus slot => (.ok ((tables.row? slot).map (·.status)), tables)
  | .insertLink slot issueNumber source now =>
      tables.written (tables.insertLink slot issueNumber source now)
  | .relink slot issueNumber source now => tables.written (tables.relink slot issueNumber source now)
  | .linkTask slot => (.ok ((tables.row? slot).map (·.taskId)), tables)
  | .attachTask slot taskId => (.ok (), tables.attachTask slot taskId)
  | .detachLink slot reason now => tables.written (tables.detachLink slot reason now)
  | .issuesForBranch repoKey branch => (.ok (tables.issuesForBranch repoKey branch), tables)

end Statements

end Phasegent.Task
