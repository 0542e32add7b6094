import Phasegent.Lease.Row
import Phasegent.Sql.Table
import Phasegent.Task.Key
import Mathlib.Data.Prod.Lex

namespace Phasegent.Task
open Fallible Sql Phasegent.Lease

inductive LinkStatus where
  | linked | detached
  deriving DecidableEq, Repr

structure LinkRow where
  repoKey : String
  branch : String
  provider : String
  project : String
  externalId : String
  taskId : Option Int
  issueNumber : Int
  status : LinkStatus
  source : String
  createdAt : Int
  updatedAt : Int
  detachedAt : Option Int
  detachedReason : Option String
  deriving DecidableEq, Repr

-- The cast of a stored integer to an unsigned one.
def asU64 (number : Int) : Nat := (number % 2 ^ 64).toNat

section Reads
variable (urls : UrlLibrary)

def bindingForTaskId (bindings : List BindingRow) (taskId : Int) :
    Except String (Option TaskBinding) := do
  refuse (taskId ≤ 0) "task id must be greater than zero"
  match bindings.find? (·.taskId == taskId) with
  | none => return none
  | some row => do
      let binding ← decodeBinding urls row
      return some binding

def repoNumberRows (bindings : List BindingRow) (memberships : List MembershipRow)
    (repoKey : String) (number : Nat) : List BindingRow :=
  orderAsc (·.taskId) <| memberships.flatMap fun member =>
    bindings.filter fun row =>
      member.repoKey == repoKey && row.taskId == member.taskId && row.externalId == toString number

def bindingsForRepoNumber (bindings : List BindingRow) (memberships : List MembershipRow)
    (repoKey : String) (number : Nat) : Except String (List TaskBinding) := do
  let repoKey ← validateRepoKey repoKey
  refuse (number = 0 ∨ i64Max < number) "task repo number must be a positive decimal number"
  (repoNumberRows bindings memberships repoKey number).mapM (decodeBinding urls)

end Reads

def branchTaskRefs (links : List LinkRow) (repoKey branch : String) : List (Nat × Int) :=
  let referenced := links.filterMap fun row =>
    if row.repoKey = repoKey ∧ row.branch = branch then
      row.taskId.map fun taskId => (row.issueNumber, taskId)
    else none
  (orderAsc toLex referenced).map fun ref => (asU64 ref.1, ref.2)

end Phasegent.Task
