import Phasegent.Memo.Table
import Phasegent.Ordered.Search
import Phasegent.Provider.Api
import Phasegent.Task.Store
import Mathlib.Data.Prod.Lex
import Mathlib.Data.String.Basic

namespace Phasegent.Closure
open Fallible Phasegent.Task
open Phasegent.Lease (MembershipRow bounded)

inductive IssueClosure where
  | closed
  | keep (reason : String)
  deriving DecidableEq, Repr

def IssueClosure.of : Except String Unit → IssueClosure
  | .ok () => .closed
  | .error reason => .keep reason

structure LinkScope where
  provider : String
  project : String
  externalId : String
  deriving DecidableEq, Repr

structure IssueStateFact where
  state : String
  projectId : Option Nat
  projectIdentifier : Option String
  deriving DecidableEq, Repr

structure TaskRouteFact where
  provider : String
  project : String
  inst : String
  fact : IssueStateFact
  deriving DecidableEq, Repr

structure TaskScopeRef where
  taskId : Int
  provider : String
  project : String
  inst : String
  deriving DecidableEq, Repr

abbrev GetIssue := Nat → Except PhasegentError IssueStateFact

-- What the answers depend on: Git for the identity of a checkout, the stored rows and the providers.
structure ClosureWorld (P : Type) where
  linkKey : P → Except String String
  repoKey : P → Except String String
  links : List LinkRow
  store : Except String (List BindingRow × List MembershipRow)
  configured : Except String (String × GetIssue)
  pinned : TaskBinding → Except PhasegentError GetIssue

section Reads
variable {P : Type} (world : ClosureWorld P)

def storedNumber (issue : Nat) : Int := min issue i64Max

def branchesForNumber (links : List LinkRow) (repoKey : String) (issue : Nat) : List LinkRow :=
  Sql.orderAsc (fun row => toLex (row.provider, toLex (row.project, toLex (row.externalId, row.branch)))) <|
    links.filter fun row =>
      row.repoKey == repoKey && row.issueNumber == storedNumber issue && row.status == .linked

def scopes (path : P) (issue : Nat) : Except String (List LinkScope) := do
  let key ← world.linkKey path
  return (branchesForNumber world.links key issue).map fun row =>
    ⟨row.provider, row.project, row.externalId⟩

structure IssueStateReader (P : Type) where
  provider : Except String String
  state : Nat → Except String (Option IssueStateFact)
  ownTaskState : TaskScopeRef → Nat → Except String TaskRouteFact
  associatedTaskState : P → Nat → Except String (Option TaskRouteFact)

def configuredState (issue : Nat) : Except String (Option IssueStateFact) := do
  let (_, getIssue) ← world.configured
  let fact ← (getIssue issue).mapError fun error => bounded error.message
  return some fact

def configuredReader : IssueStateReader P where
  provider := world.configured.map Prod.fst
  state := configuredState world
  ownTaskState _ _ := .error "this source has no task-aware closure dispatch"
  associatedTaskState _ _ := .ok none

section Tasks
variable (urls : UrlLibrary)

def changedReference (issue : Nat) : String :=
  "issue " ++ issue.repr ++ " durable task reference changed after the directory proof; " ++
    "refusing to read it"

def readTask (rows : List BindingRow) (task : TaskScopeRef) (issue : Nat) :
    Except String TaskRouteFact := do
  let found ← (bindingForTaskId urls rows task.taskId).mapError fun reason =>
    "issue " ++ issue.repr ++ ": " ++ reason
  let some binding := found
    | throw ("issue " ++ issue.repr ++ ": durable task " ++ toString task.taskId ++ " has no binding")
  refuse (binding.key.provider ≠ task.provider ∨ binding.key.project ≠ task.project ∨
    binding.key.inst ≠ task.inst) (changedReference issue)
  let getIssue ← (world.pinned binding).mapError fun error =>
    "issue " ++ issue.repr ++ ": the durable task provider is unavailable: " ++ bounded error.message
  let fact ← (getIssue issue).mapError fun error => bounded error.message
  return ⟨binding.key.provider, binding.key.project, binding.key.inst, fact⟩

def taskRef (binding : TaskBinding) : TaskScopeRef :=
  ⟨binding.taskId, binding.key.provider, binding.key.project, binding.key.inst⟩

def associatedTaskState (path : P) (issue : Nat) : Except String (Option TaskRouteFact) := do
  let repoKey ← world.repoKey path
  let (rows, members) ← world.store
  let tasks ← (bindingsForRepoNumber urls rows members repoKey issue).mapError fun reason =>
    "issue " ++ issue.repr ++ ": the durable task lookup failed: " ++ bounded reason
  match tasks with
  | [] => return none
  | [single] => do
      let fact ← readTask world urls rows (taskRef single) issue
      return some fact
  | _ => throw ("issue " ++ issue.repr ++ " has several durable tasks in this repository; " ++
      "refusing to guess a provider")

def taskAwareReader : IssueStateReader P where
  provider := world.configured.map Prod.fst
  state := configuredState world
  ownTaskState task issue := do
    let (rows, _) ← world.store
    readTask world urls rows task issue
  associatedTaskState := associatedTaskState world urls

end Tasks

end Reads

inductive ClosureRoute where
  | legacy | task
  deriving DecidableEq, Repr

def distinctScopes (scopes : List LinkScope) : List (String × String) :=
  (Ordered.dedup ((scopes.map fun scope => toLex (scope.provider, scope.project)).insertionSort
    (· ≤ ·))).map ofLex

def formatScopes (distinct : List (String × String)) : String :=
  ", ".intercalate (distinct.map fun scope => scope.1 ++ "/" ++ scope.2)

def projectAgrees (scopeProject : String) (fact : IssueStateFact) : Option Bool :=
  if fact.projectId.isNone && fact.projectIdentifier.isNone then none
  else some (fact.projectId.any (·.repr == scopeProject) ||
    fact.projectIdentifier.any (· == scopeProject))

def sameIgnoringCase (left right : String) : Bool :=
  left.toList.map Char.toLower == right.toList.map Char.toLower

section Verdicts
variable {P : Type} (world : ClosureWorld P) (reader : IssueStateReader P)

def checkScopes (route : ClosureRoute) (issue : Nat) (routeProvider : String)
    (routeProject : Option String) (scopes : List LinkScope) : Except String Unit := do
  let distinct := distinctScopes scopes
  refuse (1 < distinct.length) ("issue " ++ issue.repr ++ " has conflicting link scopes (" ++
    formatScopes distinct ++ "); refusing to guess a provider")
  match distinct.head? with
  | none => pure ()
  | some (provider, project) =>
      refuse (provider ≠ routeProvider) ("issue " ++ issue.repr ++ " is linked to provider '" ++
        provider ++ "' but its resolved route is '" ++ routeProvider ++
        "'; refusing to dispatch across providers")
      refuse (route = .task ∧ some project ≠ routeProject) ("issue " ++ issue.repr ++ " link scope '" ++
        project ++ "' does not match its durable task project")
  match scopes.find? fun scope => Text.parseU64 scope.externalId.toList != some issue with
  | some scope => throw ("issue " ++ issue.repr ++ " link external id '" ++ scope.externalId ++
      "' does not match the lease number")
  | none => return ()

def checkFact (issue : Nat) (scopes : List LinkScope) (fact : IssueStateFact) :
    Except String Unit := do
  match (distinctScopes scopes).head? with
  | none => pure ()
  | some (_, project) =>
      refuse (projectAgrees project fact = some false)
        ("issue " ++ issue.repr ++ " project does not match its link scope '" ++ project ++ "'")
  refuse (sameIgnoringCase fact.state "closed" = false)
    ("issue " ++ issue.repr ++ " state '" ++ fact.state ++ "' is not closed")

def decideWith (route : ClosureRoute) (path : P) (issue : Nat) (routeProvider : String)
    (routeProject : Option String) (read : Except String (Option IssueStateFact)) : IssueClosure :=
  .of do
    let scopes ← scopes world path issue
    checkScopes route issue routeProvider routeProject scopes
    let fact ← read
    match fact with
    | none => throw ("issue " ++ issue.repr ++ " was not found on the resolved provider")
    | some fact => checkFact issue scopes fact

def decide (path : P) (issue : Nat) : IssueClosure :=
  match reader.provider with
  | .error reason => .keep reason
  | .ok configured => decideWith world .legacy path issue configured none (reader.state issue)

def ownTaskRead (task : TaskScopeRef) (issue : Nat) : Except String (Option IssueStateFact) := do
  let routed ← reader.ownTaskState task issue
  refuse (routed.provider ≠ task.provider ∨ routed.project ≠ task.project ∨ routed.inst ≠ task.inst)
    (changedReference issue)
  return some routed.fact

def ownTaskVerdict (path : P) (task : TaskScopeRef) (issue : Nat) : IssueClosure :=
  decideWith world .task path issue task.provider (some task.project) (ownTaskRead reader task issue)

def associatedVerdict (path : P) (issue : Nat) : IssueClosure :=
  match reader.associatedTaskState path issue with
  | .error reason => .keep reason
  | .ok none => decide world reader path issue
  | .ok (some routed) => decideWith world .task path issue routed.provider (some routed.project)
      (.ok (some routed.fact))

end Verdicts

section Cache
variable {P : Type} (lossy : P → String)

def routeLegacy : Nat := 0

def routeOwn : Nat := 1

def routeAssociated : Nat := 2

abbrev CacheKey := String × Nat × Nat

abbrev Cache := List (CacheKey × IssueClosure)

def cached (tag : Nat) (path : P) (issue : Nat) (decide : IssueClosure) (cache : Cache) :
    IssueClosure × Cache :=
  Memo.consult (lossy path, tag, issue) decide cache

variable (world : ClosureWorld P) (reader : IssueStateReader P)

def closure (path : P) (issue : Nat) : Cache → IssueClosure × Cache :=
  cached lossy routeLegacy path issue (decide world reader path issue)

def ownTaskClosure (path : P) (task : TaskScopeRef) (issue : Nat) : Cache → IssueClosure × Cache :=
  cached lossy routeOwn path issue (ownTaskVerdict world reader path task issue)

def associatedClosure (path : P) (issue : Nat) : Cache → IssueClosure × Cache :=
  cached lossy routeAssociated path issue (associatedVerdict world reader path issue)

def invalidate (path : P) (issues : List Nat) (cache : Cache) : Cache :=
  cache.filter fun entry => entry.1.1 != lossy path || !issues.contains entry.1.2.2

def refresh (_ : Cache) : Cache := []

end Cache

end Phasegent.Closure
