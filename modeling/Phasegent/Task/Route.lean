import Phasegent.Task.Store

namespace Phasegent.Task
open Fallible Phasegent.Lease

structure ProviderContext where
  provider : Option ProviderKind
  apiBase : Option String
  repository : Option String
  projectId : Option String
  closeStatusId : Option String
  deriving DecidableEq, Repr

def ProviderContext.explicit (context : ProviderContext) : Bool :=
  context.provider.isSome || context.repository.isSome || context.projectId.isSome ||
    context.apiBase.isSome

-- The identity tables of an opened store, an older store lacking some of them, with their keys.
structure IdentityStore where
  bindings : Option (List BindingRow)
  memberships : Option (List MembershipRow)
  links : Option (List LinkRow)
  bindingIds : ((bindings.getD []).map (·.taskId)).Nodup
  membershipKeys : ((memberships.getD []).map fun row => (row.repoKey, row.taskId)).Nodup
  deriving DecidableEq

def ambiguous : PhasegentError :=
  .config ("multiple durable tasks match this number in the repository; pass --provider, " ++
    "--repository/--project-id or --api-base to select one")

section Routes
variable (urls : UrlLibrary)

def normalizeInstance (kind : ProviderKind) (endpoint project : String) :
    Except PhasegentError String :=
  (canonicalInstance urls kind (some endpoint) project).mapError .config

def endpointMatches (kind : ProviderKind) (apiBase : Option String) (project inst : String) :
    Except PhasegentError Bool :=
  match apiBase with
  | none => return true
  | some base => do
      let normalized ← normalizeInstance urls kind base project
      return normalized == inst

def fieldsMatchContext (provider inst project : String) (context : ProviderContext) :
    Except PhasegentError Bool :=
  if context.provider.any (·.asStr != provider) then return false
  else if provider = "forgejo" then do
    refuse (context.projectId.isSome ∨ context.closeStatusId.isSome)
      (.config "Forgejo does not support --project-id or --close-status-id")
    if context.repository.any (· != project) then return false
    else endpointMatches urls .forgejo context.apiBase project inst
  else if provider = "redmine" then
    if context.projectId.any (· != project) then return false
    else endpointMatches urls .redmine context.apiBase project inst
  else if provider = "local" then
    return context.apiBase.isNone && context.repository.isNone && context.projectId.isNone
  else return true

def bindingMatchesContext (context : ProviderContext) (binding : TaskBinding) :
    Except PhasegentError Bool :=
  fieldsMatchContext urls binding.key.provider binding.key.inst binding.key.project context

-- One reference of the branch to the number, read through to its task.
def readReference (bindings : List BindingRow) (number : Nat) (taskId : Int) :
    Except PhasegentError TaskBinding := do
  let found ← (bindingForTaskId urls bindings taskId).mapError .config
  match found with
  | none =>
      throw (.config ("branch task reference " ++ toString taskId ++ " has no durable task binding"))
  | some binding => do
      refuse (binding.key.externalNumber ≠ some number)
        (.config ("branch link for number " ++ toString number ++ " references a different " ++
          "durable task;                      refusing to redirect the requested number"))
      return binding

def branchNumberRefs (links : Option (List LinkRow)) (repoKey branch : String) (number : Nat) :
    List Int :=
  ((branchTaskRefs (links.getD []) repoKey branch).filter (·.1 == number)).map (·.2)

def branchCandidates (bindings : List BindingRow) (links : Option (List LinkRow))
    (repo : Option (String × String)) (number : Nat) : Except PhasegentError (List TaskBinding) :=
  match repo with
  | none => return []
  | some (repoKey, branch) => do
      let candidates ← (branchNumberRefs links repoKey branch number).mapM
        (readReference urls bindings number)
      refuse (1 < candidates.length) ambiguous
      return candidates

def selectOne (context : ProviderContext) (candidates : List TaskBinding) :
    Except PhasegentError (List TaskBinding) := do
  let selected ← keep (bindingMatchesContext urls context) candidates
  refuse (context.explicit = false ∨ selected = []) ambiguous
  refuse (1 < selected.length) ambiguous
  return selected

def memberCandidates (bindings : List BindingRow) (memberships : Option (List MembershipRow))
    (repo : Option (String × String)) (context : ProviderContext) (number : Nat) :
    Except PhasegentError (List TaskBinding) :=
  match memberships, repo with
  | some memberships, some (repoKey, _) => do
      let candidates ← (bindingsForRepoNumber urls bindings memberships repoKey number).mapError
        .config
      if 1 < candidates.length then selectOne urls context candidates else return candidates
  | _, _ => return []

def confirmCandidate (context : ProviderContext) (candidates : List TaskBinding) :
    Except PhasegentError (Option TaskBinding) :=
  match candidates with
  | [] => return none
  | binding :: _ => do
      let agreed ← bindingMatchesContext urls context binding
      refuse (agreed = false)
        (.config ("explicit provider/endpoint/project does not match durable task " ++
          binding.key.externalId ++ "; refusing to redirect the bound task"))
      return some binding

def resolveNumberBinding (store : Option IdentityStore) (repo : Option (String × String))
    (context : ProviderContext) (number : Nat) : Except PhasegentError (Option TaskBinding) :=
  match store with
  | none => return none
  | some store =>
      match store.bindings with
      | none => return none
      | some bindings => do
          let referenced ← branchCandidates urls bindings store.links repo number
          let candidates ← (if referenced = [] then
            memberCandidates urls bindings store.memberships repo context number else .ok referenced)
          confirmCandidate urls context candidates

end Routes

end Phasegent.Task
