import Mathlib.Data.List.Basic

namespace Phasegent

inductive PhasegentError where
  | config (message : String)
  | auth (message : String)
  | request (operation message : String)
  | http (operation : String) (status : Nat) (message : String)
  | decode (operation message : String)
  | notFound (operation message : String)
  | pagination (operation message : String)
  | notSupported (provider operation message : String)
  deriving DecidableEq, Repr

def PhasegentError.message : PhasegentError → String
  | .config message | .auth message | .request _ message | .http _ _ message
  | .decode _ message | .notFound _ message | .pagination _ message
  | .notSupported _ _ message => message

def PhasegentError.unsupported (provider operation : String) : PhasegentError :=
  .notSupported provider operation (provider ++ " does not support " ++ operation)

def PhasegentError.isNotSupported : PhasegentError → Bool
  | .notSupported .. => true
  | _ => false

structure IssueProjectRef where
  id : Nat
  name : String
  identifier : Option String
  deriving DecidableEq, Repr

structure IssueSummary where
  id : Nat
  number : Nat
  title : String
  body : String
  state : String
  htmlUrl : Option String
  project : Option IssueProjectRef
  deriving DecidableEq, Repr

inductive ProviderKind where
  | redmine | localStore | forgejo
  deriving DecidableEq, Repr

namespace ProviderKind

def asStr : ProviderKind → String
  | .redmine => "redmine"
  | .localStore => "local"
  | .forgejo => "forgejo"

def providerGitlab : String := "gitlab"

def fromStr (value : String) : Except String ProviderKind :=
  if value = "redmine" then .ok .redmine
  else if value = "local" then .ok .localStore
  else if value = "forgejo" then .ok .forgejo
  else if value = providerGitlab then
    .error ("tracking provider '" ++ value ++ "' is no longer supported; " ++
      "phasegent tracks only 'redmine', 'local', and 'forgejo'")
  else .error ("invalid provider '" ++ value ++ "'; expected redmine, local, or forgejo")

theorem fromStr_ok {value : String} {kind : ProviderKind} (parsed : fromStr value = .ok kind) :
    value = kind.asStr := by
  unfold fromStr at parsed
  split at parsed
  · cases parsed
    assumption
  split at parsed
  · cases parsed
    assumption
  split at parsed
  · cases parsed
    assumption
  split at parsed
  · cases parsed
  · cases parsed

end ProviderKind

end Phasegent
