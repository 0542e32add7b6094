import Phasegent.Local.Issues
import Phasegent.Redmine.Status
import Phasegent.Sql.Nested
import Phasegent.Timer.Auto

namespace Phasegent.Redmine.RedmineProvider
open Fallible Interleaving Workflow

def statusNext (number : Nat) : IssueM StatusNextReport := do
  let statuses ← ask .listIssueStatuses
  let current ← currentStatus number "issue status next"
  let policyNames := canonicalAllowedNext current.name
  let (allowedNext, missing) := resolveNext statuses (policyNames.getD [])
  return {
    issue := number
    current := StatusRef.fromIssueStatus current
    allowedNext := allowedNext
    allowedNextMissingOnServer := missing
    policySource := statusPolicySource
    advisory := policyNames.isNone
    caveat := statusPolicyCaveat
    recovery := recoveryHint number }

end Phasegent.Redmine.RedmineProvider

namespace Phasegent.Status
open Fallible Interleaving Workflow Redmine Local Timer

-- An empty selector asks for the first status that the policy allows.
inductive StatusCommand where
  | set (number : Nat) (status : String)
  | advance (number : Nat) (status : String)
  deriving DecidableEq, Repr

namespace StatusCommand

def number : StatusCommand → Nat
  | .set number _ | .advance number _ => number

def selector : StatusCommand → String
  | .set _ status | .advance _ status => status

end StatusCommand

inductive ProviderDispatcher where
  | redmine (provider : RedmineProvider) (isRouted : Bool)
  | localStore

def ProviderDispatcher.kind : ProviderDispatcher → ProviderKind
  | .redmine .. => .redmine
  | .localStore => .localStore

inductive StatusOp where
  | verifyRedmineScope (number : Nat)
  | issue (op : IssueOp)
  | store (op : LocalOp)
  | timer (op : TimerOp)

abbrev StatusOp.Ret : StatusOp → Type
  | .verifyRedmineScope _ => Except PhasegentError Unit
  | .issue op => op.Ret
  | .store op => op.Ret
  | .timer op => op.Ret

abbrev StatusM := Attempt StatusOp StatusOp.Ret PhasegentError

def issueEmbedding : Embedding IssueOp IssueOp.Ret StatusOp StatusOp.Ret where
  effect := .issue
  answer _ := id

def storeEmbedding : Embedding LocalOp LocalOp.Ret StatusOp StatusOp.Ret where
  effect := .store
  answer _ := id

def timerEmbedding : Embedding TimerOp TimerOp.Ret StatusOp StatusOp.Ret where
  effect := .timer
  answer _ := id

inductive StatusReply where
  | summary (issue : IssueSummary)
  | transition (outcome : StatusTransitionOutcome)
  deriving DecidableEq, Repr

def noRouteError (report : StatusNextReport) : PhasegentError :=
  .request "issue status advance" ("no automatic transition: current status '" ++ report.current.name ++
    "' has no policy-allowed next; recovery: " ++ report.recovery)

def autoTargetFromReport (report : StatusNextReport) : Except PhasegentError String :=
  match report.allowedNext with
  | next :: _ => .ok next.name
  | [] => .error (noRouteError report)

section Commands
variable (render : PhasegentError → String)

def effectiveTarget (next : StatusM StatusNextReport) (status : String) : StatusM String :=
  if status = "" then do
    let report ← next
    fromExcept (autoTargetFromReport report)
  else return status

-- What the timer answers becomes a warning; the status change stands.
def timerHook (number : Nat) (kind : ProviderKind) (statusName : String) : StatusM Unit := do
  let _ ← (outcome (embed timerEmbedding (autoTransitionTimer render number kind statusName)) :
    StatusM (Except String AutoTimerOutcome))
  return ()

def scopeGuard (isRouted : Bool) (number : Nat) : StatusM Unit :=
  if isRouted then return () else request (.verifyRedmineScope number) id

def advanceRedmine (provider : RedmineProvider) (isRouted : Bool) (number : Nat) (status : String) :
    StatusM StatusReply := do
  scopeGuard isRouted number
  let effective ← effectiveTarget (embed issueEmbedding (RedmineProvider.statusNext number)) status
  let result ← embed issueEmbedding (provider.advanceIssueStatus number effective)
  timerHook render number .redmine effective
  return .transition result

def advanceLocal (number : Nat) (status : String) : StatusM StatusReply := do
  let effective ← effectiveTarget (embed storeEmbedding (Local.statusNext number)) status
  let result ← embed storeEmbedding (Local.advanceIssueStatus number effective)
  timerHook render number .localStore effective
  return .transition result

def setRedmine (provider : RedmineProvider) (isRouted : Bool) (number : Nat) (status : String) :
    StatusM StatusReply := do
  scopeGuard isRouted number
  let statuses ← embed issueEmbedding (ask .listIssueStatuses)
  let target ← fromExcept (selectStatusByValue statuses status)
  let result ← embed issueEmbedding (provider.setIssueStatus number target.id)
  timerHook render number .redmine status
  return .summary result

def setLocal (number : Nat) (status : String) : StatusM StatusReply := do
  let target ← fromExcept (selectStatusByValue localStatuses status)
  let result ← embed storeEmbedding (Local.setIssueStatus number target.id)
  timerHook render number .localStore status
  return .summary result

def executeStatus : ProviderDispatcher → StatusCommand → StatusM StatusReply
  | .redmine provider isRouted, .set number status => setRedmine render provider isRouted number status
  | .redmine provider isRouted, .advance number status =>
      advanceRedmine render provider isRouted number status
  | .localStore, .set number status => setLocal render number status
  | .localStore, .advance number status => advanceLocal render number status

end Commands

end Phasegent.Status
