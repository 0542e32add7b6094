import Phasegent.Local.Db
import Phasegent.Workflow.Policy

namespace Phasegent.Local
open Fallible Interleaving Workflow

def localStatuses : List IssueStatus :=
  [⟨1, "New", false⟩, ⟨2, "In Progress", false⟩, ⟨3, "In Review", false⟩,
    ⟨4, "Changes Requested", false⟩, ⟨5, "Blocked", false⟩, ⟨6, "Resolved", false⟩,
    ⟨7, "Closed", true⟩, ⟨8, "Cancelled", true⟩]

def statusTransitionSeed : List (String × String) :=
  [("New", "In Progress"), ("New", "Cancelled"),
    ("In Progress", "In Review"), ("In Progress", "Blocked"), ("In Progress", "Cancelled"),
    ("In Review", "Resolved"), ("In Review", "Changes Requested"), ("In Review", "Blocked"),
    ("In Review", "Cancelled"),
    ("Changes Requested", "In Progress"), ("Changes Requested", "Blocked"),
    ("Changes Requested", "Cancelled"),
    ("Blocked", "In Progress"), ("Blocked", "Cancelled"),
    ("Resolved", "Closed"), ("Resolved", "In Progress")]

def isClosedStatus (status : String) : Bool := status = "Closed" ∨ status = "Cancelled"

def stateForStatus (status : String) : String := if isClosedStatus status then "closed" else "open"

def localIssueUrl (id : Nat) : String := "local:///issues/" ++ id.repr

def IssueRow.intoSummary (row : IssueRow) : IssueSummary where
  id := row.id
  number := row.id
  title := row.title
  body := row.body
  state := stateForStatus row.status
  htmlUrl := some (localIssueUrl row.id)
  project := none

def allowedNextFor (status : String) : List String :=
  (statusTransitionSeed.filter fun edge => edge.1 = status).map Prod.snd

def isTransitionAllowed (origin goal : String) : Bool :=
  origin = goal ∨ (origin, goal) ∈ statusTransitionSeed

def localRecoveryHint (number : Nat) : String :=
  "PHASEGENT_ROLE=orchestrator phasegent --provider local status next " ++ number.repr

def statusRefForName (name : String) : StatusRef :=
  match localStatuses.find? fun status => status.name = name with
  | some status => .fromInstallation status
  | none =>
      { id := none, name := name, isClosed := some (isClosedStatus name),
        canonical := (canonicalStatusName name).isSome }

section Operations

def getIssue (number : Nat) : LocalM PhasegentError IssueSummary := do
  fromExcept (refuse (number = 0) issueNumberError)
  let row ← renameFailure (matchNotFound "issue get" number)
    (request "issue get" (.getIssueById number))
  return row.intoSummary

def createIssue (title body : String) : LocalM PhasegentError IssueSummary := do
  let title := String.ofList (Text.trim title.toList)
  fromExcept (refuse (title = "") (.config "issue title cannot be empty"))
  fromExcept (refuse (1024 < title.utf8ByteSize) (.config "issue title must be at most 1024 bytes"))
  let now ← nowEpochSeconds
  let id ← request "issue create" (.insertIssue title body "New" now)
  getIssue id

def changeIssue (operation : String) (statement : Statement) (rows : statement.Value → Nat)
    (number : Nat) : LocalM PhasegentError Unit :=
  renameFailure (matchNotFound operation number) do
    let changed ← request operation statement
    fromExcept (expectChange operation (rows changed))

def updateBody (number : Nat) (body : String) : LocalM PhasegentError IssueSummary := do
  fromExcept (refuse (number = 0) issueNumberError)
  let now ← nowEpochSeconds
  changeIssue "issue update" (.updateIssueBody body now number) id number
  getIssue number

def closeForbidden (status : String) : PhasegentError :=
  .request "issue close" ("transition rejected before any write: current status '" ++ status ++
    "' -> 'Closed' is not allowed by policy phasegent/canonical-phase-workflow@v1; allowed_next=[" ++
    showAllowed (allowedNextFor status) ++ "]")

def writeClosed (number : Nat) (status : String) : LocalM PhasegentError IssueSummary := do
  fromExcept (refuse (!isTransitionAllowed status "Closed") (closeForbidden status))
  let now ← nowEpochSeconds
  changeIssue "issue close" (.closeIssue now now number) id number
  getIssue number

def closeIssue (number : Nat) : LocalM PhasegentError IssueSummary := do
  fromExcept (refuse (number = 0) issueNumberError)
  let current ← renameFailure (matchNotFound "issue close" number)
    (request "issue close" (.getIssueById number))
  if current.status = "Closed" then return current.intoSummary
  else writeClosed number current.status

def currentStatusName (number : Nat) : LocalM PhasegentError String := do
  fromExcept (refuse (number = 0) issueNumberError)
  renameFailure (matchNotFound "issue status next" number)
    (request "issue status next" (.getIssueStatus number))

-- A missing issue is reported under the caller's own operation.
def renamedMissing (operation : String) (number : Nat) (error : PhasegentError) : PhasegentError :=
  if mentions "was not found" error then notFound operation number else error

def statusNext (number : Nat) : LocalM PhasegentError StatusNextReport := do
  let currentName ← currentStatusName number
  let policyNames := canonicalAllowedNext currentName
  let (allowedNext, missing) := resolveNext localStatuses (policyNames.getD [])
  return {
    issue := number
    current := statusRefForName currentName
    allowedNext := allowedNext
    allowedNextMissingOnServer := missing
    policySource := statusPolicySource
    advisory := policyNames.isNone
    caveat := statusPolicyCaveat
    recovery := localRecoveryHint number }

def closedAtFor (closed : Bool) (now : Int) : Option Int := if closed then some now else none

def setIssueStatus (number statusId : Nat) : LocalM PhasegentError IssueSummary := do
  fromExcept (refuse (number = 0) issueNumberError)
  let target ← fromExcept
    (match localStatuses.find? fun status => status.id = statusId with
      | some status => .ok status
      | none => .error (.config ("local status id " ++ statusId.repr ++ " was not found")))
  let _ ← renameFailure (renamedMissing "issue status update" number) (currentStatusName number)
  let now ← nowEpochSeconds
  changeIssue "issue status update"
    (.updateIssueStatus target.name now (closedAtFor target.isClosed now) number) id number
  getIssue number

def transitionOutcome (number : Nat) (origin goal : StatusRef) (advisory : Bool)
    (summary : Option IssueSummary) : StatusTransitionOutcome where
  issue := number
  changed := summary.isSome
  origin := origin
  goal := goal
  policySource := statusPolicySource
  advisory := advisory
  caveat := if advisory then some statusPolicyCaveat else none
  issueSummary := summary

def advanceForbidden (number : Nat) (current target : String) (allowedNext : List String) :
    PhasegentError :=
  .request "issue status advance"
    (forbiddenMessage localRecoveryHint number current target allowedNext)

def applyVerdict (number : Nat) (currentName : String) (target : IssueStatus) :
    TransitionVerdict → LocalM PhasegentError StatusTransitionOutcome
  | .noOp =>
      return transitionOutcome number (statusRefForName currentName) (.fromInstallation target) false none
  | .forbidden allowedNext => throw (advanceForbidden number currentName target.name allowedNext)
  | .allowed => do
      let summary ← setIssueStatus number target.id
      return transitionOutcome number (statusRefForName currentName) (.fromInstallation target) false
        (some summary)
  | .advisory _ => do
      let summary ← setIssueStatus number target.id
      return transitionOutcome number (statusRefForName currentName) (.fromInstallation target) true
        (some summary)

def advanceIssueStatus (number : Nat) (targetValue : String) :
    LocalM PhasegentError StatusTransitionOutcome := do
  let target ← fromExcept (selectStatusByValue localStatuses targetValue)
  let currentName ← renameFailure (renamedMissing "issue status advance" number)
    (currentStatusName number)
  applyVerdict number currentName target (evaluateTransition currentName target.name)

end Operations

end Phasegent.Local
