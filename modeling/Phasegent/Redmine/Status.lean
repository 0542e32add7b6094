import Phasegent.Interleaving.Effects
import Phasegent.Provider.Endpoint
import Phasegent.Workflow.Policy

namespace Phasegent.Redmine
open Fallible Interleaving Workflow

structure RedmineStatus where
  id : Nat
  name : String
  isClosed : Option Bool
  deriving DecidableEq, Repr

-- A missing id arrives as zero.
def RedmineStatus.knownId (status : RedmineStatus) : Option Nat :=
  if 0 < status.id then some status.id else none

structure RedmineIssue where
  id : Nat
  subject : String
  description : String
  status : Option RedmineStatus
  project : Option IssueProjectRef
  deriving DecidableEq, Repr

structure RedmineIssueCollection where
  issues : List RedmineIssue
  totalCount : Option Nat
  deriving DecidableEq, Repr

inductive IssueOp where
  | listIssueStatuses
  | listChildren (parent : Nat) (operation : String)
  | getIssue (number : Nat) (operation : String)
  | putStatus (number statusId : Nat) (operation : String)
  deriving DecidableEq

abbrev IssueOp.Value : IssueOp → Type
  | .listIssueStatuses => List IssueStatus
  | .listChildren .. => RedmineIssueCollection
  | .getIssue .. => RedmineIssue
  | .putStatus .. => Option RedmineIssue

abbrev IssueOp.Ret (op : IssueOp) : Type := Except PhasegentError op.Value

abbrev IssueM := Attempt IssueOp IssueOp.Ret PhasegentError

def ask (op : IssueOp) : IssueM op.Value := Interleaving.request op id

structure RedmineProvider where
  apiBase : String
  closeStatusId : Option Nat
  display : PhasegentError → String

section Texts

def splitWhitespace (text : List Char) : List (List Char) :=
  (text.splitOnP Text.isWhitespace).filter fun word => !word.isEmpty

def collapseWhitespace (text : String) : List Char := [' '].intercalate (splitWhitespace text.toList)

-- The text with its whitespace collapsed, cut after a number of characters.
def boundedAt (bound : Nat) (text : String) : String :=
  let collapsed := collapseWhitespace text
  if bound < collapsed.length then String.ofList (collapsed.take bound) ++ "..."
  else String.ofList collapsed

def bounded (message : String) : String := boundedAt 400 message

def boundSubject (subject : String) : String := boundedAt 80 subject

def recoveryHint (number : Nat) : String :=
  "PHASEGENT_ROLE=orchestrator phasegent --provider redmine status next " ++ number.repr

def forbiddenError (operation : String) (number : Nat) (current target : String)
    (allowedNext : List String) : PhasegentError :=
  .request operation (forbiddenMessage recoveryHint number current target allowedNext)

def showChild (child : RedmineIssue) : String :=
  "#" ++ child.id.repr ++ " '" ++ boundSubject child.subject ++ "' ('" ++
    (child.status.map RedmineStatus.name).getD "open" ++ "')"

def openChildrenSuffix (children : List RedmineIssue) (total : Option Nat) : String :=
  (if 10 < children.length then " +" ++ (children.length - 10).repr ++ " more" else "") ++
    match total with
    | some total =>
        if children.length < total then " (server reports " ++ total.repr ++
          " total open children; query bounded at 25)" else ""
    | none => ""

def openChildrenError (number : Nat) (children : List RedmineIssue) (total : Option Nat)
    (operation : String) : PhasegentError :=
  .request operation ("cannot close issue " ++ number.repr ++ ": " ++ children.length.repr ++
    " open child issue(s) must be closed first: " ++
    ", ".intercalate ((children.take 10).map showChild) ++ openChildrenSuffix children total ++
    "; close each child individually (for example `issue close <child>`), then retry the parent; " ++
    "phasegent never cascade-closes children and sent no parent status update; recovery: " ++
    recoveryHint number)

def closeWorkflowForbidden (display : PhasegentError → String) (number : Nat) (current target : String)
    (cause : PhasegentError) : PhasegentError :=
  let allowed := match canonicalAllowedNext current with
    | some next => showAllowed next
    | none => "<unknown: server decides>"
  .request "issue close" ("close rejected by server workflow: current status '" ++ current ++
    "' -> target status '" ++ target ++ "' is not allowed by the Redmine server workflow (policy " ++
    statusPolicySource ++ "); allowed_next=[" ++ allowed ++ "]; " ++ statusPolicyCaveat ++
    " recovery: " ++ recoveryHint number ++ "; server: " ++ bounded (display cause))

def annotateTransitionError (current target : String) (number : Nat) : PhasegentError → PhasegentError :=
  let context := bounded ("current status '" ++ current ++ "' -> target status '" ++ target ++
    "'; server rejected a policy-allowed or custom transition, so the Redmine workflow is " ++
    "authoritative; recovery: " ++ recoveryHint number)
  fun
  | .http operation status message => .http operation status (bounded message ++ "; " ++ context)
  | .request operation message => .request operation (bounded message ++ "; " ++ context)
  | other => other

def showOption {α : Type} (text : α → String) : Option α → String
  | none => "None"
  | some value => "Some(" ++ text value ++ ")"

def closeMismatchError (status : RedmineStatus) (expected : Nat) : PhasegentError :=
  .request "issue close" ("Redmine did not confirm close (status_id=" ++ expected.repr ++
    "); observed status_id=" ++ showOption Nat.repr status.knownId ++ " ('" ++ status.name ++
    "', is_closed=" ++ showOption (fun closed => if closed then "true" else "false") status.isClosed ++
    ")")

def statusMismatchError (status : RedmineStatus) (observed expected : Nat) : PhasegentError :=
  .request "issue status update" ("Redmine did not confirm status_id=" ++ expected.repr ++
    "; observed status_id=" ++ observed.repr ++ " ('" ++ status.name ++ "')")

end Texts

section Errors

inductive RedmineErrorKind where
  | auth | validation | workflowNotAllowed | other
  deriving DecidableEq, Repr

def authMarkers : List String :=
  ["unauthorized", "authentication", "access denied", "not authorized", "forbidden", "api key",
    "invalid key"]

def workflowMarkers : List String :=
  ["status is invalid", "status invalid", "invalid status", "workflow", "not allowed",
    "cannot be changed", "status cannot", "transition", "issue status", "status_id"]

def hasMarker (markers : List String) (message : String) : Bool :=
  markers.any fun marker => Text.contains marker.toList (Text.toAsciiLower message.toList)

def classifyHttp (status : Nat) (message : String) : RedmineErrorKind :=
  if status = 401 ∨ hasMarker authMarkers message then .auth
  else if (status = 403 ∨ status = 422) ∧ hasMarker workflowMarkers message then .workflowNotAllowed
  else if status = 422 then .validation
  else .other

def isCloseMismatch (operation message : String) : Bool :=
  operation == "issue close" && hasMarker ["did not confirm close"] message

def classifyRedmineError : PhasegentError → RedmineErrorKind
  | .auth _ => .auth
  | .http _ status message => classifyHttp status message
  | .request operation message =>
      if isCloseMismatch operation message then .workflowNotAllowed else .other
  | _ => .other

end Errors

namespace RedmineIssue

def statusIsClosed (issue : RedmineIssue) : Bool :=
  issue.status.any fun status =>
    status.isClosed.getD (Text.contains "closed".toList (Text.toAsciiLower status.name.toList))

def matchesOpen (issue : RedmineIssue) : Bool := !issue.statusIsClosed

def state (issue : RedmineIssue) : String :=
  match issue.status with
  | none => "unknown"
  | some status =>
      match status.isClosed with
      | none => status.name
      | some closed => if closed then "closed" else "open"

def intoSummary (issue : RedmineIssue) (htmlUrl : String) : IssueSummary where
  id := issue.id
  number := issue.id
  title := issue.subject
  body := issue.description
  state := issue.state
  htmlUrl := some htmlUrl
  project := issue.project

end RedmineIssue

inductive CloseVerification where
  | confirmed | mismatch | indeterminate
  deriving DecidableEq, Repr

def verifyCloseStatus (status : RedmineStatus) (expected : Nat) : CloseVerification :=
  match status.knownId with
  | some observed => if observed = expected then .confirmed else .mismatch
  | none => if status.isClosed.getD false then .confirmed else .indeterminate

def closeClimbSteps (current : String) : List String :=
  match canonicalStatusName current with
  | some name =>
      if name = "New" then ["In Progress", "In Review", "Resolved"]
      else if name = "In Progress" then ["In Review", "Resolved"]
      else if name = "In Review" then ["Resolved"]
      else if name = "Changes Requested" then ["In Progress", "In Review", "Resolved"]
      else if name = "Blocked" then ["In Progress", "In Review", "Resolved"]
      else []
  | none => ["Resolved"]

namespace RedmineProvider
variable (provider : RedmineProvider)

def issueSummary (issue : RedmineIssue) : IssueSummary :=
  issue.intoSummary (trimSlashes provider.apiBase ++ "/issues/" ++ issue.id.repr)

def requireCloseStatusId : Except PhasegentError Nat :=
  match provider.closeStatusId with
  | some value =>
      if 0 < value then .ok value
      else .error (.config "Redmine close status id must be greater than zero")
  | none => .error (.config ("Redmine close status id is not configured; " ++
      "use --close-status-id or auth setup"))

def issueWithJournals (number : Nat) (operation : String) : IssueM RedmineIssue :=
  ask (.getIssue number operation)

def requireStatus (number : Nat) (operation : String) (issue : RedmineIssue) :
    Except PhasegentError RedmineStatus :=
  match issue.status with
  | some status => .ok status
  | none => .error (.request operation
      ("Redmine issue " ++ number.repr ++ " response carried no status"))

def currentStatus (number : Nat) (operation : String) : IssueM RedmineStatus := do
  let issue ← issueWithJournals number operation
  fromExcept (requireStatus number operation issue)

def listOpenChildren (number : Nat) (operation : String) :
    IssueM (List RedmineIssue × Option Nat) := do
  let page ← ask (.listChildren number operation)
  return (page.issues.filter RedmineIssue.matchesOpen, page.totalCount)

def parentClosed (closeStatusId : Nat) : Except PhasegentError RedmineIssue → Bool
  | .ok issue => issue.status.any fun status =>
      status.isClosed.getD false || status.knownId == some closeStatusId
  | .error _ => false

def refuseOpenChildren (number closeStatusId : Nat) (operation : String) :
    Except PhasegentError (List RedmineIssue × Option Nat) → IssueM Unit
  | .error _ => return ()
  | .ok (children, total) =>
      if children.isEmpty then return ()
      else do
        let parent ← outcome (issueWithJournals number operation)
        fromExcept (refuse (!parentClosed closeStatusId parent)
          (openChildrenError number children total operation))

def failOnOpenChildren (number closeStatusId : Nat) (operation : String) : IssueM Unit := do
  let page ← outcome (listOpenChildren number operation)
  refuseOpenChildren number closeStatusId operation page

-- A status change is confirmed by its id, unless the answer carries none.
def confirmStatus (statusId : Nat) (issue : RedmineIssue) : Except PhasegentError IssueSummary :=
  match issue.status with
  | some status =>
      match status.knownId with
      | some observed =>
          if observed = statusId then .ok (provider.issueSummary issue)
          else .error (statusMismatchError status observed statusId)
      | none => .ok (provider.issueSummary issue)
  | none => .ok (provider.issueSummary issue)

-- Only the configured close status is checked for open children.
def preflight (number statusId : Nat) : IssueM Unit :=
  if provider.closeStatusId = some statusId then
    failOnOpenChildren number statusId "issue status update"
  else return ()

def setIssueStatus (number statusId : Nat) : IssueM IssueSummary := do
  provider.preflight number statusId
  let response ← ask (.putStatus number statusId "issue status update")
  match response with
  | some issue => fromExcept (provider.confirmStatus statusId issue)
  | none => do
      let issue ← issueWithJournals number "issue status update"
      fromExcept (provider.confirmStatus statusId issue)

def StatusRef.fromIssueStatus (status : RedmineStatus) : StatusRef where
  id := status.knownId
  name := status.name
  isClosed := status.isClosed
  canonical := (canonicalStatusName status.name).isSome

def transitionOutcome (number : Nat) (current : RedmineStatus) (target : IssueStatus)
    (advisory : Bool) (summary : Option IssueSummary) : StatusTransitionOutcome where
  issue := number
  changed := summary.isSome
  origin := StatusRef.fromIssueStatus current
  goal := .fromInstallation target
  policySource := statusPolicySource
  advisory := advisory
  caveat := if advisory then some statusPolicyCaveat else none
  issueSummary := summary

def moveIssue (number : Nat) (current : RedmineStatus) (target : IssueStatus) :
    TransitionVerdict → IssueM StatusTransitionOutcome
  | .noOp => return transitionOutcome number current target false none
  | .forbidden allowedNext =>
      throw (forbiddenError "issue status advance" number current.name target.name allowedNext)
  | verdict => do
      let summary ← renameFailure (annotateTransitionError current.name target.name number)
        (provider.setIssueStatus number target.id)
      return transitionOutcome number current target verdict.isAdvisory (some summary)

def advanceIssueStatus (number : Nat) (targetValue : String) : IssueM StatusTransitionOutcome := do
  let statuses ← ask .listIssueStatuses
  let target ← fromExcept (selectStatusByValue statuses targetValue)
  let current ← currentStatus number "issue status advance"
  provider.moveIssue number current target (evaluateTransition current.name target.name)

-- The answer to a close is believed unless it shows another status.
def concludeClose (statusId : Nat) (issue : RedmineIssue) : Except PhasegentError IssueSummary :=
  match issue.status with
  | some status =>
      match verifyCloseStatus status statusId with
      | .mismatch => .error (closeMismatchError status statusId)
      | _ => .ok (provider.issueSummary issue)
  | none => .ok (provider.issueSummary issue)

def tryDirectClose (number statusId : Nat) : IssueM IssueSummary := do
  let response ← ask (.putStatus number statusId "issue close")
  match response with
  | some issue => fromExcept (provider.concludeClose statusId issue)
  | none => do
      let issue ← issueWithJournals number "issue close"
      fromExcept (provider.concludeClose statusId issue)

def climbSteps (number : Nat) : List String → IssueM Unit
  | [] => return ()
  | step :: rest => do
      let _ ← provider.advanceIssueStatus number step
      climbSteps number rest

def climbFrom (number statusId : Nat) (statuses : List IssueStatus) (current : RedmineStatus)
    (directError : PhasegentError) : IssueM IssueSummary := do
  let closeName := ((statuses.find? fun status => status.id = statusId).map IssueStatus.name).getD "Closed"
  let forbidden := closeWorkflowForbidden provider.display number current.name closeName
  let steps := closeClimbSteps current.name
  fromExcept (refuse steps.isEmpty (forbidden directError))
  renameFailure (fun _ => forbidden directError) (provider.climbSteps number steps)
  renameFailure forbidden (provider.tryDirectClose number statusId)

def climbClose (number statusId : Nat) (directError : PhasegentError) : IssueM IssueSummary := do
  let statuses ← renameFailure (fun _ => directError) (ask .listIssueStatuses)
  let current ← renameFailure (fun _ => directError) (currentStatus number "issue close")
  if verifyCloseStatus current statusId = .confirmed then do
    let issue ← renameFailure (fun _ => directError) (issueWithJournals number "issue close")
    return provider.issueSummary issue
  else provider.climbFrom number statusId statuses current directError

def recoverClose (number statusId : Nat) : Except PhasegentError IssueSummary → IssueM IssueSummary
  | .ok summary => return summary
  | .error error =>
      if classifyRedmineError error = .workflowNotAllowed then
        provider.climbClose number statusId error
      else throw error

def closeIssue (number : Nat) : IssueM IssueSummary := do
  let statusId ← fromExcept provider.requireCloseStatusId
  failOnOpenChildren number statusId "issue close"
  let direct ← outcome (provider.tryDirectClose number statusId)
  provider.recoverClose number statusId direct

end RedmineProvider

end Phasegent.Redmine
