import Phasegent.Interleaving.Effects
import Phasegent.Provider.Endpoint
import Phasegent.Redmine.Identifier
import Phasegent.Sql.Transaction
import Phasegent.Workflow.Policy

namespace Phasegent.Redmine
open Fallible Interleaving Text

structure RedmineProject where
  id : Nat
  name : String
  identifier : String
  deriving DecidableEq, Repr

abbrev RedmineIssueStatus := Workflow.IssueStatus

structure RedmineBootstrap where
  project : RedmineProject
  closeStatus : RedmineIssueStatus
  created : Bool
  deriving DecidableEq, Repr

structure RedmineGitMirrorResponse where
  id : Nat
  projectId : Nat
  identifier : String
  status : String
  remoteUrl : Option String
  localPath : Option String
  error : Option String
  deriving DecidableEq, Repr

structure RedmineGitMirrorOutcome where
  id : Nat
  projectId : Nat
  identifier : String
  status : String
  remoteUrl : String
  localPath : String
  error : Option String
  deriving DecidableEq, Repr

/-- The requests of a bootstrap; `mirrorClient` reads the plugin's key and makes its client. -/
inductive BootstrapOp where
  | getProject (path : String)
  | listIssueStatuses
  | postProject (name identifier : String) (description : Option String)
  | mirrorClient
  | getMirror (path : String)
  | postMirror (path url : String)
  deriving DecidableEq

abbrev BootstrapOp.Value : BootstrapOp → Type
  | .getProject _ => Option RedmineProject
  | .listIssueStatuses => List RedmineIssueStatus
  | .postProject .. => RedmineProject
  | .mirrorClient => Unit
  | .getMirror _ => Option RedmineGitMirrorResponse
  | .postMirror .. => RedmineGitMirrorResponse

abbrev BootstrapOp.Ret (op : BootstrapOp) : Type := Except PhasegentError op.Value

abbrev BootstrapM := Attempt BootstrapOp BootstrapOp.Ret PhasegentError

def perform (op : BootstrapOp) : BootstrapM op.Value := Interleaving.request op id

section Projects

def projectPath (identifier : String) : String := "projects/" ++ identifier ++ ".json"

def findProject (identifier : String) : BootstrapM (Option RedmineProject) := do
  let response ← perform (.getProject (projectPath identifier))
  return response.filter fun project => project.identifier = identifier

def createProject (name identifier : String) (description : Option String) :
    BootstrapM RedmineProject := do
  fromExcept (refuse (trimText name = "") (.config "project name cannot be empty"))
  fromExcept (refuse (trimText identifier = "") (.config "project identifier cannot be empty"))
  perform (.postProject name identifier description)

def selectCloseStatusById (statuses : List RedmineIssueStatus) (value : String) :
    Except PhasegentError RedmineIssueStatus :=
  match parseU64 value.toList with
  | none => .error (.config "Redmine close status id must be numeric")
  | some id =>
      if id = 0 then .error (.config "Redmine close status id must be greater than zero")
      else match statuses.find? fun status => status.id = id with
        | none => .error (.config ("Redmine status id " ++ id.repr ++ " was not found"))
        | some status =>
            if !status.isClosed then
              .error (.config ("Redmine status id " ++ id.repr ++ " was found but is not closed"))
            else .ok status

def selectCloseStatusByName (statuses : List RedmineIssueStatus) (name : String) :
    Except PhasegentError RedmineIssueStatus :=
  match statuses.filter fun status => status.name = name with
  | [status] =>
      if status.isClosed then .ok status
      else .error (.config ("Redmine status name '" ++ name ++ "' was found but is not closed"))
  | [] => .error (.config ("Redmine status name '" ++ name ++ "' was not found"))
  | _ => .error (.config ("Redmine status name '" ++ name ++ "' is ambiguous"))

def selectCloseStatus (statuses : List RedmineIssueStatus) (closeStatusId closeStatusName : Option String) :
    Except PhasegentError RedmineIssueStatus :=
  match closeStatusId, closeStatusName with
  | some value, _ => selectCloseStatusById statuses value
  | none, some name => selectCloseStatusByName statuses name
  | none, none =>
      match statuses.filter Workflow.IssueStatus.isClosed with
      | [] => .error (.config "Redmine has no closed issue status")
      | [status] => .ok status
      | _ => .error (.config ("Redmine has multiple closed issue statuses; " ++
          "use --close-status-id or --close-status-name"))

def createMissing (repository identifier : String) :
    Option RedmineProject → BootstrapM RedmineProject
  | some project => return project
  | none => createProject repository identifier (some ("Workflow issues for " ++ repository))

def bootstrapProject (repository identifier : String) (closeStatusId closeStatusName : Option String) :
    BootstrapM RedmineBootstrap := do
  let found ← findProject identifier
  let statuses ← perform .listIssueStatuses
  let closeStatus ← fromExcept (selectCloseStatus statuses closeStatusId closeStatusName)
  let project ← createMissing repository identifier found
  return ⟨project, closeStatus, found.isNone⟩

def bootstrapRepository (repository : String) (closeStatusId closeStatusName : Option String) :
    BootstrapM RedmineBootstrap := do
  let identifier ← fromExcept ((redmineIdentifier repository).mapError .config)
  bootstrapProject repository identifier closeStatusId closeStatusName

end Projects

section Mirrors

def hasFailed (status : String) : Bool := toAsciiLower (trim status.toList) == "failed".toList

def outcomeFromResponse (response : RedmineGitMirrorResponse) :
    Except PhasegentError RedmineGitMirrorOutcome :=
  if hasFailed response.status then
    let detail := (response.error.filter fun value => trimText value ≠ "").getD
      "the plugin reported a failed mirror status"
    .error (.config ("Redmine git mirror plugin reported a failed status for " ++
      response.identifier ++ ": " ++ detail))
  else .ok
    { id := response.id
      projectId := response.projectId
      identifier := response.identifier
      status := String.ofList (toAsciiLower (trim response.status.toList))
      remoteUrl := response.remoteUrl.getD ""
      localPath := response.localPath.getD ""
      error := response.error }

def mirrorsPath (projectId : Nat) : String :=
  "/sys/redmine_git_mirror/projects/" ++ projectId.repr ++ "/repository"

def mirrorPath (projectId : Nat) (identifier : String) : String :=
  mirrorsPath projectId ++ "/" ++ identifier

/-- A mirror that is there is kept, unless it failed. -/
def postMissing (projectId : Nat) (remoteUrl : String) :
    Option RedmineGitMirrorResponse → BootstrapM RedmineGitMirrorResponse
  | some response =>
      if hasFailed response.status then perform (.postMirror (mirrorsPath projectId) remoteUrl)
      else return response
  | none => perform (.postMirror (mirrorsPath projectId) remoteUrl)

def registerGitMirror (projectId : Nat) (owner repo : List Char) (remoteUrl : String) :
    BootstrapM RedmineGitMirrorOutcome := do
  fromExcept (refuse (projectId = 0)
    (.config "Redmine project id must be greater than zero to register a git mirror"))
  fromExcept (refuse (trimText remoteUrl = "") (.config "git mirror remote URL must not be empty"))
  perform .mirrorClient
  let found ← perform (.getMirror (mirrorPath projectId (mirrorIdentifier projectId owner repo)))
  let response ← postMissing projectId remoteUrl found
  fromExcept (outcomeFromResponse response)

def splitRepository (repository : String) : Except String (List Char × List Char) :=
  match repository.toList.splitOn '/' with
  | [owner, repo] =>
      if owner = [] then .error "mirror identifier requires an owner"
      else if repo = [] then .error "mirror identifier requires a repository"
      else .ok (owner, repo)
  | [] :: _ => .error "mirror identifier requires an owner"
  | [_] | _ :: [] :: _ => .error "mirror identifier requires a repository"
  | _ => .error "mirror identifier requires OWNER/REPOSITORY form"

def registerRepository (projectId : Nat) (repository remoteUrl : String) :
    BootstrapM RedmineGitMirrorOutcome := do
  let (owner, repo) ← fromExcept ((splitRepository repository).mapError .config)
  registerGitMirror projectId owner repo remoteUrl

end Mirrors

end Phasegent.Redmine
