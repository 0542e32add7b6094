import Phasegent.Timer.Effects

namespace Phasegent.Timer
open Fallible Interleaving

def timeEntryComments (runId : String) : String := "phasegent timer run_id=" ++ runId

theorem timeEntryComments_inj {runId runId' : String}
    (same : timeEntryComments runId = timeEntryComments runId') : runId = runId' :=
  String.append_right_inj _ |>.mp same

section Activities

def activityNamed (activities : List RedmineTimeEntryActivity) (name : String) :
    Except PhasegentError (Option RedmineTimeEntryActivity) :=
  match activities.filter (·.name == name) with
  | [] => .ok none
  | [activity] =>
      if activity.id = 0 then
        .error (.config ("Redmine time-entry activity name '" ++ name ++ "' has id zero"))
      else .ok (some activity)
  | _ => .error (.config ("Redmine time-entry activity name '" ++ name ++ "' is ambiguous"))

def defaultActivity (activities : List RedmineTimeEntryActivity) :
    Except PhasegentError RedmineTimeEntryActivity :=
  let multiple := PhasegentError.config ("Redmine has multiple default time-entry activities; " ++
    "set an exact AI automation or Development activity")
  match activities.filter (·.isDefault) with
  | [] => .error (.config ("Redmine has no exact AI automation or Development activity and no " ++
      "default time-entry activity"))
  | [activity] => if 0 < activity.id then .ok activity else .error multiple
  | _ => .error multiple

def selectTimeEntryActivity (activities : List RedmineTimeEntryActivity) :
    Except PhasegentError RedmineTimeEntryActivity := do
  match ← activityNamed activities "AI automation" with
  | some activity => return activity
  | none =>
      match ← activityNamed activities "Development" with
      | some activity => return activity
      | none => defaultActivity activities

end Activities

section Remote

def listTimeEntryActivities (api : String) : TimerM PhasegentError (List RedmineTimeEntryActivity) :=
  request (.listActivities api) id

def listTimeEntries (api : String) (issue : Nat) (spentOn : String) :
    TimerM PhasegentError (List RedmineTimeEntry) := do
  fromExcept (refuse (issue = 0) (.config "Redmine time entry issue id must be greater than zero"))
  request (.listTimeEntries api issue spentOn) id

def RedmineTimeEntry.marks (issue : Nat) (spentOn comments : String) (entry : RedmineTimeEntry) : Bool :=
  entry.comments == some comments && entry.issue.all (· == issue) && entry.spentOn.all (· == spentOn)

def findTimeEntryByComments (api : String) (issue : Nat) (spentOn comments : String) :
    TimerM PhasegentError (Option RedmineTimeEntry) := do
  fromExcept (refuse (trimText comments = "") (.config "Redmine time entry marker cannot be empty"))
  let entries ← listTimeEntries api issue spentOn
  let found := entries.filter (RedmineTimeEntry.marks issue spentOn comments)
  fromExcept (refuse (1 < found.length)
    (.config ("multiple Redmine Time Entries match run marker '" ++ comments ++ "'")))
  return found.getLast?

def createTimeEntry (api : String) (issue hours : Nat) (spentOn : String) (activityId : Nat)
    (comments : String) : TimerM PhasegentError (Option RedmineTimeEntry) := do
  fromExcept do
    refuse (issue = 0) (PhasegentError.config "Redmine time entry issue id must be greater than zero")
    refuse (activityId = 0) (.config "Redmine time entry activity id must be greater than zero")
    refuse (hours = 0) (.config "Redmine time entry hours must be positive")
    refuse (trimText spentOn = "") (.config "Redmine time entry spent_on date cannot be empty")
    refuse (trimText comments = "") (.config "Redmine time entry comments cannot be empty")
  let response ← request (.postTimeEntry api {
    issueId := issue, hours := hours, spentOn := spentOn, activityId := activityId,
    comments := comments }) id
  return (response.bind (·.timeEntry)).filter (·.id ≠ 0)

end Remote

section Project

abbrev ProjectM := TimerM (PhasegentError × TimerRun)

def timerStorageError {α : Type} (operation : String) (p : StoreM α) : TimerM PhasegentError α :=
  renameFailure (.request operation) p

def keeping {α : Type} (run : TimerRun) (p : TimerM PhasegentError α) : ProjectM α :=
  renameFailure (·, run) p

def alreadySynced (run : TimerRun) : Bool := run.syncStatus == .synced && run.timeEntryId.isSome

def alreadyInProgress : PhasegentError :=
  .request "timer finish" "projection already in progress for this run"

def holdsLease (run : TimerRun) (token : String) : Bool :=
  run.syncStatus == .projecting && run.projectionToken == some token

def reloadFor (run : TimerRun) (operation gone : String) : ProjectM TimerRun := keeping run do
  match ← timerStorageError operation (loadTimerRun run.runId) with
  | some loaded => return loaded
  | none => throw (.config gone)

-- The claim is lost: either the row is synced by now, or somebody else is at work.
def lostClaim (run : TimerRun) : ProjectM TimerRun := do
  let current ← reloadFor run "timer finish claim" "timer run disappeared during claim"
  if alreadySynced current then return current
  else if current.syncStatus = .projecting then throw (alreadyInProgress, run)
  else throw (.request "timer finish"
    "could not claim projection; another operation is in progress", run)

inductive ClaimOutcome where
  | held (run : TimerRun)
  | settled (run : TimerRun)

def claimRun (run : TimerRun) (token : String) : ProjectM ClaimOutcome :=
  if holdsLease run token then return .held run
  else do
    let claimed ← keeping run
      (timerStorageError "timer finish claim" (tryClaimTimerProjection run.runId token))
    if claimed then
      return .held (← reloadFor run "timer finish claim" "timer run disappeared after claim")
    else return .settled (← lostClaim run)

def ensureActivity (api : String) (run : TimerRun) (token : String) : ProjectM TimerRun :=
  match run.activityId with
  | some _ => return run
  | none => do
      let activities ← keeping run (listTimeEntryActivities api)
      let activity ← keeping run (fromExcept (selectTimeEntryActivity activities))
      let persisted ← keeping run (timerStorageError "timer finish activity selection"
        (updateActivityWithToken run.runId token activity.id))
      if persisted then
        reloadFor run "timer finish activity selection" "timer run disappeared after activity persist"
      else throw (.request "timer finish" "projection lease lost before activity persist", run)

structure Finalization where
  operation : String
  lost : String
  gone : String

def reconciliation : Finalization where
  operation := "timer finish reconciliation"
  lost := "projection lease lost before reconciliation"
  gone := "timer run disappeared after reconciliation"

def projection : Finalization where
  operation := "timer finish projection"
  lost := "projection lease lost before marking synced"
  gone := "timer run disappeared after projection"

def unconfirmedProjection : Finalization where
  operation := "timer finish unconfirmed projection"
  lost := "projection lease lost before marking unconfirmed"
  gone := "timer run disappeared after unconfirmed"

def finalize (texts : Finalization) (run : TimerRun) (token : String) (activityId : Nat)
    (timeEntryId : Option Nat) (syncStatus : SyncStatus) (syncError : Option String) :
    ProjectM TimerRun := do
  let marked ← keeping run (timerStorageError texts.operation
    (markTimerSyncWithToken run.runId token (some activityId) timeEntryId syncStatus.text syncError))
  if marked then reloadFor run texts.operation texts.gone
  else throw (.request "timer finish" texts.lost, run)

/-- What the holder of the claim does: list before posting, post at most once, finalize. -/
def projectHeld (api : String) (run : TimerRun) (token : String) (activityId : Nat)
    (finishedAt : Int) : ProjectM TimerRun := do
  let comments := timeEntryComments run.runId
  let spentOn := formatUnixDate finishedAt
  match ← keeping run (findTimeEntryByComments api run.issue spentOn comments) with
  | some existing =>
      finalize reconciliation run token activityId (some existing.id) .synced none
  | none =>
      match run.roundedHours with
      | none => throw (.config "finished timer run has no rounded hours", run)
      | some hours =>
          match ← keeping run (createTimeEntry api run.issue hours spentOn activityId comments) with
          | some entry => finalize projection run token activityId (some entry.id) .synced none
          | none =>
              finalize unconfirmedProjection run token activityId run.timeEntryId .unconfirmed
                (some "Redmine accepted the Time Entry without returning an id")

def projectLocked (api : String) (run : TimerRun) (token : String) : ProjectM TimerRun := do
  match ← claimRun run token with
  | .settled current => return current
  | .held claimed => do
      let ready ← ensureActivity api claimed token
      match ready.activityId with
      | none => throw (.config "Redmine activity id disappeared before projection", ready)
      | some activityId =>
          match ready.finishedAt with
          | none => throw (.config "finished timer run has no finish timestamp", ready)
          | some finishedAt => projectHeld api ready token activityId finishedAt

-- The lock is taken before the claim and given up after the last statement.
def projectRunWithProvider (api : String) (run : TimerRun) (token : String) : ProjectM TimerRun :=
  if alreadySynced run then return run
  else do
    match ← outcome beginProjection with
    | .error error =>
        let lower := String.ofList (Text.toAsciiLower error.toList)
        if mentions lower "busy" || mentions lower "locked" || mentions lower "acquire" then
          throw (alreadyInProgress, run)
        else throw (.request "timer finish" error, run)
    | .ok _ =>
        match ← outcome (projectLocked api run token) with
        | .ok current => do
            keeping current (timerStorageError "timer finish commit" commitProjection)
            return current
        | .error failure => do
            rollbackProjection
            throw failure

structure ProviderSelection where
  kind : Option ProviderKind
  apiBase : Option String
  project : Option String
  deriving DecidableEq, Repr

def projectRunWithCredential (selection : ProviderSelection) (run : TimerRun) (token : String) :
    ProjectM TimerRun := do
  match ← keeping run (request (.resolveKind selection.kind) id) with
  | .redmine => do
      let api ← keeping run (request (.redmineProvider selection.apiBase selection.project) id)
      projectRunWithProvider api run token
  | .localStore => return run
  | .forgejo => throw (.unsupported "forgejo" "time tracking", run)

end Project

end Phasegent.Timer
