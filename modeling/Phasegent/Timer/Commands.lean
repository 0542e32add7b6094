import Phasegent.Record.Spec
import Phasegent.Timer.Projection

namespace Phasegent.Timer
open Fallible Interleaving

structure TimerOutput where
  run : TimerRun
  created : Bool
  syncWarning : Option String
  deriving DecidableEq, Repr

def TimerTaskRoute.isLegacy : TimerTaskRoute → Bool
  | .legacy => true
  | _ => false

def rejectForgejoTimer (kind : Option ProviderKind) : TimerM PhasegentError Unit := do
  match ← request (.resolveKind kind) id with
  | .forgejo => throw (.unsupported "forgejo" "time tracking")
  | _ => return ()

-- Only an operation without a durable task follows the selected provider.
def admitProvider (legacy : Bool) (kind : Option ProviderKind) : TimerM PhasegentError Unit :=
  if legacy then rejectForgejoTimer kind else return ()

-- The issue of an existing run, read without creating or changing the ledger.
def readOnlyRunIssue (operation runId : String) : TimerM PhasegentError (Option Nat) := do
  if ← request .openExistingLedger (·.mapError PhasegentError.config) then
    let run ← timerStorageError operation (loadTimerRun runId)
    return run.map (·.issue)
  else return none

def admittedRoute (operation runId : String) : TimerM PhasegentError (Option TimerTaskRoute) := do
  match ← readOnlyRunIssue operation runId with
  | some issue => return some (← resolveTimerRoute issue)
  | none => return none

/-- A bound task pins the target of the projection; the legacy route keeps the caller's choice. -/
def projectionTarget (selection : ProviderSelection) : Option TimerTaskRoute → ProviderSelection
  | some (.redmine inst project) => ⟨some .redmine, some inst, some project⟩
  | some .localTask => ⟨some .localStore, none, none⟩
  | _ => selection

def normaliseAgentRole (agentRole : String) : Except PhasegentError String := do
  let role ← (Record.Role.fromStr agentRole).mapError PhasegentError.config
  refuse (role ≠ .executor ∧ role ≠ .reviewer)
    (.config "timer start --agent-role must be executor or reviewer")
  return role.asStr

def chosenRunId : Option String → TimerM PhasegentError String
  | some runId => return runId
  | none => request (.generateRunId "timer") .ok

def executeStart (kind : Option ProviderKind) (issue : Nat) (phase agentRole : String)
    (attempt : Nat) (runId : Option String) (owner : TimerRunOwner) :
    TimerM PhasegentError TimerOutput := do
  let role ← fromExcept (normaliseAgentRole agentRole)
  let route ← resolveTimerRoute issue
  admitProvider route.isLegacy kind
  let runId ← chosenRunId runId
  timerStorageError "timer start" storageOpen
  let startedAt ← nowEpochSeconds
  let run ← timerStorageError "timer start"
    (startTimerRunWithOwner runId issue phase role attempt startedAt owner)
  return ⟨run, true, none⟩

section Finish
variable (render : PhasegentError → String)

def projectFinished (selection : ProviderSelection) (run : TimerRun) :
    TimerM PhasegentError TimerOutput := do
  let token ← generateProjectionToken
  match ← outcome (projectRunWithCredential selection run token) with
  | .ok current =>
      return ⟨current, false, if current.syncStatus = .unconfirmed then
        some ("Redmine accepted the Time Entry without returning an id; retry reconciliation " ++
          "before creating another entry") else none⟩
  | .error (error, current) => do
      -- Only the holder of the token reaches the row here; what it answers is ignored.
      let _ ← (outcome (markTimerSyncWithToken run.runId token current.activityId current.timeEntryId
        SyncStatus.failed.text (some (boundedErrorMessage (render error)))) :
          TimerM PhasegentError (Except String Bool))
      throw error

def executeFinish (selection : ProviderSelection) (runId result : String) :
    TimerM PhasegentError TimerOutput := do
  let route ← admittedRoute "timer finish" runId
  admitProvider (route.all (·.isLegacy)) selection.kind
  timerStorageError "timer finish" storageOpen
  let finishedAt ← nowEpochSeconds
  let run ← timerStorageError "timer finish" (finishTimerRun runId result finishedAt)
  if alreadySynced run then return ⟨run, false, none⟩
  else projectFinished render (projectionTarget selection route) run

def notFound (runId : String) : PhasegentError := .config ("timer run '" ++ runId ++ "' was not found")

def loadExisting (runId : String) : TimerM PhasegentError TimerRun := do
  match ← timerStorageError "timer recover" (loadTimerRun runId) with
  | some run => return run
  | none => throw (notFound runId)

def reopen (operation : String) : TimerM PhasegentError Unit := do
  closeStorage
  timerStorageError operation storageOpen

def projectRecovered (selection : ProviderSelection) (run : TimerRun) (token : String)
    (accept : TimerRun → Except PhasegentError TimerRun) : TimerM PhasegentError TimerOutput := do
  match ← outcome (projectRunWithCredential selection run token) with
  | .ok _ => do
      timerStorageError "timer recover" storageOpen
      let final ← loadExisting run.runId
      let final ← fromExcept (accept final)
      return ⟨final, false, none⟩
  | .error (error, _) => do
      let _ ← (outcome (recordFailedSyncError run.runId (boundedErrorMessage (render error))) :
        TimerM PhasegentError (Except String Bool))
      throw error

def previousFailure (run : TimerRun) : PhasegentError :=
  .request "timer recover" (run.syncError.getD "timer recover: previous projection failed")

def projectReset (selection : ProviderSelection) (runId : String) :
    TimerM PhasegentError TimerOutput := do
  timerStorageError "timer recover" storageOpen
  let run ← loadExisting runId
  let token ← generateProjectionToken
  projectRecovered render selection run token .ok

def recoverTerminal (selection : ProviderSelection) (existing : TimerRun) :
    TimerM PhasegentError TimerOutput :=
  match existing.syncStatus with
  | .projecting => do
      reopen "timer recover"
      let reset ← timerStorageError "timer recover" (resetStaleProjectionToFailed existing.runId
        "recovery found stale projecting claim; resetting for retry")
      if reset then projectReset render selection existing.runId
      else throw (.request "timer recover" "projection already in progress for this run")
  | .failed => throw (previousFailure existing)
  | _ => return ⟨existing, false, none⟩

-- Somebody else finished the run between the load and the update.
def recoverOvertaken (runId : String) : TimerM PhasegentError TimerOutput := do
  timerStorageError "timer recover" storageOpen
  let run ← loadExisting runId
  match run.syncStatus with
  | .failed => throw (previousFailure run)
  | .projecting => throw (.request "timer recover" "concurrent recovery already claimed this run")
  | _ => return ⟨run, false, none⟩

def projectFailed (selection : ProviderSelection) (runId : String) :
    TimerM PhasegentError TimerOutput := do
  let token ← generateProjectionToken
  timerStorageError "timer recover" storageOpen
  let run ← loadExisting runId
  projectRecovered render selection run token fun final => do
    refuse (final.status = .running) (.request "timer recover" "recovery left row running")
    return final

def recoverRunning (selection : ProviderSelection) (runId : String) :
    TimerM PhasegentError TimerOutput := do
  reopen "timer recover"
  let finishedAt ← nowEpochSeconds
  match ← outcome (finishTimerRun runId "FAILED" finishedAt) with
  | .ok _ => projectFailed render selection runId
  | .error message =>
      if mentions message "already finished" then recoverOvertaken runId
      else throw (.request "timer recover" message)

def handleRecover (selection : ProviderSelection) (runId : String) :
    TimerM PhasegentError TimerOutput := do
  let existing ← loadExisting runId
  let route ← resolveTimerRoute existing.issue
  let target := projectionTarget selection (some route)
  match existing.status with
  | .finished _ => recoverTerminal render target existing
  | .running => recoverRunning render target runId

def executeRecover (selection : ProviderSelection) (runId : String) :
    TimerM PhasegentError TimerOutput := do
  let route ← admittedRoute "timer recover" runId
  admitProvider (route.all (·.isLegacy)) selection.kind
  timerStorageError "timer recover" storageOpen
  handleRecover render selection runId

end Finish

def closing {ε α : Type} (p : TimerM ε α) : TimerM ε α := do
  let result ← outcome p
  closeStorage
  fromExcept result

end Phasegent.Timer
