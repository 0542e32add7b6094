import Phasegent.Interleaving.Effects
import Phasegent.Provider.Api
import Phasegent.Timer.Ledger

namespace Phasegent.Timer
open Fallible Interleaving

structure RedmineTimeEntryActivity where
  id : Nat
  name : String
  isDefault : Bool
  deriving DecidableEq, Repr

-- A time entry as the remote shows it; a listing may leave the issue and the date out.
structure RedmineTimeEntry where
  id : Nat
  issue : Option Nat
  comments : Option String
  spentOn : Option String
  deriving DecidableEq, Repr

structure RedmineTimeEntryResponse where
  timeEntry : Option RedmineTimeEntry
  deriving DecidableEq, Repr

structure RedmineNewTimeEntry where
  issueId : Nat
  hours : Nat
  spentOn : String
  activityId : Nat
  comments : String
  deriving DecidableEq, Repr

inductive TimerTaskRoute where
  | legacy
  | localTask
  | redmine (inst project : String)
  deriving DecidableEq, Repr

inductive TimerOp where
  | storageOpen
  | openExistingLedger
  | beginImmediate
  | commit
  | rollback
  | closeStorage
  | load (runId : String)
  | listRunning (issue : Nat)
  | write (statement : TimerWrite)
  | nowEpochSeconds
  | generateRunId (head : String)
  | generateProjectionToken
  | resolveTimerRoute (issue : Nat)
  | resolveKind (selected : Option ProviderKind)
  | redmineProvider (apiBase project : Option String)
  | listActivities (api : String)
  | listTimeEntries (api : String) (issue : Nat) (spentOn : String)
  | postTimeEntry (api : String) (payload : RedmineNewTimeEntry)

abbrev TimerOp.Ret : TimerOp → Type
  | .storageOpen | .beginImmediate | .commit | .rollback => Except String Unit
  | .openExistingLedger => Except String Bool
  | .closeStorage => Unit
  | .load _ => Except String (Option TimerRun)
  | .listRunning _ => Except String (List TimerRun)
  | .write _ => Except String Nat
  | .nowEpochSeconds => Int
  | .generateRunId _ | .generateProjectionToken => String
  | .resolveTimerRoute _ => Except PhasegentError TimerTaskRoute
  | .resolveKind _ => Except PhasegentError ProviderKind
  | .redmineProvider .. => Except PhasegentError String
  | .listActivities _ => Except PhasegentError (List RedmineTimeEntryActivity)
  | .listTimeEntries .. => Except PhasegentError (List RedmineTimeEntry)
  | .postTimeEntry .. => Except PhasegentError (Option RedmineTimeEntryResponse)

abbrev TimerM (ε : Type) := Attempt TimerOp TimerOp.Ret ε

abbrev StoreM := TimerM String

def nowEpochSeconds {ε : Type} : TimerM ε Int := request .nowEpochSeconds .ok

def closeStorage {ε : Type} : TimerM ε Unit := request .closeStorage .ok

def generateProjectionToken {ε : Type} : TimerM ε String := request .generateProjectionToken .ok

def storageOpen : StoreM Unit := request .storageOpen id

def beginImmediate : StoreM Unit := request .beginImmediate id

def commitProjection : StoreM Unit :=
  request .commit (·.mapError ("could not commit projection: " ++ ·))

def rollbackProjection {ε : Type} : TimerM ε Unit := request .rollback fun _ => .ok ()

def loadTimerRun (runId : String) : StoreM (Option TimerRun) := request (.load runId) id

def listRunningRunsForIssue (issue : Nat) : StoreM (List TimerRun) := request (.listRunning issue) id

def write (statement : TimerWrite) : StoreM Nat := request (.write statement) id

def resolveTimerRoute (issue : Nat) : TimerM PhasegentError TimerTaskRoute :=
  request (.resolveTimerRoute issue) id

def reload (runId gone : String) : StoreM TimerRun := do
  match ← loadTimerRun runId with
  | some run => return run
  | none => throw gone

section Store

def reattach (existing : TimerRun) (issue : Nat) (phase role : String) (attempt : Nat)
    (startedAt : Int) (owner : TimerRunOwner) : Except String TimerRun := do
  ensureSameTimerIdentity existing issue phase role attempt
  refuse (existing.status ≠ .running) ("timer run '" ++ existing.runId ++ "' is already finished")
  refuse (existing.startedAt ≠ startedAt)
    ("timer run '" ++ existing.runId ++ "' was already started at a different time")
  refuse (owner.sessionId.isSome ∧ existing.ownerSessionId.isSome ∧
      existing.ownerSessionId ≠ owner.sessionId)
    ("timer run '" ++ existing.runId ++ "' is already owned by another session")
  refuse (owner.callId.isSome ∧ existing.ownerCallId.isSome ∧ existing.ownerCallId ≠ owner.callId)
    ("timer run '" ++ existing.runId ++ "' is already owned by another call")
  return existing

def startTimerRunWithOwner (runId : String) (issue : Nat) (phase role : String) (attempt : Nat)
    (startedAt : Int) (owner : TimerRunOwner) : StoreM TimerRun := do
  fromExcept (validateTimerIdentity runId issue phase role attempt)
  let sessionId ← fromExcept (validateOwnerField owner.sessionId "owner_session_id")
  let callId ← fromExcept (validateOwnerField owner.callId "owner_call_id")
  match ← loadTimerRun runId with
  | some existing => fromExcept (reattach existing issue phase role attempt startedAt ⟨sessionId, callId⟩)
  | none => do
      let _ ← write (.insertRun runId issue phase role attempt startedAt ⟨sessionId, callId⟩)
      reload runId "timer start row disappeared after commit"

def finishTimerRun (runId result : String) (finishedAt : Int) : StoreM TimerRun := do
  let result ← fromExcept (TimerResult.parse result)
  let existing ← reload runId ("timer run '" ++ runId ++ "' was not found")
  match existing.status with
  | .finished earlier =>
      if earlier = result then return existing
      else throw ("timer run '" ++ runId ++ "' is already finished as " ++ earlier.text ++
        "; cannot re-finish as " ++ result.text)
  | .running => do
      fromExcept (refuse (finishedAt < existing.startedAt)
        "timer finish time must not precede its start time")
      let elapsed := max (finishedAt - existing.startedAt) 0
      let _ ← write (.finishRun runId result finishedAt elapsed (roundedHours elapsed))
      reload runId "timer finish row disappeared after commit"

def tryClaimTimerProjection (runId token : String) : StoreM Bool := do
  fromExcept (validateProjectionToken token)
  let now ← nowEpochSeconds
  let changed ← write (.claimProjection runId token now)
  return changed == 1

def mentions (text part : String) : Bool := Text.contains part.toList text.toList

def isBusy (error : String) : Bool :=
  let lower := String.ofList (Text.toAsciiLower error.toList)
  mentions lower "busy" || mentions lower "locked"

def beginProjectionWith : (retries : Nat) → StoreM Unit
  | 0 => renameFailure ("could not acquire projection lock: " ++ ·) beginImmediate
  | retries + 1 => do
      match ← outcome beginImmediate with
      | .ok _ => return ()
      | .error error =>
          if isBusy error then beginProjectionWith retries
          else throw ("could not acquire projection lock: " ++ error)

def beginProjection : StoreM Unit := beginProjectionWith 4

def resetStaleProjectionToFailed (runId error : String) : StoreM Bool := do
  beginProjection
  let now ← nowEpochSeconds
  match ← outcome (write (.resetStale runId error (now - projectionLeaseSecs))) with
  | .ok changed => do
      commitProjection
      return changed == 1
  | .error error => do
      rollbackProjection
      throw error

def updateActivityWithToken (runId token : String) (activityId : Nat) : StoreM Bool := do
  fromExcept (validateProjectionToken token)
  let changed ← write (.updateActivity runId token activityId)
  return changed == 1

def markTimerSyncWithToken (runId token : String) (activityId timeEntryId : Option Nat)
    (syncStatus : String) (syncError : Option String) : StoreM Bool := do
  let syncStatus ← fromExcept (SyncStatus.parse syncStatus)
  fromExcept (refuse (syncStatus = .failed ∧ syncError.all (· = ""))
    "timer sync failure requires a non-empty error")
  fromExcept (validateProjectionToken token)
  let changed ← write (.markSync runId token activityId timeEntryId syncStatus syncError)
  return changed == 1

def recordFailedSyncError (runId error : String) : StoreM Bool := do
  let changed ← write (.recordSyncError runId (boundedErrorMessage error))
  return changed == 1

end Store

end Phasegent.Timer
