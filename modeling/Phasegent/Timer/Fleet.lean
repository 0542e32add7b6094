import Phasegent.Timer.Auto
import Phasegent.Timer.World

namespace Phasegent.Timer
open Interleaving

inductive TimerReply where
  | run (row : TimerRun)
  | flag (changed : Bool)
  | output (result : TimerOutput)
  | transition (result : AutoTimerOutcome)
  | close (result : AutoCloseOutcome)

inductive Command where
  | start (runId : String) (issue : Nat) (phase role : String) (attempt : Nat) (startedAt : Int)
      (owner : TimerRunOwner)
  | finish (runId result : String) (finishedAt : Int)
  | claim (runId token : String)
  | updateActivity (runId token : String) (activityId : Nat)
  | markSync (runId token : String) (activityId timeEntryId : Option Nat) (syncStatus : String)
      (syncError : Option String)
  | resetStale (runId error : String)
  | recordError (runId error : String)
  | timerStart (kind : Option ProviderKind) (issue : Nat) (phase agentRole : String)
      (attempt : Nat) (runId : Option String) (owner : TimerRunOwner)
  | timerFinish (selection : ProviderSelection) (runId result : String)
  | timerRecover (selection : ProviderSelection) (runId : String)
  | autoTransition (issue : Nat) (providerKind : ProviderKind) (statusName : String)
  | autoClose (issue : Nat) (providerKind : ProviderKind)

section Commands
variable (render : PhasegentError → String)

def reply {α : Type} (shape : α → TimerReply) (p : TimerM PhasegentError α) :
    TimerM PhasegentError TimerReply := closing do
  return shape (← p)

def stored {α : Type} (shape : α → TimerReply) (p : StoreM α) : TimerM PhasegentError TimerReply :=
  reply shape (timerStorageError "timer" p)

def Command.run : Command → TimerM PhasegentError TimerReply
  | .start runId issue phase role attempt startedAt owner =>
      stored .run (startTimerRunWithOwner runId issue phase role attempt startedAt owner)
  | .finish runId result finishedAt => stored .run (finishTimerRun runId result finishedAt)
  | .claim runId token => stored .flag (tryClaimTimerProjection runId token)
  | .updateActivity runId token activityId =>
      stored .flag (updateActivityWithToken runId token activityId)
  | .markSync runId token activityId timeEntryId syncStatus syncError =>
      stored .flag (markTimerSyncWithToken runId token activityId timeEntryId syncStatus syncError)
  | .resetStale runId error => stored .flag (resetStaleProjectionToFailed runId error)
  | .recordError runId error => stored .flag (recordFailedSyncError runId error)
  | .timerStart kind issue phase agentRole attempt runId owner =>
      reply .output (executeStart kind issue phase agentRole attempt runId owner)
  | .timerFinish selection runId result =>
      reply .output (executeFinish render selection runId result)
  | .timerRecover selection runId => reply .output (executeRecover render selection runId)
  | .autoTransition issue providerKind statusName =>
      stored .transition (autoTransitionTimer render issue providerKind statusName)
  | .autoClose issue providerKind => stored .close (autoCloseIssueTimer render issue providerKind)

variable {F : Type}

def timerFleet (commands : Pid → Option Command) (start : TimerState F) :
    Config (TimerState F) TimerOp TimerOp.Ret (Except PhasegentError TimerReply) where
  shared := start
  procs i := (commands i).map fun command => (command.run render).run

end Commands

end Phasegent.Timer
