import Phasegent.Timer.Fleet

namespace Phasegent.Timer
open Fallible Interleaving

/-- The effects that neither finish a run, nor synchronize one, nor reach the remote, nor take the
lock. -/
def Plain : TimerOp → Prop
  | .write (.finishRun ..) | .write (.markSync ..) | .postTimeEntry .. | .beginImmediate => False
  | _ => True

def Reads : TimerOp → Prop
  | .write _ | .postTimeEntry .. | .beginImmediate | .commit | .rollback | .closeStorage => False
  | _ => True

def Inside : TimerOp → Prop
  | .write (.finishRun ..) | .write (.markSync ..) | .postTimeEntry .. | .beginImmediate
  | .commit | .rollback | .closeStorage => False
  | _ => True

def Unposted : TimerOp → Prop
  | .write (.markSync ..) | .postTimeEntry .. => False
  | _ => True

def Unfinished : TimerOp → Prop
  | .write (.finishRun ..) => False
  | _ => True

theorem Inside.plain (op : TimerOp) (inside : Inside op) : Plain op := by
  unfold Inside at inside
  unfold Plain
  split <;> simp_all

theorem Reads.plain (op : TimerOp) (reads : Reads op) : Plain op := by
  unfold Reads at reads
  unfold Plain
  split <;> simp_all

theorem Plain.unposted (op : TimerOp) (plain : Plain op) : Unposted op := by
  unfold Plain at plain
  unfold Unposted
  split <;> simp_all

theorem Plain.unfinished (op : TimerOp) (plain : Plain op) : Unfinished op := by
  unfold Plain at plain
  unfold Unfinished
  split <;> simp_all

section Reads
variable {ε : Type}

theorem reads_nowEpochSeconds : Performs Reads (nowEpochSeconds : TimerM ε Int) :=
  performs_request trivial

theorem reads_storageOpen : Performs Reads storageOpen := performs_request trivial

theorem reads_loadTimerRun (runId : String) : Performs Reads (loadTimerRun runId) :=
  performs_request trivial

theorem reads_resolveTimerRoute (issue : Nat) : Performs Reads (resolveTimerRoute issue) :=
  performs_request trivial

theorem reads_readOnlyRunIssue (operation runId : String) :
    Performs Reads (readOnlyRunIssue operation runId) := by
  apply performs_bind (performs_request trivial)
  intro readable
  cases readable with
  | true =>
      exact performs_bind (performs_renameFailure (reads_loadTimerRun runId)) fun _ => performs_pure _
  | false => exact performs_pure none

theorem reads_admitFinish (render : PhasegentError → String) (runId : String) :
    Performs Reads (admitFinish render runId) := by
  apply performs_bind (performs_renameFailure (reads_readOnlyRunIssue _ runId))
  intro issue
  cases issue with
  | some issue =>
      exact performs_bind (performs_renameFailure (reads_resolveTimerRoute issue)) fun _ =>
        performs_pure ()
  | none => exact performs_pure ()

end Reads

section Plain
variable {ε : Type}

theorem plain_nowEpochSeconds : Performs Plain (nowEpochSeconds : TimerM ε Int) :=
  reads_nowEpochSeconds.mono Reads.plain

theorem plain_closeStorage : Performs Plain (closeStorage : TimerM ε Unit) := performs_request trivial

theorem plain_rollbackProjection : Performs Plain (rollbackProjection : TimerM ε Unit) :=
  performs_request trivial

theorem plain_generateProjectionToken : Performs Plain (generateProjectionToken : TimerM ε String) :=
  performs_request trivial

theorem plain_storageOpen : Performs Plain storageOpen := reads_storageOpen.mono Reads.plain

theorem plain_commitProjection : Performs Plain commitProjection := performs_request trivial

theorem plain_loadTimerRun (runId : String) : Performs Plain (loadTimerRun runId) :=
  (reads_loadTimerRun runId).mono Reads.plain

theorem plain_listRunning (issue : Nat) : Performs Plain (listRunningRunsForIssue issue) :=
  performs_request trivial

theorem plain_resolveTimerRoute (issue : Nat) : Performs Plain (resolveTimerRoute issue) :=
  (reads_resolveTimerRoute issue).mono Reads.plain

theorem plain_reload (runId gone : String) : Performs Plain (reload runId gone) := by
  apply performs_bind (plain_loadTimerRun runId)
  intro found
  cases found with
  | some run => exact performs_pure run
  | none => exact performs_throw gone

theorem plain_startTimerRunWithOwner (runId : String) (issue : Nat) (phase role : String)
    (attempt : Nat) (startedAt : Int) (owner : TimerRunOwner) :
    Performs Plain (startTimerRunWithOwner runId issue phase role attempt startedAt owner) := by
  apply performs_bind (performs_fromExcept _)
  intro _
  apply performs_bind (performs_fromExcept _)
  intro sessionId
  apply performs_bind (performs_fromExcept _)
  intro callId
  apply performs_bind (plain_loadTimerRun runId)
  intro found
  cases found with
  | some existing => exact performs_fromExcept _
  | none => exact performs_bind (performs_request trivial) fun _ => plain_reload _ _

theorem inside_tryClaim (runId token : String) :
    Performs Inside (tryClaimTimerProjection runId token) := by
  apply performs_bind (performs_fromExcept _)
  intro _
  apply performs_bind (performs_request trivial)
  intro now
  exact performs_bind (performs_request trivial) fun changed => performs_pure _

theorem plain_tryClaim (runId token : String) :
    Performs Plain (tryClaimTimerProjection runId token) :=
  (inside_tryClaim runId token).mono Inside.plain

theorem inside_updateActivity (runId token : String) (activityId : Nat) :
    Performs Inside (updateActivityWithToken runId token activityId) := by
  apply performs_bind (performs_fromExcept _)
  intro _
  exact performs_bind (performs_request trivial) fun changed => performs_pure _

theorem plain_updateActivity (runId token : String) (activityId : Nat) :
    Performs Plain (updateActivityWithToken runId token activityId) :=
  (inside_updateActivity runId token activityId).mono Inside.plain

theorem plain_recordError (runId error : String) :
    Performs Plain (recordFailedSyncError runId error) :=
  performs_bind (performs_request trivial) fun _ => performs_pure _

theorem plain_timerStorageError {α : Type} {p : StoreM α} {operation : String}
    (plain : Performs Plain p) : Performs Plain (timerStorageError operation p) :=
  performs_renameFailure plain

theorem plain_rejectForgejo (kind : Option ProviderKind) :
    Performs Plain (rejectForgejoTimer kind) := by
  apply performs_bind (performs_request trivial)
  intro resolved
  cases resolved with
  | forgejo => exact performs_throw _
  | redmine | localStore => exact performs_pure ()

theorem plain_admitProvider (legacy : Bool) (kind : Option ProviderKind) :
    Performs Plain (admitProvider legacy kind) := by
  cases legacy with
  | true => exact plain_rejectForgejo kind
  | false => exact performs_pure ()

theorem plain_readOnlyRunIssue (operation runId : String) :
    Performs Plain (readOnlyRunIssue operation runId) :=
  (reads_readOnlyRunIssue operation runId).mono Reads.plain

theorem plain_admittedRoute (operation runId : String) :
    Performs Plain (admittedRoute operation runId) := by
  apply performs_bind (plain_readOnlyRunIssue operation runId)
  intro issue
  cases issue with
  | some issue => exact performs_bind (plain_resolveTimerRoute issue) fun _ => performs_pure _
  | none => exact performs_pure none

theorem plain_executeStart (kind : Option ProviderKind) (issue : Nat) (phase agentRole : String)
    (attempt : Nat) (runId : Option String) (owner : TimerRunOwner) :
    Performs Plain (executeStart kind issue phase agentRole attempt runId owner) := by
  apply performs_bind (performs_fromExcept _)
  intro role
  apply performs_bind (plain_resolveTimerRoute issue)
  intro route
  apply performs_bind (plain_admitProvider _ _)
  intro _
  apply performs_bind
  · show Performs Plain (chosenRunId runId)
    cases runId with
    | some runId => exact performs_pure runId
    | none => exact performs_request trivial
  intro runId
  apply performs_bind (plain_timerStorageError plain_storageOpen)
  intro _
  apply performs_bind plain_nowEpochSeconds
  intro startedAt
  apply performs_bind (plain_timerStorageError (plain_startTimerRunWithOwner _ _ _ _ _ _ _))
  intro run
  exact performs_pure _

theorem plain_loadExisting (runId : String) : Performs Plain (loadExisting runId) := by
  apply performs_bind (plain_timerStorageError (plain_loadTimerRun runId))
  intro found
  cases found with
  | some run => exact performs_pure run
  | none => exact performs_throw _

theorem plain_reopen (operation : String) : Performs Plain (reopen operation) :=
  performs_bind plain_closeStorage fun _ => plain_timerStorageError plain_storageOpen

theorem plain_recoverOvertaken (runId : String) : Performs Plain (recoverOvertaken runId) := by
  apply performs_bind (plain_timerStorageError plain_storageOpen)
  intro _
  apply performs_bind (plain_loadExisting runId)
  intro run
  cases run.syncStatus with
  | failed | projecting => exact performs_throw _
  | pending | synced | unconfirmed => exact performs_pure _

theorem plain_autoStartRun (render : PhasegentError → String) (issue : Nat) (phase role : String)
    (attempt : Nat) : Performs Plain (autoStartRun render issue phase role attempt) := by
  apply performs_bind (performs_renameFailure (plain_resolveTimerRoute issue))
  intro _
  apply performs_bind (performs_request trivial)
  intro runId
  apply performs_bind plain_nowEpochSeconds
  intro startedAt
  apply performs_bind (performs_renameFailure plain_storageOpen)
  intro _
  apply performs_bind (performs_renameFailure (plain_startTimerRunWithOwner _ _ _ _ _ _ _))
  intro run
  exact performs_pure _

theorem plain_admitFinish (render : PhasegentError → String) (runId : String) :
    Performs Plain (admitFinish render runId) :=
  (reads_admitFinish render runId).mono Reads.plain

theorem performs_beginProjectionWith {ok : TimerOp → Prop} (begins : ok .beginImmediate)
    (retries : Nat) : Performs ok (beginProjectionWith retries) := by
  induction retries with
  | zero => exact performs_renameFailure (performs_request begins)
  | succ retries ih =>
      apply performs_bind (performs_outcome (performs_request begins))
      intro answer
      cases answer with
      | ok _ => exact performs_pure ()
      | error error =>
          dsimp only
          split
          · exact ih
          · exact performs_throw _

theorem performs_resetStale {ok : TimerOp → Prop} (plain : ∀ op, Plain op → ok op)
    (begins : ok .beginImmediate) (runId error : String) :
    Performs ok (resetStaleProjectionToFailed runId error) := by
  apply performs_bind (performs_beginProjectionWith begins 4)
  intro _
  apply performs_bind (plain_nowEpochSeconds.mono plain)
  intro now
  apply performs_bind (performs_outcome (performs_request
    (plain (.write (.resetStale runId error (now - projectionLeaseSecs))) trivial)))
  intro answer
  cases answer with
  | ok changed => exact performs_bind (plain_commitProjection.mono plain) fun _ => performs_pure _
  | error failure => exact performs_bind (plain_rollbackProjection.mono plain) fun _ => performs_throw _

end Plain

-- Finishing runs neither reaches the remote nor records an entry.
section Unposted

theorem unposted_finishTimerRun (runId result : String) (finishedAt : Int) :
    Performs Unposted (finishTimerRun runId result finishedAt) := by
  apply performs_bind (performs_fromExcept _)
  intro result
  apply performs_bind ((plain_reload runId _).mono Plain.unposted)
  intro existing
  cases existing.status with
  | finished earlier =>
      dsimp only
      split
      · exact performs_pure existing
      · exact performs_throw _
  | running =>
      apply performs_bind (performs_fromExcept _)
      intro _
      exact performs_bind (performs_request trivial) fun _ =>
        (plain_reload runId _).mono Plain.unposted

variable (render : PhasegentError → String)

theorem unposted_finishRuns (runs : List TimerRun) : Performs Unposted (finishRuns render runs) := by
  induction runs with
  | nil => exact performs_pure []
  | cons run rest ih =>
      apply performs_bind
      · apply performs_outcome
        apply performs_bind ((plain_admitFinish render run.runId).mono Plain.unposted)
        intro _
        apply performs_bind (performs_renameFailure (plain_storageOpen.mono Plain.unposted))
        intro _
        apply performs_bind (plain_nowEpochSeconds.mono Plain.unposted)
        intro finishedAt
        exact performs_bind (performs_renameFailure (unposted_finishTimerRun _ _ _)) fun _ =>
          performs_pure ()
      intro finished
      cases finished with
      | ok _ => exact performs_bind ih fun _ => performs_pure _
      | error error => exact performs_throw _

theorem unposted_closeIssueRuns (issue : Nat) : Performs Unposted (closeIssueRuns render issue) := by
  apply performs_bind (performs_renameFailure (plain_storageOpen.mono Plain.unposted))
  intro _
  apply performs_bind (performs_renameFailure ((plain_listRunning issue).mono Plain.unposted))
  intro running
  exact unposted_finishRuns render _

theorem unposted_autoTransition (issue : Nat) (providerKind : ProviderKind) (statusName : String) :
    Performs Unposted (autoTransitionTimer render issue providerKind statusName) := by
  unfold autoTransitionTimer
  split
  · exact performs_pure _
  · apply performs_bind (performs_outcome (unposted_closeIssueRuns render issue))
    intro closed
    apply performs_bind (performs_outcome
      ((plain_autoStartRun render issue statusName _ 1).mono Plain.unposted))
    intro started
    cases started with
    | ok runId => exact performs_pure _
    | error error => exact performs_pure _

theorem unposted_autoClose (issue : Nat) (providerKind : ProviderKind) :
    Performs Unposted (autoCloseIssueTimer render issue providerKind) := by
  unfold autoCloseIssueTimer
  split
  · exact performs_pure _
  · apply performs_bind (performs_outcome ((plain_resolveTimerRoute issue).mono Plain.unposted))
    intro route
    cases route with
    | error error =>
        dsimp only
        split
        · exact performs_pure _
        · exact performs_pure _
    | ok _ =>
        exact performs_bind (performs_outcome (unposted_closeIssueRuns render issue)) fun _ =>
          performs_pure _

end Unposted

-- The remote is reached, and rows are synchronized, only by programs that finish nothing.
section Unfinished

theorem unfinished_of_plain {ε α : Type} {p : TimerM ε α} (plain : Performs Plain p) :
    Performs Unfinished p :=
  plain.mono Plain.unfinished

theorem unfinished_markSync (runId token : String) (activityId timeEntryId : Option Nat)
    (syncStatus : String) (syncError : Option String) :
    Performs Unfinished
      (markTimerSyncWithToken runId token activityId timeEntryId syncStatus syncError) := by
  apply performs_bind (performs_fromExcept _)
  intro status
  apply performs_bind (performs_fromExcept _)
  intro _
  apply performs_bind (performs_fromExcept _)
  intro _
  exact performs_bind (performs_request trivial) fun changed => performs_pure _

theorem unfinished_reloadFor (run : TimerRun) (operation gone : String) :
    Performs Unfinished (reloadFor run operation gone) := by
  apply performs_renameFailure
  apply performs_bind (unfinished_of_plain (plain_timerStorageError (plain_loadTimerRun run.runId)))
  intro found
  cases found with
  | some loaded => exact performs_pure loaded
  | none => exact performs_throw _

theorem unfinished_lostClaim (run : TimerRun) : Performs Unfinished (lostClaim run) := by
  apply performs_bind (unfinished_reloadFor _ _ _)
  intro current
  split
  · exact performs_pure current
  · split
    · exact performs_throw _
    · exact performs_throw _

theorem unfinished_claimRun (run : TimerRun) (token : String) :
    Performs Unfinished (claimRun run token) := by
  unfold claimRun
  split
  · exact performs_pure _
  · apply performs_bind (unfinished_of_plain
      (performs_renameFailure (plain_timerStorageError (plain_tryClaim _ _))))
    intro claimed
    cases claimed with
    | true => exact performs_bind (unfinished_reloadFor _ _ _) fun _ => performs_pure _
    | false => exact performs_bind (unfinished_lostClaim _) fun _ => performs_pure _

theorem unfinished_ensureActivity (api : String) (run : TimerRun) (token : String) :
    Performs Unfinished (ensureActivity api run token) := by
  unfold ensureActivity
  split
  · exact performs_pure _
  · apply performs_bind (performs_renameFailure (performs_request trivial))
    intro activities
    apply performs_bind (performs_renameFailure (performs_fromExcept _))
    intro activity
    apply performs_bind (unfinished_of_plain
      (performs_renameFailure (plain_timerStorageError (plain_updateActivity _ _ _))))
    intro persisted
    cases persisted with
    | true => exact unfinished_reloadFor _ _ _
    | false => exact performs_throw _

theorem unfinished_finalize (texts : Finalization) (run : TimerRun) (token : String)
    (activityId : Nat) (timeEntryId : Option Nat) (syncStatus : SyncStatus)
    (syncError : Option String) :
    Performs Unfinished (finalize texts run token activityId timeEntryId syncStatus syncError) := by
  apply performs_bind (performs_renameFailure
    (performs_renameFailure (unfinished_markSync _ _ _ _ _ _)))
  intro marked
  cases marked with
  | true => exact unfinished_reloadFor _ _ _
  | false => exact performs_throw _

theorem unfinished_findTimeEntry (api : String) (issue : Nat) (spentOn comments : String) :
    Performs Unfinished (findTimeEntryByComments api issue spentOn comments) := by
  apply performs_bind (performs_fromExcept _)
  intro _
  apply performs_bind
  · exact performs_bind (performs_fromExcept _) fun _ => performs_request trivial
  intro entries
  exact performs_bind (performs_fromExcept _) fun _ => performs_pure _

theorem unfinished_createTimeEntry (api : String) (issue hours : Nat) (spentOn : String)
    (activityId : Nat) (comments : String) :
    Performs Unfinished (createTimeEntry api issue hours spentOn activityId comments) := by
  apply performs_bind (performs_fromExcept _)
  intro _
  exact performs_bind (performs_request trivial) fun response => performs_pure _

theorem unfinished_projectHeld (api : String) (run : TimerRun) (token : String) (activityId : Nat)
    (finishedAt : Int) : Performs Unfinished (projectHeld api run token activityId finishedAt) := by
  apply performs_bind (performs_renameFailure (unfinished_findTimeEntry _ _ _ _))
  intro found
  cases found with
  | some existing => exact unfinished_finalize _ _ _ _ _ _ _
  | none =>
      cases run.roundedHours with
      | none => exact performs_throw _
      | some hours =>
          apply performs_bind (performs_renameFailure (unfinished_createTimeEntry _ _ _ _ _ _))
          intro created
          cases created with
          | some entry => exact unfinished_finalize _ _ _ _ _ _ _
          | none => exact unfinished_finalize _ _ _ _ _ _ _

theorem unfinished_projectLocked (api : String) (run : TimerRun) (token : String) :
    Performs Unfinished (projectLocked api run token) := by
  apply performs_bind (unfinished_claimRun run token)
  intro claimed
  cases claimed with
  | settled current => exact performs_pure current
  | held claimed =>
      apply performs_bind (unfinished_ensureActivity api claimed token)
      intro ready
      cases ready.activityId with
      | none => exact performs_throw _
      | some activityId =>
          cases ready.finishedAt with
          | none => exact performs_throw _
          | some finishedAt => exact unfinished_projectHeld _ _ _ _ _

theorem unfinished_projectRunWithProvider (api : String) (run : TimerRun) (token : String) :
    Performs Unfinished (projectRunWithProvider api run token) := by
  unfold projectRunWithProvider
  split
  · exact performs_pure run
  · apply performs_bind (performs_outcome (performs_beginProjectionWith trivial 4))
    intro begun
    cases begun with
    | error error =>
        dsimp only
        split
        · exact performs_throw _
        · exact performs_throw _
    | ok _ =>
        apply performs_bind (performs_outcome (unfinished_projectLocked api run token))
        intro result
        cases result with
        | ok current =>
            exact performs_bind (unfinished_of_plain
              (performs_renameFailure (plain_timerStorageError plain_commitProjection))) fun _ =>
              performs_pure current
        | error failure =>
            exact performs_bind (unfinished_of_plain plain_rollbackProjection) fun _ =>
              performs_throw failure

theorem unfinished_projectRunWithCredential (selection : ProviderSelection) (run : TimerRun)
    (token : String) : Performs Unfinished (projectRunWithCredential selection run token) := by
  apply performs_bind (performs_renameFailure (performs_request trivial))
  intro kind
  cases kind with
  | redmine =>
      exact performs_bind (performs_renameFailure (performs_request trivial)) fun api =>
        unfinished_projectRunWithProvider _ _ _
  | localStore => exact performs_pure run
  | forgejo => exact performs_throw _

theorem unfinished_projectFinished (render : PhasegentError → String)
    (selection : ProviderSelection) (run : TimerRun) :
    Performs Unfinished (projectFinished render selection run) := by
  apply performs_bind (unfinished_of_plain plain_generateProjectionToken)
  intro token
  apply performs_bind (performs_outcome (unfinished_projectRunWithCredential _ _ _))
  intro result
  cases result with
  | ok current => exact performs_pure _
  | error failure =>
      exact performs_bind (performs_outcome (unfinished_markSync _ _ _ _ _ _)) fun _ =>
        performs_throw _

theorem unfinished_projectRecovered (render : PhasegentError → String)
    (selection : ProviderSelection) (run : TimerRun) (token : String)
    (accept : TimerRun → Except PhasegentError TimerRun) :
    Performs Unfinished (projectRecovered render selection run token accept) := by
  apply performs_bind (performs_outcome (unfinished_projectRunWithCredential _ _ _))
  intro result
  cases result with
  | ok _ =>
      apply performs_bind (unfinished_of_plain (plain_timerStorageError plain_storageOpen))
      intro _
      apply performs_bind (unfinished_of_plain (plain_loadExisting _))
      intro final
      exact performs_bind (performs_fromExcept _) fun _ => performs_pure _
  | error failure =>
      exact performs_bind (performs_outcome (unfinished_of_plain (plain_recordError _ _))) fun _ =>
        performs_throw _

theorem unfinished_projectReset (render : PhasegentError → String) (selection : ProviderSelection)
    (runId : String) : Performs Unfinished (projectReset render selection runId) := by
  apply performs_bind (unfinished_of_plain (plain_timerStorageError plain_storageOpen))
  intro _
  apply performs_bind (unfinished_of_plain (plain_loadExisting runId))
  intro run
  apply performs_bind (unfinished_of_plain plain_generateProjectionToken)
  intro token
  exact unfinished_projectRecovered _ _ _ _ _

theorem unfinished_projectFailed (render : PhasegentError → String) (selection : ProviderSelection)
    (runId : String) : Performs Unfinished (projectFailed render selection runId) := by
  apply performs_bind (unfinished_of_plain plain_generateProjectionToken)
  intro token
  apply performs_bind (unfinished_of_plain (plain_timerStorageError plain_storageOpen))
  intro _
  apply performs_bind (unfinished_of_plain (plain_loadExisting runId))
  intro run
  exact unfinished_projectRecovered _ _ _ _ _

theorem unfinished_recoverTerminal (render : PhasegentError → String)
    (selection : ProviderSelection) (existing : TimerRun) :
    Performs Unfinished (recoverTerminal render selection existing) := by
  unfold recoverTerminal
  split
  · apply performs_bind (unfinished_of_plain (plain_reopen _))
    intro _
    apply performs_bind (performs_renameFailure (performs_resetStale Plain.unfinished trivial _ _))
    intro reset
    cases reset with
    | true => exact unfinished_projectReset _ _ _
    | false => exact performs_throw _
  · exact performs_throw _
  · exact performs_pure _

end Unfinished

end Phasegent.Timer
