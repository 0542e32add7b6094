import Phasegent.Timer.Footprint
import Phasegent.Timer.Rows

namespace Phasegent.Timer
open Fallible Interleaving Sql Relation

/-- What a row says of its two state machines. -/
structure TimerRun.Consistent (run : TimerRun) : Prop where
  running : run.status = .running ↔
    run.finishedAt = none ∧ run.elapsedSeconds = none ∧ run.roundedHours = none
  elapsed : ∀ result, run.status = .finished result → ∃ finishedAt, run.finishedAt = some finishedAt ∧
    run.elapsedSeconds = some (finishedAt - run.startedAt) ∧ 0 ≤ finishedAt - run.startedAt
  token : run.projectionToken.isSome ↔ run.syncStatus = .projecting

def Ledger.Consistent (ledger : Ledger) : Prop := ∀ run ∈ ledger.runs, run.Consistent

-- A finish that takes no claim away, a synchronization that ends the claim it was made under.
def TimerWrite.Clears : TimerWrite → TimerRun → Prop
  | .finishRun .., run => run.syncStatus ≠ .projecting
  | .markSync _ _ _ _ syncStatus _, _ => syncStatus ≠ .pending
  | _, _ => True

def TimerWrite.Timed : TimerWrite → TimerRun → Prop
  | .finishRun _ _ finishedAt elapsed _, run =>
      run.startedAt ≤ finishedAt ∧ elapsed = finishedAt - run.startedAt
  | _, _ => True

theorem startedRun_consistent (runId : String) (issue : Nat) (phase role : String) (attempt : Nat)
    (startedAt : Int) (owner : TimerRunOwner) :
    (startedRun runId issue phase role attempt startedAt owner).Consistent where
  running := by simp [startedRun]
  elapsed result finished := by cases finished
  token := by simp [startedRun]

theorem TimerWrite.consistent_sets {write : TimerWrite} {run : TimerRun} (consistent : run.Consistent)
    (selected : write.selects run) (timed : write.Timed run) (clears : write.Clears run) :
    (write.sets run).Consistent := by
  cases write with
  | insertRun => cases selected
  | finishRun runId result finishedAt elapsed rounded =>
      obtain ⟨after, rfl⟩ := timed
      have unclaimed : run.projectionToken = none := by
        rw [← Option.not_isSome_iff_eq_none, consistent.token]
        exact clears
      refine ⟨by simp [sets], fun _ _ => ⟨finishedAt, rfl, rfl, Int.sub_nonneg_of_le after⟩, ?_⟩
      simp only [sets, unclaimed]
      split
      · simp
      · split <;> simp
  | claimProjection => exact ⟨consistent.running, consistent.elapsed, by simp [sets]⟩
  | resetStale => exact ⟨consistent.running, consistent.elapsed, by simp [sets]⟩
  | updateActivity => exact ⟨consistent.running, consistent.elapsed, consistent.token⟩
  | recordSyncError => exact ⟨consistent.running, consistent.elapsed, consistent.token⟩
  | markSync runId token activityId timeEntryId syncStatus syncError =>
      refine ⟨consistent.running, consistent.elapsed, ?_⟩
      simp only [selects, Bool.and_eq_true, beq_iff_eq] at selected
      cases syncStatus with
      | pending => exact absurd rfl clears
      | synced | unconfirmed | failed => simp [sets, SyncStatus.settled]
      | projecting => simp [sets, SyncStatus.settled, selected.1.2]

theorem TimerWrite.inconsistent_sets {write : TimerWrite} {run : TimerRun}
    (consistent : run.Consistent) (selected : write.selects run) (unclear : ¬write.Clears run) :
    ¬(write.sets run).Consistent := by
  intro broken
  have claimed := broken.token
  cases write with
  | finishRun runId result finishedAt elapsed rounded =>
      have projecting : run.syncStatus = .projecting := not_not.mp unclear
      have held : run.projectionToken.isSome := consistent.token.mpr projecting
      simp only [sets, held, true_iff] at claimed
      split at claimed
      · cases claimed
      · split at claimed <;> cases claimed
  | markSync runId token activityId timeEntryId syncStatus syncError =>
      obtain rfl : syncStatus = .pending := not_not.mp unclear
      simp only [selects, Bool.and_eq_true, beq_iff_eq] at selected
      simp [sets, SyncStatus.settled, selected.1.2] at claimed
  | insertRun | claimProjection | resetStale | updateActivity | recordSyncError =>
      exact unclear trivial

section World
variable {F : Type} {outside : F → (op : TimerOp) → op.Ret → F → Prop} {i : Pid}
  {s s' : TimerState F} {op : TimerOp} {answer : op.Ret}

def Orderly (i : Pid) (s : TimerState F) : (op : TimerOp) → op.Ret → Prop
  | .write statement, _ =>
      ∀ run ∈ (s.db.sees i).runs, statement.selects run → statement.Clears run
  | _, _ => True

instance (statement : TimerWrite) (run : TimerRun) : Decidable (statement.Clears run) := by
  unfold TimerWrite.Clears
  split <;> infer_instance

instance (i : Pid) (s : TimerState F) (op : TimerOp) (answer : op.Ret) :
    Decidable (Orderly i s op answer) :=
  match op with
  | .write _ => inferInstanceAs (Decidable (∀ run ∈ (s.db.sees i).runs, _))
  | .storageOpen | .openExistingLedger | .beginImmediate | .commit | .rollback | .closeStorage
  | .load _ | .listRunning _ | .nowEpochSeconds | .generateRunId _ | .generateProjectionToken
  | .resolveTimerRoute _ | .resolveKind _ | .redmineProvider .. | .listActivities _
  | .listTimeEntries .. | .postTimeEntry .. => .isTrue trivial

-- What the others may rely on: rows only move on, and nobody takes the lock for somebody else.
def integrity : Contract (TimerState F) where
  Inv s := s.db.Both Ledger.Consistent ∧ s.db.Ahead Ledger.Later
  guarantee j s s' := ∀ i, i ≠ j →
    (s.db.sees i).Later (s'.db.sees i) ∧ (s.db.Free i → s'.db.Free i)

abbrev orderlyWorld (outside : F → (op : TimerOp) → op.Ret → F → Prop) :
    World (TimerState F) TimerOp TimerOp.Ret :=
  (timerWorld outside).guard Orderly

theorem guarantee_of_moves {writes : Ledger → Ledger → Prop}
    (later : ∀ {d d'}, writes d d' → d.Later d') (moves : s.db.Moves writes i s'.db)
    (ahead : s.db.Ahead Ledger.Later) : integrity.guarantee i s s' := by
  intro j other
  refine ⟨?_, moves.free_other other⟩
  rcases moves.sees_other other with same | ⟨before, after⟩
  · rw [same]
    exact .refl _
  · rw [before, after]
    exact moves.committed .refl later ahead

theorem TimerStep.integrity (inv : integrity.Inv s) (step : TimerStep outside i s op answer s')
    (orderly : Orderly i s op answer)
    (timed : ∀ statement, op = .write statement → ∀ run ∈ (s.db.sees i).runs,
      statement.selects run → statement.Timed run) :
    integrity.Inv s' ∧ integrity.guarantee i s s' := by
  have moves := step.moves
  refine ⟨⟨moves.both ?_ inv.1, moves.ahead .refl .trans (fun h => h.2.later) inv.2⟩,
    guarantee_of_moves (fun h => h.2.later) moves inv.2⟩
  rintro d d' ⟨rfl, statement, n, rfl, written⟩ consistent run' member
  rcases (TimerWrite.tx_changes written).new member with ⟨run, old, rfl⟩ | fresh
  · split
    · next selected =>
        exact TimerWrite.consistent_sets (consistent run old) selected
          (timed statement rfl run old selected) (orderly run old selected)
    · exact consistent run old
  · obtain ⟨_, _, _, _, _, _, _, rfl⟩ := fresh
    exact startedRun_consistent ..

end World

section Commands
variable {F : Type} {outside : F → (op : TimerOp) → op.Ret → F → Prop} {i : Pid} {ε ε' α β : Type}
  {render : PhasegentError → String}

def Sound (outside : F → (op : TimerOp) → op.Ret → F → Prop) (i : Pid) (p : TimerM ε α) : Prop :=
  Hoare (orderlyWorld outside) integrity i (fun _ => True) p fun _ _ => True

theorem sound_of_unfinished {p : TimerM ε α} (performs : Performs Unfinished p) :
    Sound outside i p := by
  refine hoare_performs (Contract.stable_const i True) ?_ performs
  intro s op answer s' inv _ unfinished step
  obtain ⟨inv', given⟩ := step.1.integrity inv step.2 (by
    rintro statement rfl run - -
    cases statement with
    | finishRun => exact absurd unfinished id
    | _ => trivial)
  exact ⟨inv', given, trivial⟩

theorem sound_of_plain {p : TimerM ε α} (performs : Performs Plain p) : Sound outside i p :=
  sound_of_unfinished (unfinished_of_plain performs)

theorem sound_bind {p : TimerM ε α} {f : α → TimerM ε β} (first : Sound outside i p)
    (rest : ∀ a, Sound outside i (f a)) : Sound outside i (p >>= f) :=
  hoare_bind first rest

theorem sound_pure (a : α) : Sound outside i (pure a : TimerM ε α) :=
  sound_of_plain (performs_pure a)

theorem sound_throw (e : ε) : Sound outside i (throw e : TimerM ε α) :=
  sound_of_plain (performs_throw e)

theorem sound_renameFailure {rename : ε → ε'} {p : TimerM ε α} (sound : Sound outside i p) :
    Sound outside i (renameFailure rename p) :=
  hoare_renameFailure (fun _ => Contract.stable_const i True) sound

theorem sound_outcome {p : TimerM ε α} (sound : Sound outside i p) :
    Sound outside i (outcome p : TimerM ε' (Except ε α)) := by
  exact (hoare_outcome (fun _ => Contract.stable_const i True) sound).weaken fun _ _ _ => trivial

def Finished (runId : String) (result : TimerResult) (ledger : Ledger) : Prop :=
  ∃ run ∈ ledger.runs, run.runId = runId ∧ run.status = .finished result

theorem Ledger.Later.finished {ledger ledger' : Ledger} {runId : String} {result : TimerResult}
    (later : ledger.Later ledger') (finished : Finished runId result ledger) :
    Finished runId result ledger' := by
  obtain ⟨run, member, named, status⟩ := finished
  obtain ⟨run', member', moved⟩ := later run member
  refine ⟨run', member', moved.runId.trans named, ?_⟩
  rw [(moved.finished (by simp [status])).1, status]

theorem Finished.unique {ledger : Ledger} {runId : String} {result result' : TimerResult}
    (finished : Finished runId result ledger) (finished' : Finished runId result' ledger) :
    result = result' := by
  obtain ⟨run, member, named, status⟩ := finished
  obtain ⟨run', member', named', status'⟩ := finished'
  rw [Ledger.eq_of_runId member member' (named.trans named'.symm), status'] at status
  exact (RunStatus.finished.inj status).symm

def Seen (run : TimerRun) (ledger : Ledger) : Prop := ∃ row ∈ ledger.runs, run.Later row

theorem stable_seen (run : TimerRun) :
    integrity.Stable i fun s : TimerState F => Seen run (s.db.sees i) := by
  rintro s s' - - ⟨j, other, given⟩ ⟨row, member, later⟩
  obtain ⟨row', member', further⟩ := (given i (Ne.symm other)).1 row member
  exact ⟨row', member', later.trans further⟩

theorem stable_finished (runId : String) (result : TimerResult) :
    integrity.Stable i fun s : TimerState F => Finished runId result (s.db.sees i) := by
  rintro s s' - - ⟨j, other, given⟩ finished
  exact (given i (Ne.symm other)).1.finished finished

section Finish
variable {frame : TimerState F → Prop} (stable : integrity.Stable i frame)
include stable

theorem hoare_loadTimerRun (runId : String) :
    Hoare (orderlyWorld outside) integrity i frame (loadTimerRun runId) fun found s =>
      frame s ∧ ∀ run, found = some run → run.runId = runId ∧ Seen run (s.db.sees i) := by
  apply hoare_request stable
  · intro found
    apply stable.and
    intro s s' inv inv' step seen run same
    exact ⟨(seen run same).1, stable_seen run s s' inv inv' step (seen run same).2⟩
  · intro s answer s' inv holds step
    obtain ⟨inv', given⟩ := step.1.integrity inv step.2 (by rintro statement ⟨⟩)
    refine ⟨inv', given, ?_⟩
    cases answer with
    | error e => trivial
    | ok found =>
        obtain ⟨rfl, rfl⟩ := step.1.load_ok
        refine ⟨holds, fun run same => ?_⟩
        obtain ⟨member, named⟩ := Ledger.loadTimerRun_some same
        exact ⟨named, run, member, .refl run⟩

theorem hoare_reload (runId gone : String) :
    Hoare (orderlyWorld outside) integrity i frame (reload runId gone) fun run s =>
      run.runId = runId ∧ frame s ∧ Seen run (s.db.sees i) := by
  apply hoare_bind (hoare_loadTimerRun stable runId)
  intro found
  cases found with
  | none => exact hoare_throw
  | some run =>
      apply hoare_pure
      · exact (Contract.stable_const i _).and (stable.and (stable_seen run))
      · exact fun s _ holds => ⟨(holds.2 run rfl).1, holds.1, (holds.2 run rfl).2⟩

variable (written : ∀ s s' statement answer, frame s →
  TimerStep outside i s (.write statement) answer s' → frame s')
include written

theorem hoare_finishWrite (run : TimerRun) (result : TimerResult) (finishedAt : Int)
    (after : run.startedAt ≤ finishedAt) (rounded : Nat) :
    Hoare (orderlyWorld outside) integrity i (fun s => frame s ∧ Seen run (s.db.sees i))
      (write (.finishRun run.runId result finishedAt (max (finishedAt - run.startedAt) 0) rounded))
      fun _ s => frame s ∧ Finished run.runId result (s.db.sees i) := by
  apply hoare_request (stable.and (stable_seen run))
  · exact fun _ => stable.and (stable_finished run.runId result)
  · intro s answer s' inv holds step
    obtain ⟨row, member, later⟩ := holds.2
    obtain ⟨inv', given⟩ := step.1.integrity inv step.2 (by
      rintro statement ⟨⟩ other otherMember selected
      simp only [TimerWrite.selects, Bool.and_eq_true, beq_iff_eq] at selected
      have same : other = row :=
        Ledger.eq_of_runId otherMember member (selected.1.trans later.runId.symm)
      rw [same, TimerWrite.Timed, later.startedAt]
      exact ⟨after, by omega⟩)
    refine ⟨inv', given, ?_⟩
    cases answer with
    | error e => trivial
    | ok n =>
        have frame' := written s s' _ _ holds.1 step.1
        obtain ⟨ledger, free, wrote, rfl⟩ := step.1.write_ok
        refine ⟨frame', ?_⟩
        rw [Locked.sees_put free]
        exact (TimerWrite.finishRun_ok wrote).2

theorem hoare_finishTimerRun (runId text : String) (finishedAt : Int) :
    Hoare (orderlyWorld outside) integrity i frame (finishTimerRun runId text finishedAt) fun _ s =>
      frame s ∧ ∃ result, TimerResult.parse text = .ok result ∧ Finished runId result (s.db.sees i) := by
  apply hoare_bind (hoare_fromExcept stable)
  intro result
  apply Hoare.of_pure
  intro parsed
  have settled : integrity.Stable i fun s => frame s ∧ Finished runId result (s.db.sees i) :=
    stable.and (stable_finished runId result)
  suffices done : Hoare (orderlyWorld outside) integrity i frame _ fun _ s =>
      frame s ∧ Finished runId result (s.db.sees i) from
    done.weaken fun _ _ done => ⟨done.1, result, parsed, done.2⟩
  apply hoare_bind (hoare_reload stable runId _)
  intro run
  apply Hoare.of_pure
  rintro rfl
  dsimp only
  split
  · next earlier ended =>
      split
      · next same =>
          subst same
          apply hoare_pure settled
          rintro s - ⟨holds, row, member, later⟩
          refine ⟨holds, row, member, later.runId, ?_⟩
          rw [(later.finished (by simp [ended])).1, ended]
      · exact hoare_throw
  · have seen := stable.and (stable_seen run)
    apply hoare_bind (hoare_fromExcept seen)
    intro _
    apply Hoare.of_pure
    intro checked
    rw [refuse_eq_ok, not_lt] at checked
    apply hoare_bind (hoare_finishWrite stable written run result finishedAt checked _)
    intro _
    apply hoare_bind (hoare_loadTimerRun settled run.runId)
    intro found
    cases found with
    | none => exact hoare_throw
    | some row => exact hoare_pure settled fun _ _ holds => holds.1

end Finish

theorem sound_finishTimerRun (runId text : String) (finishedAt : Int) :
    Sound outside i (finishTimerRun runId text finishedAt) :=
  (hoare_finishTimerRun (Contract.stable_const i True) (fun _ _ _ _ _ _ => trivial) runId text
    finishedAt).weaken fun _ _ _ => trivial

theorem sound_executeFinish (selection : ProviderSelection) (runId result : String) :
    Sound outside i (executeFinish render selection runId result) := by
  apply sound_bind (sound_of_plain (plain_admittedRoute _ runId))
  intro route
  apply sound_bind (sound_of_plain (plain_admitProvider _ _))
  intro _
  apply sound_bind (sound_of_plain (plain_timerStorageError plain_storageOpen))
  intro _
  apply sound_bind (sound_of_plain plain_nowEpochSeconds)
  intro finishedAt
  apply sound_bind (sound_renameFailure (sound_finishTimerRun _ _ _))
  intro run
  split
  · exact sound_pure _
  · exact sound_of_unfinished (unfinished_projectFinished _ _ _)

theorem sound_recoverRunning (selection : ProviderSelection) (runId : String) :
    Sound outside i (recoverRunning render selection runId) := by
  apply sound_bind (sound_of_plain (plain_reopen _))
  intro _
  apply sound_bind (sound_of_plain plain_nowEpochSeconds)
  intro finishedAt
  apply sound_bind (sound_outcome (sound_finishTimerRun _ _ _))
  intro finished
  cases finished with
  | ok run => exact sound_of_unfinished (unfinished_projectFailed _ _ _)
  | error message =>
      dsimp only
      split
      · exact sound_of_plain (plain_recoverOvertaken _)
      · exact sound_throw _

theorem sound_executeRecover (selection : ProviderSelection) (runId : String) :
    Sound outside i (executeRecover render selection runId) := by
  apply sound_bind (sound_of_plain (plain_admittedRoute _ runId))
  intro route
  apply sound_bind (sound_of_plain (plain_admitProvider _ _))
  intro _
  apply sound_bind (sound_of_plain (plain_timerStorageError plain_storageOpen))
  intro _
  apply sound_bind (sound_of_plain (plain_loadExisting runId))
  intro existing
  apply sound_bind (sound_of_plain (plain_resolveTimerRoute _))
  intro route
  cases existing.status with
  | finished result => exact sound_of_unfinished (unfinished_recoverTerminal _ _ _)
  | running => exact sound_recoverRunning _ _

theorem sound_autoFinishRun (runId : String) : Sound outside i (autoFinishRun render runId) := by
  apply sound_bind (sound_of_plain (plain_admitFinish render runId))
  intro _
  apply sound_bind (sound_renameFailure (sound_of_plain plain_storageOpen))
  intro _
  apply sound_bind (sound_of_plain plain_nowEpochSeconds)
  intro finishedAt
  exact sound_bind (sound_renameFailure (sound_finishTimerRun _ _ _)) fun _ => sound_pure ()

theorem sound_finishRuns (runs : List TimerRun) : Sound outside i (finishRuns render runs) := by
  induction runs with
  | nil => exact sound_pure []
  | cons run rest ih =>
      apply sound_bind (sound_outcome (sound_autoFinishRun run.runId))
      intro finished
      cases finished with
      | ok _ => exact sound_bind ih fun _ => sound_pure _
      | error error => exact sound_throw _

theorem sound_closeIssueRuns (issue : Nat) : Sound outside i (closeIssueRuns render issue) := by
  apply sound_bind (sound_renameFailure (sound_of_plain plain_storageOpen))
  intro _
  apply sound_bind (sound_of_plain (performs_renameFailure (plain_listRunning issue)))
  intro running
  exact sound_finishRuns _

theorem sound_autoTransition (issue : Nat) (providerKind : ProviderKind) (statusName : String) :
    Sound outside i (autoTransitionTimer render issue providerKind statusName) := by
  unfold autoTransitionTimer
  split
  · exact sound_pure _
  · apply sound_bind (sound_outcome (sound_closeIssueRuns issue))
    intro closed
    apply sound_bind (sound_outcome (sound_of_plain (plain_autoStartRun render _ _ _ _)))
    intro started
    cases started with
    | ok runId => exact sound_pure _
    | error error => exact sound_pure _

theorem sound_autoClose (issue : Nat) (providerKind : ProviderKind) :
    Sound outside i (autoCloseIssueTimer render issue providerKind) := by
  unfold autoCloseIssueTimer
  split
  · exact sound_pure _
  · apply sound_bind (sound_outcome (sound_of_plain (plain_resolveTimerRoute issue)))
    intro route
    cases route with
    | error error =>
        dsimp only
        split
        · exact sound_pure _
        · exact sound_pure _
    | ok _ => exact sound_bind (sound_outcome (sound_closeIssueRuns issue)) fun _ => sound_pure _

theorem sound_closing {p : TimerM ε α} (sound : Sound outside i p) : Sound outside i (closing p) := by
  apply sound_bind (sound_outcome sound)
  intro result
  apply sound_bind (sound_of_plain plain_closeStorage)
  intro _
  exact sound_of_plain (performs_fromExcept result)

theorem sound_reply {shape : α → TimerReply} {p : TimerM PhasegentError α}
    (sound : Sound outside i p) : Sound outside i (reply shape p) :=
  sound_closing (sound_bind sound fun _ => sound_pure _)

theorem sound_run (command : Command) : Sound outside i (command.run render) := by
  cases command with
  | start => exact sound_reply (sound_of_plain (plain_timerStorageError
      (plain_startTimerRunWithOwner _ _ _ _ _ _ _)))
  | finish => exact sound_reply (sound_renameFailure (sound_finishTimerRun _ _ _))
  | claim => exact sound_reply (sound_of_plain (plain_timerStorageError (plain_tryClaim _ _)))
  | updateActivity =>
      exact sound_reply (sound_of_plain (plain_timerStorageError (plain_updateActivity _ _ _)))
  | markSync =>
      exact sound_reply (sound_renameFailure (sound_of_unfinished (unfinished_markSync _ _ _ _ _ _)))
  | resetStale => exact sound_reply (sound_renameFailure
      (sound_of_unfinished (performs_resetStale Plain.unfinished trivial _ _)))
  | recordError => exact sound_reply (sound_of_plain (plain_timerStorageError (plain_recordError _ _)))
  | timerStart => exact sound_reply (sound_of_plain (plain_executeStart _ _ _ _ _ _ _))
  | timerFinish => exact sound_reply (sound_executeFinish _ _ _)
  | timerRecover => exact sound_reply (sound_executeRecover _ _)
  | autoTransition => exact sound_reply (sound_renameFailure (sound_autoTransition _ _ _))
  | autoClose => exact sound_reply (sound_renameFailure (sound_autoClose _ _))

theorem stable_free : integrity.Stable i fun s : TimerState F => s.db.Free i :=
  fun _ _ _ _ ⟨_, other, given⟩ free => (given i (Ne.symm other)).2 free

theorem TimerStep.free_write {s s' : TimerState F} {statement : TimerWrite}
    {answer : (TimerOp.write statement).Ret} (free : s.db.Free i)
    (step : TimerStep outside i s (.write statement) answer s') : s'.db.Free i := by
  cases step with
  | write unblocked => exact free.put unblocked
  | fault => exact free
  | outside external => cases external

def Reported (commands : Pid → Option Command) (i : Pid) (_ : TimerReply) (s : TimerState F) : Prop :=
  ∀ runId text finishedAt, commands i = some (.finish runId text finishedAt) →
    ∃ result, TimerResult.parse text = .ok result ∧ Finished runId result (s.db.sees i)

def Settled (i : Pid) (runId text : String) (s : TimerState F) : Prop :=
  s.db.Free i ∧ ∃ result, TimerResult.parse text = .ok result ∧ Finished runId result (s.db.sees i)

theorem stable_settled (runId text : String) :
    integrity.Stable i (Settled (F := F) i runId text) := by
  rintro s s' inv inv' step ⟨free, result, parsed, finished⟩
  exact ⟨stable_free s s' inv inv' step free, result, parsed,
    stable_finished runId result s s' inv inv' step finished⟩

theorem hoare_closeStorage {runId text : String} :
    Hoare (orderlyWorld outside) integrity i (Settled i runId text)
      (closeStorage : TimerM ε Unit) fun _ => Settled i runId text := by
  apply hoare_request (stable_settled runId text) fun _ => stable_settled runId text
  intro s answer s' inv settled step
  obtain ⟨inv', given⟩ := step.1.integrity inv step.2 (by rintro statement ⟨⟩)
  refine ⟨inv', given, ?_⟩
  cases step.1 with
  | close => rwa [OnOk, Settled, settled.1.release]
  | fault fails => exact settled
  | outside external => cases external

theorem hoare_closing {runId text : String} {p : TimerM ε α} {P : TimerState F → Prop}
    (hoare : Hoare (orderlyWorld outside) integrity i P p fun _ => Settled i runId text) :
    Hoare (orderlyWorld outside) integrity i P (closing p) fun _ => Settled i runId text := by
  have settled := stable_settled (i := i) (F := F) runId text
  apply hoare_bind (hoare_outcome (fun _ => settled) hoare)
  intro result
  cases result with
  | ok a => exact hoare_bind hoare_closeStorage fun _ => hoare_pure settled fun _ _ done => done
  | error e =>
      apply hoare_bind (M := fun _ _ => True)
      · exact sound_of_plain plain_closeStorage
      · exact fun _ => hoare_throw

theorem hoare_finish (commands : Pid → Option Command) {runId text : String} {finishedAt : Int}
    (command : commands i = some (.finish runId text finishedAt)) :
    Hoare (orderlyWorld outside) integrity i (fun s => s.db.Free i)
      ((Command.finish runId text finishedAt).run render) (Reported commands i) := by
  have settled := stable_settled (i := i) (F := F) runId text
  suffices done : Hoare (orderlyWorld outside) integrity i (fun s => s.db.Free i)
      ((Command.finish runId text finishedAt).run render) fun _ => Settled i runId text by
    refine done.weaken fun _ s done runId' text' finishedAt' named => ?_
    cases command.symm.trans named
    exact done.2
  apply hoare_closing
  apply hoare_bind (hoare_renameFailure (fun _ => settled) ?_)
  · exact fun row => hoare_pure settled fun _ _ done => done
  · exact hoare_finishTimerRun stable_free (fun _ _ _ _ free step => step.free_write free) _ _ _

theorem hoare_command (commands : Pid → Option Command) {command : Command}
    (given : commands i = some command) :
    Hoare (orderlyWorld outside) integrity i (fun s => s.db.Free i) (command.run render)
      (Reported commands i) := by
  cases command with
  | finish runId text finishedAt => exact hoare_finish commands given
  | _ =>
      apply ((sound_run _).pre fun _ _ _ => trivial).weaken
      intro reply s _ runId text finishedAt named
      cases given.symm.trans named

end Commands

section Runs
variable {F : Type} {outside : F → (op : TimerOp) → op.Ret → F → Prop}
  {render : PhasegentError → String} {commands : Pid → Option Command} {start : TimerState F}
  {c c' : Config (TimerState F) TimerOp TimerOp.Ret (Except PhasegentError TimerReply)}

theorem crash_integrity (i : Pid) (s s' : TimerState F) (inv : integrity.Inv s)
    (crashed : (orderlyWorld outside).crash i s s') :
    integrity.Inv s' ∧ integrity.guarantee i s s' := by
  subst crashed
  have moves : s.db.Moves (fun _ _ => False) i (s.db.release i) := .of_release s.db
  exact ⟨⟨moves.both (fun h => h.elim) inv.1, moves.ahead .refl .trans (fun h => h.elim) inv.2⟩,
    guarantee_of_moves (fun h => h.elim) moves inv.2⟩

theorem timerFleet_safe (fresh : start.db = ⟨.empty, none⟩) :
    (timerFleet render commands start).Safe (orderlyWorld outside) integrity
      fun i => OnOk (Reported commands i) := by
  have inv : integrity.Inv start := by
    refine ⟨⟨?_, ?_⟩, ?_⟩ <;> simp [fresh, Ledger.Consistent, Ledger.empty, Locked.Ahead]
  refine ⟨inv, fun i p running => ?_⟩
  obtain ⟨command, given, rfl⟩ := Option.map_eq_some_iff.mp running
  exact (hoare_command commands given).triple start inv (by simp [fresh, Locked.Free])

theorem ahead_of_run (run : Run (orderlyWorld outside) c c') (ahead : c.shared.db.Ahead Ledger.Later) :
    c'.shared.db.Ahead Ledger.Later ∧ c.shared.db.committed.Later c'.shared.db.committed := by
  refine Run.related (fun s s' : TimerState F => s.db.Ahead Ledger.Later →
    s'.db.Ahead Ledger.Later ∧ s.db.committed.Later s'.db.committed) ?_ ?_ ?_ ?_ run ahead
  · exact fun s ahead => ⟨ahead, .refl _⟩
  · intro a b c first second ahead
    obtain ⟨ahead', later⟩ := first ahead
    obtain ⟨ahead'', later'⟩ := second ahead'
    exact ⟨ahead'', later.trans later'⟩
  · intro i s e r s' step ahead
    exact ⟨step.1.moves.ahead .refl .trans (fun h => h.2.later) ahead,
      step.1.moves.committed .refl (fun h => h.2.later) ahead⟩
  · rintro i s s' rfl ahead
    have moves : s.db.Moves (fun _ _ => False) i (s.db.release i) := .of_release s.db
    exact ⟨moves.ahead .refl .trans (fun h => h.elim) ahead,
      moves.committed .refl (fun h => h.elim) ahead⟩

def Finishing (runId : String) : TimerOp → Prop
  | .load _ | .closeStorage => True
  | .write (.finishRun named ..) => named = runId
  | _ => False

theorem finishing_run (runId text : String) (finishedAt : Int) :
    Performs (Finishing runId) ((Command.finish runId text finishedAt).run render) := by
  apply performs_bind
  · apply performs_outcome
    refine performs_bind (performs_renameFailure ?_) fun _ => performs_pure _
    apply performs_bind (performs_fromExcept _)
    intro result
    have reloads : ∀ gone, Performs (Finishing runId) (reload runId gone) := by
      intro gone
      apply performs_bind (performs_request trivial)
      intro found
      cases found with
      | none => exact performs_throw gone
      | some run => exact performs_pure run
    apply performs_bind (reloads _)
    intro run
    cases run.status with
    | finished earlier =>
        dsimp only
        split
        · exact performs_pure run
        · exact performs_throw _
    | running =>
        apply performs_bind (performs_fromExcept _)
        intro _
        exact performs_bind (performs_request rfl) fun _ => reloads _
  · intro result
    exact performs_bind (performs_request trivial) fun _ => performs_fromExcept result

theorem TimerStep.refinish {i : Pid} {s s' : TimerState F} {op : TimerOp} {answer : op.Ret}
    {runId : String} {result : TimerResult} (step : TimerStep outside i s op answer s')
    (finishing : Finishing runId op) (finished : Finished runId result (s.db.sees i)) :
    s'.db.committed = s.db.committed := by
  cases step with
  | load | fault | outside => rfl
  | close => exact Locked.release_committed s.db i
  | begin | commit | rollback | listRunning | listed | posted => cases finishing
  | @write statement free =>
      cases statement with
      | finishRun named result' finishedAt elapsed rounded =>
          obtain rfl : named = runId := finishing
          have refused : ∀ n ledger, (TimerWrite.finishRun named result' finishedAt elapsed rounded).tx
              (s.db.sees i) ≠ .ok (n, ledger) := by
            intro n ledger ran
            obtain ⟨run, member, same, status⟩ := finished
            obtain ⟨⟨other, otherMember, same', running⟩, -⟩ := TimerWrite.finishRun_ok ran
            rw [Ledger.eq_of_runId otherMember member (same'.trans same.symm), status] at running
            cases running
          cases ran : (TimerWrite.finishRun named result' finishedAt elapsed rounded).tx
              (s.db.sees i) with
          | ok answer => exact absurd ran (refused answer.1 answer.2)
          | error e => simp only [Tx.commit, ran, put_sees free]
      | insertRun | claimProjection | resetStale | updateActivity | markSync | recordSyncError =>
          cases finishing

theorem TimerStep.inconsistent {i : Pid} {s s' : TimerState F} {statement : TimerWrite} {n : Nat}
    (consistent : (s.db.sees i).Consistent)
    (step : TimerStep outside i s (.write statement) (.ok n) s')
    (disorderly : ¬Orderly i s (.write statement) (.ok n)) : ¬(s'.db.sees i).Consistent := by
  obtain ⟨ledger, free, wrote, rfl⟩ := step.write_ok
  rw [Locked.sees_put free]
  intro consistent'
  simp only [Orderly, not_forall] at disorderly
  obtain ⟨run, member, selected, unclear⟩ := disorderly
  have moved := (TimerWrite.tx_changes wrote).old member
  rw [if_pos selected] at moved
  exact TimerWrite.inconsistent_sets (consistent run member) selected unclear (consistent' _ moved)

/-- In every run in which no claim is taken from under a finish and none is given up as `pending`,
both state machines of every row agree, finished rows keep their result and times, a recorded entry
stays recorded, and finishing a run again with another result is an error that changes nothing. Any
other statement that succeeds breaks the first of these at once. -/
theorem ledger_keeps_integrity (fresh : start.db = ⟨.empty, none⟩)
    (run : Run (orderlyWorld outside) (timerFleet render commands start) c)
    (more : Run (orderlyWorld outside) c c') :
    c.shared.db.committed.Consistent ∧ c.shared.db.committed.Later c'.shared.db.committed ∧
      (∀ i runId text finishedAt result, commands i = some (.finish runId text finishedAt) →
        Finished runId result c.shared.db.committed → text ≠ result.text →
        (∀ reply, c'.result i ≠ some (.ok reply)) ∧
          ∀ e next answer s', c'.procs i = some (.call e next) →
            (timerWorld outside).step i c'.shared e answer s' →
            s'.db.committed = c'.shared.db.committed) ∧
      ∀ i statement n s', (timerWorld outside).step i c'.shared (.write statement) (.ok n) s' →
        ¬Orderly i c'.shared (.write statement) (.ok n) → ¬(s'.db.sees i).Consistent := by
  have safe := Run.safe crash_integrity (timerFleet_safe fresh) run
  have safe' := Run.safe crash_integrity safe more
  have later := (ahead_of_run more safe.1.2).2
  refine ⟨safe.1.1.1, later, ?_, fun i _ _ _ step => step.inconsistent (safe'.1.1.sees i)⟩
  intro i runId text finishedAt result command finished other
  have seen : Finished runId result (c'.shared.db.sees i) := by
    rcases c'.shared.db.sees_cases i with same | held
    · rw [same]
      exact later.finished finished
    · exact (safe'.1.2 i _ held).finished (later.finished finished)
  constructor
  · intro reply done
    obtain ⟨result', parsed, finished'⟩ := safe'.result done runId text finishedAt command
    rw [← Finished.unique seen finished'] at parsed
    exact other (TimerResult.text_of_parse parsed)
  · intro e next answer s' running step
    have calls : ∀ j p, c'.procs j = some p → p.Calls fun op => ∀ runId text finishedAt,
        commands j = some (.finish runId text finishedAt) → Finishing runId op := by
      apply Run.calls (run.trans more)
      intro j p started
      obtain ⟨command', given, rfl⟩ := Option.map_eq_some_iff.mp started
      by_cases finish : ∃ runId text finishedAt, command' = .finish runId text finishedAt
      · obtain ⟨runId', text', finishedAt', rfl⟩ := finish
        apply (finishing_run runId' text' finishedAt').calls.mono
        intro op finishing runId text finishedAt named
        cases given.symm.trans named
        exact finishing
      · apply Prog.Calls.of_forall
        intro op runId text finishedAt named
        exact absurd ⟨runId, text, finishedAt, Option.some.inj (given.symm.trans named)⟩ finish
    exact step.refinish ((calls i _ running).1 runId text finishedAt command) seen

end Runs

section Race

def deskCommands : Pid → Option Command
  | 0 => some (.start "r" 7 "In Review" "reviewer" 1 100 ⟨none, none⟩)
  | 1 => some (.finish "r" "DONE" 160)
  | 2 => some (.finish "r" "FAILED" 200)
  | 3 => some (.claim "r" "t")
  | _ => none

def deskFleet : Config (TimerState Nat) TimerOp TimerOp.Ret (Except PhasegentError TimerReply) :=
  timerFleet PhasegentError.message deskCommands emptyDesk

def deskRun (schedule : List Pid) :
    Config (TimerState Nat) TimerOp TimerOp.Ret (Except PhasegentError TimerReply) :=
  deskFleet.replay (perform desk fun _ => false) schedule

theorem deskRun_orderly (schedule : List Pid)
    (admitted : deskFleet.admits (perform desk fun _ => false) Orderly schedule) :
    Run (orderlyWorld (answered desk)) deskFleet (deskRun schedule) :=
  .replay_guard (perform_sound desk fun _ => false) deskFleet schedule admitted

theorem finished_run_stays_done :
    (deskRun [0, 0, 0, 0, 1, 1, 1, 1]).shared.db.committed.Consistent ∧
      ∀ reply, (deskRun [0, 0, 0, 0, 1, 1, 1, 1, 2, 2]).result 2 ≠ some (.ok reply) := by
  have first := deskRun_orderly [0, 0, 0, 0, 1, 1, 1, 1] (by decide)
  have more : Run (orderlyWorld (answered desk)) (deskRun [0, 0, 0, 0, 1, 1, 1, 1])
      (deskRun [0, 0, 0, 0, 1, 1, 1, 1, 2, 2]) :=
    .replay_guard (perform_sound desk fun _ => false) (deskRun [0, 0, 0, 0, 1, 1, 1, 1]) [2, 2]
      (by decide)
  obtain ⟨consistent, -, refinish, -⟩ := ledger_keeps_integrity rfl first more
  have done : Finished "r" .done (deskRun [0, 0, 0, 0, 1, 1, 1, 1]).shared.db.committed := by
    have stored : (deskRun [0, 0, 0, 0, 1, 1, 1, 1]).shared.db.committed.runs.map
        (fun run => (run.runId, run.status)) = [("r", .finished .done)] := by decide
    obtain ⟨run, member, same⟩ := List.mem_map.mp (stored ▸ List.mem_singleton_self _)
    exact ⟨run, member, congrArg Prod.fst same, congrArg Prod.snd same⟩
  exact ⟨consistent, (refinish 2 "r" "FAILED" 200 .done rfl done (by decide)).1⟩

/-- A claim of a running row outlives the finish of that row. -/
theorem claim_before_finish_leaves_token :
    Run (timerWorld (answered desk)) deskFleet (deskRun [0, 0, 0, 0, 3, 3, 3, 1, 1, 1, 1]) ∧
      ¬(deskRun [0, 0, 0, 0, 3, 3, 3, 1, 1, 1, 1]).shared.db.committed.Consistent := by
  refine ⟨.replay (perform_sound desk fun _ => false) deskFleet _, ?_⟩
  intro consistent
  have stored : (deskRun [0, 0, 0, 0, 3, 3, 3, 1, 1, 1, 1]).shared.db.committed.runs.map
      (fun run => (run.projectionToken, run.syncStatus)) = [(some "t", .pending)] := by decide
  obtain ⟨run, member, same⟩ := List.mem_map.mp (stored ▸ List.mem_singleton_self _)
  obtain ⟨token, status⟩ := Prod.mk.inj same
  have claimed := (consistent run member).token
  rw [token, status] at claimed
  cases claimed.mp rfl

end Race

end Phasegent.Timer
