import Phasegent.Timer.World

namespace Phasegent.Timer
open Sql

/-- How a row may differ between two moments: its identity never, and once it is finished neither
its result nor its times. -/
structure TimerRun.Later (run run' : TimerRun) : Prop where
  runId : run'.runId = run.runId
  issue : run'.issue = run.issue
  startedAt : run'.startedAt = run.startedAt
  finished : run.status ≠ .running → run'.status = run.status ∧ run'.finishedAt = run.finishedAt ∧
    run'.elapsedSeconds = run.elapsedSeconds ∧ run'.roundedHours = run.roundedHours
  timeEntryId : ∀ id, run.timeEntryId = some id → run'.timeEntryId = some id

namespace TimerRun.Later

theorem refl (run : TimerRun) : run.Later run where
  runId := rfl
  issue := rfl
  startedAt := rfl
  finished _ := ⟨rfl, rfl, rfl, rfl⟩
  timeEntryId _ same := same

theorem trans {a b c : TimerRun} (first : a.Later b) (second : b.Later c) : a.Later c where
  runId := second.runId.trans first.runId
  issue := second.issue.trans first.issue
  startedAt := second.startedAt.trans first.startedAt
  finished ended := by
    obtain ⟨status, finishedAt, elapsed, rounded⟩ := first.finished ended
    obtain ⟨status', finishedAt', elapsed', rounded'⟩ := second.finished (status ▸ ended)
    exact ⟨status'.trans status, finishedAt'.trans finishedAt, elapsed'.trans elapsed,
      rounded'.trans rounded⟩
  timeEntryId id recorded := second.timeEntryId id (first.timeEntryId id recorded)

end TimerRun.Later

theorem TimerWrite.later {write : TimerWrite} {run : TimerRun} (selected : write.selects run) :
    run.Later (write.sets run) := by
  cases write with
  | insertRun => cases selected
  | finishRun =>
      have running : run.status = .running := by
        simp only [selects, Bool.and_eq_true, beq_iff_eq] at selected
        exact selected.2
      exact ⟨rfl, rfl, rfl, fun ended => absurd running ended, fun _ same => same⟩
  | markSync =>
      refine ⟨rfl, rfl, rfl, fun _ => ⟨rfl, rfl, rfl, rfl⟩, fun id recorded => ?_⟩
      simp [sets, recorded]
  | claimProjection | resetStale | updateActivity | recordSyncError =>
      exact ⟨rfl, rfl, rfl, fun _ => ⟨rfl, rfl, rfl, rfl⟩, fun _ same => same⟩

theorem TimerWrite.later_edit (write : TimerWrite) (run : TimerRun) :
    run.Later (if write.selects run then write.sets run else run) := by
  split
  · next selected => exact later selected
  · exact .refl run

def Ledger.Later (ledger ledger' : Ledger) : Prop :=
  ∀ run ∈ ledger.runs, ∃ run' ∈ ledger'.runs, run.Later run'

theorem Ledger.Later.refl (ledger : Ledger) : ledger.Later ledger :=
  fun run member => ⟨run, member, .refl run⟩

theorem Ledger.Later.trans {a b c : Ledger} (first : a.Later b) (second : b.Later c) :
    a.Later c := by
  intro run member
  obtain ⟨run', member', later⟩ := first run member
  obtain ⟨run'', member'', later'⟩ := second run' member'
  exact ⟨run'', member'', later.trans later'⟩

theorem TimerOp.Writes.later {op : TimerOp} {ledger ledger' : Ledger} (writes : op.Writes ledger ledger') :
    ledger.Later ledger' := by
  obtain ⟨statement, n, -, run⟩ := writes
  intro row member
  exact ⟨_, (TimerWrite.tx_changes run).old member, statement.later_edit row⟩

end Phasegent.Timer
