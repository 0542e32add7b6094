import Phasegent.Sql.Table
import Phasegent.Lease.Row
import Phasegent.Timer.Run

namespace Phasegent.Timer
open Fallible Sql

structure Ledger where
  runs : List TimerRun
  unique : (runs.map (·.runId)).Nodup

abbrev LedgerTx := Tx String Ledger

namespace Ledger

def empty : Ledger := ⟨[], List.nodup_nil⟩

def loadTimerRun (ledger : Ledger) (runId : String) : Option TimerRun :=
  ledger.runs.find? (·.runId == runId)

def maxAutoRunsPerIssue : Nat := 64

def runningForIssue (ledger : Ledger) (issue : Nat) : List TimerRun :=
  ledger.runs.filter fun run =>
    run.status == .running && (run.issue : Int) == Phasegent.Lease.asI64 issue

def listRunningRunsForIssue (ledger : Ledger) (issue : Nat) : List TimerRun :=
  (orderDesc (·.startedAt) (ledger.runningForIssue issue)).take maxAutoRunsPerIssue

theorem loadTimerRun_some {ledger : Ledger} {runId : String} {run : TimerRun}
    (found : ledger.loadTimerRun runId = some run) : run ∈ ledger.runs ∧ run.runId = runId :=
  ⟨List.mem_of_find?_eq_some found, by simpa using List.find?_some found⟩

theorem eq_of_runId {ledger : Ledger} {run run' : TimerRun} (member : run ∈ ledger.runs)
    (member' : run' ∈ ledger.runs) (same : run.runId = run'.runId) : run = run' :=
  List.inj_on_of_nodup_map ledger.unique member member' same

theorem loadTimerRun_of_mem {ledger : Ledger} {run : TimerRun} (member : run ∈ ledger.runs) :
    ledger.loadTimerRun run.runId = some run := by
  cases found : ledger.loadTimerRun run.runId with
  | none =>
      have missing := List.find?_eq_none.mp found run member
      simp at missing
  | some other =>
      obtain ⟨member', same⟩ := loadTimerRun_some found
      rw [eq_of_runId member' member same]

end Ledger

-- Every statement of the repository that changes the table.
inductive TimerWrite where
  | insertRun (runId : String) (issue : Nat) (phase role : String) (attempt : Nat)
      (startedAt : Int) (owner : TimerRunOwner)
  | finishRun (runId : String) (result : TimerResult) (finishedAt elapsed : Int) (rounded : Nat)
  | claimProjection (runId token : String) (now : Int)
  | resetStale (runId error : String) (threshold : Int)
  | updateActivity (runId token : String) (activityId : Nat)
  | markSync (runId token : String) (activityId timeEntryId : Option Nat) (syncStatus : SyncStatus)
      (syncError : Option String)
  | recordSyncError (runId error : String)

def startedRun (runId : String) (issue : Nat) (phase role : String) (attempt : Nat)
    (startedAt : Int) (owner : TimerRunOwner) : TimerRun where
  runId := runId
  issue := issue
  phase := phase
  role := role
  attempt := attempt
  startedAt := startedAt
  finishedAt := none
  status := .running
  elapsedSeconds := none
  roundedHours := none
  activityId := none
  timeEntryId := none
  syncStatus := .pending
  syncError := none
  ownerSessionId := owner.sessionId
  ownerCallId := owner.callId
  projectionToken := none
  projectionClaimedAt := none

namespace TimerWrite

/-- The `WHERE` clause of an update. -/
def selects : TimerWrite → TimerRun → Bool
  | .insertRun .., _ => false
  | .finishRun runId .., run => run.runId == runId && run.status == .running
  | .claimProjection runId .., run => run.runId == runId && run.syncStatus.claimable
  | .resetStale runId _ threshold, run =>
      run.runId == runId && run.syncStatus == .projecting &&
        run.projectionClaimedAt.all (· ≤ threshold)
  | .updateActivity runId token _, run | .markSync runId token .., run =>
      run.runId == runId && run.projectionToken == some token && run.syncStatus == .projecting
  | .recordSyncError runId _, run =>
      run.runId == runId && run.status != .running && run.syncStatus != .projecting

/-- The `SET` clause of an update. -/
def sets : TimerWrite → TimerRun → TimerRun
  | .insertRun .., run => run
  | .finishRun _ result finishedAt elapsed rounded, run =>
      { run with
        finishedAt := some finishedAt, status := .finished result, elapsedSeconds := some elapsed,
        roundedHours := some rounded,
        syncStatus := if result = .failed then .failed
          else if run.timeEntryId.isSome then .synced else .pending,
        syncError := none }
  | .claimProjection _ token now, run =>
      { run with
        syncStatus := .projecting, projectionToken := some token, projectionClaimedAt := some now }
  | .resetStale _ error _, run =>
      { run with
        syncStatus := .failed, syncError := some error, projectionToken := none,
        projectionClaimedAt := none }
  | .updateActivity _ _ activityId, run => { run with activityId := some activityId }
  | .markSync _ _ activityId timeEntryId syncStatus syncError, run =>
      { run with
        activityId := run.activityId <|> activityId, timeEntryId := run.timeEntryId <|> timeEntryId,
        syncStatus := syncStatus, syncError := syncError,
        projectionToken := if syncStatus.settled then none else run.projectionToken,
        projectionClaimedAt := if syncStatus.settled then none else run.projectionClaimedAt }
  | .recordSyncError _ error, run => { run with syncError := some error }

@[simp] theorem sets_runId (write : TimerWrite) (run : TimerRun) :
    (write.sets run).runId = run.runId := by
  cases write <;> rfl

def updateRuns (write : TimerWrite) : LedgerTx Nat := fun ledger =>
  .ok ((ledger.runs.filter write.selects).length,
    { runs := update write.selects write.sets ledger.runs
      unique := by
        rw [map_update write.sets_runId]
        exact ledger.unique })

def insertRow (run : TimerRun) : LedgerTx Nat := fun ledger =>
  if taken : ledger.runs.any (·.runId == run.runId) then
    .error "could not persist timer start: UNIQUE constraint failed: execution_timer_runs.run_id"
  else .ok (1,
    { runs := ledger.runs ++ [run]
      unique := by
        rw [List.map_append, List.map_singleton, List.nodup_append_comm, List.singleton_append,
          List.nodup_cons]
        refine ⟨fun member => taken ?_, ledger.unique⟩
        obtain ⟨old, inside, same⟩ := List.mem_map.mp member
        exact List.any_eq_true.mpr ⟨old, inside, beq_iff_eq.mpr same⟩ })

def check (answer : Except String Unit) : LedgerTx Unit := Tx.read fun _ => answer

def tx : TimerWrite → LedgerTx Nat
  | .insertRun runId issue phase role attempt startedAt owner => do
      check (bindU64 "could not persist timer start" (some issue))
      check (refuse (issue = 0 ∨ attempt = 0) "could not persist timer start: CHECK constraint failed")
      insertRow (startedRun runId issue phase role attempt startedAt owner)
  | .finishRun runId result finishedAt elapsed rounded => do
      let changed ← updateRuns (.finishRun runId result finishedAt elapsed rounded)
      check (refuse (changed ≠ 1) "timer finish lost its running row during update")
      return changed
  | .markSync runId token activityId timeEntryId syncStatus syncError => do
      check (bindU64 "could not persist timer sync with token" activityId)
      check (bindU64 "could not persist timer sync with token" timeEntryId)
      updateRuns (.markSync runId token activityId timeEntryId syncStatus syncError)
  | write => updateRuns write

theorem check_ok {answer : Except String Unit} {ledger ledger' : Ledger} {u : Unit}
    (run : check answer ledger = .ok (u, ledger')) : answer = .ok () ∧ ledger' = ledger := by
  unfold check Tx.read at run
  cases answer with
  | error e => cases run
  | ok u =>
      cases run
      exact ⟨rfl, rfl⟩

structure Changes (write : TimerWrite) (ledger ledger' : Ledger) : Prop where
  rows : ∃ added : List TimerRun,
    ledger'.runs = update write.selects write.sets ledger.runs ++ added ∧
    (added = [] ∨ ∃ runId issue phase role attempt startedAt owner,
      write = .insertRun runId issue phase role attempt startedAt owner ∧
      added = [startedRun runId issue phase role attempt startedAt owner])

theorem updateRuns_ok {write : TimerWrite} {ledger ledger' : Ledger} {n : Nat}
    (run : write.updateRuns ledger = .ok (n, ledger')) :
    n = (ledger.runs.filter write.selects).length ∧
      ledger'.runs = update write.selects write.sets ledger.runs := by
  cases run
  exact ⟨rfl, rfl⟩

theorem updateRuns_changes {write : TimerWrite} {ledger ledger' : Ledger} {n : Nat}
    (run : write.updateRuns ledger = .ok (n, ledger')) : write.Changes ledger ledger' := by
  refine ⟨[], ?_, Or.inl rfl⟩
  rw [(updateRuns_ok run).2, List.append_nil]

theorem insertRow_ok {row : TimerRun} {ledger ledger' : Ledger} {n : Nat}
    (run : insertRow row ledger = .ok (n, ledger')) : ledger'.runs = ledger.runs ++ [row] := by
  unfold insertRow at run
  split at run
  · cases run
  · cases run
    rfl

theorem tx_changes {write : TimerWrite} {ledger ledger' : Ledger} {n : Nat}
    (run : write.tx ledger = .ok (n, ledger')) : write.Changes ledger ledger' := by
  cases write with
  | insertRun runId issue phase role attempt startedAt owner =>
      obtain ⟨_, _, first, rest⟩ := Tx.bind_ok run
      obtain ⟨-, rfl⟩ := check_ok first
      obtain ⟨_, _, second, inserted⟩ := Tx.bind_ok rest
      obtain ⟨-, rfl⟩ := check_ok second
      refine ⟨_, ?_, Or.inr ⟨_, _, _, _, _, _, _, rfl, rfl⟩⟩
      simp [insertRow_ok inserted, update, selects]
  | finishRun =>
      obtain ⟨_, _, updated, rest⟩ := Tx.bind_ok run
      obtain ⟨_, _, checked, answered⟩ := Tx.bind_ok rest
      obtain ⟨-, rfl⟩ := check_ok checked
      cases answered
      exact updateRuns_changes updated
  | markSync =>
      obtain ⟨_, _, first, rest⟩ := Tx.bind_ok run
      obtain ⟨-, rfl⟩ := check_ok first
      obtain ⟨_, _, second, updated⟩ := Tx.bind_ok rest
      obtain ⟨-, rfl⟩ := check_ok second
      exact updateRuns_changes updated
  | _ => exact updateRuns_changes run

theorem Changes.old {write : TimerWrite} {ledger ledger' : Ledger}
    (changes : write.Changes ledger ledger') {run : TimerRun} (member : run ∈ ledger.runs) :
    (if write.selects run then write.sets run else run) ∈ ledger'.runs := by
  obtain ⟨added, rows, -⟩ := changes.rows
  rw [rows]
  exact List.mem_append_left _ (mem_update.mpr ⟨run, member, rfl⟩)

theorem Changes.new {write : TimerWrite} {ledger ledger' : Ledger}
    (changes : write.Changes ledger ledger') {run' : TimerRun} (member : run' ∈ ledger'.runs) :
    (∃ run ∈ ledger.runs, (if write.selects run then write.sets run else run) = run') ∨
      ∃ runId issue phase role attempt startedAt owner,
        run' = startedRun runId issue phase role attempt startedAt owner := by
  obtain ⟨added, rows, source⟩ := changes.rows
  rw [rows] at member
  rcases List.mem_append.mp member with old | fresh
  · exact Or.inl (mem_update.mp old)
  · rcases source with rfl | ⟨_, _, _, _, _, _, _, -, rfl⟩
    · cases fresh
    · exact Or.inr ⟨_, _, _, _, _, _, _, List.mem_singleton.mp fresh⟩

theorem finishRun_ok {runId : String} {result : TimerResult} {finishedAt elapsed : Int} {rounded n : Nat}
    {ledger ledger' : Ledger}
    (ran : (finishRun runId result finishedAt elapsed rounded).tx ledger = .ok (n, ledger')) :
    (∃ run ∈ ledger.runs, run.runId = runId ∧ run.status = .running) ∧
      ∃ run ∈ ledger'.runs, run.runId = runId ∧ run.status = .finished result := by
  obtain ⟨changed, _, updated, rest⟩ := Tx.bind_ok ran
  obtain ⟨_, _, checked, answered⟩ := Tx.bind_ok rest
  obtain ⟨one, rfl⟩ := check_ok checked
  cases answered
  have changes := updateRuns_changes updated
  obtain ⟨count, -⟩ := updateRuns_ok updated
  rw [refuse_eq_ok, not_not, count] at one
  obtain ⟨run, single⟩ := List.length_eq_one_iff.mp one
  have chosen : run ∈ ledger.runs.filter _ := single ▸ List.mem_singleton_self run
  obtain ⟨member, selected⟩ := List.mem_filter.mp chosen
  have moved := changes.old member
  rw [if_pos selected] at moved
  simp only [selects, Bool.and_eq_true, beq_iff_eq] at selected
  exact ⟨⟨run, member, selected⟩, _, moved, selected.1, rfl⟩

end TimerWrite

end Phasegent.Timer
