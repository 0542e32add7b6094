import Phasegent.Status.Commands
import Phasegent.Status.Segments

namespace Phasegent.Timer
open Fallible Interleaving Sql

/-- Two rows that differ in their names and in readings of the clock only. -/
structure TimerRun.Alike (run run' : TimerRun) : Prop where
  same : run' = { run with
    runId := run'.runId, startedAt := run'.startedAt, finishedAt := run'.finishedAt,
    elapsedSeconds := run'.elapsedSeconds, roundedHours := run'.roundedHours }
  finishedAt : run'.finishedAt.isSome = run.finishedAt.isSome
  elapsedSeconds : run'.elapsedSeconds.isSome = run.elapsedSeconds.isSome
  roundedHours : run'.roundedHours.isSome = run.roundedHours.isSome

/-- The same ledger, up to run ids and clock readings. -/
def Ledger.Alike (ledger ledger' : Ledger) : Prop := List.Forall₂ TimerRun.Alike ledger.runs ledger'.runs

structure TimerRun.Twin (run run' : TimerRun) : Prop extends run.Alike run' where
  runId : run'.runId = run.runId
  startedAt : run'.startedAt = run.startedAt

def Ledger.Twin (ledger ledger' : Ledger) : Prop := List.Forall₂ TimerRun.Twin ledger.runs ledger'.runs

/-- Two machines whose clocks stand on the same side of every start, and that agree on the rest. -/
structure Machine.Alike (m m' : Machine) (ledger : Ledger) : Prop where
  storage : m'.storage = m.storage
  route : m'.route = m.route
  fresh : (∀ run ∈ ledger.runs, run.runId ≠ m'.runId) ↔ ∀ run ∈ ledger.runs, run.runId ≠ m.runId
  clock : ∀ j, ∀ run ∈ ledger.runs, m'.clock j < run.startedAt ↔ m.clock j < run.startedAt

section Twins
variable {run run' : TimerRun} {ledger ledger' : Ledger}

theorem TimerRun.Alike.status (alike : run.Alike run') : run'.status = run.status := by rw [alike.same]

theorem TimerRun.Alike.issue (alike : run.Alike run') : run'.issue = run.issue := by rw [alike.same]

theorem TimerRun.Alike.phase (alike : run.Alike run') : run'.phase = run.phase := by rw [alike.same]

theorem TimerRun.Twin.refl (run : TimerRun) : run.Twin run := ⟨⟨rfl, rfl, rfl, rfl⟩, rfl, rfl⟩

theorem Ledger.Twin.refl (ledger : Ledger) : ledger.Twin ledger :=
  List.forall₂_same.mpr fun run _ => .refl run

theorem mem_of_twins {rows rows' : List TimerRun} (twins : List.Forall₂ TimerRun.Twin rows rows')
    (member : run ∈ rows) : ∃ run' ∈ rows', run.Twin run' := by
  induction twins with
  | nil => cases member
  | cons first rest ih =>
      rcases List.mem_cons.mp member with rfl | later
      · exact ⟨_, List.mem_cons_self, first⟩
      · obtain ⟨run', member', found⟩ := ih later
        exact ⟨run', List.mem_cons_of_mem _ member', found⟩

theorem names_of_twins {rows rows' : List TimerRun} (twins : List.Forall₂ TimerRun.Twin rows rows') :
    rows'.map (·.runId) = rows.map (·.runId) := by
  induction twins with
  | nil => rfl
  | cons first _ ih => rw [List.map_cons, List.map_cons, first.runId, ih]

theorem TimerRun.Twin.finish (twin : run.Twin run') (runId : String) (result : TimerResult)
    (at₁ elapsed₁ at₂ elapsed₂ : Int) (rounded₁ rounded₂ : Nat) :
    (if (TimerWrite.finishRun runId result at₁ elapsed₁ rounded₁).selects run
        then (TimerWrite.finishRun runId result at₁ elapsed₁ rounded₁).sets run else run).Twin
      (if (TimerWrite.finishRun runId result at₂ elapsed₂ rounded₂).selects run'
        then (TimerWrite.finishRun runId result at₂ elapsed₂ rounded₂).sets run' else run') := by
  have status := twin.status
  obtain ⟨⟨same, finishedAt, elapsedSeconds, hours⟩, named, startedAt⟩ := twin
  by_cases chosen : run.runId = runId ∧ run.status = .running
  · have entry : run'.timeEntryId = run.timeEntryId := by rw [same]
    rw [if_pos (by simp [TimerWrite.selects, chosen.1, chosen.2]),
      if_pos (by simp [TimerWrite.selects, named, chosen.1, status, chosen.2])]
    refine ⟨⟨?_, rfl, rfl, rfl⟩, named, startedAt⟩
    simp only [TimerWrite.sets, entry]
    rw [same]
  · have other : ¬(run'.runId = runId ∧ run'.status = .running) := by rwa [named, status]
    rw [if_neg (by simpa [TimerWrite.selects] using chosen),
      if_neg (by simpa [TimerWrite.selects] using other)]
    exact ⟨⟨same, finishedAt, elapsedSeconds, hours⟩, named, startedAt⟩

def Finishes (runId : String) (ledger ledger' : Ledger) : Prop :=
  ∃ finishedAt elapsed rounded, ledger'.runs =
    update (TimerWrite.finishRun runId .done finishedAt elapsed rounded).selects
      (TimerWrite.finishRun runId .done finishedAt elapsed rounded).sets ledger.runs

theorem Ledger.Twin.finishes {runId : String} {after after' : Ledger} (twin : ledger.Twin ledger')
    (finishes : Finishes runId ledger after) (finishes' : Finishes runId ledger' after') :
    after.Twin after' := by
  obtain ⟨at₁, elapsed₁, rounded₁, rows⟩ := finishes
  obtain ⟨at₂, elapsed₂, rounded₂, rows'⟩ := finishes'
  rw [Ledger.Twin, rows, rows', update, update, List.forall₂_map_left_iff, List.forall₂_map_right_iff]
  exact twin.imp fun _ _ pair => pair.finish runId .done at₁ elapsed₁ at₂ elapsed₂ rounded₁ rounded₂

theorem Finishes.names {runId : String} (finishes : Finishes runId ledger ledger') :
    ledger'.runs.map (·.runId) = ledger.runs.map (·.runId) := by
  obtain ⟨_, _, _, rows⟩ := finishes
  rw [rows]
  exact map_update (TimerWrite.sets_runId _) _

theorem Finishes.kept {runId : String} (finishes : Finishes runId ledger ledger') (member : run ∈ ledger.runs)
    (other : run.runId ≠ runId) : run ∈ ledger'.runs := by
  obtain ⟨_, _, _, rows⟩ := finishes
  rw [rows]
  refine mem_update.mpr ⟨run, member, ?_⟩
  simp [TimerWrite.selects, other]

end Twins

section Sweep
variable {m m' : Machine} {ledger ledger' : Ledger} {run run' : TimerRun} {j : Nat}
  (render : PhasegentError → String)

def Machine.Admits (m : Machine) (issue : Nat) : Prop := m.storage = .ok () ∧ (m.route issue).isOk = true

theorem finishRun_written (member : run ∈ ledger.runs) (running : run.status = .running)
    (finishedAt elapsed : Int) (rounded : Nat) :
    ∃ after, (TimerWrite.finishRun run.runId .done finishedAt elapsed rounded).tx ledger = .ok (1, after) ∧
      Finishes run.runId ledger after := by
  have only : ledger.runs.filter (TimerWrite.finishRun run.runId .done finishedAt elapsed rounded).selects =
      [run] := by
    have same : ∀ row ∈ ledger.runs.filter
        (TimerWrite.finishRun run.runId .done finishedAt elapsed rounded).selects, row = run := by
      intro row chosen
      obtain ⟨inside, selected⟩ := List.mem_filter.mp chosen
      simp only [TimerWrite.selects, Bool.and_eq_true, beq_iff_eq] at selected
      exact Ledger.eq_of_runId inside member selected.1
    have chosen : run ∈ ledger.runs.filter
        (TimerWrite.finishRun run.runId .done finishedAt elapsed rounded).selects :=
      List.mem_filter.mpr ⟨member, by simp [TimerWrite.selects, running]⟩
    have distinct := (ledger.unique.of_map _).filter
      (TimerWrite.finishRun run.runId .done finishedAt elapsed rounded).selects
    rw [List.eq_replicate_of_mem same] at distinct chosen ⊢
    rw [List.nodup_replicate] at distinct
    have some := List.mem_replicate.mp chosen
    rw [show _ = 1 from Nat.le_antisymm distinct (Nat.pos_of_ne_zero some.1), List.replicate_one]
  obtain ⟨after, updated⟩ : ∃ after, (TimerWrite.finishRun run.runId .done finishedAt elapsed rounded).updateRuns
      ledger = .ok (1, after) := by
    rw [TimerWrite.updateRuns, only]
    exact ⟨_, rfl⟩
  refine ⟨after, ?_, finishedAt, elapsed, rounded, (TimerWrite.updateRuns_ok updated).2⟩
  rw [TimerWrite.tx, Tx.bind_eq updated]
  rfl

theorem execute_readOnlyRunIssue (member : run ∈ ledger.runs) :
    execute m.answer (refusing render "auto timer finish refused: "
        (readOnlyRunIssue "timer finish" run.runId)).run (j, ledger) =
      ((m.storage.map fun _ => some run.issue).mapError fun message =>
        "auto timer finish refused: " ++ render (.config message), (j, ledger)) := by
  have loaded := Ledger.loadTimerRun_of_mem member
  cases stored : m.storage with
  | error message =>
      rw [refusing, execute_renameFailure, readOnlyRunIssue, execute_bind_error (e := .config message)]
      · rfl
      simp [execute_request, Machine.answer, stored, Except.map, Except.mapError]
  | ok u =>
      have opened : execute m.answer (request .openExistingLedger (·.mapError PhasegentError.config) :
          TimerM PhasegentError Bool).run (j, ledger) = (.ok true, (j, ledger)) := by
        simp [execute_request, Machine.answer, stored, Except.map, Except.mapError]
      have read : execute m.answer (timerStorageError "timer finish" (loadTimerRun run.runId)).run
          (j, ledger) = (.ok (some run), (j, ledger)) := by
        simp [timerStorageError, execute_renameFailure, loadTimerRun, execute_request, Machine.answer, loaded,
          Except.mapError]
      rw [refusing, execute_renameFailure, readOnlyRunIssue, execute_bind_ok opened]
      simp only [if_true]
      rw [execute_bind_ok read]
      rfl

theorem execute_loadTimerRun (member : run ∈ ledger.runs) :
    execute m.answer (loadTimerRun run.runId).run (j, ledger) = (.ok (some run), (j, ledger)) := by
  simp [loadTimerRun, execute_request, Machine.answer, Ledger.loadTimerRun_of_mem member]

theorem execute_finishTimerRun (member : run ∈ ledger.runs) (running : run.status = .running)
    (finishedAt : Int) :
    (finishedAt < run.startedAt ∧ ∃ message,
      execute m.answer (finishTimerRun run.runId "DONE" finishedAt).run (j, ledger) =
        (.error message, (j, ledger))) ∨
    (¬finishedAt < run.startedAt ∧ ∃ row after,
      execute m.answer (finishTimerRun run.runId "DONE" finishedAt).run (j, ledger) =
        (.ok row, (j, after)) ∧ Finishes run.runId ledger after) := by
  have found : execute m.answer (reload run.runId ("timer run '" ++ run.runId ++ "' was not found")).run
      (j, ledger) = (.ok run, (j, ledger)) := by
    rw [reload, execute_bind_ok (execute_loadTimerRun member)]
    rfl
  have parsed : execute m.answer (fromExcept (TimerResult.parse "DONE") : StoreM TimerResult).run (j, ledger) =
      (.ok .done, (j, ledger)) := rfl
  by_cases early : finishedAt < run.startedAt
  · refine Or.inl ⟨early, "timer finish time must not precede its start time", ?_⟩
    rw [finishTimerRun, execute_bind_ok parsed, execute_bind_ok found]
    simp only [running]
    rw [execute_bind_error (execute_fromExcept _ |>.trans (by rw [refuse, if_pos early]))]
  · obtain ⟨after, written, finishes⟩ := finishRun_written member running finishedAt
      (max (finishedAt - run.startedAt) 0) (roundedHours (max (finishedAt - run.startedAt) 0))
    have wrote : execute m.answer (write (.finishRun run.runId .done finishedAt
        (max (finishedAt - run.startedAt) 0) (roundedHours (max (finishedAt - run.startedAt) 0)))).run
        (j, ledger) = (.ok 1, (j, after)) := by
      simp [write, execute_request, Machine.answer, Tx.commit, written]
    have named : run.runId ∈ after.runs.map (·.runId) := by
      rw [finishes.names]
      exact List.mem_map_of_mem member
    obtain ⟨row, inside, same⟩ := List.mem_map.mp named
    refine Or.inr ⟨early, row, after, ?_, finishes⟩
    rw [finishTimerRun, execute_bind_ok parsed, execute_bind_ok found]
    simp only [running]
    rw [execute_bind_ok (execute_fromExcept _ |>.trans (by rw [refuse, if_neg early])),
      execute_bind_ok wrote, reload, execute_bind_ok (by rw [← same]; exact execute_loadTimerRun inside)]
    rfl

theorem execute_autoFinishRun (member : run ∈ ledger.runs) (running : run.status = .running) :
    (¬m.Admits run.issue ∧ ∃ message,
      execute m.answer (autoFinishRun render run.runId).run (j, ledger) = (.error message, (j, ledger))) ∨
    (m.Admits run.issue ∧ m.clock j < run.startedAt ∧ ∃ message,
      execute m.answer (autoFinishRun render run.runId).run (j, ledger) =
        (.error message, (j + 1, ledger))) ∨
    (m.Admits run.issue ∧ ¬m.clock j < run.startedAt ∧ ∃ after,
      execute m.answer (autoFinishRun render run.runId).run (j, ledger) = (.ok (), (j + 1, after)) ∧
        Finishes run.runId ledger after) := by
  have reading := execute_readOnlyRunIssue (m := m) (j := j) render member
  cases stored : m.storage with
  | error message =>
      refine Or.inl ⟨fun admits => by simp [Machine.Admits, stored] at admits,
        "auto timer finish refused: " ++ render (.config message), ?_⟩
      rw [autoFinishRun, execute_bind_error]
      rw [admitFinish, execute_bind_error (reading.trans (by rw [stored]; rfl))]
  | ok u =>
      have read := reading.trans (show _ = (Except.ok (some run.issue), (j, ledger)) by rw [stored]; rfl)
      cases routed : m.route run.issue with
      | error e =>
          refine Or.inl ⟨fun admits => ?_, "auto timer finish refused: " ++ render e, ?_⟩
          · simp [Machine.Admits, routed, Except.isOk, Except.toBool] at admits
          · rw [autoFinishRun, execute_bind_error]
            rw [admitFinish, execute_bind_ok read]
            dsimp only
            rw [execute_bind_error ((execute_route render _).trans (by rw [routed]; rfl))]
      | ok route =>
          have admits : m.Admits run.issue := by simp [Machine.Admits, stored, routed, Except.isOk, Except.toBool]
          have admitted : execute m.answer (admitFinish render run.runId).run (j, ledger) =
              (.ok (), (j, ledger)) := by
            rw [admitFinish, execute_bind_ok read]
            dsimp only
            rw [execute_bind_ok ((execute_route render _).trans (by rw [routed]; rfl))]
            rfl
          rw [autoFinishRun, execute_bind_ok admitted,
            execute_bind_ok ((execute_open _).trans (by rw [stored]; rfl)),
            execute_bind_ok (execute_readings m j ledger).2]
          refine Or.inr ?_
          rcases execute_finishTimerRun (j := j + 1) member running (m.clock j) with
            ⟨early, message, failed⟩ | ⟨late, row, after, done, finishes⟩
          · refine Or.inl ⟨admits, early, "auto finish: " ++ message, ?_⟩
            rw [execute_bind_error]
            rw [execute_renameFailure, failed]
            rfl
          · refine Or.inr ⟨admits, late, after, ?_, finishes⟩
            rw [execute_bind_ok]
            · rfl
            rw [execute_renameFailure, done]
            rfl

-- Where two runs of one command stand, and what both did to the ledger.
structure Abreast (ledger : Ledger) (d d' : Nat × Ledger) : Prop where
  readings : d'.1 = d.1
  twin : d.2.Twin d'.2
  names : d.2.runs.map (·.runId) = ledger.runs.map (·.runId)

theorem execute_finishRuns_stopped {rest : List TimerRun} {i : Nat} {after : Ledger} {message : String}
    (failed : execute m.answer (autoFinishRun render run.runId).run (j, ledger) =
      (.error message, (i, after))) :
    (execute m.answer (finishRuns render (run :: rest)).run (j, ledger)).2 = (i, after) := by
  rw [finishRuns, execute_bind_ok ((execute_outcome _ _).trans (by rw [failed]))]
  rfl

theorem execute_finishRuns_onward {rest : List TimerRun} {i : Nat} {after : Ledger}
    (finished : execute m.answer (autoFinishRun render run.runId).run (j, ledger) = (.ok (), (i, after))) :
    (execute m.answer (finishRuns render (run :: rest)).run (j, ledger)).2 =
      (execute m.answer (finishRuns render rest).run (i, after)).2 := by
  rw [finishRuns, execute_bind_ok ((execute_outcome _ _).trans (by rw [finished]))]
  dsimp only
  rw [run_bind, execute_bind]
  cases (execute m.answer (finishRuns render rest).run (i, after)).1 <;> rfl

theorem finishRuns_abreast (runs : List TimerRun) (storage : m'.storage = m.storage)
    (route : m'.route = m.route)
    (clock : ∀ j, ∀ run ∈ runs, m'.clock j < run.startedAt ↔ m.clock j < run.startedAt)
    (listed : ∀ run ∈ runs, run ∈ ledger.runs ∧ run.status = .running)
    (distinct : (runs.map (·.runId)).Nodup) (twin : ledger.Twin ledger') :
    Abreast ledger (execute m.answer (finishRuns render runs).run (j, ledger)).2
      (execute m'.answer (finishRuns render runs).run (j, ledger')).2 := by
  induction runs generalizing j ledger ledger' with
  | nil => exact ⟨rfl, twin, rfl⟩
  | cons run rest ih =>
      obtain ⟨member, running⟩ := listed run List.mem_cons_self
      obtain ⟨run', member', pair⟩ := mem_of_twins twin member
      have running' : run'.status = .running := pair.status.trans running
      have admits : m'.Admits run'.issue ↔ m.Admits run.issue := by
        rw [Machine.Admits, Machine.Admits, storage, route, pair.issue]
      have early : m'.clock j < run'.startedAt ↔ m.clock j < run.startedAt := by
        rw [pair.startedAt]
        exact clock j run List.mem_cons_self
      have first := execute_autoFinishRun (m := m) (j := j) render member running
      have second := execute_autoFinishRun (m := m') (j := j) render member' running'
      rw [admits, early, pair.runId] at second
      rcases first with ⟨refused, message, failed⟩ | ⟨admitted, behind, message, failed⟩ |
        ⟨admitted, behind, after, finished, finishes⟩
      · rcases second with ⟨-, message', failed'⟩ | ⟨admitted, -⟩ | ⟨admitted, -⟩
        · rw [execute_finishRuns_stopped render failed, execute_finishRuns_stopped render failed']
          exact ⟨rfl, twin, rfl⟩
        · exact absurd admitted refused
        · exact absurd admitted refused
      · rcases second with ⟨refused, -⟩ | ⟨-, -, message', failed'⟩ | ⟨-, ahead, -⟩
        · exact absurd admitted refused
        · rw [execute_finishRuns_stopped render failed, execute_finishRuns_stopped render failed']
          exact ⟨rfl, twin, rfl⟩
        · exact absurd behind ahead
      · rcases second with ⟨refused, -⟩ | ⟨-, ahead, -⟩ | ⟨-, -, after', finished', finishes'⟩
        · exact absurd admitted refused
        · exact absurd ahead behind
        · rw [execute_finishRuns_onward render finished, execute_finishRuns_onward render finished']
          rw [List.map_cons, List.nodup_cons] at distinct
          have onward := ih (j := j + 1) (fun j run inside => clock j run (List.mem_cons_of_mem _ inside))
            (fun other inside => ?_) distinct.2 (twin.finishes finishes finishes')
          · exact ⟨onward.readings, onward.twin, onward.names.trans finishes.names⟩
          · obtain ⟨known, status⟩ := listed other (List.mem_cons_of_mem _ inside)
            refine ⟨finishes.kept known fun same => distinct.1 ?_, status⟩
            rw [← same]
            exact List.mem_map_of_mem inside

theorem closeIssueRuns_abreast {issue : Nat} (alike : m.Alike m' ledger) :
    Abreast ledger (execute m.answer (closeIssueRuns render issue).run (0, ledger)).2
      (execute m'.answer (closeIssueRuns render issue).run (0, ledger)).2 := by
  have stored := alike.storage
  cases opened : m.storage with
  | error message =>
      rw [opened] at stored
      rw [closeIssueRuns, execute_bind_error ((execute_open _).trans (by rw [opened]; rfl)),
        execute_bind_error ((execute_open _).trans (by rw [stored]; rfl))]
      exact ⟨rfl, .refl ledger, rfl⟩
  | ok u =>
      rw [opened] at stored
      have listing (machine : Machine) : execute machine.answer (renameFailure ("list running: " ++ ·)
          (listRunningRunsForIssue issue)).run (0, ledger) =
            (.ok (ledger.listRunningRunsForIssue issue), (0, ledger)) := by
        simp [listRunningRunsForIssue, execute_renameFailure, execute_request, Machine.answer, Except.mapError]
      rw [closeIssueRuns, execute_bind_ok ((execute_open _).trans (by rw [opened]; rfl)),
        execute_bind_ok ((execute_open _).trans (by rw [stored]; rfl)),
        execute_bind_ok (listing m), execute_bind_ok (listing m')]
      have listed : ∀ run ∈ (ledger.listRunningRunsForIssue issue).reverse,
          run ∈ ledger.runs ∧ run.status = .running := by
        intro run member
        have inside := List.mem_of_mem_take (List.mem_reverse.mp member)
        rw [mem_orderDesc, Ledger.runningForIssue, List.mem_filter] at inside
        simp only [Bool.and_eq_true, beq_iff_eq] at inside
        exact ⟨inside.1, inside.2.1⟩
      have distinct : ((ledger.listRunningRunsForIssue issue).reverse.map (·.runId)).Nodup := by
        rw [List.map_reverse, List.nodup_reverse]
        have sub : (ledger.runningForIssue issue).map (·.runId) |>.Nodup :=
          ledger.unique.sublist (List.filter_sublist.map _)
        have perm : ((orderDesc (·.startedAt) (ledger.runningForIssue issue)).map (·.runId)).Nodup :=
          ((List.perm_insertionSort _ _).map _).nodup_iff.mpr sub
        exact perm.sublist ((List.take_sublist _ _).map _)
      apply finishRuns_abreast render _ alike.storage alike.route
        (fun j run inside => alike.clock j run (listed run inside).1) listed distinct (.refl ledger)

theorem execute_transition {issue : Nat} {kind : ProviderKind} (timed : kind ≠ .forgejo) (statusName : String)
    (d : Nat × Ledger) :
    (execute m.answer (autoTransitionTimer render issue kind statusName).run d).2 =
      (execute m.answer (autoStartRun render issue statusName (statusToAgentRole statusName).1 1).run
        (execute m.answer (closeIssueRuns render issue).run d).2).2 := by
  rw [autoTransitionTimer, if_neg timed]
  dsimp only
  rw [execute_bind_ok (execute_outcome _ _), execute_bind_ok (execute_outcome _ _)]
  cases (execute m.answer (autoStartRun render issue statusName (statusToAgentRole statusName).1 1).run
    (execute m.answer (closeIssueRuns render issue).run d).2).1 <;> rfl

end Sweep

section Law
variable {m m' : Machine} {ledger : Ledger} {issue : Nat} {first second : String}

theorem opens_of_names {before after : Ledger}
    (names : after.runs.map (·.runId) = before.runs.map (·.runId)) :
    Opens m after issue first ↔ Opens m before issue first := by
  have fresh : (∀ run ∈ after.runs, run.runId ≠ m.runId) ↔ ∀ run ∈ before.runs, run.runId ≠ m.runId := by
    have absent : m.runId ∉ after.runs.map (·.runId) ↔ m.runId ∉ before.runs.map (·.runId) := by rw [names]
    simpa [List.mem_map] using absent
  constructor
  · exact fun ⟨stored, routed, numbered, unused, legible⟩ =>
      ⟨stored, routed, numbered, fresh.mp unused, legible⟩
  · exact fun ⟨stored, routed, numbered, unused, legible⟩ =>
      ⟨stored, routed, numbered, fresh.mpr unused, legible⟩

theorem Machine.Alike.opens (alike : m.Alike m' ledger) :
    Opens m' ledger issue first ↔ Opens m ledger issue first := by
  constructor
  · exact fun ⟨stored, routed, numbered, unused, legible⟩ => ⟨alike.storage ▸ stored,
      alike.route ▸ routed, numbered, alike.fresh.mp unused, legible⟩
  · exact fun ⟨stored, routed, numbered, unused, legible⟩ => ⟨alike.storage ▸ stored,
      alike.route ▸ routed, numbered, alike.fresh.mpr unused, legible⟩

theorem Ledger.Twin.alike {ledger ledger' : Ledger} (twin : ledger.Twin ledger') : ledger.Alike ledger' :=
  twin.imp fun _ _ pair => pair.toAlike

theorem alike_opened {before before' after after' : Ledger} {role role' : String} {k : Nat}
    (twin : before.Twin before')
    (rows : after.runs = before.runs ++ [startedRun m.runId issue first role 1 (m.clock k) ⟨none, none⟩])
    (rows' : after'.runs = before'.runs ++ [startedRun m'.runId issue second role' 1 (m'.clock k) ⟨none, none⟩])
    (roles : first = second → role = role') : after.Alike after' ↔ first = second := by
  rw [Ledger.Alike, rows, rows']
  constructor
  · intro alike
    have reversed := List.forall₂_reverse_iff.mpr alike
    rw [List.reverse_append, List.reverse_append, List.reverse_singleton, List.reverse_singleton] at reversed
    exact (List.forall₂_cons.mp reversed).1.phase.symm
  · rintro rfl
    rw [roles rfl]
    have last : List.Forall₂ TimerRun.Alike
        [startedRun m.runId issue first role' 1 (m.clock k) ⟨none, none⟩]
        [startedRun m'.runId issue first role' 1 (m'.clock k) ⟨none, none⟩] :=
      .cons ⟨rfl, rfl, rfl, rfl⟩ .nil
    exact List.rel_append twin.alike last

theorem transition_alike_iff (render : PhasegentError → String) {kind : ProviderKind} (timed : kind ≠ .forgejo)
    (alike : m.Alike m' ledger) :
    (execute m.answer (autoTransitionTimer render issue kind first).run (0, ledger)).2.2.Alike
        (execute m'.answer (autoTransitionTimer render issue kind second).run (0, ledger)).2.2 ↔
      first = second ∨ (¬Opens m ledger issue first ∧ ¬Opens m' ledger issue second) := by
  have level := @closeIssueRuns_abreast m m' ledger render issue alike
  rw [execute_transition render timed, execute_transition render timed]
  generalize (execute m.answer (closeIssueRuns render issue).run (0, ledger)).2 = d at level ⊢
  generalize (execute m'.answer (closeIssueRuns render issue).run (0, ledger)).2 = d' at level ⊢
  obtain ⟨k, before⟩ := d
  obtain ⟨k', before'⟩ := d'
  obtain ⟨readings, twin, names⟩ := level
  obtain rfl : k' = k := readings
  have names' := (names_of_twins twin).trans names
  have lengths : before.runs.length = before'.runs.length := twin.length_eq
  rw [← opens_of_names names, ← opens_of_names names']
  by_cases starts : Opens m before issue first
  · obtain ⟨result, after, ran, rows⟩ := execute_start_opens (k := k') render (agentRole_known first) starts
    rw [ran]
    by_cases starts' : Opens m' before' issue second
    · obtain ⟨result', after', ran', rows'⟩ := execute_start_opens (k := k') render
        (agentRole_known second) starts'
      rw [ran', alike_opened twin rows rows' (by rintro rfl; rfl)]
      simp [starts]
    · rw [execute_start_refused render starts']
      have longer : ¬after.Alike before' := by
        intro same
        have equal := same.length_eq
        simp [rows, lengths] at equal
      have apart : first ≠ second := by
        rintro rfl
        exact starts' ((opens_of_names names').mpr (alike.opens.mpr ((opens_of_names names).mp starts)))
      simp [longer, apart, starts]
  · rw [execute_start_refused render starts]
    by_cases starts' : Opens m' before' issue second
    · obtain ⟨result', after', ran', rows'⟩ := execute_start_opens (k := k') render
        (agentRole_known second) starts'
      rw [ran']
      have longer : ¬before.Alike after' := by
        intro same
        have equal := same.length_eq
        simp [rows', lengths] at equal
      have apart : first ≠ second := by
        rintro rfl
        exact starts ((opens_of_names names).mpr (alike.opens.mp ((opens_of_names names').mp starts')))
      simp [longer, apart, starts']
    · rw [execute_start_refused render starts']
      simp [starts, starts', twin.alike]

end Law

end Phasegent.Timer
