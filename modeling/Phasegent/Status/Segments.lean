import Phasegent.Sql.Nested
import Phasegent.Timer.Auto

namespace Phasegent.Timer
open Fallible Interleaving Sql

def Legible (text : String) : Prop :=
  trimText text ≠ "" ∧ text.toList.length ≤ 128 ∧ hasControl text = false

instance (text : String) : Decidable (Legible text) := inferInstanceAs (Decidable (_ ∧ _ ∧ _))

structure Machine where
  clock : Nat → Int
  runId : String
  legible : Legible runId
  route : Nat → Except PhasegentError TimerTaskRoute
  storage : Except String Unit

namespace Machine

/-- A ledger that nobody else has, beside the number of times the clock was read. -/
def answer (m : Machine) (d : Nat × Ledger) : (op : TimerOp) → op.Ret × (Nat × Ledger)
  | .storageOpen => (m.storage, d)
  | .openExistingLedger => (m.storage.map fun _ => true, d)
  | .nowEpochSeconds => (m.clock d.1, (d.1 + 1, d.2))
  | .generateRunId _ => (m.runId, d)
  | .generateProjectionToken => (m.runId, d)
  | .resolveTimerRoute issue => (m.route issue, d)
  | .load runId => (.ok (d.2.loadTimerRun runId), d)
  | .listRunning issue => (.ok (d.2.listRunningRunsForIssue issue), d)
  | .write statement => ((statement.tx.commit d.2).1, (d.1, (statement.tx.commit d.2).2))
  | .closeStorage => ((), d)
  | .beginImmediate | .commit | .rollback => (.error "unused", d)
  | .resolveKind _ => (.error (.config "unused"), d)
  | .redmineProvider .. => (.error (.config "unused"), d)
  | .listActivities _ => (.error (.config "unused"), d)
  | .listTimeEntries .. => (.error (.config "unused"), d)
  | .postTimeEntry .. => (.error (.config "unused"), d)

end Machine

section Starting
variable {m : Machine} {k issue : Nat} {ledger : Ledger} {phase : String}
  (render : PhasegentError → String)

/-- When a transition opens a segment of this phase. -/
structure Opens (m : Machine) (ledger : Ledger) (issue : Nat) (phase : String) : Prop where
  stored : m.storage = .ok ()
  routed : (m.route issue).isOk = true
  numbered : 0 < issue ∧ issue ≤ Task.i64Max
  fresh : ∀ run ∈ ledger.runs, run.runId ≠ m.runId
  legible : Legible phase

theorem agentRole_known (statusName : String) :
    (statusToAgentRole statusName).1 = "executor" ∨ (statusToAgentRole statusName).1 = "reviewer" := by
  unfold statusToAgentRole
  dsimp only
  split
  · exact Or.inr rfl
  split
  · exact Or.inl rfl
  · exact Or.inl rfl

theorem validate_ok {runId role : String} (named : Legible runId) (positive : 0 < issue)
    (legible : Legible phase) (known : role = "executor" ∨ role = "reviewer") :
    validateTimerIdentity runId issue phase role 1 = .ok () := by
  obtain ⟨named₁, named₂, named₃⟩ := named
  obtain ⟨legible₁, legible₂, legible₃⟩ := legible
  have roles : ¬(role ≠ "executor" ∧ role ≠ "reviewer") := by
    rcases known with rfl | rfl <;> simp
  simp [validateTimerIdentity, refuse, named₁, named₂, named₃, legible₁, legible₂, legible₃, roles,
    positive.ne', Task.i64Max]

theorem validate_legible {runId role : String} {u : Unit}
    (checked : validateTimerIdentity runId issue phase role 1 = .ok u) : 0 < issue ∧ Legible phase := by
  unfold validateTimerIdentity at checked
  simp only [bind_eq_ok, refuse_eq_ok] at checked
  obtain ⟨_, -, _, -, _, positive, _, named, _, plain, -⟩ := checked
  simp only [not_or, not_lt] at named
  exact ⟨Nat.pos_of_ne_zero positive, named.1, named.2, by simpa using plain⟩

section Rows
variable {role : String} (owner : TimerRunOwner)

theorem insertRun_opens (bound : 0 < issue ∧ issue ≤ Task.i64Max)
    (fresh : ∀ run ∈ ledger.runs, run.runId ≠ m.runId) :
    ∃ ledger', (TimerWrite.insertRun m.runId issue phase role 1 (m.clock k) owner).tx ledger =
        .ok (1, ledger') ∧
      ledger'.runs = ledger.runs ++ [startedRun m.runId issue phase role 1 (m.clock k) owner] := by
  have absent : ¬(ledger.runs.any (·.runId == m.runId)) := by
    simp only [List.any_eq_true, beq_iff_eq]
    rintro ⟨run, member, same⟩
    exact fresh run member same
  have inside : ¬Task.i64Max < issue := Nat.not_lt.mpr bound.2
  have first : TimerWrite.check (bindU64 "could not persist timer start" (some issue)) ledger =
      .ok ((), ledger) := by
    simp [TimerWrite.check, Tx.read, bindU64, refuse, inside, Except.map]
  have second : TimerWrite.check (refuse (issue = 0 ∨ 1 = 0)
      "could not persist timer start: CHECK constraint failed") ledger = .ok ((), ledger) := by
    simp [TimerWrite.check, Tx.read, refuse, bound.1.ne', Except.map]
  obtain ⟨ledger', inserted⟩ : ∃ ledger', TimerWrite.insertRow
      (startedRun m.runId issue phase role 1 (m.clock k) owner) ledger = .ok (1, ledger') := by
    exact ⟨_, dif_neg absent⟩
  refine ⟨ledger', ?_, TimerWrite.insertRow_ok inserted⟩
  rw [TimerWrite.tx, Tx.bind_eq first, Tx.bind_eq second, inserted]

theorem insertRun_refused (far : Task.i64Max < issue) :
    ∃ message, (TimerWrite.insertRun m.runId issue phase role 1 (m.clock k) owner).tx ledger =
      .error message := by
  cases ran : (TimerWrite.insertRun m.runId issue phase role 1 (m.clock k) owner).tx ledger with
  | error message => exact ⟨message, rfl⟩
  | ok result =>
      obtain ⟨_, _, first, -⟩ := Tx.bind_ok ran
      have bounded := (TimerWrite.check_ok first).1
      simp [bindU64, far] at bounded

end Rows

section Runs
variable {role : String} {j : Nat}

theorem execute_unowned (name : String) (d : Nat × Ledger) :
    execute m.answer (fromExcept (validateOwnerField none name) : StoreM (Option String)).run d =
      (.ok none, d) := rfl

theorem execute_insert (known : role = "executor" ∨ role = "reviewer") (opens : Opens m ledger issue phase) :
    ∃ ledger', execute m.answer (startTimerRunWithOwner m.runId issue phase role 1 (m.clock k)
        ⟨none, none⟩).run (j, ledger) =
          (.ok (startedRun m.runId issue phase role 1 (m.clock k) ⟨none, none⟩), (j, ledger')) ∧
      ledger'.runs = ledger.runs ++ [startedRun m.runId issue phase role 1 (m.clock k) ⟨none, none⟩] := by
  obtain ⟨-, -, numbered, fresh, legible⟩ := opens
  have written : ∃ ledger', (TimerWrite.insertRun m.runId issue phase role 1 (m.clock k) ⟨none, none⟩).tx
      ledger = .ok (1, ledger') ∧
      ledger'.runs = ledger.runs ++ [startedRun m.runId issue phase role 1 (m.clock k) ⟨none, none⟩] :=
    insertRun_opens ⟨none, none⟩ numbered fresh
  obtain ⟨ledger', inserted, rows⟩ := written
  have valid := validate_ok m.legible numbered.1 legible known
  have absent : ledger.loadTimerRun m.runId = none := by
    apply List.find?_eq_none.mpr
    intro run member
    simpa using fresh run member
  have present : ledger'.loadTimerRun m.runId =
      some (startedRun m.runId issue phase role 1 (m.clock k) ⟨none, none⟩) := by
    apply @Ledger.loadTimerRun_of_mem ledger' (startedRun m.runId issue phase role 1 (m.clock k) ⟨none, none⟩)
    simp [rows]
  have loaded : execute m.answer (loadTimerRun m.runId).run (j, ledger) = (.ok none, (j, ledger)) := by
    simp [loadTimerRun, execute_request, Machine.answer, absent]
  have wrote : execute m.answer (write (.insertRun m.runId issue phase role 1 (m.clock k)
      ⟨none, none⟩)).run (j, ledger) = (.ok 1, (j, ledger')) := by
    simp [write, execute_request, Machine.answer, Tx.commit, inserted]
  have reloaded : execute m.answer (loadTimerRun m.runId).run (j, ledger') =
      (.ok (some (startedRun m.runId issue phase role 1 (m.clock k) ⟨none, none⟩)), (j, ledger')) := by
    simp [loadTimerRun, execute_request, Machine.answer, present]
  refine ⟨ledger', ?_, rows⟩
  rw [startTimerRunWithOwner, execute_bind_ok (execute_fromExcept _ |>.trans (by rw [valid])),
    execute_bind_ok (execute_unowned _ _), execute_bind_ok (execute_unowned _ _), execute_bind_ok loaded]
  dsimp only
  rw [execute_bind_ok wrote, reload, execute_bind_ok reloaded]
  rfl

theorem execute_refused (refused : ¬(0 < issue ∧ issue ≤ Task.i64Max ∧ (∀ run ∈ ledger.runs, run.runId ≠ m.runId) ∧
      Legible phase)) :
    (execute m.answer (startTimerRunWithOwner m.runId issue phase role 1 (m.clock k)
        ⟨none, none⟩).run (j, ledger)).2 = (j, ledger) := by
  cases checked : validateTimerIdentity m.runId issue phase role 1 with
  | error message =>
      rw [startTimerRunWithOwner, execute_bind_error (execute_fromExcept _ |>.trans (by rw [checked]))]
  | ok u =>
      obtain ⟨positive, legible⟩ := validate_legible checked
      rw [startTimerRunWithOwner, execute_bind_ok (execute_fromExcept _ |>.trans (by rw [checked])),
        execute_bind_ok (execute_unowned _ _), execute_bind_ok (execute_unowned _ _)]
      cases found : ledger.loadTimerRun m.runId with
      | some existing =>
          have loaded : execute m.answer (loadTimerRun m.runId).run (j, ledger) =
              (.ok (some existing), (j, ledger)) := by
            simp [loadTimerRun, execute_request, Machine.answer, found]
          rw [execute_bind_ok loaded]
          rfl
      | none =>
          have loaded : execute m.answer (loadTimerRun m.runId).run (j, ledger) =
              (.ok none, (j, ledger)) := by
            simp [loadTimerRun, execute_request, Machine.answer, found]
          have fresh : ∀ run ∈ ledger.runs, run.runId ≠ m.runId := by
            intro run member
            simpa using List.find?_eq_none.mp found run member
          have far : Task.i64Max < issue := by
            by_contra near
            exact refused ⟨positive, Nat.not_lt.mp near, fresh, legible⟩
          have failing : ∃ message, (TimerWrite.insertRun m.runId issue phase role 1 (m.clock k)
              ⟨none, none⟩).tx ledger = .error message := insertRun_refused ⟨none, none⟩ far
          obtain ⟨message, failed⟩ := failing
          have wrote : execute m.answer (write (.insertRun m.runId issue phase role 1 (m.clock k)
              ⟨none, none⟩)).run (j, ledger) = (.error message, (j, ledger)) := by
            simp [write, execute_request, Machine.answer, Tx.commit, failed]
          rw [execute_bind_ok loaded]
          dsimp only
          rw [execute_bind_error wrote]

variable (m ledger k) in
theorem execute_readings :
    execute m.answer (request (.generateRunId "auto") .ok : StoreM String).run (k, ledger) =
        (.ok m.runId, (k, ledger)) ∧
      execute m.answer (Timer.nowEpochSeconds : StoreM Int).run (k, ledger) =
        (.ok (m.clock k), (k + 1, ledger)) := ⟨rfl, rfl⟩

theorem execute_route (prefixed : String) {d : Nat × Ledger} :
    execute m.answer (refusing render prefixed (resolveTimerRoute issue)).run d =
      ((m.route issue).mapError (fun error => prefixed ++ render error), d) := by
  simp [refusing, resolveTimerRoute, execute_renameFailure, execute_request, Machine.answer]

theorem execute_open (prefixed : String) {d : Nat × Ledger} :
    execute m.answer (renameFailure (prefixed ++ ·) storageOpen).run d =
      (m.storage.mapError (prefixed ++ ·), d) := by
  simp [storageOpen, execute_renameFailure, execute_request, Machine.answer]

theorem execute_start_opens (known : role = "executor" ∨ role = "reviewer")
    (opens : Opens m ledger issue phase) :
    ∃ result ledger', execute m.answer (autoStartRun render issue phase role 1).run (k, ledger) =
        (result, (k + 1, ledger')) ∧
      ledger'.runs = ledger.runs ++ [startedRun m.runId issue phase role 1 (m.clock k) ⟨none, none⟩] := by
  obtain ⟨ledger', started, rows⟩ := execute_insert (j := k + 1) (k := k) known opens
  have admitted := opens.routed
  cases routed : m.route issue with
  | error e => simp [Except.isOk, Except.toBool, routed] at admitted
  | ok route =>
      refine ⟨.ok m.runId, ledger', ?_, rows⟩
      rw [autoStartRun, execute_bind_ok ((execute_route render _).trans (by rw [routed]; rfl)),
        execute_bind_ok (execute_readings m k ledger).1, execute_bind_ok (execute_readings m k ledger).2,
        execute_bind_ok ((execute_open _).trans (by rw [opens.stored]; rfl)), execute_bind_ok]
      · rfl
      rw [execute_renameFailure, started]
      rfl

theorem execute_start_refused (refused : ¬Opens m ledger issue phase) :
    (execute m.answer (autoStartRun render issue phase role 1).run (k, ledger)).2.2 = ledger := by
  cases routed : m.route issue with
  | error e =>
      rw [autoStartRun, execute_bind_error ((execute_route render _).trans (by rw [routed]; rfl))]
  | ok route =>
      rw [autoStartRun, execute_bind_ok ((execute_route render _).trans (by rw [routed]; rfl)),
        execute_bind_ok (execute_readings m k ledger).1, execute_bind_ok (execute_readings m k ledger).2]
      cases stored : m.storage with
      | error e => rw [execute_bind_error ((execute_open _).trans (by rw [stored]; rfl))]
      | ok u =>
          have kept : (execute m.answer (startTimerRunWithOwner m.runId issue phase role 1 (m.clock k)
              ⟨none, none⟩).run (k + 1, ledger)).2 = (k + 1, ledger) := by
            apply execute_refused
            intro all
            refine refused ⟨stored, ?_, ⟨all.1, all.2.1⟩, all.2.2.1, all.2.2.2⟩
            simp [routed, Except.isOk, Except.toBool]
          rw [execute_bind_ok ((execute_open _).trans (by rw [stored]; rfl)), run_bind, execute_bind,
            execute_renameFailure]
          rw [kept]
          cases (execute m.answer (startTimerRunWithOwner m.runId issue phase role 1 (m.clock k)
              ⟨none, none⟩).run (k + 1, ledger)).1 <;> rfl

end Runs

end Starting

end Phasegent.Timer
