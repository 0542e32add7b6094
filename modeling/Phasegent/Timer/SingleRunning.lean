import Phasegent.Timer.Footprint

namespace Phasegent.Timer
open Fallible Interleaving Sql

section Ledger
variable {ledger ledger' : Ledger} {issue : Nat} {runId : String} {run : TimerRun}

theorem mem_runningForIssue : run ∈ ledger.runningForIssue issue ↔
    run ∈ ledger.runs ∧ run.status = .running ∧ (run.issue : Int) = Lease.asI64 issue := by
  simp [Ledger.runningForIssue]

def without (runId : String) (rows : List TimerRun) : List TimerRun := rows.filter (·.runId != runId)

theorem without_of_finished (member : run ∈ ledger.runs) (ended : run.status ≠ .running) :
    without run.runId (ledger.runningForIssue issue) = ledger.runningForIssue issue := by
  apply List.filter_eq_self.mpr
  intro other running
  obtain ⟨inside, status, -⟩ := mem_runningForIssue.mp running
  rw [bne_iff_ne]
  intro same
  exact ended (Ledger.eq_of_runId inside member same ▸ status)

theorem filter_update_finishRun (result : TimerResult) (finishedAt elapsed : Int) (rounded : Nat)
    (rows : List TimerRun) :
    (update (TimerWrite.finishRun runId result finishedAt elapsed rounded).selects
      (TimerWrite.finishRun runId result finishedAt elapsed rounded).sets rows).filter
        (fun run => run.status == .running && (run.issue : Int) == Lease.asI64 issue) =
      without runId (rows.filter fun run =>
        run.status == .running && (run.issue : Int) == Lease.asI64 issue) := by
  induction rows with
  | nil => rfl
  | cons row rest ih =>
      rw [update, List.map_cons, List.filter_cons, ← update, ih]
      by_cases running : row.status = .running
      · by_cases named : row.runId = runId
        · by_cases here : (row.issue : Int) = Lease.asI64 issue <;>
            simp [TimerWrite.selects, TimerWrite.sets, running, named, here, without]
        · by_cases here : (row.issue : Int) = Lease.asI64 issue <;>
            simp [TimerWrite.selects, running, named, here, without]
      · simp [TimerWrite.selects, running]

theorem runningForIssue_finishRun {result : TimerResult} {finishedAt elapsed : Int} {rounded n : Nat}
    (written : (TimerWrite.finishRun runId result finishedAt elapsed rounded).tx ledger =
      .ok (n, ledger')) :
    ledger'.runningForIssue issue = without runId (ledger.runningForIssue issue) := by
  obtain ⟨added, rows, source⟩ := (TimerWrite.tx_changes written).rows
  rcases source with rfl | ⟨_, _, _, _, _, _, _, other, -⟩
  · rw [Ledger.runningForIssue, rows, List.append_nil]
    exact filter_update_finishRun result finishedAt elapsed rounded ledger.runs
  · cases other

def Ledger.names (ledger : Ledger) : List (String × Nat) :=
  ledger.runs.map fun run => (run.runId, run.issue)

theorem names_finishRun {result : TimerResult} {finishedAt elapsed : Int} {rounded n : Nat}
    (written : (TimerWrite.finishRun runId result finishedAt elapsed rounded).tx ledger =
      .ok (n, ledger')) : ledger'.names = ledger.names := by
  obtain ⟨added, rows, source⟩ := (TimerWrite.tx_changes written).rows
  rcases source with rfl | ⟨_, _, _, _, _, _, _, other, -⟩
  · rw [Ledger.names, rows, List.append_nil]
    apply map_update
    exact fun _ => rfl
  · cases other

end Ledger

section Alone
variable {F : Type} (outside : F → (op : TimerOp) → op.Ret → F → Prop) (i : Pid) {ε ε' α β : Type}

def solitary (i : Pid) : Contract (TimerState F) := .alone i fun s => s.db.held = none

/-- What a program that runs alone makes of the ledger. -/
def Alone (P : Ledger → Prop) (p : TimerM ε α) (Q : α → Ledger → Prop) (E : ε → Ledger → Prop) : Prop :=
  HoareElse (timerWorld outside) (solitary i) i (fun s => P s.db.committed) p
    (fun a s => Q a s.db.committed) fun e s => E e s.db.committed

variable {outside i} {P P' : Ledger → Prop} {Q Q' : α → Ledger → Prop} {E E' : ε → Ledger → Prop}

theorem solitary_step {s s' : TimerState F} {op : TimerOp} {answer : op.Ret}
    (step : TimerStep outside i s op answer s') (begins : op ≠ .beginImmediate)
    (free : s.db.held = none) : s'.db.held = none ∧
      (s'.db.committed = s.db.committed ∨ ∃ statement n, op = .write statement ∧
        statement.tx s.db.committed = .ok (n, s'.db.committed)) := by
  have nobody : s.db.Free i := by simp [Locked.Free, free]
  cases step with
  | begin => exact absurd rfl begins
  | commit committed =>
      obtain ⟨work, held, -⟩ := Locked.commit_some committed
      exact absurd held (nobody work)
  | rollback | close =>
      rw [nobody.release]
      exact ⟨free, Or.inl rfl⟩
  | @write statement unblocked =>
      have kept : (s.db.put i (statement.tx.commit (s.db.sees i)).2) =
          ⟨(statement.tx.commit s.db.committed).2, none⟩ := by
        simp [Locked.put, Locked.sees, free]
      rw [kept]
      refine ⟨rfl, ?_⟩
      cases written : statement.tx s.db.committed with
      | error e => exact Or.inl (by simp [Tx.commit, written])
      | ok result => exact Or.inr ⟨statement, result.1, rfl, by simp [Tx.commit, written]⟩
  | load | listRunning | listed | posted | fault | outside => exact ⟨free, Or.inl rfl⟩

theorem alone_request {op : TimerOp} {decode : op.Ret → Except ε α} (begins : op ≠ .beginImmediate)
    (effect : ∀ s answer s', P s.db.committed → s.db.held = none →
      TimerStep outside i s op answer s' → Ends Q E (decode answer) s'.db.committed) :
    Alone outside i P (request op decode) Q E := by
  apply else_request (Contract.stable_alone _) (fun _ => Contract.stable_alone _)
    fun _ => Contract.stable_alone _
  intro s answer s' free holds step
  have ended := effect s answer s' holds free step
  refine ⟨(solitary_step step begins free).1, Or.inl rfl, ?_⟩
  cases result : decode answer <;> simpa only [result, Ends] using ended

theorem alone_reads {p : TimerM ε α} (performs : Performs Reads p) :
    Alone outside i P p (fun _ => P) fun _ => P := by
  refine else_performs (Contract.stable_alone _) ?_ performs
  intro s op answer s' free holds reads step
  obtain ⟨free', same | ⟨statement, n, rfl, -⟩⟩ :=
    solitary_step step (by rintro rfl; cases reads) free
  · exact ⟨free', Or.inl rfl, by rwa [same]⟩
  · cases reads

theorem alone_write {statement : TimerWrite} {Q : Nat → Ledger → Prop} {E : String → Ledger → Prop}
    (written : ∀ ledger n ledger', P ledger → statement.tx ledger = .ok (n, ledger') → Q n ledger')
    (failed : ∀ ledger e, P ledger → E e ledger) :
    Alone outside i P (write statement) Q E := by
  apply alone_request (by rintro ⟨⟩)
  intro s answer s' holds free step
  cases answer with
  | ok n =>
      obtain ⟨ledger, unblocked, ran, rfl⟩ := step.write_ok
      have nobody : s.db.Free i := by simp [Locked.Free, free]
      rw [nobody.sees] at ran
      have kept : (s.db.put i ledger).committed = ledger := by simp [Locked.put, free]
      rw [kept]
      exact written _ _ _ holds ran
  | error e =>
      have same : s'.db.committed = s.db.committed := by
        generalize told : (Except.error e : Except String Nat) = answer at step
        cases step with
        | write unblocked =>
            show (s.db.put i _).committed = _
            rw [Tx.commit_error told.symm, put_sees unblocked]
        | fault => rfl
        | outside => rfl
      rw [same]
      exact failed _ e holds

theorem alone_pure {a : α} (holds : ∀ ledger, P ledger → Q a ledger) :
    Alone outside i P (pure a : TimerM ε α) Q E :=
  else_pure (Contract.stable_alone _) fun _ _ pre => holds _ pre

theorem alone_throw {e : ε} (holds : ∀ ledger, P ledger → E e ledger) :
    Alone outside i P (throw e : TimerM ε α) Q E :=
  else_throw (Contract.stable_alone _) fun _ _ pre => holds _ pre

theorem alone_bind {Q : β → Ledger → Prop} {M : α → Ledger → Prop} {p : TimerM ε α}
    {f : α → TimerM ε β} (first : Alone outside i P p M E)
    (rest : ∀ a, Alone outside i (M a) (f a) Q E) : Alone outside i P (p >>= f) Q E :=
  else_bind (fun _ => Contract.stable_alone _) first rest

theorem alone_fromExcept {x : Except ε α} (failed : ∀ ledger e, x = .error e → P ledger → E e ledger) :
    Alone outside i P (fromExcept x : TimerM ε α) (fun a ledger => x = .ok a ∧ P ledger) E :=
  else_fromExcept (Contract.stable_alone _) (fun _ e same _ holds => failed _ e same holds)
    fun _ => Contract.stable_alone _

theorem alone_renameFailure {rename : ε → ε'} {E' : ε' → Ledger → Prop} {p : TimerM ε α}
    (renamed : ∀ e ledger, E e ledger → E' (rename e) ledger) (first : Alone outside i P p Q E) :
    Alone outside i P (renameFailure rename p) Q E' :=
  else_renameFailure (fun _ => Contract.stable_alone _) (fun _ => Contract.stable_alone _)
    (fun e _ holds => renamed e _ holds) first

theorem alone_outcome {E' : ε' → Ledger → Prop} {p : TimerM ε α} (first : Alone outside i P p Q E) :
    Alone outside i P (outcome p : TimerM ε' (Except ε α)) (fun result ledger =>
      (∀ a, result = .ok a → Q a ledger) ∧ ∀ e, result = .error e → E e ledger) E' := by
  refine (else_outcome (fun _ => Contract.stable_alone _) (fun _ => Contract.stable_alone _)
    first).weaken ?_ fun _ _ holds => holds
  intro result s ended
  cases result with
  | ok a => exact ⟨fun a' same => by cases same; exact ended, by rintro e ⟨⟩⟩
  | error e => exact ⟨by rintro a ⟨⟩, fun e' same => by cases same; exact ended⟩

theorem Alone.pre {p : TimerM ε α} (alone : Alone outside i P' p Q E)
    (implies : ∀ ledger, P ledger → P' ledger) : Alone outside i P p Q E :=
  HoareElse.pre alone fun _ _ holds => implies _ holds

theorem Alone.weaken {p : TimerM ε α} (alone : Alone outside i P p Q E)
    (implies : ∀ a ledger, Q a ledger → Q' a ledger) (failed : ∀ e ledger, E e ledger → E' e ledger) :
    Alone outside i P p Q' E' :=
  HoareElse.weaken alone (fun a _ holds => implies a _ holds) fun e _ holds => failed e _ holds

theorem Alone.of_pure {given : Prop} {p : TimerM ε α} (alone : given → Alone outside i P p Q E) :
    Alone outside i (fun ledger => given ∧ P ledger) p Q E :=
  HoareElse.of_pure alone

theorem alone_load (runId : String) : Alone outside i P (loadTimerRun runId)
    (fun found ledger => P ledger ∧ found = ledger.loadTimerRun runId) fun _ => P := by
  apply alone_request (by rintro ⟨⟩)
  intro s answer s' holds free step
  cases answer with
  | ok found =>
      obtain ⟨found, rfl⟩ := step.load_ok
      have nobody : s'.db.Free i := by simp [Locked.Free, free]
      exact ⟨holds, by rw [found, nobody.sees]⟩
  | error e =>
      cases step with
      | fault => exact holds
      | outside => exact holds

theorem alone_reload (runId gone : String) : Alone outside i P (reload runId gone)
    (fun run ledger => P ledger ∧ run ∈ ledger.runs ∧ run.runId = runId) fun _ => P := by
  apply alone_bind (alone_load runId)
  intro found
  cases found with
  | none => exact alone_throw fun _ holds => holds.1
  | some run =>
      exact alone_pure fun _ holds => ⟨holds.1, Ledger.loadTimerRun_some holds.2.symm⟩

section Sweep
variable {issue : Nat} {names : List (String × Nat)} {rows : List TimerRun} {render : PhasegentError → String}

def Running (issue : Nat) (names : List (String × Nat)) (rows : List TimerRun) (ledger : Ledger) :
    Prop :=
  ledger.names = names ∧ ledger.runningForIssue issue = rows

def Among (issue : Nat) (names : List (String × Nat)) (rows : List TimerRun) (ledger : Ledger) :
    Prop :=
  ∃ left, left.Sublist rows ∧ Running issue names left ledger

theorem Running.among {ledger : Ledger} (running : Running issue names rows ledger) :
    Among issue names rows ledger :=
  ⟨rows, List.Sublist.refl rows, running⟩

theorem Running.among_without {ledger : Ledger} {runId : String}
    (running : Running issue names (without runId rows) ledger) : Among issue names rows ledger :=
  ⟨_, List.filter_sublist, running⟩

theorem Among.mono {ledger : Ledger} {rows' : List TimerRun} (among : Among issue names rows' ledger)
    (fewer : rows'.Sublist rows) : Among issue names rows ledger :=
  let ⟨left, sublist, running⟩ := among
  ⟨left, sublist.trans fewer, running⟩

theorem alone_among {p : TimerM ε α} (alone : ∀ left : List TimerRun, left.Sublist rows →
    Alone outside i (Running issue names left) p Q E) :
    Alone outside i (Among issue names rows) p Q E :=
  HoareElse.of_exists fun left => HoareElse.of_pure (alone left)

theorem alone_finishTimerRun (runId text : String) (finishedAt : Int) :
    Alone outside i (Running issue names rows) (finishTimerRun runId text finishedAt)
      (fun _ => Running issue names (without runId rows)) fun _ => Among issue names rows := by
  apply alone_bind (alone_fromExcept fun _ _ _ running => running.among)
  intro result
  apply Alone.of_pure
  intro parsed
  apply alone_bind (M := fun run ledger =>
    Running issue names rows ledger ∧ run ∈ ledger.runs ∧ run.runId = runId)
  · exact (alone_reload runId _).weaken (fun _ _ holds => holds) fun _ _ running => running.among
  intro existing
  dsimp only
  split
  · next earlier status =>
      split
      · apply alone_pure
        rintro ledger ⟨⟨named, running⟩, member, rfl⟩
        refine ⟨named, ?_⟩
        rw [← running, without_of_finished member (by simp [status])]
      · exact alone_throw fun _ holds => holds.1.among
  · apply alone_bind (alone_fromExcept fun _ _ _ holds => holds.1.among)
    intro _
    apply alone_bind (M := fun _ => Running issue names (without runId rows))
    · apply alone_write
      · rintro ledger n ledger' ⟨-, ⟨named, running⟩, -⟩ written
        refine ⟨(names_finishRun written).trans named, ?_⟩
        rw [runningForIssue_finishRun written, running]
      · exact fun _ _ holds => holds.2.1.among
    · intro _
      exact (alone_reload runId _).weaken (fun _ _ holds => holds.1)
        fun _ _ holds => holds.among_without

theorem alone_first {p : TimerM ε α} {f : α → TimerM ε β} {Q : β → Ledger → Prop}
    (reads : Performs Reads p) (rest : ∀ a, Alone outside i (Running issue names rows) (f a) Q
      fun _ => Among issue names rows) :
    Alone outside i (Running issue names rows) (p >>= f) Q fun _ => Among issue names rows := by
  apply alone_bind (M := fun _ => Running issue names rows)
  · exact (alone_reads reads).weaken (fun _ _ running => running) fun _ _ running => running.among
  · exact rest

theorem alone_autoFinishRun (runId : String) :
    Alone outside i (Running issue names rows) (autoFinishRun render runId)
      (fun _ => Running issue names (without runId rows)) fun _ => Among issue names rows := by
  apply alone_first (reads_admitFinish render runId)
  intro _
  apply alone_first (performs_renameFailure reads_storageOpen)
  intro _
  apply alone_first reads_nowEpochSeconds
  intro finishedAt
  apply alone_bind
  · exact alone_renameFailure (fun _ _ among => among) (alone_finishTimerRun runId "DONE" finishedAt)
  intro _
  exact alone_pure fun _ running => running

def withoutAll : List TimerRun → List TimerRun → List TimerRun
  | [], rows => rows
  | run :: rest, rows => withoutAll rest (without run.runId rows)

theorem mem_withoutAll {runs rows : List TimerRun} {row : TimerRun} :
    row ∈ withoutAll runs rows ↔ row ∈ rows ∧ ∀ run ∈ runs, row.runId ≠ run.runId := by
  induction runs generalizing rows with
  | nil => simp [withoutAll]
  | cons run rest ih =>
      rw [withoutAll, ih, without, List.mem_filter, bne_iff_ne]
      simp only [List.forall_mem_cons, and_assoc]

theorem withoutAll_eq_nil {runs rows : List TimerRun} (all : ∀ row ∈ rows, row ∈ runs) :
    withoutAll runs rows = [] := by
  apply List.eq_nil_iff_forall_not_mem.mpr
  intro row member
  obtain ⟨inside, other⟩ := mem_withoutAll.mp member
  exact other row (all row inside) rfl

theorem alone_finishRuns (runs : List TimerRun) :
    Alone outside i (Running issue names rows) (finishRuns render runs)
      (fun finished ledger => finished = runs.map (·.runId) ∧
        Running issue names (withoutAll runs rows) ledger)
      fun _ => Among issue names rows := by
  induction runs generalizing rows with
  | nil => exact alone_pure fun _ running => ⟨rfl, running⟩
  | cons run rest ih =>
      apply alone_bind (alone_outcome (alone_autoFinishRun run.runId))
      intro finished
      cases finished with
      | ok _ =>
          apply alone_bind
          · have onward : Alone outside i (Running issue names (without run.runId rows)) _ _ _ := ih
            exact (onward.pre fun _ ended => ended.1 _ rfl).weaken
              (fun _ _ holds => holds) fun _ _ among => among.mono List.filter_sublist
          intro ended
          exact alone_pure fun _ holds => ⟨congrArg _ holds.1, holds.2⟩
      | error error => exact alone_throw fun _ ended => ended.2 _ rfl

-- What the sweep takes on, the oldest first.
def due (rows : List TimerRun) : List TimerRun :=
  ((orderDesc (·.startedAt) rows).take Ledger.maxAutoRunsPerIssue).reverse

theorem mem_due {row : TimerRun} (few : rows.length ≤ Ledger.maxAutoRunsPerIssue) :
    row ∈ due rows ↔ row ∈ rows := by
  have all : (orderDesc (·.startedAt) rows).length ≤ Ledger.maxAutoRunsPerIssue := by
    rwa [orderDesc, List.length_insertionSort]
  rw [due, List.take_of_length_le all, List.mem_reverse, mem_orderDesc]

theorem eq_nil_of_due (none : due rows = []) : rows = [] := by
  apply List.length_eq_zero_iff.mp
  have empty : (due rows).length = 0 := congrArg List.length none
  rw [due, List.length_reverse, List.length_take, orderDesc, List.length_insertionSort,
    Ledger.maxAutoRunsPerIssue] at empty
  omega

theorem alone_closeIssueRuns (issue : Nat) :
    Alone outside i (Running issue names rows) (closeIssueRuns render issue)
      (fun finished ledger => finished = (due rows).map (·.runId) ∧
        Running issue names (withoutAll (due rows) rows) ledger)
      fun _ => Among issue names rows := by
  apply alone_first (performs_renameFailure reads_storageOpen)
  intro _
  apply alone_bind (M := fun found ledger =>
    found = (orderDesc (·.startedAt) rows).take Ledger.maxAutoRunsPerIssue ∧
      Running issue names rows ledger)
  · refine alone_renameFailure (E := fun _ => Running issue names rows) (fun _ _ running => ?_) ?_
    · exact running.among
    apply alone_request (by rintro ⟨⟩)
    intro s answer s' running free step
    cases step with
    | listRunning =>
        have nobody : s.db.Free i := by simp [Locked.Free, free]
        refine ⟨?_, running⟩
        rw [nobody.sees, Ledger.listRunningRunsForIssue, running.2]
    | fault fails =>
        cases answer with
        | ok found => cases fails
        | error e => exact running
    | outside external => cases external
  intro found
  apply Alone.of_pure
  rintro rfl
  exact alone_finishRuns _

theorem Running.swept {ledger : Ledger} (few : rows.length ≤ Ledger.maxAutoRunsPerIssue)
    (running : Running issue names (withoutAll (due rows) rows) ledger) :
    Running issue names [] ledger := by
  rwa [withoutAll_eq_nil fun row member => (mem_due few).mpr member] at running

def Opened (issue : Nat) (names : List (String × Nat)) (rows : List TimerRun) (runId : String)
    (ledger : Ledger) : Prop :=
  ((∀ name ∈ names, name.1 ≠ runId) ∧
      ∃ row, row.runId = runId ∧ ledger.runningForIssue issue = rows ++ [row]) ∨
    (∃ row ∈ rows, row.runId = runId) ∧ ledger.runningForIssue issue = rows

theorem asI64_of_le (bound : issue ≤ Task.i64Max) : Lease.asI64 issue = issue := by
  rw [Lease.asI64, if_pos]
  exact Nat.lt_of_le_of_lt bound (by decide)

theorem opened_insertRun {ledger ledger' : Ledger} {n attempt : Nat} {runId phase role : String}
    {startedAt : Int} {owner : TimerRunOwner} (running : Running issue names rows ledger)
    (missing : ledger.loadTimerRun runId = none)
    (written : (TimerWrite.insertRun runId issue phase role attempt startedAt owner).tx ledger =
      .ok (n, ledger')) : Opened issue names rows runId ledger' := by
  obtain ⟨_, _, first, rest⟩ := Tx.bind_ok written
  obtain ⟨bound, rfl⟩ := TimerWrite.check_ok first
  obtain ⟨_, _, second, inserted⟩ := Tx.bind_ok rest
  obtain ⟨-, rfl⟩ := TimerWrite.check_ok second
  rw [bindU64, refuse_eq_ok, Option.any_some, decide_eq_true_eq, not_lt] at bound
  refine Or.inl ⟨?_, startedRun runId issue phase role attempt startedAt owner, rfl, ?_⟩
  · rw [← running.1]
    intro name member named
    obtain ⟨row, inside, rfl⟩ := List.mem_map.mp member
    rw [← named, Ledger.loadTimerRun_of_mem inside] at missing
    cases missing
  · rw [Ledger.runningForIssue, TimerWrite.insertRow_ok inserted, List.filter_append,
      ← Ledger.runningForIssue, running.2]
    simp [startedRun, asI64_of_le bound]

theorem opened_reattach {ledger : Ledger} {attempt : Nat} {runId phase role : String}
    {startedAt : Int} {owner : TimerRunOwner} {existing run : TimerRun}
    (stored : ∀ name ∈ names, name.2 ≤ Task.i64Max) (running : Running issue names rows ledger)
    (found : ledger.loadTimerRun runId = some existing)
    (taken : reattach existing issue phase role attempt startedAt owner = .ok run) :
    Opened issue names rows runId ledger := by
  obtain ⟨member, named⟩ := Ledger.loadTimerRun_some found
  obtain ⟨_, same, rest⟩ := bind_eq_ok.mp taken
  obtain ⟨_, open', -⟩ := bind_eq_ok.mp rest
  rw [ensureSameTimerIdentity, refuse_eq_ok] at same
  rw [refuse_eq_ok, not_not] at open'
  have here : existing.issue = issue := by
    by_contra other
    exact same (Or.inl other)
  have bound : issue ≤ Task.i64Max := by
    rw [← here]
    have listed : (existing.runId, existing.issue) ∈ ledger.names := List.mem_map.mpr ⟨existing, member, rfl⟩
    exact stored _ (running.1 ▸ listed)
  refine Or.inr ⟨⟨existing, ?_, named⟩, running.2⟩
  rw [← running.2, mem_runningForIssue, here, asI64_of_le bound]
  exact ⟨member, open', rfl⟩

theorem opened_running {ledger : Ledger} {runId : String} (opened : Opened issue names rows runId ledger) :
    ∃ row ∈ ledger.runningForIssue issue, row.runId = runId := by
  rcases opened with ⟨-, row, named, running⟩ | ⟨⟨row, member, named⟩, running⟩
  · exact ⟨row, running ▸ List.mem_append_right _ (List.mem_singleton_self row), named⟩
  · exact ⟨row, running ▸ member, named⟩

theorem alone_startTimerRun (stored : ∀ name ∈ names, name.2 ≤ Task.i64Max) (runId phase role : String)
    (attempt : Nat) (startedAt : Int) (owner : TimerRunOwner) :
    Alone outside i (Running issue names rows)
      (startTimerRunWithOwner runId issue phase role attempt startedAt owner)
      (fun _ => Opened issue names rows runId) fun _ _ => True := by
  have reads : ∀ {γ : Type} {x : Except String γ}, Alone outside i (Running issue names rows)
      (fromExcept x : StoreM γ) (fun _ => Running issue names rows) fun _ _ => True :=
    (alone_fromExcept fun _ _ _ _ => trivial).weaken (fun _ _ holds => holds.2) fun _ _ _ => trivial
  apply alone_bind reads
  intro _
  apply alone_bind reads
  intro sessionId
  apply alone_bind reads
  intro callId
  apply alone_bind ((alone_load runId).weaken (fun _ _ holds => holds) fun _ _ _ => trivial)
  intro found
  cases found with
  | some existing =>
      refine (alone_fromExcept fun _ _ _ _ => trivial).weaken ?_ fun _ _ _ => trivial
      rintro run ledger ⟨taken, running, found⟩
      exact opened_reattach stored running found.symm taken
  | none =>
      apply alone_bind (M := fun _ => Opened issue names rows runId)
      · apply alone_write
        · rintro ledger n ledger' ⟨running, missing⟩ written
          exact opened_insertRun running missing.symm written
        · exact fun _ _ _ => trivial
      · intro _
        exact (alone_reload runId _).weaken (fun _ _ holds => holds.1) fun _ _ _ => trivial

theorem alone_autoStartRun (stored : ∀ name ∈ names, name.2 ≤ Task.i64Max) (phase role : String)
    (attempt : Nat) :
    Alone outside i (Running issue names rows) (autoStartRun render issue phase role attempt)
      (Opened issue names rows) fun _ _ => True := by
  have reads : ∀ {γ : Type} {p : StoreM γ}, Performs Reads p → Alone outside i
      (Running issue names rows) p (fun _ => Running issue names rows) fun _ _ => True :=
    fun performs => (alone_reads performs).weaken (fun _ _ running => running) fun _ _ _ => trivial
  apply alone_bind (reads (performs_renameFailure (reads_resolveTimerRoute issue)))
  intro _
  apply alone_bind (reads (performs_request (by trivial)))
  intro runId
  apply alone_bind (reads reads_nowEpochSeconds)
  intro startedAt
  apply alone_bind (reads (performs_renameFailure reads_storageOpen))
  intro _
  apply alone_bind (alone_renameFailure (fun _ _ _ => trivial)
    (alone_startTimerRun stored runId phase role attempt startedAt ⟨none, none⟩))
  intro run
  exact alone_pure fun _ opened => opened

-- What holds of the two ends of a transition that has started a run.
structure Transitioned (before after : Ledger) (issue : Nat) (statusName newRunId : String)
    (warning : Option String) : Prop where
  running : ∃ row ∈ after.runningForIssue issue, row.runId = newRunId
  older : ∀ row ∈ after.runningForIssue issue, row.runId = newRunId ∨ row ∈ before.runningForIssue issue
  alone : (before.runningForIssue issue).length ≤ Ledger.maxAutoRunsPerIssue →
    warning = buildTransitionWarning (statusToAgentRole statusName).2 [] statusName →
    (∀ row ∈ before.runs, row.runId ≠ newRunId) ∧
      ∃ row, row.runId = newRunId ∧ after.runningForIssue issue = [row]

theorem warning_of_failed_sweep (fallback : Bool) (failure statusName : String) :
    buildTransitionWarning fallback [failure] statusName ≠
      buildTransitionWarning fallback [] statusName := by
  intro same
  cases fallback with
  | false => simp [buildTransitionWarning] at same
  | true =>
      have lengths := congrArg (Option.map String.length) same
      have separator : "; ".length = 2 := rfl
      simp [buildTransitionWarning, joined, separator] at lengths
      omega

theorem Opened.transitioned {before after : Ledger} {left : List TimerRun} {statusName newRunId : String}
    {warning : Option String} (opened : Opened issue before.names left newRunId after)
    (old : ∀ row ∈ left, row ∈ before.runningForIssue issue)
    (clean : (before.runningForIssue issue).length ≤ Ledger.maxAutoRunsPerIssue →
      warning = buildTransitionWarning (statusToAgentRole statusName).2 [] statusName → left = []) :
    Transitioned before after issue statusName newRunId warning where
  running := opened_running opened
  older row member := by
    rcases opened with ⟨-, new, named, running⟩ | ⟨-, running⟩
    · rw [running] at member
      rcases List.mem_append.mp member with inside | fresh
      · exact Or.inr (old row inside)
      · exact Or.inl (List.mem_singleton.mp fresh ▸ named)
    · exact Or.inr (old row (running ▸ member))
  alone few quiet := by
    obtain rfl := clean few quiet
    rcases opened with ⟨fresh, new, named, running⟩ | ⟨⟨row, member, -⟩, -⟩
    · refine ⟨fun row member => ?_, new, named, running⟩
      exact fresh _ (List.mem_map.mpr ⟨row, member, rfl⟩)
    · cases member

variable {before : Ledger} {providerKind : ProviderKind} {statusName : String}

def Ledger.Storable (ledger : Ledger) : Prop := ∀ run ∈ ledger.runs, run.issue ≤ Task.i64Max

theorem names_storable (stored : before.Storable) : ∀ name ∈ before.names, name.2 ≤ Task.i64Max := by
  intro name member
  obtain ⟨run, inside, rfl⟩ := List.mem_map.mp member
  exact stored run inside

theorem running_before {ledger : Ledger} (same : ledger = before) :
    Running issue before.names (before.runningForIssue issue) ledger := by
  subst same
  exact ⟨rfl, rfl⟩

theorem alone_newSegment (stored : before.Storable) {left : List TimerRun} {role : String}
    {finished : List String} {warning : Option String}
    {report : Except String String → StoreM AutoTimerOutcome}
    (started : ∀ runId, report (.ok runId) = pure (.started issue statusName role finished runId warning))
    (failed : ∀ error, ∃ reason, report (.error error) = pure (.warning reason))
    (old : ∀ row ∈ left, row ∈ before.runningForIssue issue)
    (clean : (before.runningForIssue issue).length ≤ Ledger.maxAutoRunsPerIssue →
      warning = buildTransitionWarning (statusToAgentRole statusName).2 [] statusName → left = []) :
    Alone outside i (Running issue before.names left)
      (outcome (autoStartRun render issue statusName role 1) >>= report)
      (fun outcome after => ∀ issue' name role finished newRunId warning,
        outcome = .started issue' name role finished newRunId warning →
        Transitioned before after issue statusName newRunId warning) fun _ _ => True := by
  apply alone_bind (alone_outcome (alone_autoStartRun (names_storable stored) statusName role 1))
  intro result
  cases result with
  | error error =>
      obtain ⟨reason, same⟩ := failed error
      rw [same]
      exact alone_pure fun _ _ => by rintro _ _ _ _ _ _ ⟨⟩
  | ok runId =>
      rw [started runId]
      apply alone_pure
      rintro after ⟨opened, -⟩ _ _ _ _ _ _ ⟨⟩
      exact (opened runId rfl).transitioned old clean

theorem alone_autoTransition (stored : before.Storable) :
    Alone outside i (· = before) (autoTransitionTimer render issue providerKind statusName)
      (fun outcome after => ∀ issue' name role finished newRunId warning,
        outcome = .started issue' name role finished newRunId warning →
        Transitioned before after issue statusName newRunId warning) fun _ _ => True := by
  unfold autoTransitionTimer
  split
  · exact alone_pure fun _ _ => by rintro _ _ _ _ _ _ ⟨⟩
  · rcases named : statusToAgentRole statusName with ⟨role, fallback⟩
    apply alone_bind (alone_outcome ((alone_closeIssueRuns issue).pre fun _ => running_before))
    intro result
    cases result with
    | ok finished =>
        refine (alone_newSegment stored (fun _ => rfl) (fun _ => ⟨_, rfl⟩) ?_ fun few _ => ?_).pre
          fun _ ended => (ended.1 _ rfl).2
        · exact fun row member => (mem_withoutAll.mp member).1
        · exact withoutAll_eq_nil fun row member => (mem_due few).mpr member
    | error failure =>
        refine (alone_among fun left fewer => ?_).pre fun _ ended => ended.2 _ rfl
        refine alone_newSegment stored (fun _ => rfl) (fun _ => ⟨_, rfl⟩) ?_ fun _ quiet => ?_
        · exact fun row member => fewer.subset member
        · rw [named] at quiet
          exact absurd quiet (warning_of_failed_sweep fallback _ statusName)

def Skipped (render : PhasegentError → String) (before after : Ledger) (issue : Nat)
    (providerKind : ProviderKind) (reason : String) : Prop :=
  after.runningForIssue issue = [] ∨ after = before ∧
    (providerKind = .forgejo ∧ reason = "Forgejo time tracking is unsupported" ∨
      ∃ error : PhasegentError, error.isNotSupported ∧ reason = bounded (render error))

structure ClosedOut (render : PhasegentError → String) (before after : Ledger) (issue : Nat)
    (providerKind : ProviderKind) (outcome : AutoCloseOutcome) : Prop where
  closed : ∀ issue' finished, outcome = .closed issue' finished →
    (before.runningForIssue issue).length ≤ Ledger.maxAutoRunsPerIssue →
    after.runningForIssue issue = []
  noop : ∀ reason, outcome = .noop reason → Skipped render before after issue providerKind reason

theorem alone_autoClose :
    Alone outside i (· = before) (autoCloseIssueTimer render issue providerKind)
      (fun outcome after => ClosedOut render before after issue providerKind outcome)
      fun _ _ => True := by
  unfold autoCloseIssueTimer
  split
  · next forgejo =>
      apply alone_pure
      rintro after rfl
      refine ⟨by rintro _ _ ⟨⟩, ?_⟩
      rintro reason ⟨⟩
      exact Or.inr ⟨rfl, Or.inl ⟨forgejo, rfl⟩⟩
  · apply alone_bind
    · exact (alone_outcome (alone_reads (reads_resolveTimerRoute issue))).weaken
        (fun result ledger holds => show ledger = before by
          cases result with
          | ok route => exact holds.1 route rfl
          | error error => exact holds.2 error rfl) fun _ _ holds => holds
    intro route
    cases route with
    | error error =>
        dsimp only
        split
        · next unsupported =>
            apply alone_pure
            rintro after rfl
            refine ⟨by rintro _ _ ⟨⟩, ?_⟩
            rintro reason ⟨⟩
            exact Or.inr ⟨rfl, Or.inr ⟨error, unsupported, rfl⟩⟩
        · exact alone_pure fun _ _ => ⟨by rintro _ _ ⟨⟩, by rintro _ ⟨⟩⟩
    | ok route =>
        apply alone_bind (alone_outcome ((alone_closeIssueRuns issue).pre fun _ => running_before))
        intro result
        apply alone_pure
        rintro after ⟨swept, -⟩
        cases result with
        | error failure => exact ⟨by rintro _ _ ⟨⟩, by rintro _ ⟨⟩⟩
        | ok finished =>
            obtain ⟨named, running⟩ := swept finished rfl
            cases finished with
            | nil =>
                refine ⟨by rintro _ _ ⟨⟩, fun reason _ => Or.inl ?_⟩
                have none := eq_nil_of_due (List.map_eq_nil_iff.mp named.symm)
                rw [running.2, none, withoutAll_eq_nil]
                rintro row ⟨⟩
            | cons runId rest =>
                exact ⟨fun _ _ _ few => (running.swept few).2, by rintro _ ⟨⟩⟩

theorem alone_closeStorage : Alone outside i P (closeStorage : TimerM ε Unit) (fun _ => P) E := by
  apply alone_request (by rintro ⟨⟩)
  intro s answer s' holds free step
  obtain ⟨-, same | ⟨statement, n, other, -⟩⟩ := solitary_step step (by rintro ⟨⟩) free
  · rwa [same]
  · cases other

theorem alone_stored {shape : α → TimerReply} {p : StoreM α} (first : Alone outside i P p Q fun _ _ => True) :
    Alone outside i P (stored shape p) (fun reply ledger => ∃ a, reply = shape a ∧ Q a ledger)
      fun _ _ => True := by
  apply alone_bind
  · apply alone_outcome
    apply alone_bind (E := fun _ _ => True) (alone_renameFailure (fun _ _ _ => trivial) first)
    intro a
    exact alone_pure (Q := fun reply ledger => ∃ a, reply = shape a ∧ Q a ledger) fun _ holds => ⟨a, rfl, holds⟩
  intro result
  apply alone_bind alone_closeStorage
  intro _
  refine (alone_fromExcept fun _ _ _ _ => trivial).weaken ?_ fun _ _ _ => trivial
  rintro reply ledger ⟨rfl, ended, -⟩
  exact ended reply rfl

end Sweep

end Alone

section Runs
variable {F : Type} {outside : F → (op : TimerOp) → op.Ret → F → Prop} {i : Pid}
  {render : PhasegentError → String} {commands : Pid → Option Command} {start : TimerState F}
  {c : Config (TimerState F) TimerOp TimerOp.Ret (Except PhasegentError TimerReply)}

theorem crash_solitary (j : Pid) (s s' : TimerState F) (free : (solitary i).Inv s)
    (crashed : (timerWorld outside).crash j s s') :
    (solitary i).Inv s' ∧ (solitary i).guarantee j s s' := by
  have nobody : s.db.Free j := by
    intro work held
    rw [show s.db.held = none from free] at held
    cases held
  obtain rfl : s' = { s with db := s.db.release j } := crashed
  rw [nobody.release]
  exact ⟨free, Or.inr rfl⟩

theorem alone_run {command : Command} {Q : TimerReply → Ledger → Prop} (idle : start.db.held = none)
    (given : commands i = some command) (only : ∀ j, j ≠ i → commands j = none)
    (alone : Alone outside i (· = start.db.committed) (command.run render) Q fun _ _ => True)
    (run : Run (timerWorld outside) (timerFleet render commands start) c) {reply : TimerReply}
    (finished : c.result i = some (.ok reply)) : Q reply c.shared.db.committed := by
  have safe : (timerFleet render commands start).Safe (timerWorld outside) (solitary i)
      fun j result s => j = i → Ends (fun reply s => Q reply s.db.committed) (fun _ _ => True) result s := by
    refine ⟨idle, fun j p running => ?_⟩
    obtain ⟨command', given', rfl⟩ := Option.map_eq_some_iff.mp running
    by_cases same : j = i
    · subst same
      obtain rfl := Option.some.inj (given'.symm.trans given)
      exact (HoareElse.triple alone).weaken (fun _ _ ended _ => ended) start idle rfl
    · rw [only j same] at given'
      cases given'
  exact (Run.safe crash_solitary safe run).result finished rfl

/-- A transition that starts a run leaves it as the only running one of its issue, unless it reports
that the sweep failed; a close leaves none running, unless the issue has no time tracking and the
close leaves everything as it is. Both take on as many rows as one sweep lists. -/
theorem automatic_accounting (idle : start.db.held = none) (stored : start.db.committed.Storable)
    (only : ∀ j, j ≠ i → commands j = none)
    (run : Run (timerWorld outside) (timerFleet render commands start) c) :
    (∀ issue kind statusName issue' name role finished newRunId warning,
      commands i = some (.autoTransition issue kind statusName) →
      c.result i = some (.ok (.transition (.started issue' name role finished newRunId warning))) →
      Transitioned start.db.committed c.shared.db.committed issue statusName newRunId warning) ∧
    ∀ issue kind outcome, commands i = some (.autoClose issue kind) →
      c.result i = some (.ok (.close outcome)) →
      ClosedOut render start.db.committed c.shared.db.committed issue kind outcome := by
  constructor
  · intro issue kind statusName issue' name role finished newRunId warning given done
    obtain ⟨_, same, transitioned⟩ :=
      alone_run idle given only (alone_stored (alone_autoTransition stored)) run done
    cases same
    exact transitioned _ _ _ _ _ _ rfl
  · intro issue kind outcome given done
    obtain ⟨_, same, closed⟩ := alone_run idle given only (alone_stored alone_autoClose) run done
    cases same
    exact closed

end Runs

section Desk

def openRun (runId : String) (startedAt : Int) : TimerRun :=
  startedRun runId 7 "In Progress" "executor" 1 startedAt ⟨none, none⟩

def openDesk (startedAt : Int) : TimerState Nat :=
  { emptyDesk with db := ⟨⟨[openRun "old" startedAt], List.nodup_singleton _⟩, none⟩ }

def single (command : Command) : Pid → Option Command
  | 0 => some command
  | _ => none

def workedDesk (command : Command) (startedAt : Int) :
    Config (TimerState Nat) TimerOp TimerOp.Ret (Except PhasegentError TimerReply) :=
  (timerFleet PhasegentError.message (single command) (openDesk startedAt)).replay
    (perform desk fun _ => false) (List.replicate 30 0)

theorem worked_run (command : Command) (startedAt : Int) :
    Run (timerWorld (answered desk))
      (timerFleet PhasegentError.message (single command) (openDesk startedAt))
      (workedDesk command startedAt) :=
  .replay (perform_sound desk fun _ => false) _ _

def transitionOf : Option (Except PhasegentError TimerReply) → Option AutoTimerOutcome
  | some (.ok (.transition outcome)) => some outcome
  | _ => none

def closeOf : Option (Except PhasegentError TimerReply) → Option AutoCloseOutcome
  | some (.ok (.close outcome)) => some outcome
  | _ => none

theorem result_of_transitionOf {result : Option (Except PhasegentError TimerReply)}
    (outcome : AutoTimerOutcome) (read : transitionOf result = some outcome) :
    result = some (.ok (.transition outcome)) := by
  unfold transitionOf at read
  split at read
  · cases read
    rfl
  · cases read

theorem transition_leaves_one_running :
    Transitioned (openDesk 10).db.committed
      (workedDesk (.autoTransition 7 .redmine "In Review") 10).shared.db.committed 7 "In Review"
      "auto-65" none := by
  have only : ∀ j, j ≠ 0 → single (.autoTransition 7 .redmine "In Review") j = none := by
    intro j other
    unfold single
    split
    · exact absurd rfl other
    · rfl
  have stored : (openDesk 10).db.committed.Storable := by
    intro run member
    rw [List.mem_singleton.mp member]
    decide
  have started : transitionOf ((workedDesk (.autoTransition 7 .redmine "In Review") 10).result 0) =
      some (.started 7 "In Review" "reviewer" ["old"] "auto-65" none) := by decide +kernel
  have idle : (openDesk 10).db.held = none := rfl
  have accounting := automatic_accounting idle stored only (worked_run (.autoTransition 7 .redmine "In Review") 10)
  exact accounting.1 7 .redmine "In Review" 7 "In Review" "reviewer" ["old"] "auto-65" none rfl
    (result_of_transitionOf _ started)

def staleWarning : String :=
  "close previous auto-run failed: could not finish running auto-run 'old': auto finish: " ++
    "timer finish time must not precede its start time"

/-- A row that starts in the future stops the sweep and not the start, and a close for a provider
without time tracking has nothing to do whatever is running. -/
theorem sweep_leaves_rows_running :
    (Run (timerWorld (answered desk))
        (timerFleet PhasegentError.message (single (.autoTransition 7 .redmine "In Review"))
          (openDesk 1000)) (workedDesk (.autoTransition 7 .redmine "In Review") 1000) ∧
      transitionOf ((workedDesk (.autoTransition 7 .redmine "In Review") 1000).result 0) =
        some (.started 7 "In Review" "reviewer" [] "auto-65" (some staleWarning)) ∧
      ((workedDesk (.autoTransition 7 .redmine "In Review")
        1000).shared.db.committed.runningForIssue 7).map (·.runId) = ["old", "auto-65"]) ∧
    Run (timerWorld (answered desk))
        (timerFleet PhasegentError.message (single (.autoClose 7 .forgejo)) (openDesk 10))
        (workedDesk (.autoClose 7 .forgejo) 10) ∧
      closeOf ((workedDesk (.autoClose 7 .forgejo) 10).result 0) =
        some (.noop "Forgejo time tracking is unsupported") ∧
      ((workedDesk (.autoClose 7 .forgejo) 10).shared.db.committed.runningForIssue 7).map (·.runId) =
        ["old"] := by
  refine ⟨⟨worked_run _ 1000, ?_, ?_⟩, worked_run _ 10, ?_, ?_⟩ <;> decide +kernel

end Desk

end Phasegent.Timer
