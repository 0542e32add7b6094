import Phasegent.Switch.Safety
import Phasegent.Task.Runs

namespace Phasegent.Switch
open Fallible Interleaving
open Restore (BaselineRecord NewBaseline BaselineOp BaselineTable checkoutStep)
open Phasegent.Task (Slot TaskTables TaskStep Statement LinkRow)

abbrev SwitchEvent := Event SwitchTables SwitchOp SwitchOp.Ret

section Law
variable (env : Host) (params : IssueSwitchParams)

def Restorable (current target : String) (found : Option BaselineRecord) : Prop :=
  ∃ row, found = some row ∧ row.state = .pending ∧ row.baselineBranch = current ∧
    row.issueBranch = target

/-- A checkout of call `i` that came after `earlier`: the issue branch, after every gate, the link in
the table, and for the primary checkout a row that a close can restore. -/
structure SafeCheckout (i : Pid) (earlier : List SwitchEvent) (op : SwitchOp) : Prop where
  target : op = .here ["checkout", params.target]
  gated : ∃ current slot, Gates env params current slot (historyOf i earlier) ∧
    (∀ event ∈ earlier, event.pid = i → ∀ slot, event.effect.recorded event.answer = some slot →
      Task.Linked event.after.links slot) ∧
    (Primary env (historyOf i earlier) → ∃ event ∈ earlier, event.pid = i ∧
      (event.effect.captured event.answer).isSome) ∧
    ∀ event ∈ earlier, event.pid = i → ∀ new, event.effect.captured event.answer = some new →
      Evidence env params current slot.repoKey new ∧
        Restorable current params.target (event.after.baselines new.scope)

structure SwitchSafe (i : Pid) (events : List SwitchEvent) : Prop where
  once : ((historyOf i events).filter fun act => act.effect.isCheckout).length ≤ 1
  safe : ∀ later event earlier, events = later ++ event :: earlier → event.pid = i →
    event.effect.isCheckout → SafeCheckout env params i earlier event.effect

/-- Before a checkout of call `i`, the row that its capture found, if any, is pending and names the
same two branches, and the row that it linked again was still there. -/
def Undisturbed (i : Pid) (events : List SwitchEvent) : Prop :=
  ∀ later event earlier, events = later ++ event :: earlier → event.pid = i → event.effect.isCheckout →
    (∀ step ∈ earlier, step.pid = i → ∀ slot, step.effect.relinked step.answer = some slot →
      (step.before.links.row? slot).isSome) ∧
    ∀ step ∈ earlier, step.pid = i → ∀ new, step.effect.captured step.answer = some new →
      ∀ row, step.before.baselines new.scope = some row →
        row.state = .pending ∧ row.baselineBranch = new.baselineBranch ∧ row.issueBranch = new.issueBranch

end Law

section Steps
variable {urls : UrlLibrary} {s s' : SwitchTables} {op : SwitchOp} {answer : op.Ret}

theorem captured_stored {new : NewBaseline} (step : switchStep urls s op answer s')
    (captured : op.captured answer = some new) :
    s'.baselines new.scope = some ((s.baselines new.scope).getD new.record) := by
  obtain rfl := captured_insert captured
  obtain ⟨⟨-, wrote⟩ | ⟨⟨error, rfl⟩, -⟩, -⟩ := step
  · rw [wrote]
    cases found : s.baselines new.scope with
    | none => simp [BaselineOp.perform, found, BaselineTable.put, NewBaseline.record]
    | some row => simp [BaselineOp.perform, found]
  · cases captured

theorem captured_restorable {new : NewBaseline} (step : switchStep urls s op answer s')
    (captured : op.captured answer = some new) :
    Restorable new.baselineBranch new.issueBranch (s'.baselines new.scope) ↔
      ∀ row, s.baselines new.scope = some row → row.state = .pending ∧
        row.baselineBranch = new.baselineBranch ∧ row.issueBranch = new.issueBranch := by
  rw [Restorable, captured_stored step captured]
  cases found : s.baselines new.scope with
  | none => simp [NewBaseline.record]
  | some row => simp

theorem insertLink_linked {tables tables' : TaskTables} {slot : Slot} {number : Nat} {source : String}
    {now : Int} (inserted : tables.insertLink slot number source now = .ok tables') :
    Task.Linked tables' slot := by
  simp only [TaskTables.insertLink, bind_eq_ok, refuse_eq_ok, pure_eq, Except.ok.injEq] at inserted
  obtain ⟨_, _, _, _, rfl⟩ := inserted
  exact ⟨TaskTables.newLink slot number source now, by simp, rfl, rfl⟩

theorem relink_linked {tables tables' : TaskTables} {slot : Slot} {number : Nat} {source : String}
    {now : Int} (relinked : tables.relink slot number source now = .ok tables') :
    Task.Linked tables' slot ↔ (tables.row? slot).isSome := by
  simp only [TaskTables.relink, bind_eq_ok, refuse_eq_ok, pure_eq, Except.ok.injEq] at relinked
  obtain ⟨_, _, rfl⟩ := relinked
  constructor
  · rintro ⟨row, among, named, -⟩
    obtain ⟨old, there, rfl⟩ := Sql.mem_update.mp among
    have same : old.slot = slot := by
      by_cases chosen : old.slot = slot
      · exact chosen
      · simp [chosen] at named
    rw [TaskTables.row?, List.find?_isSome]
    exact ⟨old, there, by simpa using same⟩
  · intro present
    obtain ⟨row, found⟩ := Option.isSome_iff_exists.mp present
    obtain ⟨there, same⟩ := Task.row?_some found
    refine ⟨row.relinked number source now, Sql.mem_update.mpr ⟨row, there, ?_⟩, same, rfl⟩
    simp [same]

theorem recorded_of_relinked {slot : Slot} (relinked : op.relinked answer = some slot) :
    op.recorded answer = some slot := by
  unfold SwitchOp.relinked at relinked
  split at relinked
  · exact relinked
  · cases relinked

theorem recorded_linked {slot : Slot} (step : switchStep urls s op answer s')
    (recorded : op.recorded answer = some slot) :
    Task.Linked s'.links slot ↔ (op.relinked answer = some slot → (s.links.row? slot).isSome) := by
  unfold SwitchOp.recorded at recorded
  split at recorded
  · rename_i read
    cases recorded
    obtain ⟨failed, -⟩ | ⟨answered, same⟩ := step.1.outcome
    · cases failed
    · have status : (s.links.row? slot).map (·.status) = some .linked := (Except.ok.inj answered).symm
      obtain ⟨row, found, linked⟩ := Option.map_eq_some_iff.mp status
      obtain ⟨there, named⟩ := Task.row?_some found
      have kept : s'.links = s.links := same
      rw [kept]
      exact iff_of_true ⟨row, there, named, linked⟩ nofun
  · cases recorded
    obtain ⟨failed, -⟩ | ⟨answered, same⟩ := step.1.outcome
    · cases failed
    · have inserted := insertLink_linked (TaskTables.written_ok answered.symm)
      rw [same]
      exact iff_of_true inserted nofun
  · cases recorded
    obtain ⟨failed, -⟩ | ⟨answered, same⟩ := step.1.outcome
    · cases failed
    · rw [same]
      exact (relink_linked (TaskTables.written_ok answered.symm)).trans (by simp [SwitchOp.relinked])
  · cases recorded

end Steps

section Run
variable {urls : UrlLibrary} {env : Host} {params : IssueSwitchParams}
  {c₀ : Config SwitchTables SwitchOp SwitchOp.Ret CreateSwitchOutcome}
  {c : Config (SwitchTables × List SwitchEvent) SwitchOp SwitchOp.Ret CreateSwitchOutcome} {i : Pid}

theorem Run.due (run : Run (switchWorld urls).record c₀.record c)
    (started : c₀.procs i = some (createLinkAndSwitch env params)) :
    Guarded (Due env params) (historyOf i c.shared.2) := by
  obtain ⟨p, reached⟩ := run.reaches started
  have traced : Traced (Due env params) (· = []) (createIn env params) _ _ := traced_createIn
  have along := traced.reaches .start
  exact (Prog.Along.reaches (Prog.Along.map (Q := fun _ _ => True)
    (along.2.weaken fun _ _ _ => trivial)) reached).1

theorem historyOf_split {later earlier : List SwitchEvent} {event : SwitchEvent} :
    historyOf event.pid (later ++ event :: earlier) =
      historyOf event.pid later ++ event.act :: historyOf event.pid earlier := by
  simp [historyOf, List.filter_append]

theorem mem_historyOf {events : List SwitchEvent} {act : Act SwitchOp SwitchOp.Ret} :
    act ∈ historyOf i events ↔ ∃ event ∈ events, event.pid = i ∧ event.act = act := by
  simp [historyOf, and_assoc]

theorem safe_undisturbed (run : Run (switchWorld urls).record c₀.record c)
    (safe : SwitchSafe env params i c.shared.2) : Undisturbed i c.shared.2 := by
  intro later event earlier split mine checkout
  obtain ⟨current, slot, gates, linked, -, captured⟩ := (safe.safe later event earlier split mine checkout).gated
  have old : ∀ step ∈ earlier, switchStep urls step.before step.effect step.answer step.after :=
    fun step among => run.genuine step (by simp [split, among])
  constructor
  · intro step among own slot' relinked
    have recorded := recorded_of_relinked relinked
    exact (recorded_linked (old step among) recorded).mp (linked step among own slot' recorded) relinked
  · intro step among own new inserted row found
    obtain ⟨evidence, restorable⟩ := captured step among own new inserted
    rw [← evidence.baselineBranch, ← evidence.issueBranch] at restorable
    exact (captured_restorable (old step among) inserted).mp restorable row found

theorem undisturbed_safe (run : Run (switchWorld urls).record c₀.record c)
    (started : c₀.procs i = some (createLinkAndSwitch env params))
    (undisturbed : Undisturbed i c.shared.2) : SwitchSafe env params i c.shared.2 := by
  have guarded := Run.due run started
  refine ⟨guarded.once fun h op due checkout => (due checkout).2.1, ?_⟩
  rintro later event earlier split rfl checkout
  have old : ∀ step ∈ earlier, switchStep urls step.before step.effect step.answer step.after :=
    fun step among => run.genuine step (by simp [split, among])
  have due : Due env params (historyOf event.pid earlier) event.effect := by
    rw [split, historyOf_split] at guarded
    exact guarded.needs
  obtain ⟨target, -, current, slot, gates, primary, evidence⟩ := due checkout
  obtain ⟨relinked, found⟩ := undisturbed later event earlier split rfl checkout
  refine ⟨target, current, slot, gates, ?_, ?_, ?_⟩
  · intro step among own slot' recorded
    exact (recorded_linked (old step among) recorded).mpr (relinked step among own slot')
  · intro isPrimary
    obtain ⟨act, among, inserted⟩ := primary isPrimary
    obtain ⟨step, there, own, rfl⟩ := mem_historyOf.mp among
    exact ⟨step, there, own, inserted⟩
  · intro step among own new inserted
    have given := evidence step.act (mem_historyOf.mpr ⟨step, among, own, rfl⟩) new inserted
    refine ⟨given, ?_⟩
    rw [← given.baselineBranch, ← given.issueBranch]
    exact (captured_restorable (old step among) inserted).mpr (found step among own new inserted)

/-- A call is safe in a run exactly where nothing else had taken the scope of its baseline, or the
link that it found, away from it. -/
theorem switchSafe_iff (run : Run (switchWorld urls).record c₀.record c)
    (started : c₀.procs i = some (createLinkAndSwitch env params)) :
    SwitchSafe env params i c.shared.2 ↔ Undisturbed i c.shared.2 :=
  ⟨safe_undisturbed run, undisturbed_safe run started⟩

end Run

section Example

def home : Host where
  canonical := id
  absoluteGitDir := id
  canonicalGitUrl := .ok
  parseRemote := some
  workingDir := .ok "/repo"
  canonicalize := some

def seven : IssueSwitchParams :=
  ⟨"/repo", 7, "issue/7", none, "redmine", some "web", none, none⟩

def gitOutput (arguments : List String) : Lease.GitOutput :=
  if arguments = ["remote", "get-url", "origin"] then ⟨0, "forge:web"⟩
  else if arguments = Restore.symbolicRef then ⟨0, "main"⟩
  else if arguments = ["symbolic-ref", "refs/remotes/origin/HEAD"] then ⟨0, "refs/remotes/origin/main"⟩
  else if arguments = Restore.verifyHead then ⟨0, "c0"⟩
  else if arguments.head? = some "rev-parse" then ⟨0, "/repo/.git"⟩
  else ⟨0, ""⟩

def onBaselines (s : SwitchTables) : (op : Restore.CheckoutOp) → op.Ret × SwitchTables
  | .ensureLeaseSchema => (.ok (), s)
  | .ensureBaselineSchema => (.ok (), s)
  | .baseline op => (.ok (op.perform s.baselines).1, { s with baselines := (op.perform s.baselines).2 })
  | .git arguments => (.ok (gitOutput arguments), s)
  | .leases _ => (.ok [], s)
  | .host (.list ..) => (.ok ⟨[], none⟩, s)
  | .host (.session id) => (.ok ⟨id, "/repo", none⟩, s)
  | .host (.moveSession ..) => (.ok (), s)
  | .host .activeSessions => (.ok [], s)
  | .host .resolveMainCheckout => (.ok "/repo", s)
  | .host .budgetExpired => (false, s)
  | .host .budgetRemaining => (0, s)
  | .host (.poll _) => ((), s)
  | .now => (5, s)

def act (_ : Pid) (s : SwitchTables) : (op : SwitchOp) → op.Ret × SwitchTables
  | .here arguments => (.ok (gitOutput arguments), s)
  | .openStorage => (.ok (), s)
  | .ensureLinkSchema => (.ok (), s)
  | .link statement => ((statement.perform Task.twoForges s.links).1,
      { s with links := (statement.perform Task.twoForges s.links).2 })
  | .checkout op => onBaselines s op
  | .elsewhere => ((), s)

theorem act_sound (i : Pid) (s : SwitchTables) (op : SwitchOp) :
    (switchWorld Task.twoForges).step i s op (act i s op).1 (act i s op).2 := by
  cases op with
  | link statement => exact ⟨.perform, rfl⟩
  | checkout op =>
      cases op with
      | baseline op => exact ⟨.inl ⟨rfl, rfl⟩, rfl⟩
      | host op => cases op <;> exact ⟨rfl, rfl⟩
      | _ => exact ⟨rfl, rfl⟩
  | elsewhere => trivial
  | _ => rfl

def createSeven (baselines : BaselineTable) :
    Config SwitchTables SwitchOp SwitchOp.Ret CreateSwitchOutcome :=
  ⟨⟨.empty, baselines⟩, fun i => if i = 0 then some (createLinkAndSwitch home seven) else none⟩

def checkedOutSeven (baselines : BaselineTable) :
    Config (SwitchTables × List SwitchEvent) SwitchOp SwitchOp.Ret CreateSwitchOutcome :=
  (createSeven baselines).record.replay (recording act) (List.replicate 24 0)

theorem checkedOutSeven_run (baselines : BaselineTable) :
    Run (switchWorld Task.twoForges).record (createSeven baselines).record (checkedOutSeven baselines) :=
  .replay (recording_sound act_sound) _ _

def untouched (step : SwitchEvent) : Bool :=
  (step.effect.relinked step.answer).isNone &&
    (step.effect.captured step.answer).all fun new => (step.before.baselines new.scope).isNone

theorem undisturbed_of_untouched {i : Pid} {events : List SwitchEvent}
    (all : events.all untouched = true) : Undisturbed i events := by
  rintro later event earlier rfl - -
  rw [List.all_eq_true] at all
  have clear : ∀ step ∈ earlier, untouched step = true := fun step among => all step (by simp [among])
  constructor
  · intro step among _ slot relinked
    simpa [untouched, relinked] using clear step among
  · intro step among _ new captured row found
    simpa [untouched, captured, found] using clear step among

theorem seven_switched : SwitchSafe home seven 0 (checkedOutSeven fun _ => none).shared.2 :=
  (switchSafe_iff (checkedOutSeven_run _) rfl).mpr (undisturbed_of_untouched (by decide))

-- What an earlier create of the same issue left behind when its checkout did not take effect.
def abortedSeven : BaselineTable := fun scope =>
  if scope = ⟨"forge:web", "redmine", "web", 7, "/repo"⟩ then
    some ⟨scope, "issue/7", "main", "c0", Restore.cleanEvidence, some "main", 4, .aborted, .none, none⟩
  else none

def keptOther (step : SwitchEvent) : Bool :=
  step.pid == 0 && (step.effect.captured step.answer).any fun new =>
    (step.before.baselines new.scope).any fun row => row.state != .pending

theorem aborted_not_switched :
    ¬∀ (c : Config (SwitchTables × List SwitchEvent) SwitchOp SwitchOp.Ret CreateSwitchOutcome),
      Run (switchWorld Task.twoForges).record (createSeven abortedSeven).record c →
        SwitchSafe home seven 0 c.shared.2 := by
  intro always
  have undisturbed := safe_undisturbed (checkedOutSeven_run abortedSeven)
    (always _ (checkedOutSeven_run abortedSeven))
  have newest : ((checkedOutSeven abortedSeven).shared.2.head?.any fun event =>
      event.pid == 0 && event.effect.isCheckout) = true := by decide
  have kept : (checkedOutSeven abortedSeven).shared.2.tail.any keptOther = true := by decide
  cases events : (checkedOutSeven abortedSeven).shared.2 with
  | nil =>
      rw [events] at newest
      cases newest
  | cons event earlier =>
      rw [events] at newest kept undisturbed
      simp only [List.head?_cons, Option.any_some, Bool.and_eq_true, beq_iff_eq] at newest
      obtain ⟨step, among, other⟩ := List.any_eq_true.mp kept
      simp only [keptOther, Bool.and_eq_true, beq_iff_eq, Option.any_eq_true, bne_iff_ne] at other
      obtain ⟨own, new, captured, row, found, settled⟩ := other
      exact settled ((undisturbed [] event earlier rfl newest.1 newest.2).2 step among own new captured
        row found).1

end Example

end Phasegent.Switch
