import Phasegent.Timer.Accounted

namespace Phasegent.Timer
open Fallible Interleaving Sql Relation

section Assertions
variable {F : Type} {i : Pid} {s : TimerState F} {runId : String} {run : TimerRun}

def Closed (runId : String) (s : TimerState F) : Prop :=
  ∃ row ∈ s.db.committed.runs, row.runId = runId ∧ row.status ≠ .running

structure About (runId : String) (run : TimerRun) (s : TimerState F) : Prop where
  named : run.runId = runId
  done : Done run s.db.committed
  backed : run.Backed s.remote

def Working (i : Pid) (runId : String) (run : TimerRun) (s : TimerState F) : Prop :=
  Holding i s ∧ About runId run s

theorem About.closed (about : About runId run s) : Closed runId s := by
  obtain ⟨row, member, named, ended, -⟩ := about.done
  exact ⟨row, member, named.trans about.named, ended⟩

theorem Accounted.read (inv : Accounted s) (closed : Closed runId s)
    (member : run ∈ (s.db.sees i).runs) (named : run.runId = runId) : About runId run s := by
  obtain ⟨row, old, same, ended⟩ := closed
  have later : s.db.committed.Later (s.db.sees i) := by
    rcases s.db.sees_cases i with committed | held
    · rw [committed]
      exact .refl _
    · exact inv.ahead i _ held
  obtain ⟨row', member', moved⟩ := later row old
  obtain rfl : row' = run :=
    Ledger.eq_of_runId member' member (moved.runId.trans (same.trans named.symm))
  obtain ⟨-, finishedAt, -⟩ := moved.finished ended
  exact ⟨named, ⟨row, old, same.trans named.symm, ended, moved.issue.symm, finishedAt.symm⟩,
    inv.backed.sees i _ member⟩

def Lasting (P : TimerState F → Prop) : Prop := ∀ j s s', Advances j s s' → P s → P s'

theorem lasting_const (p : Prop) : Lasting fun _ : TimerState F => p := fun _ _ _ _ holds => holds

theorem lasting_imp {p : Prop} {P : TimerState F → Prop} (last : p → Lasting P) :
    Lasting fun s => p → P s :=
  fun j s s' advances holds given => last given j s s' advances (holds given)

theorem lasting_found {R : TimerRun → TimerState F → Prop} (last : ∀ run, Lasting (R run))
    (found : Option TimerRun) : Lasting fun s => ∀ run, found = some run → R run s :=
  fun j s s' advances holds run same => last run j s s' advances (holds run same)

theorem lasting_closed (runId : String) : Lasting (Closed (F := F) runId) := by
  rintro j s s' advances ⟨row, member, named, ended⟩
  obtain ⟨row', member', moved⟩ := advances.later row member
  exact ⟨row', member', moved.runId.trans named, (moved.finished ended).1 ▸ ended⟩

theorem lasting_about (runId : String) (run : TimerRun) : Lasting (About (F := F) runId run) :=
  fun _ _ _ advances about =>
    ⟨about.named, advances.later.done about.done, about.backed.mono advances.grown⟩

theorem lasting_entered (runId : String) (timeEntryId : Option Nat) :
    Lasting fun s : TimerState F => ∀ id, timeEntryId = some id → Entered s.remote runId id :=
  fun _ _ _ advances entered id same => (entered id same).mono advances.grown

theorem Lasting.stable {P : TimerState F → Prop} (last : Lasting P) : accounting.Stable i P :=
  fun s s' _ _ ⟨j, _, advances⟩ holds => last j s s' advances holds

theorem Lasting.and {P Q : TimerState F → Prop} (first : Lasting P) (second : Lasting Q) :
    Lasting fun s => P s ∧ Q s :=
  fun j s s' advances holds => ⟨first j s s' advances holds.1, second j s s' advances holds.2⟩

variable {outside : F → (op : TimerOp) → op.Ret → F → Prop} {ok : TimerOp → Prop}
  {P Q : TimerState F → Prop}

/-- An assertion that the others keep, and that the effects in `ok` of the process itself keep. -/
structure Kept (outside : F → (op : TimerOp) → op.Ret → F → Prop) (i : Pid) (ok : TimerOp → Prop)
    (P : TimerState F → Prop) : Prop where
  stable : accounting.Stable i P
  own : ∀ {s op answer s'}, TimerStep outside i s op answer s' → Advances i s s' → ok op → P s → P s'

theorem Lasting.kept (last : Lasting P) : Kept outside i ok P :=
  ⟨last.stable, fun {s _ _ s'} _ advances _ holds => last i s s' advances holds⟩

theorem Kept.and (first : Kept outside i ok P) (second : Kept outside i ok Q) :
    Kept outside i ok fun s => P s ∧ Q s :=
  ⟨first.stable.and second.stable, fun step advances allowed holds =>
    ⟨first.own step advances allowed holds.1, second.own step advances allowed holds.2⟩⟩

theorem kept_free : Kept outside i (· ≠ .beginImmediate) fun s => s.db.Free i where
  stable := fun _ _ _ _ ⟨_, other, advances⟩ free => advances.free i (Ne.symm other) free
  own := by
    intro s op answer s' step advances allowed free
    cases step with
    | begin => exact absurd rfl allowed
    | commit committed =>
        obtain ⟨work, held, -⟩ := Locked.commit_some committed
        exact absurd held (free work)
    | rollback | close =>
        rw [free.release]
        exact free
    | write unblocked => exact free.put unblocked
    | load | listRunning | listed | posted | fault | outside => exact free

def Within : TimerOp → Prop
  | .beginImmediate | .commit | .rollback | .closeStorage => False
  | _ => True

theorem kept_holding : Kept outside i Within (Holding i) where
  stable := by
    rintro s s' - - ⟨j, other, advances⟩ holding
    rw [Holding, (advances.excluded i (Ne.symm other) holding).1]
    exact holding
  own := by
    rintro s op answer s' step advances within ⟨work, held⟩
    cases step with
    | begin | commit | rollback | close => cases within
    | write =>
        rw [Holding, Locked.put, held]
        exact ⟨_, rfl⟩
    | load | listRunning | listed | posted | fault | outside => exact ⟨work, held⟩

theorem kept_mono {ok' : TimerOp → Prop} (kept : Kept outside i ok P) (implies : ∀ op, ok' op → ok op) :
    Kept outside i ok' P :=
  ⟨kept.stable, fun {_ op _ _} step advances allowed => kept.own step advances (implies op allowed)⟩

theorem kept_free_plain : Kept outside i Plain fun s => s.db.Free i :=
  kept_mono kept_free fun op plain same => by
    subst same
    cases plain

theorem kept_working (runId : String) (run : TimerRun) :
    Kept outside i Inside (Working i runId run) := by
  refine Kept.and (kept_mono kept_holding fun op inside => ?_) (lasting_about runId run).kept
  cases op with
  | beginImmediate | commit | rollback | closeStorage => cases inside
  | _ => trivial

end Assertions

section Rules
variable {F : Type} {outside : F → (op : TimerOp) → op.Ret → F → Prop} {i : Pid} {ε α : Type}
  {P : TimerState F → Prop} {ok : TimerOp → Prop} {runId : String} {run : TimerRun}

theorem kept_performs {p : TimerM ε α} (kept : Kept outside i ok P)
    (unposted : ∀ op, ok op → Unposted op) (performs : Performs ok p) :
    HoareElse (timerWorld outside) accounting i P p (fun _ => P) fun _ => P := by
  refine else_performs kept.stable ?_ performs
  intro s op answer s' inv holds allowed step
  obtain ⟨inv', advances⟩ := step.accounted inv (unposted op allowed).warranted
  exact ⟨inv', advances, kept.own step advances allowed holds⟩

def Accountable (outside : F → (op : TimerOp) → op.Ret → F → Prop) (i : Pid)
    (P : TimerState F → Prop) (p : TimerM ε α) : Prop :=
  Hoare (timerWorld outside) accounting i P p fun _ _ => True

theorem accountable_of_unposted {p : TimerM ε α} (performs : Performs Unposted p) :
    Accountable outside i P p :=
  (kept_performs (lasting_const True).kept (fun _ allowed => allowed) performs).hoare.pre
    fun _ _ _ => trivial

theorem accountable_of_plain {p : TimerM ε α} (performs : Performs Plain p) :
    Accountable outside i P p :=
  accountable_of_unposted (performs.mono Plain.unposted)

section Load
variable {R : TimerRun → TimerState F → Prop} (kept : Kept outside i ok P)
  (loads : ok (.load runId)) (last : ∀ run, Lasting (R run))
  (read : ∀ s run, Accounted s → P s → run ∈ (s.db.sees i).runs → run.runId = runId → R run s)
include kept loads last read

theorem else_load : HoareElse (timerWorld outside) accounting i P (loadTimerRun runId)
    (fun found s => P s ∧ ∀ run, found = some run → R run s) fun _ => P := by
  apply else_request kept.stable
  · exact fun found => kept.stable.and (lasting_found last found).stable
  · exact fun _ => kept.stable
  intro s answer s' inv holds step
  obtain ⟨inv', advances⟩ := TimerStep.accounted inv step trivial
  refine ⟨inv', advances, ?_⟩
  cases answer with
  | error e => exact kept.own step advances loads holds
  | ok found =>
      obtain ⟨rfl, rfl⟩ := TimerStep.load_ok step
      refine ⟨holds, fun run same => ?_⟩
      obtain ⟨member, named⟩ := Ledger.loadTimerRun_some same
      exact read _ run inv holds member named

theorem else_reload (gone : String) :
    HoareElse (timerWorld outside) accounting i P (reload runId gone)
      (fun run s => P s ∧ R run s) fun _ => P := by
  apply else_bind (fun _ => kept.stable) (else_load kept loads last read)
  intro found
  cases found with
  | none => exact else_throw kept.stable fun _ _ holds => holds.1
  | some run =>
      exact else_pure (kept.stable.and (last run).stable) fun _ _ holds => ⟨holds.1, holds.2 run rfl⟩

theorem else_loadExisting :
    HoareElse (timerWorld outside) accounting i P (loadExisting runId)
      (fun run s => P s ∧ R run s) fun _ => P := by
  apply else_bind (fun _ => kept.stable)
  · exact else_renameFailure (fun found => kept.stable.and (lasting_found last found).stable)
      (fun _ => kept.stable) (fun _ _ holds => holds) (else_load kept loads last read)
  intro found
  cases found with
  | none => exact else_throw kept.stable fun _ _ holds => holds.1
  | some run =>
      exact else_pure (kept.stable.and (last run).stable) fun _ _ holds => ⟨holds.1, holds.2 run rfl⟩

end Load

theorem else_loadClosed : HoareElse (timerWorld outside) accounting i (Closed runId)
    (loadExisting runId) (About runId) fun _ _ => True := by
  have kept : Kept outside i Plain (Closed (F := F) runId) := (lasting_closed runId).kept
  exact (else_loadExisting kept trivial (lasting_about runId) fun _ _ inv closed =>
    inv.read closed).weaken (fun _ _ holds => holds.2) fun _ _ _ => trivial

theorem read_free {s : TimerState F} (inv : Accounted s) (free : s.db.Free i)
    (member : run ∈ (s.db.sees i).runs) (named : run.runId = runId) (ended : run.status ≠ .running) :
    About runId run s :=
  inv.read ⟨run, free.sees ▸ member, named, ended⟩ member named

end Rules

-- The programs that run under the lock.
section Working
variable {F : Type} {outside : F → (op : TimerOp) → op.Ret → F → Prop} {i : Pid} {α : Type}
  {runId api : String} {run : TimerRun}

abbrev Knowing (runId : String) (failure : PhasegentError × TimerRun) : TimerState F → Prop :=
  About runId failure.2

abbrev WorkingOn (i : Pid) (runId : String) (failure : PhasegentError × TimerRun) :
    TimerState F → Prop :=
  Working i runId failure.2

theorem stable_working (runId : String) (run : TimerRun) :
    accounting.Stable i (Working (F := F) i runId run) := by
  have kept : Kept (fun _ _ _ _ => True) i Inside (Working (F := F) i runId run) :=
    kept_working runId run
  exact kept.stable

theorem working_keeping {p : TimerM PhasegentError α} (inside : Performs Inside p) :
    HoareElse (timerWorld outside) accounting i (Working i runId run) (keeping run p)
      (fun _ => Working i runId run) (WorkingOn i runId) :=
  else_renameFailure (fun _ => stable_working _ _) (fun _ => stable_working _ _)
    (fun _ _ holds => holds)
    (kept_performs (kept_working _ _) (fun op inside => Plain.unposted op (Inside.plain op inside)) inside)

theorem working_throw {Q : α → TimerState F → Prop} {error : PhasegentError} :
    HoareElse (timerWorld outside) accounting i (Working i runId run)
      (throw (error, run) : ProjectM α) Q (WorkingOn i runId) :=
  else_throw (stable_working _ _) fun _ _ holds => holds

theorem working_reloadBeside (operation gone : String) :
    HoareElse (timerWorld outside) accounting i (Working i runId run) (reloadFor run operation gone)
      (fun loaded s => Working i runId run s ∧ About runId loaded s) (WorkingOn i runId) := by
  have stable := stable_working (i := i) (F := F) runId run
  have last := lasting_about (F := F) runId
  apply else_renameFailure (fun loaded => stable.and (last loaded).stable)
    (fun _ => stable_working _ _) (fun _ _ holds => holds)
  apply else_bind (fun _ => stable)
  · apply else_renameFailure (fun found => stable.and (lasting_found last found).stable)
      (fun _ => stable) (fun _ _ holds => holds)
    exact else_load (kept_working runId run) trivial last fun _ _ inv working member named =>
      inv.read working.2.closed member (named.trans working.2.named)
  intro found
  cases found with
  | none => exact else_throw stable fun _ _ holds => holds.1
  | some loaded =>
      exact else_pure (stable.and (last loaded).stable) fun _ _ holds => ⟨holds.1, holds.2 loaded rfl⟩

theorem working_reloadFor (operation gone : String) :
    HoareElse (timerWorld outside) accounting i (Working i runId run) (reloadFor run operation gone)
      (Working i runId) (WorkingOn i runId) :=
  (working_reloadBeside operation gone).weaken (fun _ _ holds => ⟨holds.1.1, holds.2⟩)
    fun _ _ holds => holds

theorem working_lostClaim :
    HoareElse (timerWorld outside) accounting i (Working i runId run) (lostClaim run)
      (Working i runId) (WorkingOn i runId) := by
  apply else_bind (fun _ => stable_working _ _) (working_reloadBeside _ _)
  intro current
  split
  · exact else_pure (stable_working _ _) fun _ _ holds => ⟨holds.1.1, holds.2⟩
  · split
    · exact working_throw.pre fun _ _ holds => holds.1
    · exact working_throw.pre fun _ _ holds => holds.1

def ClaimOutcome.row : ClaimOutcome → TimerRun
  | .held run | .settled run => run

theorem working_claimRun (token : String) :
    HoareElse (timerWorld outside) accounting i (Working i runId run) (claimRun run token)
      (fun outcome => Working i runId outcome.row) (WorkingOn i runId) := by
  have returns : ∀ (shape : TimerRun → ClaimOutcome) row, (shape row).row = row →
      HoareElse (timerWorld outside) accounting i (Working i runId row)
        (pure (shape row) : ProjectM ClaimOutcome) (fun outcome => Working i runId outcome.row)
        (WorkingOn i runId) := by
    intro shape row same
    exact else_pure (stable_working _ _) fun _ _ holds => by rwa [same]
  unfold claimRun
  split
  · exact returns .held run rfl
  · apply else_bind (fun _ => stable_working _ _)
    · exact working_keeping (performs_renameFailure (inside_tryClaim run.runId token))
    intro claimed
    cases claimed with
    | true =>
        exact else_bind (fun _ => stable_working _ _) (working_reloadFor _ _) fun row =>
          returns .held row rfl
    | false =>
        exact else_bind (fun _ => stable_working _ _) working_lostClaim fun row =>
          returns .settled row rfl

theorem working_ensureActivity (token : String) :
    HoareElse (timerWorld outside) accounting i (Working i runId run) (ensureActivity api run token)
      (Working i runId) (WorkingOn i runId) := by
  unfold ensureActivity
  split
  · exact else_pure (stable_working _ _) fun _ _ holds => holds
  · apply else_bind (fun _ => stable_working _ _)
    · exact working_keeping (performs_request trivial)
    intro activities
    apply else_bind (fun _ => stable_working _ _)
    · exact working_keeping (performs_fromExcept _)
    intro activity
    apply else_bind (fun _ => stable_working _ _)
    · exact working_keeping (performs_renameFailure (inside_updateActivity _ _ _))
    intro persisted
    cases persisted with
    | true => exact working_reloadFor _ _
    | false => exact working_throw

section Mark
variable {P : TimerState F → Prop} {ok : TimerOp → Prop}

theorem else_markSync (kept : Kept outside i ok P) (writes : ∀ statement, ok (.write statement))
    {token : String} {activityId timeEntryId : Option Nat} {syncStatus : SyncStatus}
    {syncError : Option String} (synced : syncStatus = .synced → timeEntryId.isSome)
    (entered : ∀ s, P s → ∀ id, timeEntryId = some id → Entered s.remote runId id) :
    HoareElse (timerWorld outside) accounting i P
      (markTimerSyncWithToken runId token activityId timeEntryId syncStatus.text syncError)
      (fun _ => P) fun _ => P := by
  have checked : ∀ {β : Type} (x : Except String β), HoareElse (timerWorld outside) accounting i P
      (fromExcept x : StoreM β) (fun b s => x = .ok b ∧ P s) fun _ => P :=
    fun x => else_fromExcept kept.stable (fun _ _ _ _ holds => holds) fun _ => kept.stable
  apply else_bind (fun _ => kept.stable) (checked _)
  intro status
  apply HoareElse.of_pure
  intro parsed
  obtain rfl : syncStatus = status := by
    cases syncStatus <;> exact Except.ok.inj parsed
  apply else_bind (fun _ => kept.stable) (checked _)
  intro _
  apply HoareElse.of_pure
  intro _
  apply else_bind (fun _ => kept.stable) (checked _)
  intro _
  apply HoareElse.of_pure
  intro _
  apply else_bind (M := fun _ => P) (fun _ => kept.stable)
  · apply else_request kept.stable (fun _ => kept.stable) (fun _ => kept.stable)
    intro s answer s' inv holds step
    obtain ⟨inv', advances⟩ := TimerStep.accounted inv step ⟨entered s holds, synced⟩
    have holds' := kept.own step advances (writes _) holds
    refine ⟨inv', advances, ?_⟩
    cases answer <;> exact holds'
  intro changed
  exact else_pure kept.stable fun _ _ holds => holds

end Mark

theorem working_finalize (texts : Finalization) (token : String) (activityId : Nat)
    (timeEntryId : Option Nat) (syncStatus : SyncStatus) (syncError : Option String)
    (synced : syncStatus = .synced → timeEntryId.isSome) :
    HoareElse (timerWorld outside) accounting i
      (fun s => Working i runId run s ∧ ∀ id, timeEntryId = some id → Entered s.remote runId id)
      (finalize texts run token activityId timeEntryId syncStatus syncError) (Working i runId)
      (WorkingOn i runId) := by
  have kept : Kept outside i Within fun s : TimerState F =>
      Working i runId run s ∧ ∀ id, timeEntryId = some id → Entered s.remote runId id :=
    (kept_holding.and (lasting_about runId run).kept).and (lasting_entered runId timeEntryId).kept
  apply else_bind (fun _ => stable_working _ _)
  · apply else_renameFailure (fun _ => kept.stable) (fun _ => stable_working _ _)
      (fun _ _ holds => holds)
    apply else_renameFailure (fun _ => kept.stable) (fun _ => stable_working _ _)
      (fun _ _ (holds : Working i runId run _ ∧ _) => holds.1)
    exact else_markSync kept (fun _ => trivial) synced fun s holds id same =>
      holds.1.2.named.symm ▸ holds.2 id same
  intro marked
  cases marked with
  | true => exact (working_reloadFor _ _).pre fun _ _ holds => holds.1
  | false => exact working_throw.pre fun _ _ holds => holds.1

section Remote
variable {remote : List RemoteEntry} {issue : Nat} {spentOn comments : String}
  {listing : List RedmineTimeEntry}

theorem exists_of_forall₂ {α β : Type} {r : α → β → Prop} {xs : List α} {ys : List β}
    (related : List.Forall₂ r xs ys) {x : α} (member : x ∈ xs) : ∃ y ∈ ys, r x y := by
  induction related with
  | nil => cases member
  | @cons a b as bs first _ ih =>
      rcases List.mem_cons.mp member with rfl | later
      · exact ⟨b, List.mem_cons_self, first⟩
      · obtain ⟨y, inside, same⟩ := ih later
        exact ⟨y, List.mem_cons_of_mem _ inside, same⟩

theorem Lists.found (lists : Lists api issue spentOn remote listing) {shown : RedmineTimeEntry}
    (member : shown ∈ listing) (marked : shown.marks issue spentOn comments) :
    ∃ entry ∈ remote, entry.id = shown.id ∧ entry.fields.comments = comments := by
  obtain ⟨all, shows, perm⟩ := lists
  obtain ⟨entry, matching, same⟩ := exists_of_forall₂ shows.flip (perm.mem_iff.mpr member)
  refine ⟨entry, (List.mem_filter.mp matching).1, same.id.symm, ?_⟩
  simp only [RedmineTimeEntry.marks, same.comments, Bool.and_eq_true, beq_iff_eq] at marked
  exact Option.some.inj marked.1.1

theorem Lists.missing (lists : Lists api issue spentOn remote listing)
    (none : listing.filter (RedmineTimeEntry.marks issue spentOn comments) = [])
    {entry : RemoteEntry} (member : entry ∈ remote) (here : entry.api = api)
    (placed : entry.fields.issueId = issue) (dated : entry.fields.spentOn = spentOn) :
    entry.fields.comments ≠ comments := by
  obtain ⟨all, shows, perm⟩ := lists
  rintro rfl
  have matching : entry ∈ entriesOf api issue spentOn remote := by
    simp [entriesOf, member, here, placed, dated]
  obtain ⟨shown, listed, same⟩ := exists_of_forall₂ shows matching
  have marked : shown.marks issue spentOn entry.fields.comments := by
    rw [RedmineTimeEntry.marks, same.comments, ← placed, ← dated, same.issue, same.spentOn]
    simp
  exact List.filter_eq_nil_iff.mp none shown (perm.mem_iff.mp listed) marked

end Remote

section Held
variable {finishedAt : Int}

-- The lock keeps what a listing did not show from appearing.
def Missing (i : Pid) (api runId : String) (run : TimerRun) (s : TimerState F) : Prop :=
  Working i runId run s ∧ NoEntry api runId s

theorem stable_missing : accounting.Stable i (Missing (F := F) i api runId run) := by
  rintro s s' inv inv' step ⟨working, missing⟩
  refine ⟨stable_working runId run s s' inv inv' step working, ?_⟩
  obtain ⟨j, other, advances⟩ := step
  rw [NoEntry, (advances.excluded i (Ne.symm other) working.1).2]
  exact missing

theorem About.place {s : TimerState F} (about : About runId run s) (inv : Accounted s)
    (finished : run.finishedAt = some finishedAt) {entry : RemoteEntry} (member : entry ∈ s.remote)
    (marks : entry.Marks runId) :
    entry.fields.issueId = run.issue ∧ entry.fields.spentOn = formatUnixDate finishedAt := by
  obtain ⟨row, inside, named, -, issue, ended⟩ := about.done
  obtain ⟨row', inside', named', -, issue', spentOn⟩ := inv.placed entry member runId marks
  obtain rfl : row' = row :=
    Ledger.eq_of_runId inside' inside (named'.trans (named.trans about.named).symm)
  rw [ended, finished] at spentOn
  exact ⟨issue'.symm.trans issue, (Option.some.inj spentOn).symm⟩

theorem About.placed {s : TimerState F} (about : About runId run s)
    (finished : run.finishedAt = some finishedAt) {entry : RemoteEntry} (marks : entry.Marks runId)
    (issue : entry.fields.issueId = run.issue)
    (spentOn : entry.fields.spentOn = formatUnixDate finishedAt) :
    Placed s.db.committed entry := by
  intro runId' marks'
  obtain rfl := marks.unique marks'
  obtain ⟨row, inside, named, ended, same, finishedAt'⟩ := about.done
  refine ⟨row, inside, named.trans about.named, ended, same.trans issue.symm, ?_⟩
  rw [finishedAt', finished, spentOn]
  rfl

def Listed (i : Pid) (api runId : String) (run : TimerRun) (found : List RedmineTimeEntry)
    (s : TimerState F) : Prop :=
  Working i runId run s ∧ (∀ shown ∈ found, Entered s.remote runId shown.id) ∧
    (found = [] → NoEntry api runId s)

theorem stable_listed (found : List RedmineTimeEntry) :
    accounting.Stable i (Listed (F := F) i api runId run found) := by
  rintro s s' inv inv' step ⟨working, entered, missing⟩
  refine ⟨stable_working runId run s s' inv inv' step working, fun shown member => ?_, fun none => ?_⟩
  · obtain ⟨j, -, advances⟩ := step
    exact (entered shown member).mono advances.grown
  · exact (stable_missing s s' inv inv' step ⟨working, missing none⟩).2

/-- While the lock is held, a search settles whether the remote has an entry for the run. -/
theorem working_findTimeEntry (finished : run.finishedAt = some finishedAt) :
    HoareElse (timerWorld outside) accounting i (Working i runId run)
      (findTimeEntryByComments api run.issue (formatUnixDate finishedAt) (timeEntryComments runId))
      (fun found => Listed i api runId run found.toList) fun _ => Working i runId run := by
  have stable := stable_working (i := i) (F := F) runId run
  have checked : ∀ {P : TimerState F → Prop} (x : Except PhasegentError Unit),
      accounting.Stable i P → (∀ s, P s → Working i runId run s) →
      HoareElse (timerWorld outside) accounting i P
        (fromExcept x : TimerM PhasegentError Unit) (fun u s => x = .ok u ∧ P s)
        fun _ => Working i runId run :=
    fun x kept implies => else_fromExcept kept (fun s _ _ _ holds => implies s holds) fun _ => stable
  let marked := RedmineTimeEntry.marks run.issue (formatUnixDate finishedAt) (timeEntryComments runId)
  apply else_bind (fun _ => stable) (checked _ stable fun _ holds => holds)
  intro _
  apply HoareElse.of_pure
  intro _
  apply else_bind (M := fun listing => Listed i api runId run (listing.filter marked)) (fun _ => stable)
  · apply else_bind (fun _ => stable) (checked _ stable fun _ holds => holds)
    intro _
    apply HoareElse.of_pure
    intro _
    apply else_request stable (fun _ => stable_listed _) fun _ => stable
    intro s answer s' inv working step
    obtain ⟨inv', advances⟩ := TimerStep.accounted inv step trivial
    have working' := (kept_working runId run).own step advances trivial working
    refine ⟨inv', advances, ?_⟩
    cases answer with
    | error e => exact working'
    | ok listing =>
        refine ⟨working', ?_⟩
        cases step with
        | fault fails => cases fails
        | outside external => cases external
        | listed lists =>
            constructor
            · intro shown member
              obtain ⟨inside, marks⟩ := List.mem_filter.mp member
              obtain ⟨entry, there, id, comments⟩ := lists.found inside marks
              exact ⟨entry, there, id, comments⟩
            · intro none
              apply List.eq_nil_iff_forall_not_mem.mpr
              intro entry member
              obtain ⟨there, here, marks⟩ := mem_entriesMarked.mp member
              obtain ⟨issue, spentOn⟩ := working.2.place inv finished there marks
              exact lists.missing none there here issue spentOn marks
  intro listing
  apply else_bind (fun _ => stable) (checked _ (stable_listed _) fun _ holds => holds.1)
  intro _
  apply HoareElse.of_pure
  intro single
  refine else_pure (stable_listed _) ?_
  rintro s - ⟨working, entered, missing⟩
  refine ⟨working, fun shown member => entered shown ?_, fun none => missing ?_⟩
  · exact List.mem_of_getLast? (Option.mem_toList.mp member)
  · exact List.getLast?_eq_none_iff.mp (Option.toList_eq_nil_iff.mp none)

theorem missing_createTimeEntry (finished : run.finishedAt = some finishedAt) (hours activityId : Nat) :
    HoareElse (timerWorld outside) accounting i (Missing i api runId run)
      (createTimeEntry api run.issue hours (formatUnixDate finishedAt) activityId
        (timeEntryComments runId))
      (fun created s => Working i runId run s ∧
        ∀ id, created.map (·.id) = some id → Entered s.remote runId id)
      fun _ => Working i runId run := by
  have stable := stable_working (i := i) (F := F) runId run
  have entering : ∀ timeEntryId, accounting.Stable i fun s : TimerState F =>
      Working i runId run s ∧ ∀ id, timeEntryId = some id → Entered s.remote runId id :=
    fun timeEntryId => stable.and (lasting_entered runId timeEntryId).stable
  apply else_bind (fun _ => stable)
  · exact else_fromExcept stable_missing (fun _ _ _ _ missing => missing.1) fun _ => stable
  intro _
  apply HoareElse.of_pure
  intro _
  apply else_bind (M := fun response s => Working i runId run s ∧
    ∀ id, namedId (.ok response) = some id → Entered s.remote runId id) (fun _ => stable)
  · apply else_request stable_missing (fun response => entering _) fun _ => stable
    intro s answer s' inv missing step
    obtain ⟨inv', advances⟩ := TimerStep.accounted inv step
      ⟨missing.1.1, runId, rfl, missing.2, fun id => missing.1.2.placed finished rfl rfl rfl⟩
    have working : Working i runId run s' :=
      ⟨kept_holding.own step advances trivial missing.1.1,
        lasting_about runId run i s s' advances missing.1.2⟩
    refine ⟨inv', advances, ?_⟩
    cases answer with
    | error e => exact working
    | ok response =>
        refine ⟨working, fun id named => ?_⟩
        generalize told : (Except.ok response : Except PhasegentError _) = answer at step
        cases step with
        | fault fails =>
            subst told
            exact absurd (named.symm.trans fails) (by simp)
        | outside external => cases external
        | @posted _ _ id' _ shown =>
            obtain rfl := shown id (told ▸ named)
            exact ⟨_, List.mem_append_right _ (List.mem_singleton_self _), rfl, rfl⟩
  intro response
  exact else_pure (entering _) fun _ _ holds => holds

theorem working_projectHeld (token : String) (activityId : Nat)
    (finished : run.finishedAt = some finishedAt) :
    HoareElse (timerWorld outside) accounting i (Working i runId run)
      (projectHeld api run token activityId finishedAt) (Working i runId) (WorkingOn i runId) := by
  refine HoareElse.assume (fun _ _ working => working.2.named) ?_
  rintro rfl
  apply else_bind (fun _ => stable_working _ _)
  · exact else_renameFailure (fun _ => stable_listed _) (fun _ => stable_working _ _)
      (fun _ _ holds => holds) (working_findTimeEntry finished)
  intro found
  cases found with
  | some existing =>
      refine (working_finalize _ _ _ _ _ _ fun _ => rfl).pre fun s _ listed => ⟨listed.1, ?_⟩
      rintro id ⟨⟩
      exact listed.2.1 existing (List.mem_singleton_self _)
  | none =>
      cases run.roundedHours with
      | none => exact working_throw.pre fun _ _ listed => listed.1
      | some hours =>
          apply HoareElse.pre (M := Missing i api run.runId run) ?_ fun _ _ listed =>
            ⟨listed.1, listed.2.2 rfl⟩
          apply else_bind (fun _ => stable_working _ _)
          · exact else_renameFailure (fun created => (stable_working _ _).and
                (lasting_entered run.runId (created.map (·.id))).stable)
              (fun _ => stable_working _ _) (fun _ _ holds => holds)
              (missing_createTimeEntry finished hours activityId)
          intro created
          cases created with
          | some entry => exact working_finalize _ _ _ _ _ _ fun _ => rfl
          | none =>
              refine (working_finalize _ _ _ _ _ _ (by rintro ⟨⟩)).pre fun s _ holds => ⟨holds.1, ?_⟩
              exact holds.1.2.backed.entered

theorem working_projectLocked (token : String) :
    HoareElse (timerWorld outside) accounting i (Working i runId run)
      (projectLocked api run token) (Working i runId) (WorkingOn i runId) := by
  apply else_bind (fun _ => stable_working _ _) (working_claimRun token)
  intro claimed
  cases claimed with
  | settled current => exact else_pure (stable_working _ _) fun _ _ holds => holds
  | held claimed =>
      apply else_bind (fun _ => stable_working _ _) (working_ensureActivity token)
      intro ready
      cases ready.activityId with
      | none => exact working_throw
      | some activityId =>
          cases finished : ready.finishedAt with
          | none => exact working_throw
          | some finishedAt =>
              dsimp only
              exact working_projectHeld token activityId finished

end Held

end Working

section Commands
variable {F : Type} {outside : F → (op : TimerOp) → op.Ret → F → Prop} {i : Pid} {ε ε' α β : Type}
  {render : PhasegentError → String} {P : TimerState F → Prop} {runId api : String} {run : TimerRun}

theorem stable_about (runId : String) (run : TimerRun) :
    accounting.Stable i (About (F := F) runId run) :=
  (lasting_about runId run).stable

theorem else_beginProjectionWith (last : Lasting P) (retries : Nat) :
    HoareElse (timerWorld outside) accounting i P (beginProjectionWith retries)
      (fun _ s => Holding i s ∧ P s) fun _ => P := by
  have held : Kept outside i Within (Holding i) := kept_holding
  have holding : accounting.Stable i fun s => Holding i s ∧ P s := held.stable.and last.stable
  have begins : HoareElse (timerWorld outside) accounting i P beginImmediate
      (fun _ s => Holding i s ∧ P s) fun _ => P := by
    apply else_request last.stable (fun _ => holding) fun _ => last.stable
    intro s answer s' inv holds step
    obtain ⟨inv', advances⟩ := TimerStep.accounted inv step trivial
    have holds' := last i s s' advances holds
    refine ⟨inv', advances, ?_⟩
    cases answer with
    | error e => exact holds'
    | ok _ =>
        cases step with
        | begin acquired =>
            obtain ⟨-, rfl⟩ := Locked.acquire_some acquired
            exact ⟨⟨_, rfl⟩, holds'⟩
        | fault fails => cases fails
        | outside external => cases external
  induction retries with
  | zero =>
      exact else_renameFailure (fun _ => holding) (fun _ => last.stable) (fun _ _ holds => holds) begins
  | succ retries ih =>
      apply else_bind (fun _ => last.stable)
      · exact else_outcome (fun _ => holding) (fun _ => last.stable) begins
      intro answer
      cases answer with
      | ok _ => exact else_pure holding fun _ _ holds => holds
      | error error =>
          dsimp only
          split
          · exact ih
          · exact else_throw last.stable fun _ _ holds => holds

theorem about_throw {Q : α → TimerState F → Prop} {error : PhasegentError} :
    HoareElse (timerWorld outside) accounting i (About runId run)
      (throw (error, run) : ProjectM α) Q (Knowing runId) :=
  else_throw (stable_about _ _) fun _ _ holds => holds

theorem about_projectRunWithProvider (token : String) :
    HoareElse (timerWorld outside) accounting i (About runId run)
      (projectRunWithProvider api run token) (About runId) (Knowing runId) := by
  have known := lasting_about (F := F) runId
  unfold projectRunWithProvider
  split
  · exact else_pure (stable_about _ _) fun _ _ holds => holds
  · apply else_bind (fun _ => stable_about _ _)
    · exact else_outcome (fun _ => stable_working runId run) (fun _ => stable_about _ _)
        (else_beginProjectionWith (known run) 4)
    intro begun
    cases begun with
    | error error =>
        dsimp only
        split
        · exact about_throw
        · exact about_throw
    | ok _ =>
        apply else_bind (fun _ => stable_about _ _)
        · exact else_outcome (fun _ => stable_working _ _) (fun _ => stable_working _ _)
            (working_projectLocked token)
        intro result
        cases result with
        | ok current =>
            apply HoareElse.pre (M := About runId current) ?_ fun _ _ working => working.2
            apply else_bind (M := fun _ => About runId current) (fun _ => stable_about _ _)
            · exact else_renameFailure (fun _ => stable_about _ _) (fun _ => stable_about _ _)
                (fun _ _ holds => holds) (kept_performs (known current).kept Plain.unposted
                  (plain_timerStorageError plain_commitProjection))
            intro _
            exact else_pure (stable_about _ _) fun _ _ holds => holds
        | error failure =>
            apply HoareElse.pre (M := About runId failure.2) ?_ fun _ _ working => working.2
            apply else_bind (M := fun _ => About runId failure.2) (fun _ => stable_about _ _)
            · apply else_request (stable_about _ _) (fun _ => stable_about _ _) (fun _ => stable_about _ _)
              intro s answer s' inv about step
              obtain ⟨inv', advances⟩ := TimerStep.accounted inv step trivial
              exact ⟨inv', advances, known failure.2 i s s' advances about⟩
            intro _
            exact else_throw (stable_about _ _) fun _ _ holds => holds

theorem about_projectRunWithCredential (selection : ProviderSelection) (token : String) :
    HoareElse (timerWorld outside) accounting i (About runId run)
      (projectRunWithCredential selection run token) (About runId) (Knowing runId) := by
  have asks : ∀ {γ : Type} {p : TimerM PhasegentError γ}, Performs Plain p →
      HoareElse (timerWorld outside) accounting i (About runId run) (keeping run p)
        (fun _ => About runId run) (Knowing runId) :=
    fun performs => else_renameFailure (fun _ => stable_about _ _) (fun _ => stable_about _ _)
      (fun _ _ holds => holds) (kept_performs (lasting_about runId run).kept Plain.unposted performs)
  apply else_bind (fun _ => stable_about _ _) (asks (performs_request (by trivial)))
  intro kind
  cases kind with
  | redmine =>
      exact else_bind (fun _ => stable_about _ _) (asks (performs_request (by trivial))) fun api =>
        about_projectRunWithProvider token
  | localStore => exact else_pure (stable_about _ _) fun _ _ holds => holds
  | forgejo => exact about_throw

theorem accountable_bind {p : TimerM ε α} {f : α → TimerM ε β} (first : Accountable outside i P p)
    (rest : ∀ a, Accountable outside i (fun _ => True) (f a)) : Accountable outside i P (p >>= f) :=
  hoare_bind first rest

theorem accountable_outcome {p : TimerM ε α} (accountable : Accountable outside i P p) :
    Accountable outside i P (outcome p : TimerM ε' (Except ε α)) :=
  (hoare_outcome (fun _ => Contract.stable_const i True) accountable).weaken fun _ _ _ => trivial

theorem accountable_after {p : TimerM ε α} {f : α → TimerM ε β} (kept : Kept outside i Plain P)
    (plain : Performs Plain p) (rest : ∀ a, Accountable outside i P (f a)) :
    Accountable outside i P (p >>= f) :=
  hoare_bind (kept_performs kept Plain.unposted plain).hoare rest

theorem accountable_projectFinished (selection : ProviderSelection) :
    Accountable outside i (About runId run) (projectFinished render selection run) := by
  apply Hoare.assume (fun _ _ about => about.named)
  rintro rfl
  have known := lasting_about (F := F) run.runId
  apply accountable_after (known run).kept plain_generateProjectionToken
  intro token
  apply hoare_bind (else_outcome (G := fun _ _ => True) (fun _ => stable_about _ _)
    (fun _ => stable_about _ _) (about_projectRunWithCredential selection token)).hoare
  intro result
  cases result with
  | ok current => exact accountable_of_plain (performs_pure _)
  | error failure =>
      apply accountable_bind
      · apply accountable_outcome
        have writes : Kept outside i (fun _ => True) (About run.runId failure.2) := (known _).kept
        apply Hoare.weaken (HoareElse.hoare (else_markSync writes (fun _ => trivial) (by rintro ⟨⟩) ?_))
        · exact fun _ _ _ => trivial
        · exact fun s about => about.named ▸ about.backed.entered
      · exact fun _ => accountable_of_plain (performs_throw _)

theorem accountable_projectRecovered (selection : ProviderSelection) (token : String)
    (accept : TimerRun → Except PhasegentError TimerRun) :
    Accountable outside i (About runId run)
      (projectRecovered render selection run token accept) := by
  apply accountable_bind
  · apply accountable_outcome
    exact (about_projectRunWithCredential selection token).hoare.weaken fun _ _ _ => trivial
  intro result
  cases result with
  | ok _ =>
      apply accountable_bind (accountable_of_plain (plain_timerStorageError plain_storageOpen))
      intro _
      apply accountable_bind (accountable_of_plain (plain_loadExisting _))
      intro final
      exact accountable_of_plain (performs_bind (performs_fromExcept _) fun _ => performs_pure _)
  | error failure =>
      apply accountable_bind (accountable_of_plain (performs_outcome (plain_recordError _ _)))
      exact fun _ => accountable_of_plain (performs_throw _)

theorem accountable_projectReset (selection : ProviderSelection) (runId : String) :
    Accountable outside i (Closed runId) (projectReset render selection runId) := by
  apply accountable_after (lasting_closed runId).kept (plain_timerStorageError plain_storageOpen)
  intro _
  apply hoare_bind else_loadClosed.hoare
  intro run
  apply accountable_after (lasting_about runId run).kept plain_generateProjectionToken
  intro token
  exact accountable_projectRecovered _ _ _

theorem accountable_projectFailed (selection : ProviderSelection) (runId : String) :
    Accountable outside i (Closed runId) (projectFailed render selection runId) := by
  apply accountable_after (lasting_closed runId).kept plain_generateProjectionToken
  intro token
  apply accountable_after (lasting_closed runId).kept (plain_timerStorageError plain_storageOpen)
  intro _
  apply hoare_bind else_loadClosed.hoare
  intro run
  exact accountable_projectRecovered _ _ _

theorem accountable_recoverTerminal (selection : ProviderSelection) :
    Accountable outside i (About runId run) (recoverTerminal render selection run) := by
  apply Hoare.assume (fun _ _ about => about.named)
  rintro rfl
  unfold recoverTerminal
  split
  · apply accountable_after (lasting_about _ run).kept (plain_reopen _)
    intro _
    apply hoare_bind (M := fun _ => Closed run.runId)
    · apply hoare_renameFailure (fun _ => (lasting_closed _).stable)
      have kept : Kept outside i Unposted (Closed run.runId) := (lasting_closed _).kept
      exact (kept_performs kept (fun _ allowed => allowed)
        (performs_resetStale Plain.unposted trivial _ _)).hoare.pre fun _ _ about => about.closed
    intro reset
    cases reset with
    | true => exact accountable_projectReset selection run.runId
    | false => exact accountable_of_plain (performs_throw _)
  · exact accountable_of_plain (performs_throw _)
  · exact accountable_of_plain (performs_pure _)

theorem hoare_finished (runId result : String) (finishedAt : Int) :
    Hoare (timerWorld outside) accounting i (fun s => s.db.Free i)
      (finishTimerRun runId result finishedAt) (About runId) := by
  have kept : Kept outside i Plain fun s => s.db.Free i := kept_free_plain
  have free := kept.stable
  have known := lasting_about (F := F) runId
  apply hoare_bind (hoare_fromExcept free)
  intro result
  apply Hoare.of_pure
  intro parsed
  have ended : ∀ run : TimerRun, Lasting fun s : TimerState F =>
      run.runId = runId ∧ (run.status ≠ .running → About runId run s) :=
    fun run => (lasting_const _).and (lasting_imp fun _ => known run)
  apply hoare_bind (else_reload kept_free_plain trivial ended (fun s run inv free member named =>
    ⟨named, read_free inv free member named⟩) _).hoare
  intro run
  dsimp only
  split
  · next earlier status =>
      split
      · exact hoare_pure (known run).stable fun s _ holds => holds.2.2 (by simp [status])
      · exact hoare_throw
  · have stable := free.and (ended run).stable
    apply hoare_bind (hoare_fromExcept stable)
    intro _
    apply Hoare.of_pure
    intro _
    apply hoare_bind (M := fun _ => Closed runId)
    · apply hoare_request stable fun _ => (lasting_closed runId).stable
      intro s answer s' inv holds step
      obtain ⟨inv', advances⟩ := TimerStep.accounted inv step trivial
      refine ⟨inv', advances, ?_⟩
      cases answer with
      | error e => trivial
      | ok n =>
          have free' := kept_free.own step advances (by rintro ⟨⟩) holds.1
          obtain ⟨ledger, unblocked, wrote, rfl⟩ := TimerStep.write_ok step
          obtain ⟨-, row, member, named, status⟩ := TimerWrite.finishRun_ok wrote
          rw [← Locked.sees_put (d := ledger) unblocked, free'.sees] at member
          exact ⟨row, member, named, by simp [status]⟩
    intro _
    have closed : Kept outside i Plain (Closed (F := F) runId) := (lasting_closed runId).kept
    exact (else_reload closed trivial known
      (fun s run inv closed member named => inv.read closed member named) _).hoare.weaken
      fun _ _ holds => holds.2

theorem accountable_recoverRunning (selection : ProviderSelection) (runId : String) :
    Accountable outside i (fun s => s.db.Free i) (recoverRunning render selection runId) := by
  apply accountable_after kept_free_plain (plain_reopen _)
  intro _
  apply accountable_after kept_free_plain plain_nowEpochSeconds
  intro finishedAt
  apply hoare_bind (hoare_outcome (fun run => stable_about runId run) (hoare_finished _ _ _))
  intro finished
  cases finished with
  | ok run =>
      exact (accountable_projectFailed selection runId).pre fun s _ about => About.closed about
  | error message =>
      dsimp only
      split
      · exact accountable_of_plain (plain_recoverOvertaken _)
      · exact accountable_of_plain (performs_throw _)

theorem accountable_executeFinish (selection : ProviderSelection) (runId result : String) :
    Accountable outside i (fun s => s.db.Free i) (executeFinish render selection runId result) := by
  apply accountable_after kept_free_plain (plain_admittedRoute _ runId)
  intro route
  apply accountable_after kept_free_plain (plain_admitProvider _ _)
  intro _
  apply accountable_after kept_free_plain (plain_timerStorageError plain_storageOpen)
  intro _
  apply accountable_after kept_free_plain plain_nowEpochSeconds
  intro finishedAt
  apply hoare_bind (hoare_renameFailure (fun run => stable_about runId run) (hoare_finished _ _ _))
  intro run
  split
  · exact accountable_of_plain (performs_pure _)
  · exact accountable_projectFinished _

theorem accountable_executeRecover (selection : ProviderSelection) (runId : String) :
    Accountable outside i (fun s => s.db.Free i) (executeRecover render selection runId) := by
  apply accountable_after kept_free_plain (plain_admittedRoute _ runId)
  intro route
  apply accountable_after kept_free_plain (plain_admitProvider _ _)
  intro _
  apply accountable_after kept_free_plain (plain_timerStorageError plain_storageOpen)
  intro _
  have ended : ∀ run : TimerRun, Lasting fun s : TimerState F =>
      run.status ≠ .running → About runId run s :=
    fun run => lasting_imp fun _ => lasting_about runId run
  apply hoare_bind (else_loadExisting kept_free_plain trivial ended
    fun s run inv free member named => read_free inv free member named).hoare
  intro existing
  apply accountable_after (kept_free_plain.and (ended existing).kept) (plain_resolveTimerRoute _)
  intro route
  dsimp only
  split
  · next status =>
      exact (accountable_recoverTerminal _).pre fun s _ holds => holds.2 (by simp [status])
  · exact (accountable_recoverRunning _ _).pre fun s _ holds => holds.1

theorem accountable_reply {shape : α → TimerReply} {p : TimerM PhasegentError α}
    (accountable : Accountable outside i P p) : Accountable outside i P (reply shape p) := by
  apply accountable_bind
  · apply accountable_outcome
    exact accountable_bind accountable fun _ => accountable_of_plain (performs_pure _)
  intro result
  apply accountable_bind (accountable_of_plain plain_closeStorage)
  intro _
  exact accountable_of_plain (performs_fromExcept result)

def Command.Projecting : Command → Prop
  | .markSync .. => False
  | _ => True

theorem accountable_run {command : Command} (projecting : command.Projecting) :
    Accountable outside i (fun s => s.db.Free i) (command.run render) := by
  have stores : ∀ {γ : Type} {shape : γ → TimerReply} {p : StoreM γ}, Performs Unposted p →
      Accountable outside i (fun s => s.db.Free i) (stored shape p) := fun performs =>
    accountable_reply (accountable_of_unposted (performs_renameFailure performs))
  cases command with
  | markSync => cases projecting
  | start => exact stores ((plain_startTimerRunWithOwner _ _ _ _ _ _ _).mono Plain.unposted)
  | finish => exact stores (unposted_finishTimerRun _ _ _)
  | claim => exact stores ((plain_tryClaim _ _).mono Plain.unposted)
  | updateActivity => exact stores ((plain_updateActivity _ _ _).mono Plain.unposted)
  | resetStale => exact stores (performs_resetStale Plain.unposted trivial _ _)
  | recordError => exact stores ((plain_recordError _ _).mono Plain.unposted)
  | timerStart => exact accountable_reply (accountable_of_plain (plain_executeStart _ _ _ _ _ _ _))
  | timerFinish => exact accountable_reply (accountable_executeFinish _ _ _)
  | timerRecover => exact accountable_reply (accountable_executeRecover _ _)
  | autoTransition => exact stores (unposted_autoTransition render _ _ _)
  | autoClose => exact stores (unposted_autoClose render _ _)

end Commands

section Runs
variable {F : Type} {outside : F → (op : TimerOp) → op.Ret → F → Prop}
  {render : PhasegentError → String} {commands : Pid → Option Command} {start : TimerState F}
  {c : Config (TimerState F) TimerOp TimerOp.Ret (Except PhasegentError TimerReply)}

-- No run was projected yet, and nobody has the ledger open for writing.
structure Unprojected (start : TimerState F) : Prop where
  free : start.db.held = none
  rows : ∀ run ∈ start.db.committed.runs, run.timeEntryId = none ∧ run.syncStatus ≠ .synced
  remote : ∀ entry ∈ start.remote, ∀ runId, ¬entry.Marks runId

theorem Unprojected.accounted (unprojected : Unprojected start) : Accounted start where
  once api runId := by
    have none : entriesMarked api runId start.remote = [] := by
      apply List.eq_nil_iff_forall_not_mem.mpr
      intro entry member
      obtain ⟨inside, -, marks⟩ := mem_entriesMarked.mp member
      exact unprojected.remote entry inside runId marks
    rw [none]
    exact Nat.zero_le 1
  placed entry member runId marks := absurd marks (unprojected.remote entry member runId)
  backed := by
    refine ⟨fun run member => ?_, fun j work held => ?_⟩
    · obtain ⟨unrecorded, unsynced⟩ := unprojected.rows run member
      refine ⟨fun id recorded => ?_, fun synced => absurd synced unsynced⟩
      rw [unrecorded] at recorded
      cases recorded
    · rw [unprojected.free] at held
      cases held
  ahead := by
    intro j work held
    rw [unprojected.free] at held
    cases held

/-- However finishes and recoveries of a run interleave, crash and lose responses, no remote ever
holds two entries for it, and a row that is synced names an entry posted for it. -/
theorem projected_at_most_once (unprojected : Unprojected start)
    (projecting : ∀ i command, commands i = some command → command.Projecting)
    (run : Run (timerWorld outside) (timerFleet render commands start) c) :
    (∀ api runId, (entriesMarked api runId c.shared.remote).length ≤ 1) ∧
      ∀ i, ∀ row ∈ (c.shared.db.sees i).runs, row.syncStatus = .synced →
        ∃ timeEntryId, row.timeEntryId = some timeEntryId ∧
          Entered c.shared.remote row.runId timeEntryId := by
  have safe : c.Safe (timerWorld outside) accounting fun _ => OnOk fun _ _ => True := by
    apply Run.safe accounted_crash ?_ run
    refine ⟨unprojected.accounted, fun i p running => ?_⟩
    obtain ⟨command, given, rfl⟩ := Option.map_eq_some_iff.mp running
    apply (accountable_run (projecting i command given)).triple start unprojected.accounted
    exact fun work held => by simp [unprojected.free] at held
  refine ⟨safe.1.once, fun i row member synced => ?_⟩
  have backed := safe.1.backed.sees i row member
  obtain ⟨timeEntryId, recorded⟩ := Option.isSome_iff_exists.mp (backed.synced synced)
  exact ⟨timeEntryId, recorded, backed.entered timeEntryId recorded⟩

end Runs

section Race

def billing : Pid → Option Command
  | 0 => some (.timerStart none 7 "In Review" "reviewer" 1 (some "r") ⟨none, none⟩)
  | 1 => some (.timerFinish ⟨none, none, none⟩ "r" "DONE")
  | 2 => some (.timerRecover ⟨none, none, none⟩ "r")
  | 3 => some (.timerFinish ⟨none, none, none⟩ "r" "DONE")
  | _ => none

def billed (schedule : List Pid) :
    Config (TimerState Nat) TimerOp TimerOp.Ret (Except PhasegentError TimerReply) :=
  (timerFleet PhasegentError.message billing emptyDesk).replay
    (perform desk fun clock => clock ≤ 68) schedule

theorem billed_run (schedule : List Pid) :
    Run (timerWorld (answered desk)) (timerFleet PhasegentError.message billing emptyDesk)
      (billed schedule) :=
  .replay (perform_sound desk fun clock => clock ≤ 68) _ schedule

def retried : List Pid :=
  List.replicate 12 0 ++ List.replicate 30 1 ++ (List.replicate 30 [2, 3]).flatten

/-- A finish whose response is lost leaves its entry, and the next one finds it. -/
theorem lost_response_projected_once :
    (∀ api runId, (entriesMarked api runId (billed retried).shared.remote).length ≤ 1) ∧
      Entered (billed retried).shared.remote "r" 1 := by
  have unprojected : Unprojected emptyDesk := by
    constructor <;> simp [emptyDesk, Ledger.empty]
  have projecting : ∀ i command, billing i = some command → command.Projecting := by
    intro i command given
    unfold billing at given
    split at given <;> cases given <;> trivial
  obtain ⟨once, entered⟩ := projected_at_most_once unprojected projecting (billed_run retried)
  refine ⟨once, ?_⟩
  have stored : ((billed retried).shared.db.sees 0).runs.map
      (fun run => (run.runId, run.timeEntryId, run.syncStatus)) = [("r", some 1, .synced)] := by
    decide +kernel
  obtain ⟨run, member, same⟩ := List.mem_map.mp (stored ▸ List.mem_singleton_self _)
  obtain ⟨named, rest⟩ := Prod.mk.inj same
  obtain ⟨recorded, synced⟩ := Prod.mk.inj rest
  obtain ⟨id, recorded', found⟩ := entered 0 run member synced
  obtain rfl : 1 = id := Option.some.inj (recorded.symm.trans recorded')
  exact named ▸ found

end Race

end Phasegent.Timer
