import Phasegent.Timer.Footprint
import Phasegent.Timer.Rows

namespace Phasegent.Timer
open Fallible Interleaving Sql Relation

def RemoteEntry.Marks (entry : RemoteEntry) (runId : String) : Prop :=
  entry.fields.comments = timeEntryComments runId

def entriesMarked (api runId : String) (remote : List RemoteEntry) : List RemoteEntry :=
  remote.filter fun entry => entry.api == api && entry.fields.comments == timeEntryComments runId

theorem mem_entriesMarked {api runId : String} {remote : List RemoteEntry} {entry : RemoteEntry} :
    entry ∈ entriesMarked api runId remote ↔
      entry ∈ remote ∧ entry.api = api ∧ entry.Marks runId := by
  simp [entriesMarked, RemoteEntry.Marks]

theorem RemoteEntry.Marks.unique {entry : RemoteEntry} {runId runId' : String}
    (marks : entry.Marks runId) (marks' : entry.Marks runId') : runId = runId' :=
  timeEntryComments_inj (marks.symm.trans marks')

def Entered (remote : List RemoteEntry) (runId : String) (timeEntryId : Nat) : Prop :=
  ∃ entry ∈ remote, entry.id = timeEntryId ∧ entry.Marks runId

/-- The ids that a row records are those of entries posted for it. -/
structure TimerRun.Backed (remote : List RemoteEntry) (run : TimerRun) : Prop where
  entered : ∀ timeEntryId, run.timeEntryId = some timeEntryId → Entered remote run.runId timeEntryId
  synced : run.syncStatus = .synced → run.timeEntryId.isSome

def Ledger.Backed (remote : List RemoteEntry) (ledger : Ledger) : Prop :=
  ∀ run ∈ ledger.runs, run.Backed remote

def Done (run : TimerRun) (ledger : Ledger) : Prop :=
  ∃ row ∈ ledger.runs, row.runId = run.runId ∧ row.status ≠ .running ∧ row.issue = run.issue ∧
    row.finishedAt = run.finishedAt

def Placed (ledger : Ledger) (entry : RemoteEntry) : Prop :=
  ∀ runId, entry.Marks runId → ∃ row ∈ ledger.runs, row.runId = runId ∧ row.status ≠ .running ∧
    row.issue = entry.fields.issueId ∧ row.finishedAt.map formatUnixDate = some entry.fields.spentOn

section Later
variable {ledger ledger' : Ledger} {remote remote' : List RemoteEntry} {run : TimerRun}

theorem Ledger.Later.done (later : ledger.Later ledger') (done : Done run ledger) :
    Done run ledger' := by
  obtain ⟨row, member, named, ended, issue, finishedAt⟩ := done
  obtain ⟨row', member', moved⟩ := later row member
  obtain ⟨status', finishedAt', -⟩ := moved.finished ended
  exact ⟨row', member', moved.runId.trans named, status' ▸ ended, moved.issue.trans issue,
    finishedAt'.trans finishedAt⟩

theorem Ledger.Later.placed {entry : RemoteEntry} (later : ledger.Later ledger')
    (placed : Placed ledger entry) : Placed ledger' entry := by
  intro runId marks
  obtain ⟨row, member, named, ended, issue, spentOn⟩ := placed runId marks
  obtain ⟨row', member', moved⟩ := later row member
  obtain ⟨status', finishedAt', -⟩ := moved.finished ended
  refine ⟨row', member', moved.runId.trans named, status' ▸ ended, moved.issue.trans issue, ?_⟩
  rw [finishedAt', spentOn]

theorem Entered.mono {runId : String} {timeEntryId : Nat} (entered : Entered remote runId timeEntryId)
    (grown : remote ⊆ remote') : Entered remote' runId timeEntryId := by
  obtain ⟨entry, member, shown⟩ := entered
  exact ⟨entry, grown member, shown⟩

theorem TimerRun.Backed.mono (backed : run.Backed remote) (grown : remote ⊆ remote') :
    run.Backed remote' :=
  ⟨fun id recorded => (backed.entered id recorded).mono grown, backed.synced⟩

theorem Ledger.Backed.mono (backed : ledger.Backed remote) (grown : remote ⊆ remote') :
    ledger.Backed remote' :=
  fun run member => (backed run member).mono grown

end Later

-- A synchronization that records only what was posted for its row.
def TimerWrite.Honest (remote : List RemoteEntry) : TimerWrite → Prop
  | .markSync runId _ _ timeEntryId syncStatus _ =>
      (∀ id, timeEntryId = some id → Entered remote runId id) ∧
        (syncStatus = .synced → timeEntryId.isSome)
  | _ => True

theorem TimerWrite.backed_sets {write : TimerWrite} {run : TimerRun} {remote : List RemoteEntry}
    (honest : write.Honest remote) (selected : write.selects run) (backed : run.Backed remote) :
    (write.sets run).Backed remote := by
  cases write with
  | insertRun => exact backed
  | finishRun runId result =>
      refine ⟨backed.entered, ?_⟩
      simp only [sets]
      split
      · rintro ⟨⟩
      · split
        · next recorded => exact fun _ => recorded
        · rintro ⟨⟩
  | claimProjection | resetStale => exact ⟨backed.entered, by rintro ⟨⟩⟩
  | updateActivity | recordSyncError => exact ⟨backed.entered, backed.synced⟩
  | markSync runId token activityId timeEntryId =>
      simp only [selects, Bool.and_eq_true, beq_iff_eq] at selected
      obtain ⟨entered, synced⟩ := honest
      obtain rfl : run.runId = runId := selected.1.1
      cases recorded : run.timeEntryId with
      | some id =>
          have kept : (run.timeEntryId <|> timeEntryId) = run.timeEntryId := by rw [recorded]; rfl
          refine ⟨fun id' same => backed.entered id' (kept.symm.trans same), fun _ => ?_⟩
          simp [sets, recorded]
      | none =>
          have given : (run.timeEntryId <|> timeEntryId) = timeEntryId := by rw [recorded]; rfl
          refine ⟨fun id' same => entered id' (given.symm.trans same), fun status => ?_⟩
          simpa [sets, recorded] using synced status

theorem startedRun_backed (runId : String) (issue : Nat) (phase role : String) (attempt : Nat)
    (startedAt : Int) (owner : TimerRunOwner) (remote : List RemoteEntry) :
    (startedRun runId issue phase role attempt startedAt owner).Backed remote :=
  ⟨by rintro _ ⟨⟩, by rintro ⟨⟩⟩

section Contract
variable {F : Type} {outside : F → (op : TimerOp) → op.Ret → F → Prop} {i j : Pid}
  {s s' : TimerState F} {op : TimerOp} {answer : op.Ret}

def Holding (i : Pid) (s : TimerState F) : Prop := ∃ work, s.db.held = some (i, work)

def NoEntry (api runId : String) (s : TimerState F) : Prop := entriesMarked api runId s.remote = []

structure Accounted (s : TimerState F) : Prop where
  once : ∀ api runId, (entriesMarked api runId s.remote).length ≤ 1
  placed : ∀ entry ∈ s.remote, Placed s.db.committed entry
  backed : s.db.Both (Ledger.Backed s.remote)
  ahead : s.db.Ahead Ledger.Later

/-- Rows and entries are only added to, and who holds the lock is alone with both. -/
structure Advances (j : Pid) (s s' : TimerState F) : Prop where
  later : s.db.committed.Later s'.db.committed
  grown : s.remote ⊆ s'.remote
  free : ∀ i, i ≠ j → s.db.Free i → s'.db.Free i
  excluded : ∀ i, i ≠ j → Holding i s → s'.db = s.db ∧ s'.remote = s.remote

def accounting : Contract (TimerState F) := ⟨Accounted, Advances⟩

def Warranted (i : Pid) (s : TimerState F) : TimerOp → Prop
  | .write statement => statement.Honest s.remote
  | .postTimeEntry api fields =>
      Holding i s ∧ ∃ runId, fields.comments = timeEntryComments runId ∧ NoEntry api runId s ∧
        ∀ id, Placed s.db.committed ⟨api, id, fields⟩
  | _ => True

theorem Unposted.warranted (unposted : Unposted op) : Warranted i s op := by
  cases op with
  | write statement =>
      cases statement with
      | markSync => cases unposted
      | _ => trivial
  | postTimeEntry => cases unposted
  | _ => trivial

theorem entriesMarked_post {api api' runId runId' : String} {fields : RedmineNewTimeEntry} {id : Nat}
    (marks : fields.comments = timeEntryComments runId') (missing : NoEntry api' runId' s)
    (once : (entriesMarked api runId s.remote).length ≤ 1) :
    (entriesMarked api runId (s.remote ++ [⟨api', id, fields⟩])).length ≤ 1 := by
  rw [entriesMarked, List.filter_append]
  by_cases same : api' = api ∧ runId' = runId
  · obtain ⟨rfl, rfl⟩ := same
    rw [show s.remote.filter _ = [] from missing, List.nil_append]
    exact List.length_filter_le _ [_]
  · have other : ([⟨api', id, fields⟩] : List RemoteEntry).filter (fun entry =>
        entry.api == api && entry.fields.comments == timeEntryComments runId) = [] := by
      rw [List.filter_eq_nil_iff]
      intro entry member
      rw [List.mem_singleton.mp member, Bool.and_eq_true, beq_iff_eq, beq_iff_eq, marks]
      exact fun ⟨here, name⟩ => same ⟨here, timeEntryComments_inj name⟩
    rw [other, List.append_nil]
    exact once

theorem TimerStep.accounted (inv : Accounted s) (step : TimerStep outside i s op answer s')
    (warranted : Warranted i s op) : Accounted s' ∧ Advances i s s' := by
  have moves := step.moves
  have later : s.db.committed.Later s'.db.committed :=
    moves.committed .refl (fun h => h.2.later) inv.ahead
  have grown : s.remote ⊆ s'.remote := by
    rcases step.remote with same | ⟨api, fields, id, -, more⟩
    · rw [same]
      exact List.Subset.refl _
    · rw [more]
      exact List.subset_append_left _ _
  have backed : s'.db.Both (Ledger.Backed s.remote) := by
    apply moves.both ?_ inv.backed
    rintro d d' ⟨-, statement, n, rfl, written⟩ backed run' member
    rcases (TimerWrite.tx_changes written).new member with ⟨run, old, rfl⟩ | fresh
    · split
      · next selected => exact TimerWrite.backed_sets warranted selected (backed run old)
      · exact backed run old
    · obtain ⟨_, _, _, _, _, _, _, rfl⟩ := fresh
      exact startedRun_backed ..
  have ahead : s'.db.Ahead Ledger.Later := moves.ahead .refl .trans (fun h => h.2.later) inv.ahead
  refine ⟨⟨fun api runId => ?_, fun entry member => ?_, ?_, ahead⟩, later, grown,
    fun k other free => moves.free_other other free, fun k other holding => ?_⟩
  · rcases step.remote with same | ⟨api', fields, id, rfl, more⟩
    · rw [same]
      exact inv.once api runId
    · rw [more]
      obtain ⟨-, runId', marks, missing, -⟩ := warranted
      exact entriesMarked_post marks missing (inv.once api runId)
  · apply later.placed
    rcases step.remote with same | ⟨api', fields, id, rfl, more⟩
    · exact inv.placed entry (same ▸ member)
    · rw [more] at member
      rcases List.mem_append.mp member with old | new
      · exact inv.placed entry old
      · obtain ⟨-, runId', -, -, placed⟩ := warranted
        rw [List.mem_singleton.mp new]
        exact placed id
  · exact ⟨backed.1.mono grown, fun k work held => (backed.2 k work held).mono grown⟩
  · obtain ⟨work, held⟩ := holding
    refine ⟨moves.locked_out held (Ne.symm other), ?_⟩
    rcases step.remote with same | ⟨api', fields, id, rfl, more⟩
    · exact same
    · obtain ⟨⟨work', held'⟩, -⟩ := warranted
      rw [held] at held'
      exact absurd (congrArg Prod.fst (Option.some.inj held')) other

theorem accounted_crash (i : Pid) (s s' : TimerState F) (inv : accounting.Inv s)
    (crashed : (timerWorld outside).crash i s s') :
    accounting.Inv s' ∧ accounting.guarantee i s s' := by
  subst crashed
  have closed : TimerStep outside i s .closeStorage () { s with db := s.db.release i } := .close
  exact closed.accounted inv trivial

end Contract

end Phasegent.Timer
