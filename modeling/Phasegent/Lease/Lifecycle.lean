import Phasegent.Lease.Changes
import Phasegent.Lease.Commands
import Phasegent.Interleaving.Replay

namespace Phasegent.Lease
open Fallible Interleaving Relation

/-- How a row may differ between two moments: its identity never, its status only forward. -/
structure LeaseRow.Forward (row row' : LeaseRow) : Prop where
  same : row.SameLease row'
  settled : row.status ≠ .active → row'.status ≠ .active
  released : row.status = .released → row'.status = .released

theorem LeaseRow.Forward.refl (row : LeaseRow) : row.Forward row := ⟨.refl row, id, id⟩

theorem LeaseRow.Forward.trans {a b c : LeaseRow} (first : a.Forward b) (second : b.Forward c) :
    a.Forward c where
  same := first.same.trans second.same
  settled := second.settled ∘ first.settled
  released := second.released ∘ first.released

def Forward (db db' : LeaseDb) : Prop := ∀ row ∈ db.leases, ∃ row' ∈ db'.leases, row.Forward row'

theorem Forward.refl (db : LeaseDb) : Forward db db := fun row member => ⟨row, member, .refl row⟩

theorem Forward.trans {a b c : LeaseDb} (first : Forward a b) (second : Forward b c) :
    Forward a c := by
  intro row member
  obtain ⟨row', member', forward⟩ := first row member
  obtain ⟨row'', member'', further⟩ := second row' member'
  exact ⟨row'', member'', forward.trans further⟩

section Guard
variable {F : Type} {urls : UrlLibrary} {outside : F → (op : LeaseOp) → op.Ret → F → Prop}

def retained : (op : LeaseOp) → op.Ret → Option String
  | .sql (.updateStatus leaseId .retained _), .ok _ => some leaseId
  | _, _ => none

def RetainsUnreleased (db : LeaseDb) (op : LeaseOp) (answer : op.Ret) : Prop :=
  ∀ row ∈ db.leases, retained op answer = some row.leaseId → row.status ≠ .released

instance (db : LeaseDb) (op : LeaseOp) (answer : op.Ret) :
    Decidable (RetainsUnreleased db op answer) :=
  inferInstanceAs (Decidable (∀ row ∈ db.leases, _))

theorem SqlOp.Moves.released {op : SqlOp} {answer : op.Ret} {row : LeaseRow} {after : LeaseStatus}
    (moves : op.Moves row after)
    (kept : retained (.sql op) (.ok answer) = some row.leaseId → row.status ≠ .released)
    (left : row.status = .released) : after = .released := by
  cases op with
  | updateStatus leaseId target now =>
      rcases moves with same | ⟨named, written⟩
      · rw [same, left]
      · cases target with
        | retained => exact absurd left (kept (congrArg some named.symm))
        | released => exact written
  | _ =>
      rcases moves with same | ⟨active, -⟩ | released
      · rw [same, left]
      · rw [left] at active
        cases active
      · exact released

theorem LeaseStep.forward {s s' : LeaseDb × F} {op : LeaseOp} {answer : op.Ret}
    (step : LeaseStep urls outside s op answer s') (kept : RetainsUnreleased s.1 op answer) :
    Forward s.1 s'.1 := by
  refine step.related (RetainsUnreleased s.1) Forward (.refl s.1) ?_ kept
  intro op a db' run kept row member
  obtain ⟨edit, rows, moved⟩ := (tx_writes run).leases
  obtain ⟨same, moves⟩ := moved row member
  refine ⟨edit row, ?_, same, moves.settled, moves.released (kept row member)⟩
  rw [rows]
  exact List.mem_append_left _ (List.mem_map_of_mem member)

theorem retained_eq_some {op : LeaseOp} {answer : op.Ret} {leaseId : String}
    (found : retained op answer = some leaseId) :
    ∃ now n, ∃ same : op = .sql (.updateStatus leaseId .retained now), same ▸ answer = .ok n := by
  unfold retained at found
  split at found
  · cases found
    exact ⟨_, _, rfl, rfl⟩
  · cases found

theorem updateStatus_retains {db db' : LeaseDb} {row : LeaseRow} {now : Int} {n : Nat}
    (run : updateStatus row.leaseId .retained now db = .ok (n, db')) (member : row ∈ db.leases) :
    { row with status := .retained, heartbeatAt := now } ∈ db'.leases := by
  obtain ⟨tables, -⟩ := updateLeases_ok run
  rw [tables]
  exact Sql.mem_update.mpr ⟨row, member, by rw [if_pos (beq_self_eq_true row.leaseId)]; rfl⟩

theorem LeaseStep.retainsUnreleased {s s' : LeaseDb × F} {op : LeaseOp} {answer : op.Ret}
    (step : LeaseStep urls outside s op answer s') (forward : Forward s.1 s'.1) :
    RetainsUnreleased s.1 op answer := by
  intro row member found released
  obtain ⟨now, n, rfl, answered⟩ := retained_eq_some found
  dsimp only at answered
  subst answered
  have after := updateStatus_retains step.sql_ok member
  obtain ⟨row', member', moved⟩ := forward row member
  have same := row_unique member' after moved.same.leaseId
  have kept := moved.released released
  rw [same] at kept
  cases kept

theorem leases_move_forward_iff (urls : UrlLibrary)
    (outside : F → (op : LeaseOp) → op.Ret → F → Prop) :
    (∀ i s op answer s', (leaseWorld urls outside).step i s op answer s' →
      (Forward s.1 s'.1 ↔ RetainsUnreleased s.1 op answer)) ∧
      ∀ commands start c c',
        Run ((leaseWorld urls outside).guard fun _ s => RetainsUnreleased s.1)
          (fleet commands start) c →
        Run ((leaseWorld urls outside).guard fun _ s => RetainsUnreleased s.1) c c' →
        Forward c.shared.1 c'.shared.1 := by
  constructor
  · intro i s op answer s' step
    exact ⟨step.retainsUnreleased, step.forward⟩
  · intro commands start c c' reached later
    apply later.related fun s s' : LeaseDb × F => Forward s.1 s'.1
    · exact fun s => .refl s.1
    · exact Forward.trans
    · exact fun step => step.1.forward step.2
    · intro i s s' crashed
      rw [show s' = s from crashed]
      exact .refl s.1

end Guard

section Race

def releases : Pid → Option Command
  | 0 => some (.release "lease-64-0" true none)
  | 1 => some (.release "lease-64-0" false none)
  | _ => none

def releasing (schedule : List Pid) : Config (LeaseDb × Nat) LeaseOp LeaseOp.Ret
    (Except WorktreeError (Option AcquireOutcome)) :=
  (fleet releases (heldStore, 100)).replay (perform forgejoTest sandbox) schedule

theorem releases_in_turn_forward :
    Forward (releasing [0, 0, 0]).shared.1 (releasing [0, 0, 0, 1]).shared.1 := by
  apply (leases_move_forward_iff forgejoTest (answered sandbox)).2 releases (heldStore, 100)
  · exact Run.replay_guard (perform_sound forgejoTest sandbox) _ _ (by decide)
  · exact Run.replay_guard (perform_sound forgejoTest sandbox) (releasing [0, 0, 0]) [1]
      (by decide)

-- The retaining release has loaded the active row when the other one releases it.
theorem racing_retention_reopens :
    Run (leaseWorld forgejoTest (answered sandbox)) (fleet releases (heldStore, 100))
        (releasing [0, 0, 1, 1, 1]) ∧
      Run (leaseWorld forgejoTest (answered sandbox)) (releasing [0, 0, 1, 1, 1])
        (releasing [0, 0, 1, 1, 1, 0]) ∧
      (releasing [0, 0, 1, 1, 1]).shared.1.leases.map (·.status) = [.released] ∧
      (releasing [0, 0, 1, 1, 1, 0]).shared.1.leases.map (·.status) = [.retained] ∧
      ¬Forward (releasing [0, 0, 1, 1, 1]).shared.1 (releasing [0, 0, 1, 1, 1, 0]).shared.1 := by
  have before : (releasing [0, 0, 1, 1, 1]).shared.1.leases.map (·.status) = [.released] := by
    decide
  have after : (releasing [0, 0, 1, 1, 1, 0]).shared.1.leases.map (·.status) = [.retained] := by
    decide
  refine ⟨.replay (perform_sound forgejoTest sandbox) _ _,
    .replay (perform_sound forgejoTest sandbox) (releasing [0, 0, 1, 1, 1]) [0], before, after, ?_⟩
  intro forward
  obtain ⟨row, member, released⟩ := List.mem_map.mp (before ▸ List.mem_singleton_self _)
  obtain ⟨row', member', moved⟩ := forward row member
  have retained := after ▸ List.mem_map_of_mem member'
  rw [moved.released released] at retained
  cases List.mem_singleton.mp retained

end Race

end Phasegent.Lease
