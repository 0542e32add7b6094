import Phasegent.Restore.Capture

namespace Phasegent.Restore
open Fallible Interleaving

/-- What any statement leaves of a row: its evidence, and a state that only leaves pending. -/
structure BaselineRecord.Advances (record record' : BaselineRecord) : Prop where
  scope : record'.scope = record.scope
  issueBranch : record'.issueBranch = record.issueBranch
  baselineBranch : record'.baselineBranch = record.baselineBranch
  baselineHead : record'.baselineHead = record.baselineHead
  recordedAt : record'.recordedAt = record.recordedAt
  state : record.state ≠ .pending → record'.state = record.state

theorem BaselineRecord.Advances.refl (record : BaselineRecord) : record.Advances record :=
  ⟨rfl, rfl, rfl, rfl, rfl, fun _ => rfl⟩

namespace BaselineOp

theorem change_advances (op : BaselineOp) (record : BaselineRecord) :
    record.Advances (op.change record) := by
  cases op with
  | transitionPending scope state =>
      by_cases pending : record.state = .pending
      · rw [change, if_pos pending]
        exact ⟨rfl, rfl, rfl, rfl, rfl, fun settled => absurd pending settled⟩
      · rw [change, if_neg pending]
        exact .refl record
  | markRestored scope update now => exact ⟨rfl, rfl, rfl, rfl, rfl, fun _ => rfl⟩
  | setUpdateState scope update => exact ⟨rfl, rfl, rfl, rfl, rfl, fun _ => rfl⟩
  | read scope => exact .refl record
  | insertPending new => exact .refl record

theorem perform_found (op : BaselineOp) {table : BaselineTable} {scope : BaselineScope}
    {record : BaselineRecord} (found : table scope = some record) :
    (op.perform table).2 scope = some (if op.scope = scope then op.change record else record) := by
  cases op with
  | read other => simpa [perform, change] using found
  | insertPending new =>
      by_cases same : new.scope = scope
      · subst same
        simp [perform, found, change]
      · cases occupied : table new.scope with
        | some other => simpa [perform, occupied, change] using found
        | none =>
            have other : scope ≠ new.scope := Ne.symm same
            simp [perform, occupied, change, BaselineTable.put, NewBaseline.record, other, found]
  | transitionPending other state =>
      by_cases same : other = scope
      · subst same
        simp [perform, BaselineOp.scope, BaselineTable.revise, found]
      · simp [perform, BaselineOp.scope, BaselineTable.revise, same, Ne.symm same, found]
  | markRestored other update now =>
      by_cases same : other = scope
      · subst same
        simp [perform, BaselineOp.scope, BaselineTable.revise, found]
      · simp [perform, BaselineOp.scope, BaselineTable.revise, same, Ne.symm same, found]
  | setUpdateState other update =>
      by_cases same : other = scope
      · subst same
        simp [perform, BaselineOp.scope, BaselineTable.revise, found]
      · simp [perform, BaselineOp.scope, BaselineTable.revise, same, Ne.symm same, found]

theorem perform_absent (op : BaselineOp) {table : BaselineTable} {scope : BaselineScope}
    (absent : table scope = none) :
    (op.perform table).2 scope = none ∨
      ∃ new, op = .insertPending new ∧ (op.perform table).2 scope = some new.record := by
  cases op with
  | read other => exact .inl absent
  | insertPending new =>
      by_cases same : new.scope = scope
      · subst same
        exact .inr ⟨new, rfl, by simp [perform, absent, BaselineTable.put, NewBaseline.record]⟩
      · cases occupied : table new.scope with
        | some other => exact .inl (by simpa [perform, occupied] using absent)
        | none =>
            have other : scope ≠ new.scope := Ne.symm same
            exact .inl (by simp [perform, occupied, BaselineTable.put, NewBaseline.record, other, absent])
  | transitionPending other state =>
      by_cases same : scope = other <;>
        simp_all [perform, BaselineTable.revise]
  | markRestored other update now =>
      by_cases same : scope = other <;>
        simp_all [perform, BaselineTable.revise]
  | setUpdateState other update =>
      by_cases same : scope = other <;>
        simp_all [perform, BaselineTable.revise]

end BaselineOp

section World

/-- One effect on the shared table. A statement happens or fails, everything else is answered by
the surroundings as they like. -/
def checkoutStep (table : BaselineTable) : (op : CheckoutOp) → op.Ret → BaselineTable → Prop
  | .baseline op, answer, table' =>
      answer = .ok (op.perform table).1 ∧ table' = (op.perform table).2 ∨
        (∃ error, answer = .error error) ∧ table' = table
  | _, _, table' => table' = table

def checkoutWorld : World BaselineTable CheckoutOp CheckoutOp.Ret where
  step _ := checkoutStep
  crash _ table table' := table' = table

def Settled (table : BaselineTable) : Prop :=
  ∀ scope record, table scope = some record → record.restoredAt.isSome → record.state ≠ .pending

def Present (scope : BaselineScope) (table : BaselineTable) : Prop := (table scope).isSome

def Pinned (scope : BaselineScope) (table : BaselineTable) : Prop :=
  ∃ record, table scope = some record ∧ record.state ≠ .pending

def Advance (table table' : BaselineTable) : Prop :=
  ∀ scope record, table scope = some record →
    ∃ record', table' scope = some record' ∧ record.Advances record'

def baselineContract : Contract BaselineTable where
  Inv := Settled
  guarantee _ := Advance

theorem perform_advance (op : BaselineOp) (table : BaselineTable) :
    Advance table (op.perform table).2 := by
  intro scope record found
  refine ⟨_, op.perform_found found, ?_⟩
  split
  · exact op.change_advances record
  · exact .refl record

theorem step_advance {table table' : BaselineTable} {op : CheckoutOp} {answer : op.Ret}
    (step : checkoutStep table op answer table') : Advance table table' := by
  cases op with
  | baseline op =>
      obtain ⟨_, rfl⟩ | ⟨_, rfl⟩ := step
      · exact perform_advance op table
      · exact fun scope record found => ⟨record, found, .refl record⟩
  | _ =>
      obtain rfl := step
      exact fun scope record found => ⟨record, found, .refl record⟩

theorem Advance.pinned {table table' : BaselineTable} {scope : BaselineScope}
    (advance : Advance table table') (pinned : Pinned scope table) : Pinned scope table' := by
  obtain ⟨record, found, settled⟩ := pinned
  obtain ⟨record', found', advances⟩ := advance scope record found
  exact ⟨record', found', (advances.state settled).symm ▸ settled⟩

theorem Advance.present {table table' : BaselineTable} {scope : BaselineScope}
    (advance : Advance table table') (present : Present scope table) : Present scope table' := by
  obtain ⟨record, found⟩ := Option.isSome_iff_exists.mp present
  obtain ⟨record', found', _⟩ := advance scope record found
  exact Option.isSome_iff_exists.mpr ⟨record', found'⟩

theorem stable_pinned (i : Pid) (scope : BaselineScope) : baselineContract.Stable i (Pinned scope) :=
  fun _ _ _ _ ⟨_, _, advance⟩ pinned => Advance.pinned advance pinned

def CheckoutOp.marks : CheckoutOp → Option BaselineScope
  | .baseline (.markRestored scope ..) => some scope
  | _ => none

def CheckoutOp.Unmarked (op : CheckoutOp) : Prop := op.marks = none

theorem step_settled {table table' : BaselineTable} {op : CheckoutOp} {answer : op.Ret}
    (settled : Settled table) (step : checkoutStep table op answer table')
    (pinned : ∀ scope ∈ op.marks, Pinned scope table) : Settled table' := by
  cases op with
  | baseline op =>
      obtain ⟨_, rfl⟩ | ⟨_, rfl⟩ := step
      · intro scope record' found' restored
        cases found : table scope with
        | none =>
            obtain absent | ⟨new, _, fresh⟩ := op.perform_absent found
            · rw [absent] at found'
              nomatch found'
            · rw [fresh, Option.some.injEq] at found'
              subst found'
              nomatch restored
        | some record =>
            have known := op.perform_found found
            rw [found', Option.some.injEq] at known
            subst known
            split at restored
            · rename_i same
              subst same
              rw [if_pos rfl]
              cases op with
              | markRestored scope update now =>
                  obtain ⟨row, there, notPending⟩ := pinned scope rfl
                  rw [show table scope = some record from found, Option.some.injEq] at there
                  exact there ▸ notPending
              | transitionPending scope state =>
                  by_cases pending : record.state = .pending
                  · rw [BaselineOp.change, if_pos pending] at restored
                    exact absurd pending (settled _ _ found restored)
                  · rwa [BaselineOp.change, if_neg pending]
              | read scope => exact settled _ _ found restored
              | insertPending new => exact settled _ _ found restored
              | setUpdateState scope update => exact settled _ record found restored
            · rename_i other
              rw [if_neg other]
              exact settled _ _ found restored
      · exact settled
  | _ =>
      obtain rfl := step
      exact settled

end World

section Rules
variable {i : Pid} {P : BaselineTable → Prop} {ε α : Type}

abbrev Upholds (i : Pid) (P : BaselineTable → Prop) (p : Attempt CheckoutOp CheckoutOp.Ret ε α)
    (Q : α → BaselineTable → Prop) : Prop :=
  Hoare checkoutWorld baselineContract i P p Q

theorem upholds_unmarked {p : Attempt CheckoutOp CheckoutOp.Ret ε α}
    (lasting : ∀ {table table'}, Advance table table' → P table → P table')
    (performs : Performs CheckoutOp.Unmarked p) : Upholds i P p fun _ => P := by
  apply hoare_performs (fun _ _ _ _ ⟨_, _, advance⟩ holds => lasting advance holds)
  · intro table op answer table' settled holds unmarked step
    have advance := step_advance step
    refine ⟨step_settled settled step ?_, advance, lasting advance holds⟩
    rw [show op.marks = none from unmarked]
    exact fun _ impossible => nomatch impossible
  · exact performs

end Rules

end Phasegent.Restore
