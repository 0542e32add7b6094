import Phasegent.Restore.Safety

namespace Phasegent.Restore
open Fallible Interleaving
open Lease (GitOutput)

section Guarded
variable {env : Surroundings} {params : CloseParams}

def CheckoutOp.Opens (op : CheckoutOp) : Prop := op.Quiet ∧ op.mutates = false

def Fresh (h : CheckoutHistory) : Prop := ∀ act ∈ h, act.effect.Opens

theorem Fresh.cons {h : CheckoutHistory} {op : CheckoutOp} (fresh : Fresh h) (opens : op.Opens)
    (r : op.Ret) : Fresh (⟨op, r⟩ :: h) :=
  List.forall_mem_cons.mpr ⟨opens, fresh⟩

theorem Fresh.unread {h : CheckoutHistory} {record : BaselineRecord} (fresh : Fresh h) :
    ¬RowRead record h :=
  fun ⟨_, among, _⟩ => nomatch (fresh _ among).1

theorem opens_leaseSchema : CheckoutOp.ensureLeaseSchema.Opens := ⟨rfl, rfl⟩

theorem opens_baselineSchema : CheckoutOp.ensureBaselineSchema.Opens := ⟨rfl, rfl⟩

theorem opens_originUrl : (CheckoutOp.git ["remote", "get-url", "origin"]).Opens := ⟨rfl, rfl⟩

theorem closeScope_traced {ok : CheckoutHistory → CheckoutOp → Prop} {P : CheckoutHistory → Prop}
    (repoKey : String) : Traced ok P (closeScope env params repoKey) (fun _ => P) fun _ _ => True := by
  unfold closeScope
  split
  · refine traced_renameFailure (F := fun _ _ => True) (fun _ _ _ => trivial) ?_
    exact (traced_fromExcept fun _ _ _ _ => trivial).weaken (fun _ _ holds => holds.2) fun _ _ _ => trivial
  · exact traced_throw fun _ _ => trivial

theorem traced_restoreIn {ok : CheckoutHistory → CheckoutOp → Prop}
    (opens : ∀ h op, Fresh h → op.Opens → ok h op)
    (read : ∀ h scope, Fresh h → ok h (.baseline (.read scope)))
    (rest : ∀ record, Traced ok (fun h => ∃ row r before, h = ⟨.baseline (.read record.scope), r⟩ :: before ∧
      r = .ok (some row) ∧ record = { row with scope := record.scope } ∧ Fresh before)
      (restoreRecord env params record) (fun _ _ => True) fun _ _ => True) :
    Traced ok (· = []) (restoreIn env params) (fun _ _ => True) fun _ _ => True := by
  have kept : ∀ {op : CheckoutOp} {ε α : Type} {decode : op.Ret → Except ε α}, op.Opens →
      Traced ok Fresh (request op decode) (fun _ => Fresh) fun _ _ => True := by
    intro op ε α decode holds
    apply traced_request fun h fresh => opens h op fresh holds
    exact fun h r fresh => ends_of_ok fun _ _ => fresh.cons holds r
  refine Traced.pre (M := Fresh) ?_ ?_
  · apply traced_bind (traced_renameFailure (F := fun _ _ => True) (fun _ _ _ => trivial)
      (kept opens_leaseSchema))
    intro _
    apply traced_bind (traced_renameFailure (F := fun _ _ => True) (fun _ _ _ => trivial)
      (kept opens_baselineSchema))
    intro _
    apply traced_bind (kept opens_originUrl)
    intro origin
    apply traced_bind (M := fun _ => Fresh)
    · refine traced_renameFailure (F := fun _ _ => True) (fun _ _ _ => trivial) ?_
      exact (traced_fromExcept fun _ _ _ _ => trivial).weaken (fun _ _ holds => holds.2) fun _ _ _ => trivial
    intro repoKey
    apply traced_bind (closeScope_traced repoKey)
    intro scope
    apply traced_bind (M := fun found h => ∃ answer before,
      h = ⟨.baseline (.read scope), .ok answer⟩ :: before ∧
        found = answer.map (fun row => { row with scope }) ∧ Fresh before)
    · refine traced_renameFailure (F := fun _ _ => True) (fun _ _ _ => trivial) ?_
      apply traced_bind (M := fun answer h => ∃ before,
        h = ⟨.baseline (.read scope), .ok answer⟩ :: before ∧ Fresh before)
      · apply traced_request fun h fresh => read h scope fresh
        rintro h r fresh
        apply ends_of_ok
        rintro answer rfl
        exact ⟨h, rfl, fresh⟩
      · intro answer
        apply traced_pure
        rintro h ⟨before, rfl, fresh⟩
        exact ⟨answer, before, rfl, rfl, fresh⟩
    intro found
    cases found with
    | none => exact traced_pure fun _ _ => trivial
    | some record =>
        apply (rest record).pre
        rintro h ⟨answer, before, rfl, same, fresh⟩
        obtain ⟨row, rfl, rfl⟩ := Option.map_eq_some_iff.mp same.symm
        exact ⟨row, _, before, rfl, rfl, rfl, fresh⟩
  · rintro h rfl
    exact fun _ impossible => nomatch impossible

theorem traced_justified :
    Traced (Justified env params) (· = []) (restoreIn env params) (fun _ _ => True) fun _ _ => True := by
  apply traced_restoreIn
  · exact fun h op _ opens => justified_of_quiet h op opens.1
  · exact fun h scope _ => justified_baseline nofun
  · intro record
    apply (traced_restoreRecord record).pre
    rintro h ⟨row, r, before, rfl, rfl, same, fresh⟩
    refine ⟨⟨row, List.mem_cons_self, same⟩, List.forall_mem_cons.mpr ⟨nofun, fun act among => ?_⟩⟩
    exact not_switches (fresh act among).1

end Guarded

section Finished
variable {env : Surroundings} {params : CloseParams}

/-- Restored, and its upstream settled. -/
def BaselineRecord.Done (record : BaselineRecord) : Prop :=
  record.restoredAt.isSome ∧ (record.updateState = .updated ∨ record.updateState = .skipped)

/-- The row is read once, and a change needs a row that is not done. -/
structure LeavesAlone (h : CheckoutHistory) (op : CheckoutOp) : Prop where
  change : op.mutates = true → ∃ record, RowRead record h ∧ (record.Done → record.state = .pending)
  once : ∀ scope, op = .baseline (.read scope) → ∀ record, ¬RowRead record h

theorem traced_done {record : BaselineRecord} (done : record.Done) (settled : record.state ≠ .pending)
    {ok : CheckoutHistory → CheckoutOp → Prop} {P : CheckoutHistory → Prop} :
    Traced ok P (restoreRecord env params record) (fun _ _ => True) fun _ _ => True := by
  have state : recoveredState params record = pure (some record.state) := if_neg settled
  unfold restoreRecord
  rw [state]
  apply traced_bind (traced_pure (Q := fun _ _ => True) fun _ _ => trivial)
  intro state
  split
  · exact traced_pure fun _ _ => trivial
  · rw [if_pos done.1, if_pos done.2]
    exact traced_pure fun _ _ => trivial

def CheckoutOp.Later (op : CheckoutOp) : Prop := ∀ scope, op ≠ .baseline (.read scope)

theorem later_recordRestored (record : BaselineRecord) (what : String) :
    Performs CheckoutOp.Later (recordRestored params record what) := by
  apply performs_bind (performs_request nofun)
  intro now
  exact performs_bind (performs_renameFailure (performs_request nofun)) fun _ => performs_pure _

theorem later_restoreRecord (record : BaselineRecord) :
    Performs CheckoutOp.Later (restoreRecord env params record) := by
  have later : ∀ op : CheckoutOp, op.Plain → op.Later := fun _ plain => plain.1
  have finish : Performs CheckoutOp.Later (finishUpstream env params record) :=
    (plain_finishUpstream record).mono later
  apply performs_bind ((performs_recoveredState record).mono fun op quiet => later op (plain_of_quiet op quiet))
  intro state
  split
  · exact performs_pure _
  · split
    · split
      · exact performs_pure _
      · exact finish
    · apply performs_bind (performs_renameFailure
        (performs_currentBranch.mono fun op quiet => later op (plain_of_quiet op quiet)))
      intro current
      split
      · exact performs_bind (later_recordRestored record _) fun _ => finish
      · apply performs_bind ((plain_switchBack record current).mono later)
        intro _
        exact performs_bind (later_recordRestored record _) fun _ => finish

theorem traced_leavesAlone :
    Traced LeavesAlone (· = []) (restoreIn env params) (fun _ _ => True) fun _ _ => True := by
  apply traced_restoreIn
  · exact fun h op fresh opens => ⟨fun changes => absurd (opens.2.symm.trans changes) nofun,
      fun _ _ _ => fresh.unread⟩
  · exact fun h scope fresh => ⟨nofun, fun _ _ _ => fresh.unread⟩
  · intro record
    by_cases left : record.Done ∧ record.state ≠ .pending
    · exact traced_done left.1 left.2
    · refine ((traced_performs (P := RowRead record) ?_ ?_ (later_restoreRecord record)).pre ?_).any
      · intro h op read later
        exact ⟨fun _ => ⟨record, read, fun done => not_not.mp fun settled => left ⟨done, settled⟩⟩,
          fun scope same => absurd same (later scope)⟩
      · exact fun h op r read _ => read.append [⟨op, r⟩]
      · rintro h ⟨row, r, before, rfl, rfl, same, fresh⟩
        exact ⟨row, List.mem_cons_self, same⟩

theorem RowRead.unique {h : CheckoutHistory} (guarded : Guarded LeavesAlone h)
    {record record' : BaselineRecord} (read : RowRead record h) (read' : RowRead record' h) :
    record = record' := by
  induction h with
  | nil => nomatch read
  | cons act before ih =>
      obtain ⟨row, among, same⟩ := read
      obtain ⟨row', among', same'⟩ := read'
      obtain here | earlier := List.mem_cons.mp among
      · subst here
        obtain here' | earlier' := List.mem_cons.mp among'
        · have scopes : record'.scope = record.scope := by simpa using congrArg Act.effect here'
          rw [scopes] at here' same'
          cases here'
          rw [same, same']
        · exact absurd ⟨row', earlier', same'⟩ (guarded.1.once _ rfl record')
      · obtain rfl | earlier' := List.mem_cons.mp among'
        · exact absurd ⟨row, earlier, same⟩ (guarded.1.once _ rfl record)
        · exact ih guarded.2 ⟨row, earlier, same⟩ ⟨row', earlier', same'⟩

theorem untouched {h : CheckoutHistory} (guarded : Guarded LeavesAlone h) {record : BaselineRecord}
    (read : RowRead record h) (done : record.Done) (settled : record.state ≠ .pending) :
    ∀ act ∈ h, act.effect.mutates = false := by
  intro act among
  rw [← Bool.not_eq_true]
  intro changes
  obtain ⟨later, before, rfl⟩ := List.append_of_mem among
  obtain ⟨record', read', open'⟩ := guarded.needs.change changes
  have there : RowRead record' (later ++ act :: before) := (read'.append [act]).append later
  obtain rfl := RowRead.unique guarded read there
  exact settled (open' done)

end Finished

section Pinned
variable {env : Surroundings} {params : CloseParams} {i : Pid}

theorem upholds_statement {op : BaselineOp} {P : BaselineTable → Prop}
    {Q : op.Ret → BaselineTable → Prop}
    (lasting : ∀ {table table'}, Advance table table' → P table → P table')
    (lasts : ∀ a, baselineContract.Stable i (Q a))
    (pinned : ∀ table, P table → ∀ scope ∈ (CheckoutOp.baseline op).marks, Pinned scope table)
    (performed : ∀ table, P table → Q (op.perform table).1 (op.perform table).2) :
    Upholds i P (statement op) Q := by
  apply hoare_request (fun _ _ _ _ ⟨_, _, advance⟩ holds => lasting advance holds) lasts
  intro table answer table' settled holds step
  have step : checkoutStep table (.baseline op) answer table' := step
  refine ⟨step_settled settled step (pinned table holds), step_advance step, ?_⟩
  obtain ⟨rfl, rfl⟩ | ⟨⟨error, rfl⟩, rfl⟩ := step
  · exact performed table holds
  · trivial

theorem transition_pins (table : BaselineTable) (scope : BaselineScope) {state : CheckoutState}
    (leaves : state ≠ .pending) (present : Present scope table) :
    Pinned scope ((BaselineOp.transitionPending scope state).perform table).2 := by
  obtain ⟨record, found⟩ := Option.isSome_iff_exists.mp present
  refine ⟨_, BaselineOp.perform_found _ found, ?_⟩
  rw [if_pos (show (BaselineOp.transitionPending scope state).scope = scope from rfl)]
  by_cases pending : record.state = .pending
  · rw [BaselineOp.change, if_pos pending]
    exact leaves
  · rwa [BaselineOp.change, if_neg pending]

theorem upholds_transitionTo (record : BaselineRecord) {state : CheckoutState}
    (leaves : state ≠ .pending) :
    Upholds i (Present record.scope) (transitionTo record state) fun _ => Pinned record.scope := by
  apply hoare_bind (M := fun _ => Pinned record.scope)
  · apply upholds_statement (fun advance => advance.present) fun _ => stable_pinned i record.scope
    · exact fun _ _ _ impossible => nomatch impossible
    · exact fun table => transition_pins table record.scope leaves
  · exact fun _ => hoare_pure (stable_pinned i record.scope) fun _ _ pinned => pinned

theorem unmarked_of_quiet (op : CheckoutOp) (quiet : op.Quiet) : op.Unmarked :=
  (plain_of_quiet op quiet).2

theorem upholds_recoveredState (record : BaselineRecord) :
    Upholds i (fun table => Present record.scope table ∧ (record.state ≠ .pending → Pinned record.scope table))
      (recoveredState params record) fun _ => Pinned record.scope := by
  unfold recoveredState
  split
  · apply Hoare.pre (M := Present record.scope) _ fun _ _ holds => holds.1
    have lasting : ∀ {table table'}, Advance table table' → Present record.scope table →
        Present record.scope table' := fun advance => advance.present
    apply hoare_renameFailure fun _ => stable_pinned i record.scope
    apply hoare_bind (upholds_unmarked lasting (performs_currentBranch.mono unmarked_of_quiet))
    intro branch
    split
    · exact upholds_transitionTo record nofun
    · apply hoare_bind (upholds_unmarked lasting (performs_headRev.mono unmarked_of_quiet))
      intro head
      split
      · exact upholds_transitionTo record nofun
      · exact hoare_throw
  · rename_i notPending
    exact hoare_pure (stable_pinned i record.scope) fun _ _ holds => holds.2 notPending

theorem upholds_recordRestored (record : BaselineRecord) (what : String) :
    Upholds i (Pinned record.scope) (recordRestored params record what) fun _ => Pinned record.scope := by
  have lasting : ∀ {table table'}, Advance table table' → Pinned record.scope table →
      Pinned record.scope table' := fun advance => advance.pinned
  apply hoare_bind (upholds_unmarked lasting (performs_request (show CheckoutOp.now.Unmarked from rfl)))
  intro now
  apply hoare_bind (M := fun _ => Pinned record.scope)
  · apply hoare_renameFailure fun _ => stable_pinned i record.scope
    apply upholds_statement lasting fun _ => stable_pinned i record.scope
    · rintro table pinned scope same
      cases same
      exact pinned
    · exact fun table => (perform_advance _ table).pinned
  · exact fun _ => hoare_pure (stable_pinned i record.scope) fun _ _ pinned => pinned

theorem upholds_restoreRecord (record : BaselineRecord) :
    Upholds i (fun table => Present record.scope table ∧ (record.state ≠ .pending → Pinned record.scope table))
      (restoreRecord env params record) fun _ _ => True := by
  have lasting : ∀ {table table'}, Advance table table' → Pinned record.scope table →
      Pinned record.scope table' := fun advance => advance.pinned
  have finish : Upholds i (Pinned record.scope) (finishUpstream env params record) fun _ _ => True :=
    (upholds_unmarked lasting ((plain_finishUpstream record).mono fun _ plain => plain.2)).weaken
      fun _ _ _ => trivial
  apply hoare_bind (upholds_recoveredState record)
  intro state
  split
  · exact hoare_pure (Contract.stable_const i True) fun _ _ _ => trivial
  · split
    · split
      · exact hoare_pure (Contract.stable_const i True) fun _ _ _ => trivial
      · exact finish
    · apply hoare_bind (upholds_unmarked lasting
        (performs_renameFailure (performs_currentBranch.mono unmarked_of_quiet)))
      intro current
      split
      · exact hoare_bind (upholds_recordRestored record _) fun _ => finish
      · apply hoare_bind (upholds_unmarked lasting ((plain_switchBack record current).mono fun _ plain => plain.2))
        exact fun _ => hoare_bind (upholds_recordRestored record _) fun _ => finish

theorem performs_closeScope (repoKey : String) :
    Performs CheckoutOp.Unmarked (closeScope env params repoKey) := by
  unfold closeScope
  split
  · exact performs_renameFailure (performs_fromExcept _)
  · exact performs_throw _

theorem upholds_any {ε α : Type} {p : Attempt CheckoutOp CheckoutOp.Ret ε α}
    (performs : Performs CheckoutOp.Unmarked p) :
    Upholds i (fun _ => True) p fun _ _ => True :=
  upholds_unmarked (fun _ _ => trivial) performs

def Backed (scope : BaselineScope) (found : Option BaselineRecord) (table : BaselineTable) : Prop :=
  ∀ record, found = some record →
    Present scope table ∧ (record.state ≠ .pending → Pinned scope table)

theorem stable_backed (scope : BaselineScope) (found : Option BaselineRecord) :
    baselineContract.Stable i (Backed scope found) := by
  intro table table' settled settled' ⟨j, other, advance⟩ backed record same
  obtain ⟨present, pinned⟩ := backed record same
  exact ⟨Advance.present advance present, fun left => Advance.pinned advance (pinned left)⟩

theorem stable_read (scope : BaselineScope) (found : Option BaselineRecord) :
    baselineContract.Stable i fun table =>
      (∀ record, found = some record → record.scope = scope) ∧ Backed scope found table :=
  (Contract.stable_const i _).and (stable_backed scope found)

theorem upholds_readBaseline (scope : BaselineScope) :
    Upholds i (fun _ => True) (readBaseline scope) fun found table =>
      (∀ record, found = some record → record.scope = scope) ∧ Backed scope found table := by
  apply hoare_bind (M := fun found : Option BaselineRecord => Backed scope found)
  · have lasts : ∀ found, baselineContract.Stable i (Backed scope found) := stable_backed scope
    refine upholds_statement (P := fun _ => True) (fun _ _ => trivial) lasts ?_ ?_
    · exact fun _ _ _ impossible => nomatch impossible
    · intro table _ record found
      exact ⟨Option.isSome_iff_exists.mpr ⟨record, found⟩, fun left => ⟨record, found, left⟩⟩
  · intro found
    apply hoare_pure (stable_read scope _)
    intro table settled backed
    refine ⟨fun record same => ?_, fun record same => ?_⟩
    · obtain ⟨row, rfl, rfl⟩ := Option.map_eq_some_iff.mp same
      rfl
    · obtain ⟨row, rfl, rfl⟩ := Option.map_eq_some_iff.mp same
      exact backed row rfl

theorem upholds_restoreIn : Upholds i (fun _ => True) (restoreIn env params) fun _ _ => True := by
  have unmarked : ∀ op : CheckoutOp, op.Opens → op.Unmarked :=
    fun op opens => unmarked_of_quiet op opens.1
  apply hoare_bind (upholds_any (performs_renameFailure (performs_request (unmarked _ opens_leaseSchema))))
  intro _
  apply hoare_bind
    (upholds_any (performs_renameFailure (performs_request (unmarked _ opens_baselineSchema))))
  intro _
  apply hoare_bind (upholds_any (performs_request (unmarked _ opens_originUrl)))
  intro origin
  apply hoare_bind (upholds_any (performs_renameFailure (performs_fromExcept _)))
  intro repoKey
  apply hoare_bind (upholds_any (performs_closeScope repoKey))
  intro scope
  apply hoare_bind (hoare_renameFailure (stable_read scope) (upholds_readBaseline scope))
  rintro (_ | record)
  · exact hoare_pure (Contract.stable_const i True) fun _ _ _ => trivial
  · apply (upholds_restoreRecord record).pre
    rintro table settled ⟨same, backed⟩
    obtain rfl := same record rfl
    exact backed record rfl

end Pinned

section Captures
variable {env : Surroundings} {params : CaptureParams}

theorem unmarked_readBaseline (scope : BaselineScope) :
    Performs CheckoutOp.Unmarked (readBaseline scope) :=
  performs_bind (performs_request (show CheckoutOp.Unmarked (.baseline (.read scope)) from rfl)) fun _ =>
    performs_pure _

theorem unmarked_prepareIn : Performs CheckoutOp.Unmarked (prepareIn env params) := by
  have unmarked : ∀ arguments, CheckoutOp.Unmarked (.git arguments) := fun _ => rfl
  apply performs_bind (performs_bind (performs_renameFailure (performs_bind
    (performs_request (unmarked _)) fun _ => performs_bind (performs_request (unmarked _)) fun _ =>
      performs_fromExcept _)) fun _ => performs_fromExcept _)
  intro _
  apply performs_bind (performs_renameFailure (performs_request (unmarked _)))
  intro actual
  apply performs_bind (performs_fromExcept _)
  intro _
  apply performs_bind (performs_renameFailure (performs_request (unmarked _)))
  intro head
  apply performs_bind (performs_fromExcept _)
  intro head
  apply performs_bind (performs_renameFailure (performs_fromExcept _))
  intro scope
  apply performs_bind (performs_renameFailure
    (performs_request (show CheckoutOp.ensureBaselineSchema.Unmarked from rfl)))
  intro _
  apply performs_bind (performs_request (show CheckoutOp.now.Unmarked from rfl))
  intro now
  apply performs_bind (performs_renameFailure (performs_bind (performs_fromExcept _) fun _ => ?_))
  · exact fun _ => performs_pure _
  · apply performs_bind (performs_request (show CheckoutOp.Unmarked (.baseline (.insertPending _)) from rfl))
    intro inserted
    apply performs_bind (unmarked_readBaseline _)
    intro found
    cases found with
    | none => exact performs_throw _
    | some record => exact performs_pure _

theorem performs_finalizeAfterCheckout {allowed : CheckoutOp → Prop} (scope : BaselineScope)
    (quiet : ∀ op : CheckoutOp, op.Quiet → allowed op) (read : allowed (.baseline (.read scope)))
    (transition : ∀ scope state, allowed (.baseline (.transitionPending scope state))) :
    Performs allowed (finalizeAfterCheckout scope) := by
  apply performs_bind (performs_bind (performs_request read) fun _ => performs_pure _)
  intro found
  cases found with
  | none => exact performs_throw _
  | some record =>
      apply performs_bind (performs_bind (performs_outcome (performs_currentBranch.mono quiet))
        fun _ => performs_pure _)
      intro branch
      apply performs_bind (performs_bind (performs_outcome (performs_headRev.mono quiet))
        fun _ => performs_pure _)
      intro head
      unfold settle
      split
      · exact performs_bind (performs_request (transition _ _)) fun _ => performs_pure _
      · split
        · exact performs_bind (performs_request (transition _ _)) fun _ => performs_pure _
        · exact performs_pure _

theorem unmarked_finalizeAfterCheckout (scope : BaselineScope) :
    Performs CheckoutOp.Unmarked (finalizeAfterCheckout scope) :=
  performs_finalizeAfterCheckout scope unmarked_of_quiet rfl fun _ _ => rfl

end Captures

section Fleet

inductive Call where
  | restore (env : Surroundings) (params : CloseParams)
  | capture (env : Surroundings) (params : CaptureParams)
  | settle (scope : BaselineScope)

inductive Report where
  | restored (outcome : RestoreOutcome)
  | captured (outcome : CaptureOutcome)
  | settled (state : Except String CheckoutState)

def Call.program : Call → Prog CheckoutOp CheckoutOp.Ret Report
  | .restore env params => (restoreOnClose env params).map .restored
  | .capture env params => (preparePending env params).map .captured
  | .settle scope => (finalizeAfterCheckout scope).run.map .settled

def begun (calls : Pid → Option Call) : Config BaselineTable CheckoutOp CheckoutOp.Ret Report :=
  ⟨fun _ => none, fun i => (calls i).map Call.program⟩

theorem triple_map {α β : Type} {i : Pid} {P : BaselineTable → Prop} {Q : α → BaselineTable → Prop}
    {p : Prog CheckoutOp CheckoutOp.Ret α} {f : α → β}
    (triple : Triple checkoutWorld baselineContract i P p Q) :
    Triple checkoutWorld baselineContract i P (p.map f) fun _ _ => True :=
  Triple.bind triple fun _ => Triple.done (Contract.stable_const i True) fun _ _ _ => trivial

theorem begun_safe (calls : Pid → Option Call) :
    (begun calls).Safe checkoutWorld baselineContract fun _ _ _ => True := by
  have empty : Settled (begun calls).shared := fun _ _ impossible => nomatch impossible
  refine ⟨empty, fun i p running => ?_⟩
  obtain ⟨call, _, rfl⟩ := Option.map_eq_some_iff.mp running
  have triple : Triple checkoutWorld baselineContract i (fun _ => True) call.program fun _ _ => True := by
    cases call with
    | restore env params => exact triple_map (triple_map upholds_restoreIn.triple)
    | capture env params => exact triple_map (triple_map (upholds_any unmarked_prepareIn).triple)
    | settle scope => exact triple_map (upholds_any (unmarked_finalizeAfterCheckout scope)).triple
  exact triple _ empty trivial

theorem Run.settled {calls : Pid → Option Call}
    {c : Config (BaselineTable × List (Event BaselineTable CheckoutOp CheckoutOp.Ret)) CheckoutOp
      CheckoutOp.Ret Report}
    (run : Run checkoutWorld.record (begun calls).record c) : Settled c.shared.1 := by
  have safe := Run.safe (fun i table table' settled crashed => ⟨crashed ▸ settled, ?_⟩)
    (begun_safe calls) run.forget
  · exact safe.1
  · obtain rfl : table' = table := crashed
    exact fun scope record found => ⟨record, found, .refl record⟩

/-- A close against any answers, in any company: what it changes is justified, and a row that is
done is left alone. -/
theorem restoration_justified (calls : Pid → Option Call)
    {c : Config (BaselineTable × List (Event BaselineTable CheckoutOp CheckoutOp.Ret)) CheckoutOp
      CheckoutOp.Ret Report}
    (run : Run checkoutWorld.record (begun calls).record c) {i : Pid} {env : Surroundings}
    {params : CloseParams} (called : calls i = some (.restore env params)) :
    (∀ later act before, historyOf i c.shared.2 = later ++ act :: before →
      Justified env params before act.effect) ∧
    ∀ record, RowRead record (historyOf i c.shared.2) → record.Done →
      ∀ act ∈ historyOf i c.shared.2, act.effect.mutates = false := by
  have started : (begun calls).procs i = some (Call.restore env params).program := by
    simp [begun, called]
  obtain ⟨p, reached⟩ := run.reaches started
  have guarded : ∀ {ok}, Traced ok (· = []) (restoreIn env params) (fun _ _ => True) (fun _ _ => True) →
      Guarded ok (historyOf i c.shared.2) := by
    intro ok traced
    have along := (traced.reaches .start).2
    exact (Prog.Along.reaches (Prog.Along.map (Q := fun _ _ => True) (Prog.Along.map
      (Q := fun _ _ => True) (along.weaken fun _ _ _ => trivial))) reached).1
  refine ⟨fun later act before same => ?_, fun record read done => ?_⟩
  · have all := guarded traced_justified
    rw [same] at all
    exact all.needs
  · apply untouched (guarded traced_leavesAlone) read done
    obtain ⟨row, among, same⟩ := read
    obtain ⟨event, member, shown⟩ := List.mem_map.mp among
    have performed := run.genuine event (List.mem_filter.mp member).1
    have settled := run.always (fun c' run' => Run.settled run') event (List.mem_filter.mp member).1
    obtain ⟨pid, effect, answer, table, table'⟩ := event
    cases shown
    obtain ⟨found, _⟩ | ⟨⟨_, failed⟩, _⟩ := performed
    · rw [same] at done ⊢
      exact settled _ row (Except.ok.inj found).symm done.1
    · nomatch failed

end Fleet

section Example

def home : Surroundings := ⟨id, id, .ok⟩

def captureSeven : CaptureParams :=
  ⟨"/repo", "local:/repo", "local", "default", 7, "issue/7", "main", some "main"⟩

def closeSeven : CloseParams :=
  ⟨⟨"/repo/.git", "/repo"⟩, some "local", some "default", 7, some "ses_a"⟩

def captureThenClose : Pid → Option Call
  | 0 => some (.capture home captureSeven)
  | 1 => some (.restore home closeSeven)
  | _ => none

abbrev Recorded := BaselineTable × List (Event BaselineTable CheckoutOp CheckoutOp.Ret)

def branchNow (recorded : Recorded) : String :=
  if recorded.2.any fun event => event.effect.command == some "switch" then "main"
  else if recorded.2.any fun event => event.pid == 1 then "issue/7" else "main"

def gitAnswer (recorded : Recorded) (arguments : List String) : GitOutput :=
  if arguments = symbolicRef then ⟨0, branchNow recorded⟩
  else if arguments = verifyHead then ⟨0, "c0"⟩
  else if arguments.head? = some "rev-parse" then ⟨0, "/repo/.git"⟩
  else if arguments.head? = some "config" then ⟨1, ""⟩
  else if arguments.head? = some "remote" then ⟨2, ""⟩
  else ⟨0, ""⟩

def answerTo (recorded : Recorded) : (op : CheckoutOp) → op.Ret × BaselineTable
  | .ensureLeaseSchema => (.ok (), recorded.1)
  | .ensureBaselineSchema => (.ok (), recorded.1)
  | .baseline op => (.ok (op.perform recorded.1).1, (op.perform recorded.1).2)
  | .git arguments => (.ok (gitAnswer recorded arguments), recorded.1)
  | .leases _ => (.ok [], recorded.1)
  | .host (.list ..) => (.ok ⟨[⟨"ses_a", "/repo", none⟩], none⟩, recorded.1)
  | .host (.session id) => (.ok ⟨id, "/repo", none⟩, recorded.1)
  | .host (.moveSession ..) => (.ok (), recorded.1)
  | .host .activeSessions => (.ok [], recorded.1)
  | .host .resolveMainCheckout => (.ok "/repo", recorded.1)
  | .host .budgetExpired => (false, recorded.1)
  | .host .budgetRemaining => (0, recorded.1)
  | .host (.poll _) => ((), recorded.1)
  | .now => (5, recorded.1)

def act (i : Pid) (recorded : Recorded) (op : CheckoutOp) : op.Ret × Recorded :=
  ((answerTo recorded op).1, ((answerTo recorded op).2,
    ⟨i, op, (answerTo recorded op).1, recorded.1, (answerTo recorded op).2⟩ :: recorded.2))

theorem act_sound (i : Pid) (recorded : Recorded) (op : CheckoutOp) :
    checkoutWorld.record.step i recorded op (act i recorded op).1 (act i recorded op).2 := by
  refine ⟨?_, rfl⟩
  cases op with
  | baseline op => exact .inl ⟨rfl, rfl⟩
  | host op => cases op <;> rfl
  | _ => rfl

def closed : Config Recorded CheckoutOp CheckoutOp.Ret Report :=
  (begun captureThenClose).record.replay act (List.replicate 8 0 ++ List.replicate 18 1)

theorem closed_run : Run checkoutWorld.record (begun captureThenClose).record closed :=
  .replay act_sound _ _

/-- A captured baseline is switched back to when the issue closes. -/
theorem seven_restored :
    ∃ before, SwitchJustified home closeSeven before ["switch", "--no-guess", "main"] := by
  have justified := (restoration_justified captureThenClose closed_run (i := 1) rfl).1
  have switched : CheckoutOp.git ["switch", "--no-guess", "main"] ∈
      (historyOf 1 closed.shared.2).map (·.effect) := by decide +kernel
  obtain ⟨act, among, same⟩ := List.mem_map.mp switched
  obtain ⟨later, before, split⟩ := List.append_of_mem among
  exact ⟨before, (justified later act before split).switch _ same (by rw [same]; rfl)⟩

end Example

end Phasegent.Restore
