import Phasegent.Restore.Runs

namespace Phasegent.Restore
open Fallible Interleaving
open Lease (GitOutput WorktreeError)

section Rows

/-- What any statement leaves of a row: its evidence, a state that only leaves pending, and the time of
its restoration. -/
structure BaselineRecord.Keeps (record record' : BaselineRecord) : Prop extends record.Advances record' where
  restored : ∀ now, record.restoredAt = some now → record'.restoredAt = some now

def Keeping (table table' : BaselineTable) : Prop :=
  ∀ scope record, table scope = some record →
    ∃ record', table' scope = some record' ∧ record.Keeps record'

def RestoredActive (table : BaselineTable) : Prop :=
  ∀ scope record, table scope = some record → record.restoredAt.isSome → record.state = .active

theorem BaselineRecord.Keeps.refl (record : BaselineRecord) : record.Keeps record :=
  ⟨.refl record, fun _ same => same⟩

theorem BaselineRecord.Keeps.trans {first second third : BaselineRecord} (early : first.Keeps second)
    (late : second.Keeps third) : first.Keeps third := by
  refine ⟨⟨late.scope.trans early.scope, late.issueBranch.trans early.issueBranch,
    late.baselineBranch.trans early.baselineBranch, late.baselineHead.trans early.baselineHead,
    late.recordedAt.trans early.recordedAt, fun settled => ?_⟩, fun now same => ?_⟩
  · have kept := early.state settled
    rw [← kept]
    exact late.state (kept ▸ settled)
  · exact late.restored now (early.restored now same)

theorem Keeping.refl (table : BaselineTable) : Keeping table table :=
  fun _ record found => ⟨record, found, .refl record⟩

theorem Keeping.trans {first second third : BaselineTable} (early : Keeping first second)
    (late : Keeping second third) : Keeping first third := by
  intro scope record found
  obtain ⟨record', found', keeps⟩ := early scope record found
  obtain ⟨record'', found'', keeps'⟩ := late scope record' found'
  exact ⟨record'', found'', keeps.trans keeps'⟩

theorem BaselineOp.change_keeps (op : BaselineOp) (record : BaselineRecord) :
    record.Keeps (op.change record) := by
  refine ⟨op.change_advances record, fun now same => ?_⟩
  cases op with
  | transitionPending scope state =>
      rw [change]
      split
      · exact same
      · exact same
  | markRestored scope update time => simp [change, same]
  | _ => exact same

theorem perform_keeping (op : BaselineOp) (table : BaselineTable) : Keeping table (op.perform table).2 := by
  intro scope record found
  refine ⟨_, op.perform_found found, ?_⟩
  split
  · exact op.change_keeps record
  · exact .refl record

theorem step_keeping {table table' : BaselineTable} {op : CheckoutOp} {answer : op.Ret}
    (step : checkoutStep table op answer table') : Keeping table table' := by
  cases op with
  | baseline op =>
      obtain ⟨_, rfl⟩ | ⟨_, rfl⟩ := step
      · exact perform_keeping op _
      · exact .refl _
  | _ =>
      obtain rfl := step
      exact .refl _

end Rows

section Observation

-- What a caller sees that takes an unreadable answer for none.
def seen {α : Type} (decode : GitOutput → Except String α) (answer : Except WorktreeError GitOutput) :
    Option α :=
  match answer with
  | .ok output => (decode output).toOption
  | .error _ => none

def branchSeen (answer : Except WorktreeError GitOutput) : Option String := seen readBranch answer

def headSeen (answer : Except WorktreeError GitOutput) : Option String := (seen readHead answer).join

/-- The checkout is on the captured issue branch, or unchanged on the baseline. -/
def Recognised (record : BaselineRecord) (branch head : Option String) : Prop :=
  branch = some record.issueBranch ∨ branch = some record.baselineBranch ∧ head = some record.baselineHead

instance (record : BaselineRecord) (branch head : Option String) : Decidable (Recognised record branch head) :=
  inferInstanceAs (Decidable (_ ∨ _))

end Observation

section Programs

def recoverScope (scope : BaselineScope) : Checked (Option CheckoutState) := do
  let found ← readBaseline scope
  match found with
  | some record => if record.state = .pending then recoverPending record else return none
  | none => return none

/-- What works on the baselines: the calls of the commands, a recovery on its own, and single statements. -/
inductive BaselineCall where
  | command (call : Call)
  | recover (scope : BaselineScope)
  | write (op : BaselineOp)

inductive BaselineReport where
  | reported (report : Report)
  | recovered (state : Except String (Option CheckoutState))
  | wrote

def BaselineCall.program : BaselineCall → Prog CheckoutOp CheckoutOp.Ret BaselineReport
  | .command call => call.program.map .reported
  | .recover scope => (recoverScope scope).run.map .recovered
  | .write op => (statement op).run.map fun _ => .wrote

def opened (calls : Pid → Option BaselineCall) :
    Config BaselineTable CheckoutOp CheckoutOp.Ret BaselineReport :=
  ⟨fun _ => none, fun i => (calls i).map BaselineCall.program⟩

abbrev transitioned (scope : BaselineScope) (state : CheckoutState) (answer : Bool) :
    Act CheckoutOp CheckoutOp.Ret := ⟨.baseline (.transitionPending scope state), .ok answer⟩

abbrev rowFound (scope : BaselineScope) (record : BaselineRecord) : Act CheckoutOp CheckoutOp.Ret :=
  ⟨.baseline (.read scope), .ok (some record)⟩

theorem readable_git {arguments : List String} {α : Type} {decode : GitOutput → Except String α} :
    readable (git arguments decode) = request (.git arguments) fun answer => .ok (seen decode answer) := by
  apply ExceptT.ext
  simp only [readable, outcome, git, request, run_bind, ExceptT.run_mk, Prog.bind_call, Prog.bind_done]
  congr 1
  funext answer
  cases answer with
  | ok output => rfl
  | error error => rfl

theorem reads_readable {arguments : List String} {α : Type} {decode : GitOutput → Except String α} :
    Reads (fun _ => True) (readable (git arguments decode)) fun found part =>
      ∃ answer, part = [⟨.git arguments, answer⟩] ∧ found = seen decode answer := by
  rw [readable_git]
  apply reads_request trivial
  intro answer found same
  exact ⟨answer, rfl, (Except.ok.inj same).symm⟩

theorem reads_statement {op : BaselineOp} : Reads (fun _ => True) (statement op) fun answer part =>
    part = [⟨.baseline op, .ok answer⟩] := by
  apply reads_request trivial
  intro r a same
  rw [show r = .ok a from same]

theorem reads_readBaseline (scope : BaselineScope) : Reads (fun _ => True) (readBaseline scope)
    fun found part => ∀ record, found = some record →
      record.scope = scope ∧ ∃ row, part = [rowFound scope row] ∧ record = { row with scope } := by
  apply reads_bind reads_statement
  intro found part same
  apply reads_pure
  intro record given
  obtain ⟨row, rfl, rfl⟩ := Option.map_eq_some_iff.mp given
  exact ⟨rfl, row, same, rfl⟩

theorem reads_transition (scope : BaselineScope) (state : CheckoutState) {α : Type} (result : α) :
    Reads (fun _ => True) (statement (.transitionPending scope state) >>= fun _ => pure result)
      fun answer part => answer = result ∧ ∃ changed, part = [transitioned scope state changed] := by
  apply reads_bind reads_statement
  intro changed part same
  apply reads_pure
  exact ⟨rfl, changed, same⟩

theorem reads_recoverPending (record : BaselineRecord) : Reads (fun _ => True) (recoverPending record)
    fun answer part => ∀ state, answer = some state →
      ∃ changed, part.head? = some (transitioned record.scope state changed) := by
  apply reads_bind (reads_of_performs (performs_currentBranch.mono fun _ _ => trivial))
  intro branch part _
  split
  · apply (reads_transition record.scope .active _).weaken
    intro answer later ⟨same, changed, moved⟩ state given
    rw [same, Option.some.injEq] at given
    exact ⟨changed, by rw [moved, given]; rfl⟩
  · apply reads_bind (reads_of_performs (performs_headRev.mono fun _ _ => trivial))
    intro head part' _
    split
    · apply (reads_transition record.scope .aborted _).weaken
      intro answer later ⟨same, changed, moved⟩ state given
      rw [same, Option.some.injEq] at given
      exact ⟨changed, by rw [moved, given]; rfl⟩
    · exact reads_throw

/-- The row was read, and either it was just moved to the answered state, or the answer is pending and the
checkout was not recognised. -/
def Finalized (scope : BaselineScope) (state : CheckoutState) (part : CheckoutHistory) : Prop :=
  (∃ row, rowFound scope row ∈ part) ∧
    ((∃ changed, part.head? = some (transitioned scope state changed)) ∨
      state = .pending ∧ ∃ row branch head,
        part = [⟨.git verifyHead, head⟩, ⟨.git symbolicRef, branch⟩, rowFound scope row] ∧
          ¬Recognised row (branchSeen branch) (headSeen head))

theorem reads_finalize (scope : BaselineScope) :
    Reads (fun _ => True) (finalizeAfterCheckout scope) (Finalized scope) := by
  apply reads_bind (reads_readBaseline scope)
  intro found part loaded
  cases found with
  | none => exact reads_throw
  | some record =>
      obtain ⟨located, row, read, same⟩ := loaded record rfl
      apply reads_bind reads_readable
      intro branch part₁ ⟨branchAnswer, first, branchSaw⟩
      apply reads_bind reads_readable
      intro head part₂ ⟨headAnswer, second, headSaw⟩
      unfold settle
      split
      · apply (reads_transition record.scope .active _).weaken
        intro state later ⟨same, changed, moved⟩
        refine ⟨⟨row, by simp [read]⟩, .inl ⟨changed, ?_⟩⟩
        rw [moved, same, located]
        rfl
      · rename_i elsewhere
        split
        · apply (reads_transition record.scope .aborted _).weaken
          intro state later ⟨same, changed, moved⟩
          refine ⟨⟨row, by simp [read]⟩, .inl ⟨changed, ?_⟩⟩
          rw [moved, same, located]
          rfl
        · rename_i moved
          apply reads_pure
          refine ⟨⟨row, by simp [read]⟩, .inr ⟨rfl, row, branchAnswer, headAnswer, ?_, ?_⟩⟩
          · rw [first, second, read]
            rfl
          · rw [branchSaw, same] at elsewhere
            rw [branchSaw, headSaw, same] at moved
            exact fun known => known.elim elsewhere moved

def Moved (scope : BaselineScope) (state : CheckoutState) (part : CheckoutHistory) : Prop :=
  (∃ row, rowFound scope row ∈ part) ∧ ∃ changed, part.head? = some (transitioned scope state changed)

theorem reads_recoverScope (scope : BaselineScope) : Reads (fun _ => True) (recoverScope scope)
    fun answer part => ∀ state, answer = some state → Moved scope state part := by
  apply reads_bind (reads_readBaseline scope)
  intro found part loaded
  cases found with
  | none =>
      apply reads_pure
      intro state given
      cases given
  | some record =>
      obtain ⟨located, row, read, -⟩ := loaded record rfl
      by_cases pending : record.state = .pending
      · simp only [pending, if_true]
        apply (reads_recoverPending record).weaken
        intro answer later moves state given
        obtain ⟨changed, moved⟩ := moves state given
        rw [located] at moved
        obtain ⟨rest, split⟩ := List.head?_eq_some_iff.mp moved
        exact ⟨⟨row, by simp [read]⟩, changed, by rw [split]; rfl⟩
      · simp only [pending, if_false]
        apply reads_pure
        intro state given
        cases given

end Programs

section Runs
variable (calls : Pid → Option BaselineCall)

/-- A finalization that recognises neither branch sees that while the row is pending. -/
def Unrecognised (i : Pid) (recorded : Recorded) (head : Except WorktreeError GitOutput) : Prop :=
  match calls i, historyOf i recorded.2 with
  | some (.command (.settle scope)), [⟨.git _, branch⟩, ⟨.baseline (.read _), .ok (some row)⟩] =>
      Recognised row (branchSeen branch) (headSeen head) ∨
        ∀ record ∈ recorded.1 scope, record.state = .pending
  | _, _ => True

/-- The condition on a step: a transition meets a pending row or one that is in its state already, a
restoration is recorded of an active row, and what is left pending is pending. -/
def Careful (i : Pid) (recorded : Recorded) : (op : CheckoutOp) → op.Ret → Prop
  | .baseline (.transitionPending scope state), _ =>
      ∀ record ∈ recorded.1 scope, record.state = .pending ∨ record.state = state
  | .baseline (.markRestored scope _ _), _ => ∀ record ∈ recorded.1 scope, record.state = .active
  | .git _, head => Unrecognised calls i recorded head
  | _, _ => True

abbrev carefulWorld : World Recorded CheckoutOp CheckoutOp.Ret := checkoutWorld.record.guard (Careful calls)

variable {calls} {c c' : Config Recorded CheckoutOp CheckoutOp.Ret BaselineReport}

theorem Run.keeping (run : Run (carefulWorld calls) c c') : Keeping c.shared.1 c'.shared.1 := by
  refine Run.related (fun s s' : Recorded => Keeping s.1 s'.1) (fun s => .refl s.1)
    (fun early late => Keeping.trans early late) ?_ ?_ run
  · intro i s op answer s' step
    exact step_keeping step.1.1
  · intro i s s' crashed
    rw [show s'.1 = s.1 from crashed.1]
    exact .refl s.1

theorem perform_restoredActive {op : BaselineOp} {table : BaselineTable} (active : RestoredActive table)
    (marked : ∀ scope update now, op = .markRestored scope update now →
      ∀ record ∈ table scope, record.state = .active) : RestoredActive (op.perform table).2 := by
  intro scope record' found' restored
  cases found : table scope with
  | none =>
      obtain absent | ⟨new, _, fresh⟩ := op.perform_absent found
      · rw [absent] at found'
        cases found'
      · rw [fresh, Option.some.injEq] at found'
        rw [← found'] at restored
        cases restored
  | some record =>
      have known := op.perform_found found
      rw [found', Option.some.injEq] at known
      by_cases own : op.scope = scope
      · rw [if_pos own] at known
        cases op with
        | markRestored other update now =>
            rw [known]
            rw [← own] at found
            exact marked other update now rfl record found
        | transitionPending other state =>
            by_cases pending : record.state = .pending
            · rw [BaselineOp.change, if_pos pending] at known
              rw [known] at restored
              have settled := active scope record found restored
              rw [pending] at settled
              cases settled
            · rw [BaselineOp.change, if_neg pending] at known
              rw [known] at restored ⊢
              exact active scope record found restored
        | setUpdateState other update =>
            rw [known] at restored ⊢
            exact active scope record found restored
        | read other =>
            rw [known] at restored ⊢
            exact active scope record found restored
        | insertPending new =>
            rw [known] at restored ⊢
            exact active scope record found restored
      · rw [if_neg own] at known
        rw [known] at restored ⊢
        exact active scope record found restored

theorem Run.restoredActive (run : Run (carefulWorld calls) (opened calls).record c) :
    RestoredActive c.shared.1 := by
  refine Run.invariant (fun s : Recorded => RestoredActive s.1) ?_ ?_ run ?_
  · intro i s op answer s' active step
    obtain ⟨⟨performed, -⟩, careful⟩ := step
    cases op with
    | baseline op =>
        obtain ⟨-, left⟩ | ⟨-, left⟩ := performed
        · rw [left]
          apply perform_restoredActive active
          intro scope update now same
          subst same
          exact careful
        · rw [left]
          exact active
    | _ =>
        rw [show s'.1 = s.1 from performed]
        exact active
  · intro i s s' active crashed
    rw [show s'.1 = s.1 from crashed.1]
    exact active
  · intro scope record found
    cases found

theorem Run.found (run : Run (carefulWorld calls) (opened calls).record c) {i : Pid} {scope : BaselineScope}
    {row : BaselineRecord} (read : rowFound scope row ∈ historyOf i c.shared.2) :
    ∃ record, c.shared.1 scope = some record := by
  obtain ⟨event, among, shown⟩ := List.mem_map.mp read
  have performed := run.unguard.genuine event (List.mem_filter.mp among).1
  have still : ∀ event ∈ c.shared.2, Keeping event.before c.shared.1 := by
    refine Run.invariant (fun s : Recorded => ∀ event ∈ s.2, Keeping event.before s.1) ?_ ?_ run ?_
    · intro i s op answer s' kept step event among
      have keeping := step_keeping step.1.1
      rw [step.1.2] at among
      obtain rfl | earlier := List.mem_cons.mp among
      · exact keeping
      · exact (kept event earlier).trans keeping
    · intro i s s' kept crashed event among
      rw [crashed.2] at among
      rw [show s'.1 = s.1 from crashed.1]
      exact kept event among
    · intro event among
      cases among
  have keeps := still event (List.mem_filter.mp among).1
  obtain ⟨pid, effect, answer, table, table'⟩ := event
  cases shown
  obtain ⟨answered, -⟩ | ⟨⟨_, failed⟩, -⟩ := performed
  · obtain ⟨record, found, -⟩ := keeps scope row (Except.ok.inj answered).symm
    exact ⟨record, found⟩
  · cases failed

theorem Run.transitioned (run : Run (carefulWorld calls) (opened calls).record c) {event : Event BaselineTable
      CheckoutOp CheckoutOp.Ret} {earlier : List (Event BaselineTable CheckoutOp CheckoutOp.Ret)}
    (split : c.shared.2 = event :: earlier) {scope : BaselineScope} {state : CheckoutState} {changed : Bool}
    (moved : event.act = transitioned scope state changed) {record : BaselineRecord}
    (stored : c.shared.1 scope = some record) : record.state = state := by
  have performed := run.unguard.genuine event (split ▸ List.mem_cons_self)
  have newest := Run.newest (fun crashed => crashed) run.unguard split
  have careful := Run.admitted run (show c.shared.2 = [] ++ event :: earlier from split)
  obtain ⟨pid, effect, answer, table, table'⟩ := event
  cases moved
  obtain ⟨-, left⟩ | ⟨⟨_, failed⟩, -⟩ := performed
  · rw [← show table' = c.shared.1 from newest, show table' = _ from left] at stored
    cases before : table scope with
    | none =>
        obtain absent | ⟨new, same, -⟩ := (BaselineOp.transitionPending scope state).perform_absent before
        · rw [absent] at stored
          cases stored
        · cases same
    | some record' =>
        have known := (BaselineOp.transitionPending scope state).perform_found before
        have own : (BaselineOp.transitionPending scope state).scope = scope := rfl
        rw [stored, if_pos own, Option.some.injEq] at known
        rw [known, BaselineOp.change]
        obtain pending | settled := careful record' before
        · rw [if_pos pending]
        · split
          · rfl
          · exact settled
  · cases failed

theorem historyOf_cons {i : Pid} {event : Event BaselineTable CheckoutOp CheckoutOp.Ret}
    {earlier : List (Event BaselineTable CheckoutOp CheckoutOp.Ret)} (own : event.pid = i) :
    historyOf i (event :: earlier) = event.act :: historyOf i earlier := by
  simp [historyOf, own]

theorem Run.finalized (run : Run (carefulWorld calls) (opened calls).record c) {event : Event BaselineTable
      CheckoutOp CheckoutOp.Ret} {earlier : List (Event BaselineTable CheckoutOp CheckoutOp.Ret)}
    (split : c.shared.2 = event :: earlier) {scope : BaselineScope} {state : CheckoutState}
    (called : calls event.pid = some (.command (.settle scope)))
    (finished : c.procs event.pid = some (.done (.reported (.settled (.ok state))))) :
    ∃ record, c.shared.1 scope = some record ∧ record.state = state := by
  obtain ⟨p₀, started, reached⟩ := run.unguard.reached finished
  have program : BaselineCall.program (.command (.settle scope)) = p₀ := by
    simpa [opened, called] using started
  have along : p₀.Along (fun _ _ => True) (fun report h => ∀ state, report = .reported (.settled (.ok state)) →
      Finalized scope state h) [] := by
    rw [← program]
    apply Prog.Along.map
    apply Prog.Along.map
    apply (reads_finalize scope).along.weaken
    intro result h holds state same
    cases same
    exact holds state rfl
  have ended := (Prog.Along.reaches along reached).2 state rfl
  obtain ⟨⟨row, read⟩, ⟨changed, moved⟩ | ⟨rfl, row', branch, head, whole, unseen⟩⟩ := ended
  · obtain ⟨record, found⟩ := Run.found run read
    rw [split, historyOf_cons rfl, List.head?_cons, Option.some.injEq] at moved
    exact ⟨record, found, Run.transitioned run split moved found⟩
  · obtain ⟨record, found⟩ := Run.found run read
    refine ⟨record, found, ?_⟩
    rw [split, historyOf_cons rfl] at whole
    obtain ⟨newest, before⟩ := List.cons.inj whole
    have performed := run.unguard.genuine event (split ▸ List.mem_cons_self)
    have left := Run.newest (fun crashed => crashed) run.unguard split
    have careful := Run.admitted run (show c.shared.2 = [] ++ event :: earlier from split)
    obtain ⟨pid, effect, answer, table, table'⟩ := event
    cases newest
    have same : c.shared.1 = table := left.symm.trans performed
    simp only [Careful, Unrecognised, called, before] at careful
    exact careful.resolve_left unseen record (same ▸ found)

theorem Run.recovered (run : Run (carefulWorld calls) (opened calls).record c) {event : Event BaselineTable
      CheckoutOp CheckoutOp.Ret} {earlier : List (Event BaselineTable CheckoutOp CheckoutOp.Ret)}
    (split : c.shared.2 = event :: earlier) {scope : BaselineScope} {state : CheckoutState}
    (called : calls event.pid = some (.recover scope))
    (finished : c.procs event.pid = some (.done (.recovered (.ok (some state))))) :
    ∃ record, c.shared.1 scope = some record ∧ record.state = state := by
  obtain ⟨p₀, started, reached⟩ := run.unguard.reached finished
  have program : BaselineCall.program (.recover scope) = p₀ := by
    simpa [opened, called] using started
  have along : p₀.Along (fun _ _ => True) (fun report h => ∀ state, report = .recovered (.ok (some state)) →
      Moved scope state h) [] := by
    rw [← program]
    apply Prog.Along.map
    apply (reads_recoverScope scope).along.weaken
    intro result h holds state same
    cases same
    exact holds _ rfl state rfl
  obtain ⟨⟨row, read⟩, changed, moved⟩ := (Prog.Along.reaches along reached).2 state rfl
  obtain ⟨record, found⟩ := Run.found run read
  rw [split, historyOf_cons rfl, List.head?_cons, Option.some.injEq] at moved
  exact ⟨record, found, Run.transitioned run split moved found⟩

/-- In a run whose steps all meet the condition, evidence stays, states move once, restored rows are active,
and what a finalization or a recovery returns is stored. -/
theorem baselines_consistent (run : Run (carefulWorld calls) (opened calls).record c)
    (later : Run (carefulWorld calls) c c') :
    Keeping c.shared.1 c'.shared.1 ∧ RestoredActive c.shared.1 ∧
    ∀ event earlier, c.shared.2 = event :: earlier → ∀ scope state,
      (calls event.pid = some (.command (.settle scope)) ∧
          c.procs event.pid = some (.done (.reported (.settled (.ok state)))) ∨
        calls event.pid = some (.recover scope) ∧
          c.procs event.pid = some (.done (.recovered (.ok (some state))))) →
      ∃ record, c.shared.1 scope = some record ∧ record.state = state := by
  refine ⟨Run.keeping later, Run.restoredActive run, fun event earlier split scope state returned => ?_⟩
  obtain ⟨called, finished⟩ | ⟨called, finished⟩ := returned
  · exact Run.finalized run split called finished
  · exact Run.recovered run split called finished

end Runs

section Example

instance (calls : Pid → Option BaselineCall) (i : Pid) (recorded : Recorded)
    (head : Except WorktreeError GitOutput) : Decidable (Unrecognised calls i recorded head) := by
  unfold Unrecognised
  split
  · exact inferInstance
  · exact inferInstance

instance (calls : Pid → Option BaselineCall) (i : Pid) (recorded : Recorded) (op : CheckoutOp)
    (answer : op.Ret) : Decidable (Careful calls i recorded op answer) := by
  unfold Careful
  split
  all_goals exact inferInstance

def scopeSeven : BaselineScope := ⟨"local:/repo", "local", "default", 7, "/repo"⟩

-- Process 1 finds the checkout on the issue branch until it is switched back, everybody else on the baseline.
def answerFor (i : Pid) (recorded : Recorded) : (op : CheckoutOp) → op.Ret × BaselineTable
  | .git arguments =>
      let moved := recorded.2.any fun event => event.effect.command == some "switch"
      if arguments = symbolicRef then
        (.ok ⟨0, if i = 1 ∧ moved = false then "issue/7" else "main"⟩, recorded.1)
      else (.ok (gitAnswer recorded arguments), recorded.1)
  | op => answerTo recorded op

def actFor (i : Pid) (recorded : Recorded) (op : CheckoutOp) : op.Ret × Recorded :=
  ((answerFor i recorded op).1, ((answerFor i recorded op).2,
    ⟨i, op, (answerFor i recorded op).1, recorded.1, (answerFor i recorded op).2⟩ :: recorded.2))

theorem actFor_sound (i : Pid) (recorded : Recorded) (op : CheckoutOp) :
    checkoutWorld.record.step i recorded op (actFor i recorded op).1 (actFor i recorded op).2 := by
  refine ⟨?_, rfl⟩
  cases op with
  | git arguments =>
      simp only [actFor, answerFor]
      split <;> rfl
  | baseline op => exact .inl ⟨rfl, rfl⟩
  | host op => cases op <;> rfl
  | _ => rfl

-- Two switches to the issue: the second keeps the row of the first and leaves the checkout where it was.
def switchTwice : Pid → Option BaselineCall
  | 0 | 2 => some (.command (.capture home captureSeven))
  | 1 | 3 => some (.command (.settle scopeSeven))
  | _ => none

def closeTwice : Pid → Option BaselineCall
  | 0 => some (.command (.capture home captureSeven))
  | 1 | 2 => some (.command (.restore home closeSeven))
  | _ => none

def switchedOnce : Config Recorded CheckoutOp CheckoutOp.Ret BaselineReport :=
  (opened switchTwice).record.replay actFor (List.replicate 8 0 ++ List.replicate 4 1)

def switchedTwice : Config Recorded CheckoutOp CheckoutOp.Ret BaselineReport :=
  switchedOnce.replay actFor (List.replicate 8 2 ++ List.replicate 4 3)

def closedTwice : Config Recorded CheckoutOp CheckoutOp.Ret BaselineReport :=
  (opened closeTwice).record.replay actFor
    (List.replicate 8 0 ++ List.replicate 4 1 ++ List.replicate 7 2 ++ List.replicate 18 1)

def finalizedAs (report : Option BaselineReport) (state : CheckoutState) : Bool :=
  match report with
  | some (.reported (.settled (.ok found))) => found = state
  | _ => false

theorem finalizedAs_eq {report : Option BaselineReport} {state : CheckoutState} (known : finalizedAs report state) :
    report = some (.reported (.settled (.ok state))) := by
  unfold finalizedAs at known
  split at known
  · rw [of_decide_eq_true known]
  · cases known

theorem switchedOnce_run : Run (carefulWorld switchTwice) (opened switchTwice).record switchedOnce :=
  .replay_guard actFor_sound _ _ (by decide)

theorem seven_consistent :
    ∃ record, switchedOnce.shared.1 scopeSeven = some record ∧ record.state = .active := by
  have some' : switchedOnce.shared.2 ≠ [] := by decide
  obtain ⟨event, earlier, split⟩ := List.exists_cons_of_ne_nil some'
  have newest : (switchedOnce.shared.2.head?.map (·.pid)) = some 1 := by decide
  rw [split] at newest
  have own : event.pid = 1 := by simpa using newest
  have finished := Config.result_eq_some.mp
    (finalizedAs_eq (by decide : finalizedAs (switchedOnce.result 1) .active))
  apply (baselines_consistent switchedOnce_run .refl).2.2 event earlier split
  rw [own]
  exact .inl ⟨rfl, finished⟩

/-- A second switch is told that its row was aborted while the row is active, and of two closes one restores
the row that the other has aborted. -/
theorem states_disagree :
    (∃ c : Config Recorded CheckoutOp CheckoutOp.Ret BaselineReport,
      Run checkoutWorld.record (opened switchTwice).record c ∧
      c.result 3 = some (.reported (.settled (.ok .aborted))) ∧ (c.shared.2.head?.map (·.pid)) = some 3 ∧
        ∃ record, c.shared.1 scopeSeven = some record ∧ record.state = .active) ∧
    ∃ c : Config Recorded CheckoutOp CheckoutOp.Ret BaselineReport,
      Run checkoutWorld.record (opened closeTwice).record c ∧
        ∃ record, c.shared.1 scopeSeven = some record ∧ record.restoredAt.isSome ∧ record.state = .aborted := by
  refine ⟨⟨switchedTwice, ?_, finalizedAs_eq (by decide), by decide, ?_⟩, closedTwice, ?_, ?_⟩
  · exact Relation.ReflTransGen.trans switchedOnce_run.unguard (Run.replay actFor_sound _ _)
  · have stored : (switchedTwice.shared.1 scopeSeven).map (·.state) = some .active := by decide
    obtain ⟨record, found, state⟩ := Option.map_eq_some_iff.mp stored
    exact ⟨record, found, state⟩
  · exact .replay actFor_sound _ _
  · have left : (closedTwice.shared.1 scopeSeven).map (fun record => (record.restoredAt.isSome, record.state)) =
        some (true, .aborted) := by decide
    obtain ⟨record, found, same⟩ := Option.map_eq_some_iff.mp left
    exact ⟨record, found, (Prod.mk.inj same).1, (Prod.mk.inj same).2⟩

end Example

end Phasegent.Restore
