import Phasegent.Restore.Runs
import Phasegent.Switch.Gates
import Phasegent.Task.Records

namespace Phasegent.Switch
open Fallible Interleaving
open Lease (bounded GitOutput)
open Restore (CheckoutOp CaptureParams CaptureOutcome Surroundings BaselineScope BaselineRecord
  NewBaseline prepareIn requirePrimary checkoutGitDirs insertPending finalizeAfterCheckout git
  currentBranch headRev Checked)
open Phasegent.Task (Slot TaskTables TaskStep Statement)

section Capture
variable {env : Surroundings} {params : CaptureParams}

structure CaptureDue (env : Surroundings) (params : CaptureParams) (op : CheckoutOp) : Prop where
  command : op.command ≠ some "checkout"
  evidence : ∀ new, op = .baseline (.insertPending new) →
    BaselineScope.new params.repoKey params.provider params.project params.issueNumber
      (env.canonical params.repoPath) = .ok new.scope ∧
    new.issueBranch = params.issueBranch ∧ new.baselineBranch = params.baselineBranch

def Unproven (env : Surroundings) (part : History CheckoutOp CheckoutOp.Ret) : Prop :=
  (∃ error, part = [⟨.git gitDirArguments, .error error⟩]) ∨
  (∃ error gitDir, part = [⟨.git commonDirArguments, .error error⟩, ⟨.git gitDirArguments, .ok gitDir⟩]) ∨
  ∃ gitDir common, part = [⟨.git commonDirArguments, .ok common⟩, ⟨.git gitDirArguments, .ok gitDir⟩] ∧
    ∀ dir, Restore.gitDirs env gitDir common = .ok (dir, dir) → dir = ""

theorem due_of_plain {op : CheckoutOp} (command : op.command ≠ some "checkout")
    (plain : ∀ new, op ≠ .baseline (.insertPending new)) : CaptureDue env params op :=
  ⟨command, fun new same => absurd same (plain new)⟩

abbrev Captures {ε α : Type} (env : Surroundings) (params : CaptureParams)
    (p : Attempt CheckoutOp CheckoutOp.Ret ε α)
    (Q : α → History CheckoutOp CheckoutOp.Ret → Prop)
    (F : ε → History CheckoutOp CheckoutOp.Ret → Prop) : Prop :=
  Appends (fun _ => CaptureDue env params) p Q F

theorem captures_git {arguments : List String} (command : arguments.head? ≠ some "checkout") :
    Captures env params (git arguments .ok)
      (fun output part => part = [⟨.git arguments, .ok output⟩])
      fun _ part => ∃ error, part = [⟨.git arguments, .error error⟩] := by
  apply appends_request
  · exact fun _ => due_of_plain command fun _ => nofun
  · intro answer
    cases answer with
    | ok output => rfl
    | error error => exact ⟨error, rfl⟩

theorem captures_checkoutGitDirs :
    Captures env params (checkoutGitDirs env)
      (fun dirs part => ∃ gitDir common,
        part = [⟨.git commonDirArguments, .ok common⟩, ⟨.git gitDirArguments, .ok gitDir⟩] ∧
        Restore.gitDirs env gitDir common = .ok dirs) fun _ part => Unproven env part := by
  apply appends_bind ((captures_git (by decide)).weaken (fun _ _ read => read) fun _ _ => .inl)
  rintro gitDir _ rfl
  apply appends_bind ((captures_git (by decide)).weaken (fun _ _ read => read) ?_)
  · rintro common _ rfl
    apply appends_fromExcept
    · exact fun dirs named => ⟨gitDir, common, rfl, named⟩
    · intro error failed
      refine .inr (.inr ⟨gitDir, common, rfl, fun dir named => ?_⟩)
      rw [failed] at named
      cases named
  · rintro _ _ ⟨error, rfl⟩
    exact .inr (.inl ⟨error, gitDir, rfl⟩)

theorem captures_requirePrimary :
    Captures env params (requirePrimary env) (fun _ _ => True) fun outcome part =>
      ∃ reason, outcome = .skipped reason ∧ Unproven env part := by
  apply appends_bind (appends_renameFailure (fun _ _ unproven => ⟨_, rfl, unproven⟩)
    captures_checkoutGitDirs)
  rintro ⟨gitDir, common⟩ _ ⟨first, second, rfl, named⟩
  apply appends_fromExcept
  · exact fun _ _ => trivial
  · intro outcome refused
    by_cases differ : gitDir = "" ∨ gitDir ≠ common
    · rw [refuse, if_pos differ, Except.error.injEq] at refused
      refine ⟨_, refused.symm, .inr (.inr ⟨first, second, rfl, fun dir same => ?_⟩)⟩
      rw [named, Except.ok.injEq, Prod.mk.injEq] at same
      obtain ⟨rfl, rfl⟩ := same
      simpa using differ
    · simp [refuse, differ] at refused

def Failed (outcome : CaptureOutcome) : Prop := ∃ reason, outcome = .failed reason

theorem captures_orFailed {α : Type} {p : Checked α} {rename : String → CaptureOutcome}
    (fails : ∀ reason, Failed (rename reason)) (performs : Performs (CaptureDue env params) p) :
    Captures env params (renameFailure rename p) (fun _ _ => True) fun outcome _ => Failed outcome :=
  appends_renameFailure (fun reason _ _ => fails reason)
    ((appends_performs (fun _ _ due => due) performs).weaken (fun _ _ _ => trivial) fun _ _ all => all)

theorem captures_now :
    Captures env params (request .now .ok) (fun _ _ => True) fun outcome _ => Failed outcome :=
  appends_request (fun _ => due_of_plain (by simp [CheckoutOp.command]) fun _ => nofun) fun _ => trivial

theorem requireUnchanged_error {actual : String} {outcome : CaptureOutcome}
    (refused : Restore.requireUnchanged params actual = .error outcome) : Failed outcome := by
  by_cases changed : actual ≠ params.baselineBranch
  · rw [Restore.requireUnchanged, refuse, if_pos changed, Except.error.injEq] at refused
    exact ⟨_, refused.symm⟩
  · simp [Restore.requireUnchanged, refuse, changed] at refused

theorem bornHead_error {head : Option String} {outcome : CaptureOutcome}
    (unborn : Restore.bornHead head = .error outcome) : Failed outcome := by
  cases head with
  | none => exact ⟨_, (Except.error.inj unborn).symm⟩
  | some head => cases unborn

theorem captures_insertPending {new : NewBaseline}
    (due : CaptureDue env params (.baseline (.insertPending new))) :
    Captures env params (renameFailure CaptureOutcome.failed (insertPending new))
      (fun _ part => ∃ inserted, ⟨.baseline (.insertPending new), .ok inserted⟩ ∈ part)
      fun outcome _ => Failed outcome := by
  apply appends_renameFailure (F := fun _ _ => True) fun reason _ _ => ⟨reason, rfl⟩
  apply appends_bind (appends_fromExcept (Q := fun _ _ => True) (fun _ _ => trivial) fun _ _ => trivial)
  intro _ early _
  apply appends_bind (M := fun inserted part => part = [⟨.baseline (.insertPending new), .ok inserted⟩])
  · apply appends_answered fun _ => due
    rintro _ inserted rfl
    rfl
  rintro inserted _ rfl
  apply appends_bind (M := fun _ _ => True)
  · apply appends_bind (M := fun _ _ => True)
    · exact appends_answered (fun _ => due_of_plain (by simp [CheckoutOp.command]) fun _ => nofun)
        fun _ _ _ => trivial
    · exact fun _ _ _ => appends_pure trivial
  intro found read _
  cases found with
  | none => exact appends_throw trivial
  | some record => exact appends_pure ⟨inserted, by simp⟩

theorem captures_prepareIn :
    Captures env params (prepareIn env params)
      (fun outcome part => (∃ scope, outcome = .pending scope) ∧
        ∃ new inserted, ⟨.baseline (.insertPending new), .ok inserted⟩ ∈ part)
      fun outcome part => (∃ reason, outcome = .skipped reason ∧ Unproven env part) ∨ Failed outcome := by
  have later : ∀ {α : Type} {Q : α → History CheckoutOp CheckoutOp.Ret → Prop}
      {p : Attempt CheckoutOp CheckoutOp.Ret CaptureOutcome α},
      Captures env params p Q (fun outcome _ => Failed outcome) → ∀ before,
        Captures env params p Q fun outcome part =>
          (∃ reason, outcome = .skipped reason ∧ Unproven env (part ++ before)) ∨ Failed outcome :=
    fun captures _ => captures.weaken (fun _ _ post => post) fun _ _ => .inr
  apply appends_bind (captures_requirePrimary.weaken (fun _ _ post => post) fun _ _ => .inl)
  rintro _ before -
  refine Appends.weaken (later (Q := fun outcome part => (∃ scope, outcome = .pending scope) ∧
    ∃ new inserted, ⟨.baseline (.insertPending new), .ok inserted⟩ ∈ part) ?_ before) ?_
    fun _ _ failed => failed
  · have plain : ∀ arguments, arguments.head? ≠ some "checkout" →
        CaptureDue env params (.git arguments) := fun _ command => due_of_plain command fun _ => nofun
    have schema : CaptureDue env params .ensureBaselineSchema := due_of_plain nofun fun _ => nofun
    apply appends_bind (captures_orFailed (fun _ => ⟨_, rfl⟩) (performs_request (plain _ (by decide))))
    intro actual _ _
    apply appends_bind (appends_fromExcept (Q := fun _ _ => True) (fun _ _ => trivial)
      fun _ refused => requireUnchanged_error refused)
    intro _ _ _
    apply appends_bind (captures_orFailed (fun _ => ⟨_, rfl⟩) (performs_request (plain _ (by decide))))
    intro head _ _
    apply appends_bind (appends_fromExcept (Q := fun _ _ => True) (fun _ _ => trivial)
      fun _ unborn => bornHead_error unborn)
    intro head _ _
    apply appends_bind (appends_renameFailure (fun reason _ _ => ⟨reason, rfl⟩)
      (appends_fromExcept (Q := fun scope _ => BaselineScope.new params.repoKey params.provider
        params.project params.issueNumber (env.canonical params.repoPath) = .ok scope)
        (F := fun _ _ => True) (fun _ made => made) fun _ _ => trivial))
    intro scope _ made
    apply appends_bind (captures_orFailed (fun reason => ⟨reason, rfl⟩) (performs_request schema))
    intro _ _ _
    apply appends_bind (captures_now)
    intro now _ _
    apply appends_bind (captures_insertPending ?_)
    · rintro _ _ ⟨inserted, among⟩
      exact appends_pure ⟨⟨scope, rfl⟩, _, inserted, by simp [among]⟩
    · refine ⟨by simp [CheckoutOp.command], ?_⟩
      rintro _ ⟨rfl⟩
      exact ⟨made, rfl, rfl⟩
  · rintro outcome part ⟨pending, new, inserted, among⟩
    exact ⟨pending, new, inserted, by simp [among]⟩

end Capture

section Call
variable {env : Host} {params : IssueSwitchParams}

/-- What a checkout of the call needs in what the call did before. -/
def Due (env : Host) (params : IssueSwitchParams) (h : SwitchHistory) (op : SwitchOp) : Prop :=
  op.isCheckout → op = .here ["checkout", params.target] ∧
    (∀ act ∈ h, act.effect.isCheckout = false) ∧
    ∃ current slot, Gates env params current slot h ∧
      (Primary env h → ∃ act ∈ h, (act.effect.captured act.answer).isSome) ∧
      ∀ act ∈ h, ∀ new, act.effect.captured act.answer = some new →
        Evidence env params current slot.repoKey new

theorem Gates.mono {current : String} {slot : Slot} {h h' : SwitchHistory}
    (gates : Gates env params current slot h) (more : h ⊆ h') : Gates env params current slot h' where
  branch := by
    obtain ⟨output, there, rest⟩ := gates.branch
    exact ⟨output, more there, rest⟩
  issue := gates.issue
  linked := by
    obtain ⟨act, there, rest⟩ := gates.linked
    exact ⟨act, more there, rest⟩
  unshared := by
    obtain ⟨answer, there, rest⟩ := gates.unshared
    exact ⟨answer, more there, rest⟩
  clean := by
    obtain ⟨output, there, rest⟩ := gates.clean
    exact ⟨output, more there, rest⟩
  based := by
    refine gates.based.imp_left fun detected => ?_
    obtain ⟨answer, there, rest⟩ | ⟨answer, there, rest⟩ := detected
    · exact .inl ⟨answer, more there, rest⟩
    · exact .inr ⟨answer, more there, rest⟩
  unleased := by
    obtain ⟨answer, identity, rows, asked, named, listed, rest⟩ := gates.unleased
    exact ⟨answer, identity, rows, more asked, named, more listed, rest⟩

theorem probe_not_checkout {op : SwitchOp} (probe : op.probe = true) : op.isCheckout = false := by
  cases op with
  | checkout op =>
      cases op with
      | git arguments =>
          simp only [SwitchOp.probe, Bool.and_eq_true, decide_eq_true_eq] at probe
          simpa [SwitchOp.isCheckout, CheckoutOp.command] using probe.2
      | _ => rfl
  | _ => simpa [SwitchOp.probe] using probe

theorem due_of_probe {h : SwitchHistory} {op : SwitchOp} (probe : op.probe = true) :
    Due env params h op := by
  intro checkout
  rw [probe_not_checkout probe] at checkout
  cases checkout

def shown (part : History CheckoutOp CheckoutOp.Ret) : SwitchHistory :=
  part.map fun act => ⟨.checkout act.effect, act.answer⟩

theorem shows_checkout {part : History CheckoutOp CheckoutOp.Ret} {part' : SwitchHistory}
    (shows' : Shows checkoutEmbedding part part') : part' = shown part := by
  induction shows' with
  | nil => rfl
  | cons r _ ih => rw [ih]; rfl

theorem shown_due {part : History CheckoutOp CheckoutOp.Ret} {capture : CaptureParams}
    (due : ∀ act ∈ part, CaptureDue env.toSurroundings capture act.effect) :
    ∀ act ∈ shown part, act.effect.isCheckout = false := by
  intro act among
  obtain ⟨act, there, rfl⟩ := List.mem_map.mp among
  simpa [SwitchOp.isCheckout] using (due act there).command

theorem not_primary {part : History CheckoutOp CheckoutOp.Ret} {h : SwitchHistory}
    (unproven : Unproven env.toSurroundings part) (probes : ∀ act ∈ h, act.effect.probe = true) :
    ¬Primary env (shown part ++ h) := by
  rintro ⟨newer, older, gitDir, common, dir, same, named, nonempty⟩
  have absent : (⟨.checkout (.git gitDirArguments), .ok gitDir⟩ : Act SwitchOp SwitchOp.Ret) ∉ h :=
    fun among => by simpa [SwitchOp.probe] using probes _ among
  have inner : ∀ newer, h ≠ newer ++ ⟨.checkout (.git commonDirArguments), .ok common⟩ ::
      ⟨.checkout (.git gitDirArguments), .ok gitDir⟩ :: older := by
    rintro newer rfl
    simp at absent
  obtain ⟨error, rfl⟩ | ⟨error, first, rfl⟩ | ⟨first, second, rfl, differ⟩ := unproven
  · cases newer with
    | nil => simp [shown] at same
    | cons act newer => exact inner newer (List.cons.inj same).2
  · cases newer with
    | nil => simp [shown] at same
    | cons act newer =>
        have rest := (List.cons.inj same).2
        cases newer with
        | nil => simp at rest
        | cons act' newer => exact inner newer (List.cons.inj rest).2
  · cases newer with
    | nil =>
        simp only [shown, List.map_cons, List.map_nil, List.cons_append, List.nil_append, List.cons.injEq,
          Act.mk.injEq, heq_eq_eq, Except.ok.injEq, true_and] at same
        obtain ⟨rfl, rfl, -⟩ := same
        exact nonempty (differ dir named)
    | cons act newer =>
        have rest := (List.cons.inj same).2
        cases newer with
        | nil => simp at rest
        | cons act' newer => exact inner newer (List.cons.inj rest).2

theorem captured_insert {op : SwitchOp} {answer : op.Ret} {new : NewBaseline}
    (captured : op.captured answer = some new) : op = .checkout (.baseline (.insertPending new)) := by
  unfold SwitchOp.captured at captured
  split at captured
  · cases captured
    rfl
  · cases captured

theorem evidence_of_due {part : History CheckoutOp CheckoutOp.Ret} {h : SwitchHistory}
    {project current repoKey : String} {default : Option String}
    (chosen : nonBlank params.scopeProject = some project)
    (due : ∀ act ∈ part, CaptureDue env.toSurroundings
      (captureParams params project current repoKey default) act.effect)
    (probes : ∀ act ∈ h, act.effect.probe = true) :
    ∀ act ∈ shown part ++ h, ∀ new, act.effect.captured act.answer = some new →
      Evidence env params current repoKey new := by
  intro act among new captured
  have insert := captured_insert captured
  obtain early | late := List.mem_append.mp among
  · obtain ⟨act, there, rfl⟩ := List.mem_map.mp early
    obtain ⟨scope, issueBranch, baselineBranch⟩ := (due act there).evidence new (SwitchOp.checkout.inj insert)
    exact ⟨⟨project, chosen, scope⟩, issueBranch, baselineBranch⟩
  · have probe := probes _ late
    rw [insert] at probe
    cases probe

theorem quiet_settle (scope : Option BaselineScope) :
    Performs (fun op => op.isCheckout = false) (settle scope) := by
  cases scope with
  | none => exact performs_pure _
  | some scope =>
      have finalize : Performs (fun op => op.command ≠ some "checkout") (finalizeAfterCheckout scope) := by
        apply Restore.performs_finalizeAfterCheckout scope
        · exact fun op quiet named => absurd (Restore.quiet_command quiet named) (by decide)
        · nofun
        · exact fun _ _ => nofun
      refine performs_bind (performs_outcome (performs_embed finalize ?_)) fun _ => performs_pure _
      exact fun op other => by simpa [checkoutEmbedding, SwitchOp.isCheckout] using other

theorem due_checkout {part : History CheckoutOp CheckoutOp.Ret} {h : SwitchHistory}
    {project current : String} {slot : Slot} {default : Option String}
    (chosen : nonBlank params.scopeProject = some project)
    (due : ∀ act ∈ part, CaptureDue env.toSurroundings
      (captureParams params project current slot.repoKey default) act.effect)
    (probes : ∀ act ∈ h, act.effect.probe = true) (gates : Gates env params current slot h)
    (inserted : Primary env (shown part ++ h) →
      ∃ act ∈ shown part ++ h, (act.effect.captured act.answer).isSome) :
    Due env params (shown part ++ h) (.here ["checkout", params.target]) := by
  intro _
  refine ⟨rfl, ?_, current, slot, gates.mono (List.subset_append_right _ _), inserted,
    evidence_of_due chosen due probes⟩
  intro act among
  obtain early | late := List.mem_append.mp among
  · exact shown_due due act early
  · exact probe_not_checkout (probes act late)

theorem allowed_capture {capture : CaptureParams} (h₀ : SwitchHistory)
    {h : History CheckoutOp CheckoutOp.Ret} {h' : SwitchHistory} {op : CheckoutOp}
    (_ : Shows checkoutEmbedding h h') (due : CaptureDue env.toSurroundings capture op) :
    Due env params (h' ++ h₀) (checkoutEmbedding.effect op) := by
  intro checkout
  exact absurd (beq_iff_eq.mp checkout) due.command

theorem traced_switchOver {project current repoKey : String} {default : Option String}
    (chosen : nonBlank params.scopeProject = some project) :
    Traced (Due env params) (fun h => (∀ act ∈ h, act.effect.probe = true) ∧
        ∃ slot, slot.repoKey = repoKey ∧ Gates env params current slot h)
      (switchOver env params project current repoKey default) (fun _ _ => True) fun _ _ => True := by
  have captures : Appends (Due env params) (outcome (embed checkoutEmbedding
      (prepareIn env.toSurroundings (captureParams params project current repoKey default))) :
        SwitchM (Except CaptureOutcome CaptureOutcome)) _ fun _ _ => True :=
    appends_outcome (appends_embed allowed_capture (captures_prepareIn.respects fun _ _ due => due))
  apply traced_bind (captures.after.weaken (fun _ _ ended => ended) fun _ _ _ => trivial)
  intro result
  refine Traced.pre (M := fun h => ∀ scope, baselineScope params current (.ofResult result) = .ok scope →
    Due env params h (.here ["checkout", params.target])) ?_ ?_
  · apply traced_bind (traced_fromExcept fun _ _ _ _ => trivial)
    intro scope
    apply traced_bind (traced_requested fun h due => due.2 scope due.1)
    intro done
    apply traced_bind (traced_performs (P := fun _ => True) ?_ (fun _ _ _ _ _ => trivial)
      (quiet_settle scope)).any
    · exact fun _ => traced_pure fun _ _ => trivial
    · intro h op _ quiet checkout
      rw [quiet] at checkout
      cases checkout
  · rintro h ⟨before, part', rfl, ⟨probes, slot, rfl, gates⟩, ended⟩ scope known
    cases result with
    | ok result =>
        obtain ⟨part, shows', ⟨-, new, inserted, among⟩, due⟩ := ended
        rw [shows_checkout shows']
        apply due_checkout chosen due probes gates
        exact fun _ => ⟨_, List.mem_append_left _ (List.mem_map_of_mem among), rfl⟩
    | error result =>
        obtain ⟨part, shows', unproven, due⟩ := ended
        rw [shows_checkout shows']
        obtain ⟨reason, rfl, unproven⟩ | ⟨reason, rfl⟩ := unproven
        · exact due_checkout chosen due probes gates fun primary =>
            absurd primary (not_primary unproven probes)
        · cases known

theorem traced_createIn :
    Traced (Due env params) (· = []) (createIn env params) (fun _ _ => True) fun _ _ => True := by
  have allowed : ∀ (h : SwitchHistory) op, op.probe = true → Due env params h op :=
    fun _ _ probe => due_of_probe probe
  apply traced_bind (traced_fromExcept fun _ _ _ _ => trivial)
  intro project
  apply Traced.of_pure
  intro admitted
  have chosen := IssueSwitchParams.admission_ok admitted
  apply traced_bind (reads_locate.stays.after allowed)
  rintro ⟨current, repoKey⟩
  apply traced_bind ((reads_switchGates chosen).stays.after allowed)
  intro default
  apply (traced_switchOver chosen).pre
  rintro h ⟨_, gates, rfl, ⟨_, first, rfl, rfl, onCurrent, early⟩, opened, probes⟩
  rw [List.append_nil] at *
  refine ⟨?_, opened first onCurrent⟩
  intro act among
  exact (List.mem_append.mp among).elim (probes act) (early act)

end Call

end Phasegent.Switch
