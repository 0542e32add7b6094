import Phasegent.Restore.Safety
import Phasegent.Switch.Create

namespace Phasegent.Switch
open Fallible Interleaving
open Lease (osText repoIdentity)
open Restore (CheckoutOp BaselineScope NewBaseline isBlank symbolicRef statusPorcelain)
open Phasegent.Task (IssueKey LinkParams Slot Statement)

abbrev SwitchHistory := History SwitchOp SwitchOp.Ret

abbrev gitDirArguments : List String := ["rev-parse", "--git-dir"]

abbrev commonDirArguments : List String := ["rev-parse", "--git-common-dir"]

namespace SwitchOp

def isCheckout : SwitchOp → Bool
  | .here arguments => arguments.head? == some "checkout"
  | .checkout op => op.command == some "checkout"
  | _ => false

def recorded : (op : SwitchOp) → op.Ret → Option Slot
  | .link (.linkStatus slot), .ok (some .linked) => some slot
  | .link (.insertLink slot ..), .ok _ => some slot
  | .link (.relink slot ..), .ok _ => some slot
  | _, _ => none

def relinked : (op : SwitchOp) → op.Ret → Option Slot
  | .link (.relink slot ..), .ok _ => some slot
  | _, _ => none

def captured : (op : SwitchOp) → op.Ret → Option NewBaseline
  | .checkout (.baseline (.insertPending new)), .ok _ => some new
  | _, _ => none

def probe : SwitchOp → Bool
  | .checkout (.baseline (.insertPending _)) => false
  | .checkout (.git arguments) => arguments ≠ gitDirArguments && arguments.head? ≠ some "checkout"
  | op => !op.isCheckout

end SwitchOp

section Evidence
variable (env : Host) (params : IssueSwitchParams)

def Slot.Names (slot : Slot) : Prop :=
  ∃ project issue, nonBlank params.scopeProject = some project ∧
    IssueKey.new params.scopeProvider project params.issueText = .ok issue ∧
    slot = issue.slot slot.repoKey params.target

def OnCurrent (current : String) (h : SwitchHistory) : Prop :=
  ∃ output, ⟨.here symbolicRef, .ok output⟩ ∈ h ∧ output.status = 0 ∧ trimText output.stdout = current

def Linked (slot : Slot) (h : SwitchHistory) : Prop :=
  ∃ act ∈ h, act.effect.recorded act.answer = some slot

def Unshared (repoKey : String) (h : SwitchHistory) : Prop :=
  ∃ answer, ⟨.link (.issuesForBranch repoKey params.target), answer⟩ ∈ h ∧
    ∀ rows, answer = .ok rows → ∀ row ∈ rows,
      row.provider = params.scopeProvider ∧ nonBlank params.scopeProject = some row.project

def Clean (h : SwitchHistory) : Prop :=
  ∃ output, ⟨.checkout (.git statusPorcelain), .ok output⟩ ∈ h ∧
    output.status = 0 ∧ isBlank output.stdout = true

def DetectedDefault (branch : String) (h : SwitchHistory) : Prop :=
  (∃ answer, ⟨.here ["symbolic-ref", "refs/remotes/origin/HEAD"], answer⟩ ∈ h ∧
    readDefault parseSymbolicRef answer = some branch) ∨
  ∃ answer, ⟨.here ["remote", "show", "-n", "origin"], answer⟩ ∈ h ∧
    readDefault parseRemoteShow answer = some branch

def Unleased (h : SwitchHistory) : Prop :=
  ∃ answer identity rows, ⟨.checkout (.git commonDirArguments), answer⟩ ∈ h ∧
    repoIdentity env.canonicalize answer (osText params.repoPath.toList) = .ok identity ∧
    ⟨.checkout (.leases identity), .ok rows⟩ ∈ h ∧
    ∀ row ∈ rows, row.isActive → row.issueNumber = params.issueId ∧ params.session = some row.session

/-- What the call has seen before it checks the issue branch out. -/
structure Gates (current : String) (slot : Slot) (h : SwitchHistory) : Prop where
  branch : OnCurrent current h
  issue : Slot.Names params slot
  linked : Linked slot h
  unshared : Unshared params slot.repoKey h
  clean : Clean h
  based : DetectedDefault current h ∨ nonBlank params.base = some current
  unleased : Unleased env params h

def Primary (h : SwitchHistory) : Prop :=
  ∃ newer older gitDir common dir,
    h = newer ++ ⟨.checkout (.git commonDirArguments), .ok common⟩ ::
      ⟨.checkout (.git gitDirArguments), .ok gitDir⟩ :: older ∧
    Restore.gitDirs env.toSurroundings gitDir common = .ok (dir, dir) ∧ dir ≠ ""

structure Evidence (current repoKey : String) (new : NewBaseline) : Prop where
  scope : ∃ project, nonBlank params.scopeProject = some project ∧
    BaselineScope.new repoKey params.scopeProvider project params.issueId
      (env.canonical params.repoPath) = .ok new.scope
  issueBranch : new.issueBranch = params.target
  baselineBranch : new.baselineBranch = current

end Evidence

section Probes
variable {env : Host} {params : IssueSwitchParams}

abbrev Probes {ε α : Type} (p : Attempt SwitchOp SwitchOp.Ret ε α)
    (Q : α → SwitchHistory → Prop) : Prop :=
  Reads (fun op => op.probe = true) p Q

theorem reads_here {α : Type} {arguments : List String}
    {decode : GitAnswer → Except CreateSwitchOutcome α} (probes : (SwitchOp.here arguments).probe) :
    Probes (here arguments decode) fun a part =>
      ∃ answer, part = [⟨.here arguments, answer⟩] ∧ decode answer = .ok a :=
  reads_request probes fun answer _ decoded => ⟨answer, rfl, decoded⟩

theorem reads_request_any {ε α : Type} {op : SwitchOp} {decode : op.Ret → Except ε α}
    (probes : op.probe) : Probes (request op decode) fun a part =>
      ∃ answer, part = [⟨op, answer⟩] ∧ decode answer = .ok a :=
  reads_request probes fun answer _ decoded => ⟨answer, rfl, decoded⟩

theorem reads_ensureBranch (base : String) :
    Probes (ensureBranch params base) fun _ _ => True := by
  apply reads_bind (reads_here (by rfl))
  intro found part _
  cases found with
  | true => exact reads_pure trivial
  | false => exact (reads_here (by rfl)).weaken fun _ _ _ => trivial

theorem reads_locate :
    Probes (locate env params) fun located part => OnCurrent located.1 part := by
  apply reads_bind (reads_here (by rfl))
  rintro origin early -
  apply reads_bind (reads_fromExcept (Q := fun _ part => part = []) fun _ _ => rfl)
  rintro _ _ rfl
  apply reads_bind (reads_here (by rfl))
  rintro current _ ⟨answer, rfl, read⟩
  rw [mapError_eq_ok] at read
  obtain ⟨output, rfl, zero, named, -⟩ := currentBranch_ok read
  apply reads_bind (reads_here (by rfl))
  intro url _ _
  apply reads_bind (reads_here (by rfl))
  intro top _ _
  apply reads_bind (reads_fromExcept (Q := fun _ _ => True) fun _ _ => trivial)
  intro repoKey _ _
  apply reads_bind (reads_request_any (by rfl))
  intro _ _ _
  apply reads_bind (reads_request_any (by rfl))
  intro _ _ _
  apply reads_bind (reads_ensureBranch _)
  intro _ _ _
  exact reads_pure ⟨output, by simp, zero, named⟩

theorem reads_link (link : LinkParams) :
    Reads (fun _ => True) (Task.link link) fun _ part =>
      ∃ act ∈ part, SwitchOp.recorded (.link act.effect) act.answer = some link.slot := by
  apply reads_bind (reads_fromExcept (Q := fun _ part => part = []) fun _ _ => rfl)
  rintro _ _ rfl
  apply reads_bind (M := fun status part => part = [⟨.linkStatus link.slot, .ok status⟩])
  · apply reads_request trivial
    intro answer status decoded
    rw [mapError_eq_ok] at decoded
    rw [decoded]
  rintro status _ rfl
  cases status with
  | none =>
      apply reads_bind (M := fun _ part =>
        ∃ act ∈ part, SwitchOp.recorded (.link act.effect) act.answer = some link.slot)
      · apply reads_request trivial
        intro answer done decoded
        rw [mapError_eq_ok] at decoded
        subst decoded
        exact ⟨_, List.mem_singleton_self _, rfl⟩
      · rintro _ part ⟨act, among, shown⟩
        exact reads_pure ⟨act, by simp [among], shown⟩
  | some status =>
      cases status with
      | linked => exact reads_pure ⟨⟨.linkStatus link.slot, .ok (some .linked)⟩, by simp, rfl⟩
      | detached =>
          apply reads_bind (M := fun _ part =>
            ∃ act ∈ part, SwitchOp.recorded (.link act.effect) act.answer = some link.slot)
          · apply reads_request trivial
            intro answer done decoded
            rw [mapError_eq_ok] at decoded
            subst decoded
            exact ⟨_, List.mem_singleton_self _, rfl⟩
          · rintro _ part ⟨act, among, shown⟩
            exact reads_pure ⟨act, by simp [among], shown⟩

theorem shows_link {part : History Statement Statement.Ret} {part' : SwitchHistory}
    (shows' : Shows linkEmbedding part part') {act : Act Statement Statement.Ret} (among : act ∈ part) :
    ⟨.link act.effect, act.answer⟩ ∈ part' := by
  induction shows' with
  | nil => cases among
  | cons r _ ih =>
      obtain rfl | earlier := List.mem_cons.mp among
      · exact List.mem_cons_self
      · exact List.mem_cons_of_mem _ (ih earlier)

theorem reads_recordBranchLink (repoKey project : String) :
    Probes (recordBranchLink params repoKey project) fun note part =>
      ∃ issue, IssueKey.new params.scopeProvider project params.issueText = .ok issue ∧
        Linked (issue.slot repoKey params.target) part ∧
        ∃ answer, ⟨.link (.issuesForBranch repoKey params.target), answer⟩ ∈ part ∧
          answer.toOption.bind (collisionNote params project) = note := by
  apply reads_bind (reads_fromExcept (Q := fun issue part =>
    IssueKey.new params.scopeProvider project params.issueText = .ok issue) fun issue made => by
      rwa [mapError_eq_ok] at made)
  intro issue _ made
  apply reads_bind (reads_request_any (by rfl))
  intro now _ _
  apply reads_bind (reads_renameFailure (reads_embed (fun _ _ => rfl) (reads_link _)))
  rintro outcome part ⟨_, shows', act, among, shown⟩
  apply (reads_request_any (by rfl)).weaken
  rintro note _ ⟨answer, rfl, read⟩
  have linked : Linked (issue.slot repoKey params.target) part := ⟨_, shows_link shows' among, shown⟩
  obtain ⟨link, there, named⟩ := linked
  exact ⟨issue, made, ⟨link, by simp [there], named⟩, answer, by simp, Except.ok.inj read⟩

theorem reads_detectDefaultBranch :
    Probes detectDefaultBranch fun default part =>
      ∀ branch, default = some branch → DetectedDefault branch part := by
  apply reads_bind (reads_here (by rfl))
  rintro cached _ ⟨answer, rfl, read⟩
  cases cached with
  | some branch =>
      apply reads_pure
      rintro _ ⟨rfl⟩
      exact .inl ⟨answer, by simp, Except.ok.inj read⟩
  | none =>
      apply (reads_here (by rfl)).weaken
      rintro default _ ⟨answer', rfl, shown⟩ branch rfl
      exact .inr ⟨answer', by simp, Except.ok.inj shown⟩

theorem reads_verifyLeases (current : String) :
    Probes (verifyLeases env params current) fun _ part => Unleased env params part := by
  apply reads_bind (reads_request_any (by rfl))
  rintro identity _ ⟨answer, rfl, named⟩
  apply reads_bind (reads_request_any (by rfl))
  rintro rows _ ⟨leases, rfl, listed⟩
  rw [mapError_eq_ok] at named listed
  subst listed
  apply reads_fromExcept
  intro _ passed
  exact ⟨answer, identity, rows, by simp, named, by simp, leaseConflict_ok passed⟩

theorem reads_switchGates {project current repoKey : String}
    (chosen : nonBlank params.scopeProject = some project) :
    Probes (switchGates env params project current repoKey) fun _ part =>
      ∀ earlier, OnCurrent current earlier →
        ∃ slot, slot.repoKey = repoKey ∧ Gates env params current slot (part ++ earlier) := by
  apply reads_bind (reads_recordBranchLink repoKey project)
  rintro note links ⟨issue, made, ⟨act, among, shown⟩, answer, read, noted⟩
  apply reads_bind (reads_fromExcept (Q := fun _ _ => note = none) fun _ passed => refuseShared_ok passed)
  intro _ none' alone
  apply reads_bind (reads_fromExcept (Q := fun _ _ => True) fun _ _ => trivial)
  intro _ other _
  apply reads_bind (reads_request_any (by rfl))
  rintro _ _ ⟨status, rfl, clean⟩
  obtain ⟨output, rfl, zero, blank⟩ := refuseDirty_ok clean
  apply reads_bind reads_detectDefaultBranch
  intro default defaults detected
  apply reads_bind (reads_fromExcept (Q := fun _ _ => default = some current ∨
    nonBlank params.base = some current) fun _ passed => refuseElsewhere_ok passed)
  intro _ base based
  apply reads_bind (reads_verifyLeases current)
  rintro _ leases ⟨common, identity, rows, asked, named, listed, ours⟩
  apply reads_pure
  rintro earlier ⟨head, there, fine, onCurrent⟩
  refine ⟨issue.slot repoKey params.target, rfl, ?_⟩
  exact {
    branch := ⟨head, by simp [there], fine, onCurrent⟩
    issue := ⟨project, issue, chosen, made, rfl⟩
    linked := ⟨act, by simp [among], shown⟩
    unshared := by
      refine ⟨answer, by simp [IssueKey.slot, read], ?_⟩
      rintro rows rfl row found
      rw [alone] at noted
      obtain ⟨provider, project'⟩ := collisionNote_none noted row found
      exact ⟨provider, by rw [chosen, project']⟩
    clean := ⟨output, by simp, zero, blank⟩
    based := by
      refine based.imp_left fun same => ?_
      obtain ⟨r, seen, parsed⟩ | ⟨r, seen, parsed⟩ := detected current same
      · exact .inl ⟨r, by simp [seen], parsed⟩
      · exact .inr ⟨r, by simp [seen], parsed⟩
    unleased := ⟨common, identity, rows, by simp [asked], named, by simp [listed], ours⟩ }

end Probes

end Phasegent.Switch
