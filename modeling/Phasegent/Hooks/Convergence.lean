import Phasegent.Hooks.Settling

namespace Phasegent.Hooks
open Fallible Text.Quoting
open Switch (GitError GitAnswer)

def HookKind.other : HookKind → HookKind
  | .prepareCommitMsg => .commitMsg
  | .commitMsg => .prepareCommitMsg

def faultsAt (fault : Option Fault) (kind : HookKind) : Faults := fun site => faultAt fault (.hook kind site)

variable {checkout : Checkout} {fault : Option Fault} {disk : Disk} {kind : HookKind} {site : Site} {text : String}

section Statement

/-- No foreign hook and no preserved original is lost; and an installation that succeeds leaves
current wrappers, which a second one leaves alone. -/
structure Converges (checkout : Checkout) (disk : Disk) (fault : Option Fault) : Prop where
  keeps : ∀ kind, Keeps (checkout.place kind) (disk.slot kind) ((installIn checkout fault disk).2.slot kind)
  current : ∀ outcome, (installIn checkout fault disk).1 = .ok outcome →
    ∀ kind, Current (checkout.place kind) ((installIn checkout fault disk).2.slot kind)
  again : ∀ outcome, (installIn checkout fault disk).1 = .ok outcome → ∃ repeated,
    installIn checkout none (installIn checkout fault disk).2 = (.ok repeated, (installIn checkout fault disk).2)

def Discovered (revParse : GitAnswer) : Prop :=
  ∃ output, revParse = .ok output ∧ output.status = 0 ∧ trimText output.stdout ≠ ""

def Harmful (checkout : Checkout) (disk : Disk) : Option Fault → Prop
  | some ⟨.hook kind site, _⟩ =>
      let other := kind.other
      Discovered checkout.revParse ∧
        ((site = .displaceExists ∧ Lost (checkout.place kind) (disk.slot kind) ∧
            Passes (checkout.place other) (disk.slot other) ∧
            (kind = .commitMsg → Installable (checkout.place other) (disk.slot other))) ∨
          (Misled (checkout.place kind) (disk.slot kind) site ∧
            Installable (checkout.place other) (disk.slot other)))
  | _ => False

def QuotesBack (path : Bytes) : Prop := ∃ text, wordValue (shellQuote (toStringLossy path)) = some text ∧ utf8 text = path

end Statement

section Faults

theorem faultsAt_none (kind : HookKind) : faultsAt none kind = fun _ => none := rfl

theorem faultsAt_same (kind : HookKind) (site : Site) (text : String) :
    faultsAt (some ⟨.hook kind site, text⟩) kind site ≠ none := by
  simp [faultsAt, faultAt]

theorem faultsAt_other (kind : HookKind) (site : Site) (text : String) :
    faultsAt (some ⟨.hook kind site, text⟩) kind.other = fun _ => none := by
  funext at'
  cases kind <;> simp [faultsAt, faultAt, HookKind.other]

theorem faultsAt_some {fault : Option Fault} {kind : HookKind} {site : Site} (failed : faultsAt fault kind site ≠ none) :
    ∃ text, fault = some ⟨.hook kind site, text⟩ := by
  cases fault with
  | none => simp [faultsAt, faultAt] at failed
  | some fault =>
      obtain ⟨at', text⟩ := fault
      by_cases same : at' = .hook kind site
      · exact ⟨text, by rw [same]⟩
      · simp [faultsAt, faultAt, same] at failed

theorem faultsAt_single (fault : Option Fault) (kind : HookKind) : Single (faultsAt fault kind) := by
  intro site site' first second
  obtain ⟨text, rfl⟩ := faultsAt_some first
  obtain ⟨text', same⟩ := faultsAt_some second
  cases same
  rfl

theorem faultsAt_loud (fault : Option Fault) (kind : HookKind) :
    ∀ error ∈ faultsAt fault kind .inspect, error.notFound = false := by
  intro error failed
  obtain ⟨text, rfl⟩ := @faultsAt_some fault kind .inspect (by rw [failed]; simp)
  simp only [faultsAt, faultAt, if_true, Option.mem_def, Option.some.injEq] at failed
  rw [← failed]

end Faults

section Admission

theorem discover_ok {revParse : GitAnswer} : (∃ name, discover revParse = .ok name) ↔ Discovered revParse := by
  simp only [discover, bind_eq_ok, refuse_eq_ok, pure_eq, Except.ok.injEq, Discovered]
  constructor
  · rintro ⟨name, output, answered, -, zero, -, named, -⟩
    exact ⟨output, answered, not_not.mp zero, named⟩
  · rintro ⟨output, answered, zero, named⟩
    exact ⟨_, output, answered, (), not_not.mpr zero, (), named, rfl⟩

theorem failing_ok {fault : Option IoError} {context : String} {u : Unit} :
    failing fault context = .ok u ↔ fault = none := by
  cases fault <;> simp [failing]

theorem admission_ok : admission checkout fault disk = .ok () ↔ Discovered checkout.revParse ∧
    faultAt fault .createHooksDir = none ∧ faultAt fault .canonicalize = none ∧
    ∀ kind, checkChain (faultsAt fault kind) (checkout.place kind) (disk.slot kind) = .ok () := by
  simp only [admission, bind_eq_ok, ← discover_ok, failing_ok]
  constructor
  · rintro ⟨name, found, -, created, -, resolved, ⟨⟩, first, second⟩
    refine ⟨⟨name, found⟩, created, resolved, fun kind => ?_⟩
    cases kind
    · exact first
    · exact second
  · rintro ⟨⟨name, found⟩, created, resolved, checked⟩
    exact ⟨name, found, (), created, (), resolved, (), checked .prepareCommitMsg, checked .commitMsg⟩

theorem admission_quiet : admission checkout none disk = .ok () ↔ Discovered checkout.revParse ∧
    ∀ kind, Passes (checkout.place kind) (disk.slot kind) := by
  simp [admission_ok, faultAt, faultsAt_none, checkChain_eq_ok]

end Admission

section Both

def step (checkout : Checkout) (fault : Option Fault) (disk : Disk) (kind : HookKind) (outcome : InstallOutcome) :
    Except GitError InstallOutcome × Slot :=
  installHook (faultsAt fault kind) (checkout.place kind) outcome (disk.slot kind)

def nothing : InstallOutcome := ⟨[], [], []⟩

theorem step_installs (checkout : Checkout) (fault : Option Fault) (disk : Disk) (kind : HookKind)
    (outcome : InstallOutcome) : Installs (faultsAt fault kind) (checkout.place kind)
    (disk.slot kind) (step checkout fault disk kind outcome).1 (step checkout fault disk kind outcome).2 :=
  installHook_cases (faultsAt_loud fault kind) outcome

theorem installIn_refused {error : GitError} (refused : admission checkout fault disk = .error error) :
    installIn checkout fault disk = (.error error, disk) := by
  rw [installIn, refused]

theorem installIn_stopped {error : GitError} {slot : Slot} (admitted : admission checkout fault disk = .ok ())
    (first : step checkout fault disk .prepareCommitMsg nothing = (.error error, slot)) :
    installIn checkout fault disk = (.error error, ⟨slot, disk.commitMsg⟩) := by
  simp only [step, nothing, Disk.slot] at first
  unfold faultsAt at first
  rw [installIn, admitted]
  simp only [first]

theorem installIn_ended {outcome : InstallOutcome} {slot slot' : Slot} {result : Except GitError InstallOutcome}
    (admitted : admission checkout fault disk = .ok ())
    (first : step checkout fault disk .prepareCommitMsg nothing = (.ok outcome, slot))
    (second : step checkout fault disk .commitMsg outcome = (result, slot')) :
    installIn checkout fault disk = (result, ⟨slot, slot'⟩) := by
  simp only [step, nothing, Disk.slot] at first second
  unfold faultsAt at first second
  rw [installIn, admitted]
  simp only [first, second]

theorem installIn_ok {outcome : InstallOutcome} {after : Disk}
    (done : installIn checkout fault disk = (.ok outcome, after)) :
    admission checkout fault disk = .ok () ∧ ∀ kind, ∃ before installed,
      step checkout fault disk kind before = (.ok installed, after.slot kind) := by
  cases admitted : admission checkout fault disk with
  | error error => simp [installIn_refused admitted] at done
  | ok _ =>
      refine ⟨rfl, ?_⟩
      rcases first : step checkout fault disk .prepareCommitMsg nothing with ⟨result, slot⟩
      cases result with
      | error error => simp [installIn_stopped admitted first] at done
      | ok before =>
          rcases second : step checkout fault disk .commitMsg before with ⟨result', slot'⟩
          rw [installIn_ended admitted first second] at done
          cases done
          intro kind
          cases kind
          · exact ⟨_, _, first⟩
          · exact ⟨_, _, second⟩

theorem installIn_slot (admitted : admission checkout fault disk = .ok ()) (kind : HookKind) :
    (installIn checkout fault disk).2.slot kind = disk.slot kind ∨
      ∃ before, (installIn checkout fault disk).2.slot kind = (step checkout fault disk kind before).2 ∧
        (kind = .commitMsg → ∃ installed slot,
          step checkout fault disk kind.other nothing = (.ok installed, slot)) := by
  rcases first : step checkout fault disk .prepareCommitMsg nothing with ⟨result, slot⟩
  cases result with
  | error error =>
      rw [installIn_stopped admitted first]
      cases kind with
      | prepareCommitMsg => exact Or.inr ⟨nothing, by rw [first]; rfl, by simp⟩
      | commitMsg => exact Or.inl rfl
  | ok before =>
      rcases second : step checkout fault disk .commitMsg before with ⟨result', slot'⟩
      rw [installIn_ended admitted first second]
      cases kind with
      | prepareCommitMsg => exact Or.inr ⟨nothing, by rw [first]; rfl, by simp⟩
      | commitMsg => exact Or.inr ⟨before, by rw [second]; rfl, fun _ => ⟨before, slot, first⟩⟩

theorem installIn_settled (discovered : Discovered checkout.revParse)
    (settled : ∀ kind, Steady (checkout.place kind) (disk.slot kind)) :
    ∃ outcome, installIn checkout none disk = (.ok outcome, disk) := by
  have admitted := admission_quiet.mpr ⟨discovered, fun kind => (settled kind).passes⟩
  exact ⟨_, installIn_ended admitted ((settled .prepareCommitMsg).again _) ((settled .commitMsg).again _)⟩

end Both

section Harmless

theorem spared_installable {outcome installed : InstallOutcome} {slot : Slot}
    (done : step checkout (some ⟨.hook kind site, text⟩) disk kind.other outcome = (.ok installed, slot)) :
    Installable (checkout.place kind.other) (disk.slot kind.other) := by
  have installs := step_installs checkout (some ⟨.hook kind site, text⟩) disk kind.other outcome
  rw [done, faultsAt_other] at installs
  exact installs.installable

theorem spared_passes (admitted : admission checkout (some ⟨.hook kind site, text⟩) disk = .ok ()) :
    Passes (checkout.place kind.other) (disk.slot kind.other) := by
  obtain ⟨-, -, -, checked⟩ := admission_ok.mp admitted
  have passed := checked kind.other
  rw [faultsAt_other] at passed
  exact (checkChain_eq_ok rfl rfl rfl).mp passed

theorem keeps_of_harmless (harmless : ¬Harmful checkout disk fault) (kind : HookKind) :
    Keeps (checkout.place kind) (disk.slot kind) ((installIn checkout fault disk).2.slot kind) := by
  cases admitted : admission checkout fault disk with
  | error error =>
      rw [installIn_refused admitted]
      exact Keeps.refl _ _
  | ok _ =>
      obtain same | ⟨before, last, earlier⟩ := installIn_slot admitted kind
      · rw [same]
        exact Keeps.refl _ _
      · rw [last]
        refine (step_installs checkout fault disk kind before).keeps (faultsAt_single fault kind) fun failed lost => ?_
        obtain ⟨text, rfl⟩ := faultsAt_some failed
        obtain ⟨discovered, -⟩ := admission_ok.mp admitted
        refine harmless ⟨discovered, Or.inl ⟨rfl, lost, spared_passes admitted, fun second => ?_⟩⟩
        obtain ⟨installed, slot, done⟩ := earlier second
        exact spared_installable done

theorem settled_of_harmless (harmless : ¬Harmful checkout disk fault) {outcome : InstallOutcome} {after : Disk}
    (done : installIn checkout fault disk = (.ok outcome, after)) (kind : HookKind) :
    Steady (checkout.place kind) (after.slot kind) := by
  obtain ⟨admitted, steps⟩ := installIn_ok done
  obtain ⟨discovered, -, -, checked⟩ := admission_ok.mp admitted
  obtain ⟨before, installed, own⟩ := steps kind
  have installs := step_installs checkout fault disk kind before
  rw [own] at installs
  have single := faultsAt_single fault kind
  refine installs.settles (fun failed => ?_) fun site failed misled => ?_
  · have quiet : ∀ site, site ≠ .managedExists → faultsAt fault kind site = none := by
      intro site other
      by_contra failed'
      exact other (single site .managedExists failed' failed)
    exact (checkChain_eq_ok (quiet .chainRead (by simp)) (quiet .chainExists (by simp))
      (quiet .chainValidate (by simp))).mp (checked kind)
  · obtain ⟨text, rfl⟩ := faultsAt_some failed
    obtain ⟨before', installed', other⟩ := steps kind.other
    exact harmless ⟨discovered, Or.inr ⟨misled, spared_installable other⟩⟩

theorem converges_of_harmless (harmless : ¬Harmful checkout disk fault) : Converges checkout disk fault := by
  have settled : ∀ outcome, (installIn checkout fault disk).1 = .ok outcome →
      ∀ kind, Steady (checkout.place kind) ((installIn checkout fault disk).2.slot kind) := by
    intro outcome done
    exact settled_of_harmless harmless (Prod.ext done rfl)
  refine ⟨keeps_of_harmless harmless, fun outcome done kind => (settled outcome done kind).current, ?_⟩
  intro outcome done
  obtain ⟨admitted, -⟩ := installIn_ok (Prod.ext done rfl)
  exact installIn_settled (admission_ok.mp admitted).1 (settled outcome done)

end Harmless

section Harm

theorem admitted_despite (discovered : Discovered checkout.revParse) (kind : HookKind) (site : Site) (text : String)
    (late : site ∉ [.chainRead, .chainExists, .chainValidate])
    (own : Passes (checkout.place kind) (disk.slot kind))
    (other : Passes (checkout.place kind.other) (disk.slot kind.other)) :
    admission checkout (some ⟨.hook kind site, text⟩) disk = .ok () := by
  have quiet : ∀ early ∈ [Site.chainRead, .chainExists, .chainValidate],
      faultsAt (some ⟨.hook kind site, text⟩) kind early = none := by
    intro early first
    by_contra failed
    have same := faultsAt_single _ kind early site failed (faultsAt_same kind site text)
    rw [same] at first
    exact late first
  have checked : checkChain (faultsAt (some ⟨.hook kind site, text⟩) kind) (checkout.place kind)
      (disk.slot kind) = .ok () :=
    (checkChain_eq_ok (quiet .chainRead (by simp)) (quiet .chainExists (by simp))
      (quiet .chainValidate (by simp))).mpr own
  have checked' : checkChain (faultsAt (some ⟨.hook kind site, text⟩) kind.other) (checkout.place kind.other)
      (disk.slot kind.other) = .ok () := by
    rw [faultsAt_other]
    exact (checkChain_eq_ok rfl rfl rfl).mpr other
  refine admission_ok.mpr ⟨discovered, by simp [faultAt], by simp [faultAt], fun each => ?_⟩
  cases kind <;> cases each
  · exact checked
  · exact checked'
  · exact checked'
  · exact checked

theorem Installable.step (installable : Installable (checkout.place kind.other) (disk.slot kind.other))
    (site : Site) (text : String) (outcome : InstallOutcome) : ∃ installed slot,
      step checkout (some ⟨.hook kind site, text⟩) disk kind.other outcome = (.ok installed, slot) := by
  rw [Hooks.step, faultsAt_other]
  exact installable.installed outcome

theorem Lost.passes {place : HookPlace} {slot : Slot} (lost : Lost place slot) : Passes place slot := by
  obtain ⟨bytes, original, hook, foreign, -⟩ := lost
  intro current read asked
  rw [hook] at read
  cases read
  exact absurd (asked.imp_right And.left) foreign

theorem Misled.passes {place : HookPlace} {slot : Slot} (misled : Misled place slot site) : Passes place slot := by
  intro current read asked
  cases site with
  | absentExists => simp [misled.1, readFile] at read
  | absentChain => simp [misled.1, readFile] at read
  | managedChain => exact misled.2
  | _ => exact misled.elim

theorem Lost.not_kept {place : HookPlace} {slot : Slot} (lost : Lost place slot) :
    ¬Keeps place slot ⟨some (.regular (place.script true) true), slot.hook⟩ := by
  intro keeps
  obtain ⟨bytes, original, hook, -, backup, -, other, unwrapped⟩ := lost
  obtain ⟨node, stands, same⟩ := keeps.preserved original backup
  obtain first | second := stands
  · cases first
    exact unwrapped same.symm
  · rw [hook] at second
    cases second
    exact other same.symm

theorem harm_of_lost (discovered : Discovered checkout.revParse)
    (lost : Lost (checkout.place kind) (disk.slot kind))
    (passes : Passes (checkout.place kind.other) (disk.slot kind.other))
    (earlier : kind = .commitMsg → Installable (checkout.place kind.other) (disk.slot kind.other)) :
    ¬Converges checkout disk (some ⟨.hook kind .displaceExists, text⟩) := by
  intro converges
  have admitted := admitted_despite discovered kind .displaceExists text (by simp) lost.passes passes
  have displaced := lost.displaced (faultsAt_same kind .displaceExists text) (faultsAt_single _ kind)
  have kept := converges.keeps kind
  refine lost.not_kept ?_
  cases kind with
  | prepareCommitMsg =>
      obtain ⟨installed, first⟩ := displaced nothing
      rcases second : step checkout (some ⟨.hook .prepareCommitMsg .displaceExists, text⟩) disk .commitMsg installed with ⟨result, slot⟩
      rw [installIn_ended admitted first second] at kept
      exact kept
  | commitMsg =>
      obtain ⟨installed, slot, first⟩ := (earlier rfl).step .displaceExists text nothing
      obtain ⟨done, second⟩ := displaced installed
      rw [installIn_ended admitted first second] at kept
      exact kept

theorem harm_of_misled (discovered : Discovered checkout.revParse)
    (misled : Misled (checkout.place kind) (disk.slot kind) site)
    (installable : Installable (checkout.place kind.other) (disk.slot kind.other)) :
    ¬Converges checkout disk (some ⟨.hook kind site, text⟩) := by
  intro converges
  have late : site ∉ [.chainRead, .chainExists, .chainValidate] := by
    cases site <;> first | exact misled.elim | simp
  have admitted := admitted_despite discovered kind site text late misled.passes installable.passes
  have unsettled := misled.unsettled (faultsAt_same kind site text) (faultsAt_single _ kind)
  obtain ⟨outcome, after, done, unfinished⟩ : ∃ outcome after,
      installIn checkout (some ⟨.hook kind site, text⟩) disk = (.ok outcome, after) ∧
        ¬Steady (checkout.place kind) (after.slot kind) := by
    cases kind with
    | prepareCommitMsg =>
        obtain ⟨installed, slot, first, unfinished⟩ := unsettled nothing
        obtain ⟨outcome, slot', second⟩ := installable.step site text installed
        exact ⟨outcome, _, installIn_ended admitted first second, unfinished⟩
    | commitMsg =>
        obtain ⟨installed, slot, first⟩ := installable.step site text nothing
        obtain ⟨outcome, slot', second, unfinished⟩ := unsettled installed
        exact ⟨outcome, _, installIn_ended admitted first second, unfinished⟩
  have current := converges.current outcome (by rw [done]) kind
  obtain ⟨repeated, again⟩ := converges.again outcome (by rw [done])
  rw [done] at current again
  obtain ⟨readmitted, -⟩ := installIn_ok again
  exact unfinished (current.steady ((admission_quiet.mp readmitted).2 kind))

theorem harm_of_harmful (harmful : Harmful checkout disk fault) : ¬Converges checkout disk fault := by
  cases fault with
  | none => exact harmful.elim
  | some fault =>
      obtain ⟨at', text⟩ := fault
      cases at' with
      | createHooksDir => exact harmful.elim
      | canonicalize => exact harmful.elim
      | hook kind site =>
          obtain ⟨discovered, ⟨rfl, lost, passes, earlier⟩ | ⟨misled, installable⟩⟩ := harmful
          · exact harm_of_lost discovered lost passes earlier
          · exact harm_of_misled discovered misled installable

end Harm

section Words

theorem asText_utf8 (text : List Char) : asText (utf8 text) = some text := by
  have encoded : (⟨(utf8 text).toArray⟩ : ByteArray) = text.utf8Encode := by
    simp [utf8, List.utf8Encode, ByteArray.ext_iff, List.data_toByteArray]
  simp [asText, encoded]

theorem quotesBack_iff (path : Bytes) : QuotesBack path ↔ ∃ text, path = utf8 text := by
  constructor
  · intro ⟨text, _, same⟩
    exact ⟨text, same.symm⟩
  · intro ⟨text, same⟩
    refine ⟨text, ?_, same.symm⟩
    rw [same, toStringLossy, asText_utf8]
    exact wordValue_quoted text

end Words

theorem install_converges (checkout : Checkout) (disk : Disk) (fault : Option Fault) :
    (Converges checkout disk fault ↔ ¬Harmful checkout disk fault) ∧
      ∀ path, QuotesBack path ↔ ∃ text, path = utf8 text := by
  refine ⟨⟨?_, converges_of_harmless⟩, quotesBack_iff⟩
  intro converges harmful
  exact harm_of_harmful harmful converges

/-- A look that fails just before the move is taken for "nothing is preserved there". -/
theorem preserved_original_replaced :
    let checkout : Checkout := ⟨utf8 "/work".toList, .ok ⟨0, ".git/hooks"⟩, utf8 "/work/.git/hooks".toList,
      fun _ => "temp"⟩
    let live : Node := .regular (utf8 "live".toList) true
    let preserved : Node := .regular (utf8 "preserved".toList) true
    ¬Converges checkout ⟨⟨none, none⟩, ⟨some live, some preserved⟩⟩
      (some ⟨.hook .commitMsg .displaceExists, "Input/output error (os error 5)"⟩) := by
  intro checkout live preserved
  refine harm_of_lost ⟨_, rfl, rfl, by decide⟩ ⟨_, preserved, rfl, ?_, rfl, ?_, ?_, ?_⟩ ?_ fun _ => ?_
  · decide +kernel
  · simp [preserved]
  · decide
  · decide
  · intro bytes read
    cases read
  · intro absent
    cases absent

end Phasegent.Hooks
