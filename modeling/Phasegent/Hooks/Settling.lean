import Phasegent.Hooks.Installed

namespace Phasegent.Hooks
open Fallible
open Switch (GitError)

variable {faults : Faults} {place : HookPlace} {slot after : Slot} {node : Node} {site : Site}
  {outcome : InstallOutcome}

section Goals

inductive Contents where
  | bytes (bytes : Bytes)
  | link (target : Bytes)
  | directory
  deriving DecidableEq

def Node.contents : Node → Contents
  | .regular bytes _ => .bytes bytes
  | .symlink target _ => .link target
  | .directory => .directory

def Held (slot : Slot) (contents : Contents) : Prop :=
  ∃ node, (slot.hook = some node ∨ slot.backup = some node) ∧ node.contents = contents

def Foreign (place : HookPlace) (node : Node) : Prop := ∀ bytes executable,
  node = .regular bytes executable → ¬Managed place bytes

structure Keeps (place : HookPlace) (before after : Slot) : Prop where
  foreign : ∀ node, before.hook = some node → Foreign place node → Held after node.contents
  preserved : ∀ node, before.backup = some node → Held after node.contents

/-- The hook is the current wrapper, with a chain exactly where an original is preserved. -/
def Current (place : HookPlace) (slot : Slot) : Prop :=
  ∃ executable, slot.hook = some (.regular (place.script slot.backup.isSome) executable)

structure Steady (place : HookPlace) (slot : Slot) : Prop where
  current : Current place slot
  safe : slot.backup.isSome → SafeBackup slot

end Goals

section Conditions

def Passes (place : HookPlace) (slot : Slot) : Prop := ∀ bytes, readFile none slot.hook = .ok bytes →
  declaresOriginal bytes place.hook place.backup ∨ bytes = place.script false ∧ slot.backup.isSome → SafeBackup slot

def Installable (place : HookPlace) (slot : Slot) : Prop :=
  match slot.hook with
  | none => slot.backup.isSome → SafeBackup slot
  | some (.regular bytes executable) =>
      if Managed place bytes then
        declaresOriginal bytes place.hook place.backup ∨ slot.backup.isSome → SafeBackup slot
      else executable ∧ slot.backup = none
  | some _ => False

/-- An executable foreign hook beside a preserved original that says something else. -/
def Lost (place : HookPlace) (slot : Slot) : Prop :=
  ∃ bytes original, slot.hook = some (.regular bytes true) ∧ ¬Managed place bytes ∧ slot.backup = some original ∧
    original ≠ .directory ∧ original.contents ≠ .bytes bytes ∧ original.contents ≠ .bytes (place.script true)

/-- A failed look at the preserved original that an installation takes for its absence. -/
def Misled (place : HookPlace) (slot : Slot) : Site → Prop
  | .absentExists => slot.hook = none ∧ ∃ node, slot.backup = some node ∧ ¬isSafe node
  | .absentChain => slot.hook = none ∧ SafeBackup slot
  | .managedChain => (∃ executable, slot.hook = some (.regular (place.script false) executable)) ∧ SafeBackup slot
  | _ => False

def Single (faults : Faults) : Prop := ∀ site site', faults site ≠ none → faults site' ≠ none → site = site'

end Conditions

section Lookups

@[simp] theorem backupExists_quiet (backup : Option Node) : backupExists none backup = backup.isSome := by
  cases backup <;> rfl

@[simp] theorem backupExists_failed (error : IoError) (backup : Option Node) :
    backupExists (some error) backup = false := rfl

theorem validateOriginal_safe (path : Bytes) (safe : isSafe node) :
    validateOriginal none path (some node) = .ok () := by
  simp [validateOriginal, symlinkMetadata, Except.toOption, safe]

theorem SafeBackup.isSome (safe : SafeBackup slot) : slot.backup.isSome := by
  obtain ⟨node, found, -⟩ := safe
  simp [found]

theorem SafeBackup.valid (safe : SafeBackup slot) (path : Bytes) :
    validateOriginal none path slot.backup = .ok () := by
  obtain ⟨node, found, fine⟩ := safe
  rw [found, validateOriginal_safe path fine]

theorem not_misled_missing (calm : ¬Misled place slot .absentExists) (absent : slot.hook = none) :
    slot.backup.isSome → SafeBackup slot := by
  intro some
  obtain ⟨node, found⟩ := Option.isSome_iff_exists.mp some
  refine ⟨node, found, ?_⟩
  by_contra unsafe'
  exact calm ⟨absent, node, found, unsafe'⟩

end Lookups

section Keeping

theorem Held.of_hook (found : slot.hook = some node) : Held slot node.contents := ⟨node, Or.inl found, rfl⟩

theorem Held.of_backup (found : slot.backup = some node) : Held slot node.contents := ⟨node, Or.inr found, rfl⟩

theorem Keeps.refl (place : HookPlace) (slot : Slot) : Keeps place slot slot :=
  ⟨fun _ found _ => Held.of_hook found, fun _ found => Held.of_backup found⟩

theorem Free.absent_or_failed (free : Free faults slot) :
    slot.backup = none ∨ faults .displaceExists ≠ none := by
  obtain ⟨unseen, -⟩ := free
  cases look : faults .displaceExists with
  | some error => exact Or.inr (by simp)
  | none =>
      left
      rw [look, backupExists_quiet] at unseen
      simpa using unseen

theorem Installs.keeps {result : Except GitError InstallOutcome} (step : Installs faults place slot result after)
    (single : Single faults) (calm : faults .displaceExists ≠ none → ¬Lost place slot) : Keeps place slot after := by
  cases step with
  | refused error => exact Keeps.refl place slot
  | moved error bytes hook foreign free broken =>
      obtain ⟨site, other, failed⟩ := broken
      have absent : slot.backup = none := by
        obtain absent | look := free.absent_or_failed
        · exact absent
        · exact absurd (single site .displaceExists failed look) other
      refine ⟨fun node found _ => Held.of_backup found, fun node found => ?_⟩
      simp [absent] at found
  | absent outcome hook checked =>
      refine ⟨fun node found _ => ?_, fun node found => Held.of_backup found⟩
      simp [hook] at found
  | managed outcome bytes executable executable' hook own checked =>
      refine ⟨fun node found foreign => ?_, fun node found => Held.of_backup found⟩
      rw [hook] at found
      cases found
      exact absurd own (foreign bytes executable rfl)
  | foreign outcome bytes hook foreign free =>
      refine ⟨fun node found _ => Held.of_backup found, fun node found => ?_⟩
      obtain absent | look := free.absent_or_failed
      · simp [absent] at found
      · have spared := calm look
        by_cases own : node.contents = .bytes bytes
        · rw [own]
          exact ⟨_, Or.inr hook, rfl⟩
        by_cases wrapper : node.contents = .bytes (place.script true)
        · rw [wrapper]
          exact ⟨_, Or.inl rfl, rfl⟩
        refine absurd ⟨bytes, node, hook, foreign, found, fun directory => ?_, own, wrapper⟩ spared
        exact free.2 (found.trans (congrArg some directory))

end Keeping

section Settling

theorem Installs.settles (step : Installs faults place slot (.ok outcome) after)
    (passes : faults .managedExists ≠ none → Passes place slot)
    (calm : ∀ site, faults site ≠ none → ¬Misled place slot site) : Steady place after := by
  cases step with
  | absent _ hook checked =>
      have safe : slot.backup.isSome → SafeBackup slot := by
        cases look : faults .absentExists with
        | some error => exact not_misled_missing (calm .absentExists (by simp [look])) hook
        | none => rwa [look, backupExists_quiet] at checked
      have chained : backupExists (faults .absentChain) slot.backup = slot.backup.isSome := by
        cases look : faults .absentChain with
        | none => exact backupExists_quiet slot.backup
        | some error =>
            have spared := calm .absentChain (by simp [look])
            cases backup : slot.backup with
            | none => rfl
            | some node => exact absurd ⟨hook, safe (by simp [backup])⟩ spared
      rw [chained]
      exact ⟨⟨true, rfl⟩, safe⟩
  | managed _ bytes executable executable' hook own checked =>
      cases declared : declaresOriginal bytes place.hook place.backup with
      | true =>
          have safe : SafeBackup slot := checked (by simp [declared])
          refine ⟨⟨executable', ?_⟩, fun _ => safe⟩
          simp [safe.isSome]
      | false =>
          have plain : bytes = place.script false := by simpa [Managed, declared] using own
          have safe : slot.backup.isSome → SafeBackup slot := by
            intro some
            cases look : faults .managedExists with
            | none => exact checked (by simp [declared, look, some])
            | some error =>
                refine passes (by simp [look]) bytes (by rw [hook]; rfl) (Or.inr ⟨plain, some⟩)
          have chained : backupExists (faults .managedChain) slot.backup = slot.backup.isSome := by
            cases look : faults .managedChain with
            | none => exact backupExists_quiet slot.backup
            | some error =>
                have spared := calm .managedChain (by simp [look])
                cases backup : slot.backup with
                | none => rfl
                | some node => exact absurd ⟨⟨executable, plain ▸ hook⟩, safe (by simp [backup])⟩ spared
          refine ⟨⟨executable', ?_⟩, safe⟩
          simp [chained]
  | foreign _ bytes hook foreign free =>
      refine ⟨⟨true, by simp [hook]⟩, fun _ => ⟨_, hook, rfl⟩⟩

theorem Installs.installable (step : Installs (fun _ => none) place slot (.ok outcome) after) :
    Installable place slot := by
  cases step with
  | absent _ hook checked =>
      rw [backupExists_quiet] at checked
      simpa only [Installable, hook] using checked
  | managed _ bytes executable executable' hook own checked =>
      simpa only [Installable, hook, if_pos own, backupExists_quiet, Bool.or_eq_true] using checked
  | foreign _ bytes hook foreign free =>
      obtain absent | look := free.absent_or_failed
      · simp [Installable, hook, foreign, absent]
      · exact absurd rfl look

theorem Installable.passes (installable : Installable place slot) : Passes place slot := by
  intro bytes read asked
  cases hook : slot.hook with
  | none => simp [hook, readFile] at read
  | some node =>
      cases node with
      | directory => simp [Installable, hook] at installable
      | symlink target read => simp [Installable, hook] at installable
      | regular current executable =>
          simp only [hook, readFile, Except.ok.injEq] at read
          subst read
          have own : Managed place current := asked.imp_right And.left
          simp only [Installable, hook, if_pos own] at installable
          exact installable (asked.imp_right And.right)

theorem checkChain_eq_ok (read : faults .chainRead = none) (look : faults .chainExists = none)
    (validate : faults .chainValidate = none) : checkChain faults place slot = .ok () ↔ Passes place slot := by
  rw [checkChain, read, look, validate]
  cases found : readFile none slot.hook with
  | error error => simp [Passes, found]
  | ok current =>
      simp only [Passes, found, Except.ok.injEq, forall_eq', backupExists_quiet, Bool.or_eq_true, Bool.and_eq_true,
        beq_iff_eq]
      split
      · next asked =>
          constructor
          · intro valid _
            exact validateOriginal_ok valid
          · intro safe
            exact (safe asked).valid place.backup
      · next unasked => simp [unasked]

theorem Steady.again (settled : Steady place slot) (outcome : InstallOutcome) :
    installHook (fun _ => none) place outcome slot =
      (.ok { outcome with updated := outcome.updated ++ [place.hook.name] }, slot) := by
  obtain ⟨executable, hook⟩ := settled.current
  have own : declaresOriginal (place.script slot.backup.isSome) place.hook place.backup = slot.backup.isSome := by
    cases slot.backup <;> simp
  have managed : (slot.backup.isSome || place.script slot.backup.isSome == place.script false) = true := by
    cases slot.backup <;> simp
  have valid : (if slot.backup.isSome then validateOriginal none place.backup slot.backup else .ok ()) = .ok () := by
    split
    · next some => exact (settled.safe some).valid place.backup
    · rfl
  simp [installHook, hook, symlinkMetadata, readFile, own, managed, valid]

theorem Steady.passes (settled : Steady place slot) : Passes place slot := by
  obtain ⟨executable, hook⟩ := settled.current
  intro bytes read asked
  simp only [hook, readFile, Except.ok.injEq] at read
  subst read
  refine settled.safe ?_
  obtain declared | ⟨-, some⟩ := asked
  · cases backup : slot.backup with
    | some node => rfl
    | none => simp [backup] at declared
  · exact some

theorem Current.steady (current : Current place slot) (passes : Passes place slot) : Steady place slot := by
  refine ⟨current, fun some => ?_⟩
  obtain ⟨executable, hook⟩ := current
  refine passes (place.script slot.backup.isSome) (by rw [hook]; rfl) (Or.inl ?_)
  simp [some]

end Settling

section Failing

theorem Installable.installed (installable : Installable place slot) (outcome : InstallOutcome) :
    ∃ done after, installHook (fun _ => none) place outcome slot = (.ok done, after) := by
  cases hook : slot.hook with
  | none =>
      simp only [Installable, hook] at installable
      have checked : (if slot.backup.isSome then validateOriginal none place.backup slot.backup else .ok ()) =
          .ok () := by
        split
        · next some => exact (installable some).valid place.backup
        · rfl
      refine ⟨{ outcome with installed := outcome.installed ++ [place.hook.name] },
        ⟨some (.regular (place.script slot.backup.isSome) true), slot.backup⟩, ?_⟩
      simp only [installHook, hook, symlinkMetadata, backupExists_quiet, checked, writeScript, failing, ok_bind]
      rfl
  | some node =>
      cases node with
      | directory => simp [Installable, hook] at installable
      | symlink target read => simp [Installable, hook] at installable
      | regular current executable =>
          by_cases own : Managed place current
          · simp only [Installable, hook, if_pos own] at installable
            have managed : (declaresOriginal current place.hook place.backup || current == place.script false) = true := by
              simpa [Managed] using own
            have checked : (if declaresOriginal current place.hook place.backup || slot.backup.isSome then
                validateOriginal none place.backup slot.backup else .ok ()) = .ok () := by
              split
              · next asked => exact (installable (by simpa using asked)).valid place.backup
              · rfl
            by_cases change : current ≠ place.script (declaresOriginal current place.hook place.backup ||
                slot.backup.isSome)
            · refine ⟨{ outcome with updated := outcome.updated ++ [place.hook.name] },
                ⟨some (.regular (place.script (declaresOriginal current place.hook place.backup || slot.backup.isSome))
                  true), slot.backup⟩, ?_⟩
              simp only [installHook, hook, symlinkMetadata, readFile, managed, if_true, backupExists_quiet, checked,
                if_pos change, writeScript, failing, ok_bind]
            · refine ⟨{ outcome with updated := outcome.updated ++ [place.hook.name] }, slot, ?_⟩
              simp only [installHook, hook, symlinkMetadata, readFile, managed, if_true, backupExists_quiet, checked,
                if_neg change]
          · simp only [Installable, hook, if_neg own] at installable
            obtain ⟨executes, absent⟩ := installable
            have foreign : (declaresOriginal current place.hook place.backup || current == place.script false) = false := by
              simpa [Managed] using own
            have valid : validateOriginal none place.path (some (Node.regular current executable)) = .ok () :=
              validateOriginal_safe place.path executes
            have moved : displaceForeignHook (fun _ => none) place slot = (.ok (), ⟨none, slot.hook⟩) := by
              simp [displaceForeignHook, absent, failing]
            simp only [installHook, hook, symlinkMetadata, readFile, foreign, Bool.false_eq_true, if_false, valid, moved,
              writeScript, failing, ok_bind]
            exact ⟨_, _, rfl⟩

theorem Lost.displaced (lost : Lost place slot) (failed : faults .displaceExists ≠ none)
    (single : Single faults) (outcome : InstallOutcome) :
    ∃ done, installHook faults place outcome slot = (.ok done, ⟨some (.regular (place.script true) true), slot.hook⟩) := by
  have quiet : ∀ site, site ≠ .displaceExists → faults site = none := by
    intro site other
    by_contra failed'
    exact other (single site .displaceExists failed' failed)
  obtain ⟨bytes, original, hook, foreign, backup, file, -, -⟩ := lost
  obtain ⟨error, look⟩ := Option.ne_none_iff_exists'.mp failed
  have foreign : (declaresOriginal bytes place.hook place.backup || bytes == place.script false) = false := by
    simpa [Managed] using foreign
  have valid : validateOriginal none place.path (some (Node.regular bytes true)) = .ok () :=
    validateOriginal_safe place.path rfl
  have moved : displaceForeignHook faults place slot = (.ok (), ⟨none, slot.hook⟩) := by
    simp [displaceForeignHook, look, quiet, failing, backup, file]
  have written : writeScript faults place ⟨none, slot.hook⟩ (place.script true) =
      (.ok (), ⟨some (.regular (place.script true) true), slot.hook⟩) := by
    simp [writeScript, quiet, failing]
  rw [hook] at moved written
  refine ⟨⟨outcome.installed ++ [place.hook.name], outcome.updated, outcome.warnings ++ ["moved existing " ++
    place.hook.name ++ " hook to " ++ display place.backup ++ "; the managed wrapper chains to it"]⟩, ?_⟩
  simp [installHook, hook, symlinkMetadata, readFile, foreign, valid, quiet, moved, written]

theorem Misled.unsettled (misled : Misled place slot site) (failed : faults site ≠ none)
    (single : Single faults) (outcome : InstallOutcome) :
    ∃ done after, installHook faults place outcome slot = (.ok done, after) ∧ ¬Steady place after := by
  have quiet : ∀ other, other ≠ site → faults other = none := by
    intro other different
    by_contra failed'
    exact different (single other site failed' failed)
  obtain ⟨error, look⟩ := Option.ne_none_iff_exists'.mp failed
  cases site with
  | absentExists =>
      obtain ⟨hook, node, backup, unsafe'⟩ := misled
      refine ⟨{ outcome with installed := outcome.installed ++ [place.hook.name] },
        ⟨some (.regular (place.script true) true), slot.backup⟩, ?_, ?_⟩
      · simp only [installHook, hook, symlinkMetadata, quiet .inspect, quiet .absentChain, quiet .writeTemp,
          quiet .setMode, quiet .replaceHook, look, backupExists_failed, backupExists_quiet, backup, writeScript, failing,
          ok_bind, ne_eq, reduceCtorEq, not_false_eq_true, Option.isSome_some]
        rfl
      · intro settled
        obtain ⟨found, same, safe⟩ := settled.safe (by simp [backup])
        rw [backup] at same
        cases same
        exact unsafe' safe
  | absentChain =>
      obtain ⟨hook, safe⟩ := misled
      refine ⟨{ outcome with installed := outcome.installed ++ [place.hook.name] },
        ⟨some (.regular (place.script false) true), slot.backup⟩, ?_, ?_⟩
      · simp only [installHook, hook, symlinkMetadata, quiet .inspect, quiet .absentExists, quiet .absentValidate,
          quiet .writeTemp, quiet .setMode, quiet .replaceHook, look, backupExists_failed, backupExists_quiet,
          safe.isSome, safe.valid, writeScript, failing, ok_bind, ne_eq, reduceCtorEq, not_false_eq_true, if_true]
        rfl
      · intro settled
        obtain ⟨executable, same⟩ := settled.current
        have chained : declaresOriginal (place.script true) place.hook place.backup = true := declares_chained
        simp only [safe.isSome, Option.some.injEq, Node.regular.injEq] at same
        simp [← same.1] at chained
  | managedChain =>
      obtain ⟨⟨executable, hook⟩, safe⟩ := misled
      refine ⟨{ outcome with updated := outcome.updated ++ [place.hook.name] }, slot, ?_, ?_⟩
      · simp only [installHook, hook, symlinkMetadata, readFile, quiet .inspect, quiet .read, quiet .managedExists,
          quiet .managedValidate, look, backupExists_failed, backupExists_quiet, declares_plain, Bool.false_or,
          beq_self_eq_true, if_true, safe.isSome, safe.valid, ne_eq, reduceCtorEq, not_false_eq_true, not_true_eq_false,
          if_false]
      · intro settled
        obtain ⟨executable', same⟩ := settled.current
        have chained : declaresOriginal (place.script true) place.hook place.backup = true := declares_chained
        simp only [hook, safe.isSome, Option.some.injEq, Node.regular.injEq] at same
        simp [← same.1] at chained
  | _ => exact misled.elim

end Failing

end Phasegent.Hooks
