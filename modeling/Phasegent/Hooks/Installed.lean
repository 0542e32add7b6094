import Phasegent.Hooks.Install

namespace Phasegent.Hooks
open Fallible
open Switch (GitError)

variable {faults : Faults} {place : HookPlace} {slot after : Slot} {bytes : Bytes} {executable : Bool}

section Scripts

theorem utf8_append (a b : List Char) : utf8 (a ++ b) = utf8 a ++ utf8 b := by
  simp [utf8]

theorem head?_utf8 (c : Char) (text : List Char) :
    (utf8 (c :: text)).head? = (String.utf8EncodeChar c).head? := by
  have some : String.utf8EncodeChar c ≠ [] := by
    intro none
    have size := String.length_utf8EncodeChar c
    rw [none] at size
    have positive := c.utf8Size_pos
    simp at size
    omega
  rw [utf8, List.flatMap_cons]
  cases shape : String.utf8EncodeChar c with
  | nil => exact absurd shape some
  | cons b rest => rfl

theorem script_ne (hook : HookKind) (backup : Bytes) (preflight : Bool) :
    renderScript hook none ≠ renderWrapper hook (some backup) preflight := by
  intro same
  obtain ⟨plain, exec⟩ : ∃ plain, ("exec phasegent hooks run " ++ hook.name ++ " \"$@\"\n").toList = 'e' :: plain := by
    cases hook <;> exact ⟨_, rfl⟩
  obtain ⟨chained, comment⟩ : ∃ chained, chain backup preflight = '#' :: chained := ⟨_, rfl⟩
  simp only [renderScript, renderWrapper, utf8_append, List.append_assoc, List.append_cancel_left_eq,
    List.nil_append, exec, comment] at same
  have first := congrArg List.head? same
  rw [← utf8_append, List.cons_append, head?_utf8, head?_utf8] at first
  exact absurd first (by decide)

@[simp] theorem declares_plain : declaresOriginal (place.script false) place.hook place.backup = false := by
  have chained := script_ne place.hook place.backup true
  have legacy := script_ne place.hook place.backup false
  simp only [declaresOriginal, HookPlace.script, Bool.or_eq_false_iff, beq_eq_false_iff_ne]
  exact ⟨chained, legacy⟩

@[simp] theorem declares_chained : declaresOriginal (place.script true) place.hook place.backup = true := by
  simp [declaresOriginal, HookPlace.script]

end Scripts

section Steps

/-- The text of a wrapper of this program, with or without an original that it declares. -/
def Managed (place : HookPlace) (bytes : Bytes) : Prop :=
  declaresOriginal bytes place.hook place.backup = true ∨ bytes = place.script false

instance : Decidable (Managed place bytes) := inferInstanceAs (Decidable (_ ∨ _))

def SafeBackup (slot : Slot) : Prop := ∃ node, slot.backup = some node ∧ isSafe node

def Free (faults : Faults) (slot : Slot) : Prop :=
  backupExists (faults .displaceExists) slot.backup = false ∧ slot.backup ≠ some .directory

inductive Installs (faults : Faults) (place : HookPlace) (slot : Slot) :
    Except GitError InstallOutcome → Slot → Prop
  | refused (error : GitError) : Installs faults place slot (.error error) slot
  | moved (error : GitError) (bytes : Bytes) (hook : slot.hook = some (.regular bytes true))
      (foreign : ¬Managed place bytes) (free : Free faults slot)
      (broken : ∃ site ≠ .displaceExists, faults site ≠ none) :
      Installs faults place slot (.error error) ⟨none, slot.hook⟩
  | absent (outcome : InstallOutcome) (hook : slot.hook = none)
      (checked : backupExists (faults .absentExists) slot.backup → SafeBackup slot) :
      Installs faults place slot (.ok outcome)
        ⟨some (.regular (place.script (backupExists (faults .absentChain) slot.backup)) true), slot.backup⟩
  | managed (outcome : InstallOutcome) (bytes : Bytes) (executable executable' : Bool)
      (hook : slot.hook = some (.regular bytes executable)) (own : Managed place bytes)
      (checked : declaresOriginal bytes place.hook place.backup ||
        backupExists (faults .managedExists) slot.backup → SafeBackup slot) :
      Installs faults place slot (.ok outcome)
        ⟨some (.regular (place.script (declaresOriginal bytes place.hook place.backup ||
          backupExists (faults .managedChain) slot.backup)) executable'), slot.backup⟩
  | foreign (outcome : InstallOutcome) (bytes : Bytes) (hook : slot.hook = some (.regular bytes true))
      (foreign : ¬Managed place bytes) (free : Free faults slot) :
      Installs faults place slot (.ok outcome) ⟨some (.regular (place.script true) true), slot.hook⟩

theorem writeScript_cases (faults : Faults) (place : HookPlace) (slot : Slot) (contents : Bytes) :
    (∃ error, (∃ site ≠ .displaceExists, faults site ≠ none) ∧
        writeScript faults place slot contents = (.error error, slot)) ∨
      writeScript faults place slot contents = (.ok (), ⟨some (.regular contents true), slot.backup⟩) := by
  cases written : faults .writeTemp with
  | some e => exact Or.inl ⟨_, ⟨.writeTemp, by simp, by simp [written]⟩, by simp [writeScript, written, failing]; rfl⟩
  | none =>
      cases mode : faults .setMode with
      | some e =>
          exact Or.inl ⟨_, ⟨.setMode, by simp, by simp [mode]⟩, by simp [writeScript, written, mode, failing]; rfl⟩
      | none =>
          cases replaced : faults .replaceHook with
          | some e =>
              exact Or.inl ⟨_, ⟨.replaceHook, by simp, by simp [replaced]⟩,
                by simp [writeScript, written, mode, replaced, failing]; rfl⟩
          | none => exact Or.inr (by simp [writeScript, written, mode, replaced, failing])

theorem validateOriginal_ok {fault : Option IoError} {path : Bytes} {node : Option Node}
    (valid : validateOriginal fault path node = .ok ()) : ∃ found, node = some found ∧ isSafe found := by
  rw [validateOriginal, refuse_eq_ok] at valid
  cases fault with
  | some error => simp [symlinkMetadata, Except.toOption] at valid
  | none =>
      cases node with
      | none => simp [symlinkMetadata, Except.toOption] at valid
      | some found => exact ⟨found, rfl, by simpa [symlinkMetadata, Except.toOption] using valid⟩

theorem displaceForeignHook_cases (faults : Faults) (place : HookPlace) (slot : Slot) :
    (∃ error, displaceForeignHook faults place slot = (.error error, slot)) ∨
      Free faults slot ∧ displaceForeignHook faults place slot = (.ok (), ⟨none, slot.hook⟩) := by
  unfold displaceForeignHook
  split
  · exact Or.inl ⟨_, rfl⟩
  · next unseen =>
      split
      · exact Or.inl ⟨_, rfl⟩
      · dsimp only
        split
        · exact Or.inl ⟨_, rfl⟩
        · next moved =>
            right
            refine ⟨⟨by simpa using unseen, fun occupied => ?_⟩, rfl⟩
            simp only [occupied, if_true] at moved
            cases failed : faults .moveHook <;> simp [failed, failing] at moved

theorem symlinkMetadata_some {fault : Option IoError} {node : Option Node} {found : Node}
    (seen : symlinkMetadata fault node = .ok found) : fault = none ∧ node = some found := by
  unfold symlinkMetadata at seen
  split at seen <;> cases seen
  exact ⟨rfl, rfl⟩

theorem checked_of_ok {seen : Bool} {fault : Option IoError} {path : Bytes}
    (checked : (if seen then validateOriginal fault path slot.backup else .ok ()) = .ok ()) :
    seen → SafeBackup slot := by
  intro found
  rw [if_pos found] at checked
  exact validateOriginal_ok checked

theorem installHook_cases (quiet : ∀ error ∈ faults .inspect, error.notFound = false)
    (outcome : InstallOutcome) : Installs faults place slot (installHook faults place outcome slot).1
      (installHook faults place outcome slot).2 := by
  unfold installHook
  dsimp only
  split
  · next error unseen =>
      split
      · exact .refused _
      · next missing =>
          have none : slot.hook = none := by
            cases failed : faults .inspect with
            | some error' =>
                have loud := quiet error' failed
                rw [failed, symlinkMetadata] at unseen
                cases unseen
                simp [loud] at missing
            | none =>
                cases hook : slot.hook with
                | none => rfl
                | some node => simp [failed, hook, symlinkMetadata] at unseen
          split
          · exact .refused _
          · next checked =>
              rcases writeScript_cases faults place slot (place.script
                (backupExists (faults .absentChain) slot.backup)) with ⟨error, -, failed⟩ | written
              · rw [failed]
                exact .refused _
              · rw [written]
                exact .absent _ none (checked_of_ok checked)
  · exact .refused _
  · exact .refused _
  · next bytes executable seen =>
      obtain ⟨_, hook⟩ := symlinkMetadata_some seen
      split
      · exact .refused _
      · next current read =>
          have same : current = bytes := by
            rw [hook] at read
            cases failed : faults .read <;> simp [failed, readFile] at read
            exact read.symm
          subst same
          split
          · next own =>
              have managed : Managed place current := by simpa [Managed] using own
              split
              · exact .refused _
              · next checked =>
                  have safe := checked_of_ok checked
                  by_cases change : current ≠ place.script (declaresOriginal current place.hook place.backup ||
                      backupExists (faults .managedChain) slot.backup)
                  · rw [if_pos change]
                    rcases writeScript_cases faults place slot (place.script
                      (declaresOriginal current place.hook place.backup ||
                        backupExists (faults .managedChain) slot.backup)) with ⟨error, -, failed⟩ | written
                    · rw [failed]
                      exact .refused _
                    · rw [written]
                      exact .managed _ current executable true hook managed safe
                  · rw [if_neg change]
                    have step := Installs.managed
                      { outcome with updated := outcome.updated ++ [place.hook.name] }
                      current executable executable hook managed safe
                    rw [← not_not.mp change, ← hook] at step
                    exact step
          · next foreign =>
              have other : ¬Managed place current := by simpa [Managed] using foreign
              split
              · exact .refused _
              · next valid =>
                  obtain ⟨node, found, safe⟩ := validateOriginal_ok valid
                  have executes : executable = true := by
                    rw [hook] at found
                    cases found
                    exact safe
                  rw [executes] at hook
                  rcases displaceForeignHook_cases faults place slot with ⟨error, failed⟩ | ⟨free, moved⟩
                  · rw [failed]
                    exact .refused _
                  · rw [moved]
                    dsimp only
                    rcases writeScript_cases faults place ⟨none, slot.hook⟩ (place.script true) with
                      ⟨error, broken, failed⟩ | written
                    · rw [failed]
                      exact .moved _ current hook other free broken
                    · rw [written]
                      exact .foreign _ current hook other free

end Steps

end Phasegent.Hooks
