namespace Sequential

variable {S ε α β : Type} {P : S → Prop}

abbrev Fallibly (S ε : Type) := ExceptT ε (StateM S)

/-- From a state with `P` a program returns with `Q` or fails with `F`. -/
def Ends (P : S → Prop) (p : Fallibly S ε α) (Q : α → S → Prop) (F : ε → S → Prop) : Prop :=
  ∀ s, P s → match p.run s with
    | (.ok a, s') => Q a s'
    | (.error e, s') => F e s'

section Rules

variable {Q Q' : α → S → Prop} {F F' : ε → S → Prop} {M : α → S → Prop}

theorem run_bind (p : Fallibly S ε α) (f : α → Fallibly S ε β) (s : S) :
    (p >>= f).run s = match p.run s with
      | (.ok a, s') => (f a).run s'
      | (.error e, s') => (.error e, s') := by
  change (ExceptT.bind p f).run s = _
  cases result : p.run s with
  | mk outcome s' =>
      rw [ExceptT.run] at result
      cases outcome <;> simp only [ExceptT.bind, ExceptT.run, ExceptT.mk, bind, StateT.bind, result] <;> rfl

theorem ends_pure (a : α) (returns : ∀ s, P s → Q a s) : Ends P (pure a : Fallibly S ε α) Q F := returns

theorem ends_throw (e : ε) (fails : ∀ s, P s → F e s) : Ends P (throw e : Fallibly S ε α) Q F := fails

theorem ends_lift {p : StateM S α} (returns : ∀ s, P s → Q (p s).1 (p s).2) :
    Ends P (liftM p : Fallibly S ε α) Q F := returns

theorem ends_except (result : Except ε α) (returns : ∀ a, result = .ok a → ∀ s, P s → Q a s)
    (fails : ∀ e s, P s → F e s) : Ends P (ExceptT.mk (pure result) : Fallibly S ε α) Q F := by
  cases result with
  | ok a => exact returns a rfl
  | error e => exact fails e

theorem ends_bind {R : β → S → Prop} {p : Fallibly S ε α} {f : α → Fallibly S ε β} (first : Ends P p M F)
    (rest : ∀ a, Ends (M a) (f a) R F) : Ends P (p >>= f) R F := by
  intro s holds
  have started := first s holds
  rw [run_bind]
  split at started
  · exact rest _ _ started
  · exact started

theorem Ends.weaken {p : Fallibly S ε α} (ends : Ends P p Q F) (returns : ∀ a s, Q a s → Q' a s)
    (fails : ∀ e s, F e s → F' e s) : Ends P p Q' F' := by
  intro s holds
  have ended := ends s holds
  split at ended
  · exact returns _ _ ended
  · exact fails _ _ ended

theorem Ends.pre {P' : S → Prop} {p : Fallibly S ε α} (ends : Ends P p Q F) (holds : ∀ s, P' s → P s) :
    Ends P' p Q F := fun s started => ends s (holds s started)

theorem Ends.of_exists {ι : Type} {P : ι → S → Prop} {p : Fallibly S ε α} (ends : ∀ i, Ends (P i) p Q F) :
    Ends (fun s => ∃ i, P i s) p Q F := fun s ⟨i, holds⟩ => ends i s holds

theorem Ends.assume {holds : Prop} {p : Fallibly S ε α} (ends : holds → Ends P p Q F) :
    Ends (fun s => holds ∧ P s) p Q F := fun s ⟨known, started⟩ => ends known s started

theorem ends_refuse {R : Unit → S → Prop} {refused : Prop} [Decidable refused] {e : ε}
    (fails : ∀ s, P s → refused → F e s) (passes : ∀ s, P s → ¬refused → R () s) :
    Ends P (if refused then throw e else pure () : Fallibly S ε Unit) R F := by
  split
  · exact ends_throw e fun s holds => fails s holds ‹_›
  · exact ends_pure () fun s holds => passes s holds ‹_›

theorem Ends.after {R : S → Prop} {p : Fallibly S ε α} (ends : Ends P p Q F) (returns : ∀ a s, Q a s → R s)
    (fails : ∀ e s, F e s → R s) {s : S} (holds : P s) : R (p.run s).2 := by
  have ended := ends s holds
  generalize p.run s = result at ended ⊢
  obtain ⟨_ | _, s'⟩ := result
  · exact fails _ s' ended
  · exact returns _ s' ended

theorem Ends.of_ok {p : Fallibly S ε α} (ends : Ends P p Q F) {s : S} (holds : P s) {a : α}
    (returned : (p.run s).1 = .ok a) : Q a (p.run s).2 := by
  have ended := ends s holds
  generalize p.run s = result at ended returned ⊢
  obtain ⟨_, s'⟩ := result
  cases returned
  exact ended

end Rules

end Sequential
