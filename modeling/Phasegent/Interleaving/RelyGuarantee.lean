import Phasegent.Interleaving.World

namespace Interleaving
open Relation

variable {S E : Type} {R : E → Type} {α β ε : Type}

/-- What a proof about one process may assume of the others: the invariant, and a guarantee that
every effect of process `j` gives. -/
structure Contract (S : Type) where
  Inv : S → Prop
  guarantee : Pid → S → S → Prop

def OnOk (Q : α → S → Prop) : Except ε α → S → Prop
  | .ok a => Q a
  | .error _ => fun _ => True

namespace Contract
variable (C : Contract S)

/-- What the other processes can do to the state while process `i` does nothing. -/
def Rely (i : Pid) : S → S → Prop :=
  ReflTransGen fun s s' => C.Inv s ∧ C.Inv s' ∧ ∃ j, j ≠ i ∧ C.guarantee j s s'

def Stable (i : Pid) (P : S → Prop) : Prop :=
  ∀ s s', C.Inv s → C.Inv s' → (∃ j, j ≠ i ∧ C.guarantee j s s') → P s → P s'

variable {C}

theorem Stable.rely {i : Pid} {P : S → Prop} (stable : C.Stable i P) {s s' : S}
    (rely : C.Rely i s s') (holds : P s) : P s' := by
  induction rely with
  | refl => exact holds
  | tail _ step ih => exact stable _ _ step.1 step.2.1 step.2.2 ih

theorem Stable.and {i : Pid} {P Q : S → Prop} (first : C.Stable i P) (second : C.Stable i Q) :
    C.Stable i fun s => P s ∧ Q s :=
  fun s s' inv inv' step holds =>
    ⟨first s s' inv inv' step holds.1, second s s' inv inv' step holds.2⟩

theorem stable_const (i : Pid) (p : Prop) : C.Stable i fun _ => p :=
  fun _ _ _ _ _ holds => holds

theorem stable_onOk {i : Pid} {Q : α → S → Prop} (stable : ∀ a, C.Stable i (Q a))
    (result : Except ε α) : C.Stable i (OnOk Q result) := by
  cases result with
  | ok a => exact stable a
  | error e => exact stable_const i True

/-- The contract of a process that nobody else interferes with. -/
def alone (i : Pid) (Inv : S → Prop) : Contract S where
  Inv := Inv
  guarantee j s s' := j = i ∨ s' = s

theorem stable_alone {i : Pid} {Inv : S → Prop} (P : S → Prop) : (alone i Inv).Stable i P := by
  rintro s s' - - ⟨j, other, rfl | rfl⟩ holds
  · exact absurd rfl other
  · exact holds

end Contract

/-- Process `i` may run `p` from `s` under interference: every effect keeps the invariant and
gives the guarantee, and every result satisfies `Q`. -/
def Safe (W : World S E R) (C : Contract S) (i : Pid) (Q : α → S → Prop) : Prog E R α → S → Prop
  | .done a, s => ∀ s', C.Rely i s s' → Q a s'
  | .call e next, s => ∀ s₁, C.Rely i s s₁ → C.Inv s₁ → ∀ r s₂, W.step i s₁ e r s₂ →
      C.Inv s₂ ∧ C.guarantee i s₁ s₂ ∧ Safe W C i Q (next r) s₂

section Rules
variable {W : World S E R} {C : Contract S} {i : Pid}

theorem Safe.interfere {Q : α → S → Prop} {p : Prog E R α} {s s' : S}
    (safe : Safe W C i Q p s) (rely : C.Rely i s s') : Safe W C i Q p s' := by
  cases p with
  | done a => exact fun t more => safe t (rely.trans more)
  | call e next => exact fun t more => safe t (rely.trans more)

def Triple (W : World S E R) (C : Contract S) (i : Pid) (P : S → Prop) (p : Prog E R α)
    (Q : α → S → Prop) : Prop :=
  ∀ s, C.Inv s → P s → Safe W C i Q p s

theorem Triple.done {P : S → Prop} {Q : α → S → Prop} {a : α} (stable : C.Stable i (Q a))
    (post : ∀ s, C.Inv s → P s → Q a s) : Triple W C i P (.done a) Q :=
  fun s inv holds _ rely => stable.rely rely (post s inv holds)

theorem Triple.call {P : S → Prop} {Q : α → S → Prop} {e : E} {next : R e → Prog E R α}
    {M : R e → S → Prop} (stable : C.Stable i P)
    (effect : ∀ s r s', C.Inv s → P s → W.step i s e r s' →
      C.Inv s' ∧ C.guarantee i s s' ∧ M r s')
    (rest : ∀ r, Triple W C i (M r) (next r) Q) : Triple W C i P (.call e next) Q := by
  intro s inv holds s₁ rely inv₁ r s₂ step
  obtain ⟨inv₂, given, mid⟩ := effect s₁ r s₂ inv₁ (stable.rely rely holds) step
  exact ⟨inv₂, given, rest r s₂ inv₂ mid⟩

theorem Triple.bind {P : S → Prop} {M : α → S → Prop} {Q : β → S → Prop} {p : Prog E R α}
    {f : α → Prog E R β} (first : Triple W C i P p M)
    (rest : ∀ a, Triple W C i (M a) (f a) Q) : Triple W C i P (p.bind f) Q := by
  intro s inv holds
  have safe := first s inv holds
  clear first holds
  induction p generalizing s with
  | done a => exact rest a s inv (safe s .refl)
  | call e next ih =>
      intro s₁ rely inv₁ r s₂ step
      obtain ⟨inv₂, given, safe₂⟩ := safe s₁ rely inv₁ r s₂ step
      exact ⟨inv₂, given, ih r s₂ inv₂ safe₂⟩

theorem Triple.calls {P : S → Prop} {ok : E → Prop} {p : Prog E R α} (stable : C.Stable i P)
    (effect : ∀ s e r s', C.Inv s → P s → ok e → W.step i s e r s' →
      C.Inv s' ∧ C.guarantee i s s' ∧ P s')
    (calls : p.Calls ok) : Triple W C i P p fun _ => P := by
  induction p with
  | done a => exact Triple.done stable fun _ _ holds => holds
  | call e next ih =>
      apply Triple.call stable
      · exact fun s r s' inv holds step => effect s e r s' inv holds calls.1 step
      · exact fun r => ih r (calls.2 r)

theorem Triple.pre {P P' : S → Prop} {Q : α → S → Prop} {p : Prog E R α}
    (triple : Triple W C i P' p Q) (implies : ∀ s, C.Inv s → P s → P' s) : Triple W C i P p Q :=
  fun s inv holds => triple s inv (implies s inv holds)

theorem Triple.weaken {P : S → Prop} {Q Q' : α → S → Prop} {p : Prog E R α}
    (triple : Triple W C i P p Q) (implies : ∀ a s, Q a s → Q' a s) : Triple W C i P p Q' := by
  intro s inv holds
  have safe := triple s inv holds
  clear triple holds
  induction p generalizing s with
  | done a => exact fun s' rely => implies a s' (safe s' rely)
  | call e next ih =>
      intro s₁ rely inv₁ r s₂ step
      obtain ⟨inv₂, given, safe₂⟩ := safe s₁ rely inv₁ r s₂ step
      exact ⟨inv₂, given, ih r s₂ inv₂ safe₂⟩

theorem Triple.failed {P : S → Prop} {Q : α → S → Prop} {e : ε} :
    Triple W C i P (.done (.error e) : Prog E R (Except ε α)) (OnOk Q) :=
  Triple.done (Contract.stable_const i True) fun _ _ _ => trivial

theorem Triple.of_pure {p : Prop} {P : S → Prop} {Q : α → S → Prop} {prog : Prog E R α}
    (triple : p → Triple W C i P prog Q) : Triple W C i (fun s => p ∧ P s) prog Q :=
  fun s inv holds => triple holds.1 s inv holds.2

end Rules

section Soundness
variable {W : World S E R} {C : Contract S} {Q : Pid → α → S → Prop}

def Config.Safe (W : World S E R) (C : Contract S) (Q : Pid → α → S → Prop)
    (c : Config S E R α) : Prop :=
  C.Inv c.shared ∧ ∀ i p, c.procs i = some p → Interleaving.Safe W C i (Q i) p c.shared

theorem Step.safe (crash : ∀ i s s', C.Inv s → W.crash i s s' → C.Inv s' ∧ C.guarantee i s s')
    {c c' : Config S E R α} (safe : c.Safe W C Q) (step : Step W c c') : c'.Safe W C Q := by
  obtain ⟨inv, safe⟩ := safe
  cases step with
  | @perform i e next r s' running effect =>
      obtain ⟨inv', given, safe'⟩ := safe i _ running _ .refl inv r s' effect
      refine ⟨inv', fun j p running' => ?_⟩
      by_cases same : j = i
      · subst same
        obtain rfl : next r = p := by simpa using running'
        exact safe'
      · rw [Config.put_other same] at running'
        exact (safe j p running').interfere (.single ⟨inv, inv', i, Ne.symm same, given⟩)
  | @crash i q s' running effect =>
      obtain ⟨inv', given⟩ := crash i _ s' inv effect
      refine ⟨inv', fun j p running' => ?_⟩
      by_cases same : j = i
      · subst same
        simp at running'
      · rw [Config.put_other same] at running'
        exact (safe j p running').interfere (.single ⟨inv, inv', i, Ne.symm same, given⟩)

/-- The parallel rule: processes that are safe one by one are safe in every interleaving. -/
theorem Run.safe (crash : ∀ i s s', C.Inv s → W.crash i s s' → C.Inv s' ∧ C.guarantee i s s')
    {c c' : Config S E R α} (safe : c.Safe W C Q) (run : Run W c c') : c'.Safe W C Q := by
  induction run with
  | refl => exact safe
  | tail _ step ih => exact step.safe crash ih

theorem Run.guaranteed {law : S → S → Prop} (refl : ∀ s, law s s)
    (trans : ∀ {a b c}, law a b → law b c → law a c)
    (gives : ∀ {i s s'}, C.guarantee i s s' → law s s')
    (crash : ∀ i s s', C.Inv s → W.crash i s s' → C.Inv s' ∧ C.guarantee i s s')
    {c c' : Config S E R α} (safe : c.Safe W C Q) (run : Run W c c') : law c.shared c'.shared := by
  induction run with
  | refl => exact refl _
  | @tail b d before step ih =>
      refine trans ih ?_
      have here : b.Safe W C Q := Run.safe crash safe before
      cases step with
      | @perform i e next r s' running effect =>
          exact gives (here.2 i _ running _ .refl here.1 r s' effect).2.1
      | @crash i p s' running effect => exact gives (crash i _ s' here.1 effect).2

theorem Config.Safe.result {c : Config S E R α} (safe : c.Safe W C Q) {i : Pid} {a : α}
    (finished : c.result i = some a) : Q i a c.shared :=
  safe.2 i _ (Config.result_eq_some.mp finished) _ .refl

end Soundness

end Interleaving
