import Phasegent.Interleaving.Program

namespace Interleaving
open Relation

variable {S E : Type} {R : E → Type} {α : Type}

abbrev Pid := Nat

/-- What one effect of one process can do to the shared state, and what a crash leaves behind. -/
structure World (S E : Type) (R : E → Type) where
  step : Pid → S → (e : E) → R e → S → Prop
  crash : Pid → S → S → Prop

structure Config (S E : Type) (R : E → Type) (α : Type) where
  shared : S
  procs : Pid → Option (Prog E R α)

/-- Process `i` goes on with `p` (or is dead) and the shared state becomes `s'`. -/
def Config.put (c : Config S E R α) (i : Pid) (p : Option (Prog E R α)) (s' : S) :
    Config S E R α :=
  ⟨s', Function.update c.procs i p⟩

@[simp] theorem Config.put_shared (c : Config S E R α) (i : Pid) (p : Option (Prog E R α))
    (s' : S) : (c.put i p s').shared = s' := rfl

@[simp] theorem Config.put_self (c : Config S E R α) (i : Pid) (p : Option (Prog E R α))
    (s' : S) : (c.put i p s').procs i = p := by
  simp [Config.put]

theorem Config.put_other {c : Config S E R α} {i j : Pid} {p : Option (Prog E R α)} {s' : S}
    (other : j ≠ i) : (c.put i p s').procs j = c.procs j := by
  simp [Config.put, Function.update_of_ne other]

def Config.result (c : Config S E R α) (i : Pid) : Option α :=
  match c.procs i with
  | some (.done a) => some a
  | _ => none

theorem Config.result_eq_some {c : Config S E R α} {i : Pid} {a : α} :
    c.result i = some a ↔ c.procs i = some (.done a) := by
  unfold Config.result
  constructor
  · intro finished
    split at finished
    · next running =>
        cases finished
        exact running
    · cases finished
  · intro finished
    rw [finished]

inductive Step (W : World S E R) : Config S E R α → Config S E R α → Prop
  | perform {c : Config S E R α} {i : Pid} {e : E} {next : R e → Prog E R α} {r : R e} {s' : S}
      (running : c.procs i = some (.call e next)) (effect : W.step i c.shared e r s') :
      Step W c (c.put i (some (next r)) s')
  | crash {c : Config S E R α} {i : Pid} {p : Prog E R α} {s' : S}
      (running : c.procs i = some p) (effect : W.crash i c.shared s') :
      Step W c (c.put i none s')

def Run (W : World S E R) : Config S E R α → Config S E R α → Prop := ReflTransGen (Step W)

theorem Run.perform {W : World S E R} {c₀ c : Config S E R α} (run : Run W c₀ c) (i : Pid) {e : E}
    {next : R e → Prog E R α} (r : R e) (s' : S) (running : c.procs i = some (.call e next))
    (effect : W.step i c.shared e r s') : Run W c₀ (c.put i (some (next r)) s') :=
  run.tail (.perform running effect)

theorem Run.calls {W : World S E R} {ok : Pid → E → Prop} {c₀ c : Config S E R α}
    (run : Run W c₀ c) (start : ∀ i p, c₀.procs i = some p → p.Calls (ok i)) :
    ∀ i p, c.procs i = some p → p.Calls (ok i) := by
  induction run with
  | refl => exact start
  | tail _ step ih =>
      intro j p running
      cases step with
      | @perform i e next r s' before effect =>
          by_cases same : j = i
          · subst same
            rw [Config.put_self, Option.some.injEq] at running
            rw [← running]
            exact (ih j _ before).2 r
          · rw [Config.put_other same] at running
            exact ih j p running
      | @crash i q s' before effect =>
          by_cases same : j = i
          · subst same
            rw [Config.put_self] at running
            cases running
          · rw [Config.put_other same] at running
            exact ih j p running

theorem Run.one_call {W : World S E R} {c₀ c : Config S E R α} (run : Run W c₀ c) {i : Pid}
    {p₀ : Prog E R α} (started : c₀.procs i = some p₀)
    (short : ∀ e next, p₀ = .call e next → ∀ r, ∃ a, next r = .done a) {p : Prog E R α}
    (running : c.procs i = some p) : p = p₀ ∨ ∃ a, p = .done a := by
  induction run generalizing p with
  | refl => exact .inl (Option.some.inj (running.symm.trans started))
  | tail _ step ih =>
      cases step with
      | @perform j e next r s' before effect =>
          by_cases same : i = j
          · subst same
            rw [Config.put_self, Option.some.injEq] at running
            rcases ih before with start | ⟨a, ended⟩
            · obtain ⟨a, ended⟩ := short e next start.symm r
              exact .inr ⟨a, running.symm.trans ended⟩
            · cases ended
          · rw [Config.put_other same] at running
            exact ih running
      | @crash j q s' before effect =>
          by_cases same : i = j
          · subst same
            rw [Config.put_self] at running
            cases running
          · rw [Config.put_other same] at running
            exact ih running

namespace World

def guard (W : World S E R) (condition : Pid → S → (e : E) → R e → Prop) : World S E R where
  step i s e r s' := W.step i s e r s' ∧ condition i s e r
  crash := W.crash

end World

theorem Step.unguard {W : World S E R} {condition : Pid → S → (e : E) → R e → Prop}
    {c c' : Config S E R α} (step : Step (W.guard condition) c c') : Step W c c' := by
  cases step with
  | perform running effect => exact .perform running effect.1
  | crash running effect => exact .crash running effect

theorem Run.unguard {W : World S E R} {condition : Pid → S → (e : E) → R e → Prop}
    {c c' : Config S E R α} (run : Run (W.guard condition) c c') : Run W c c' :=
  ReflTransGen.mono (fun _ _ step => step.unguard) _ _ run

section Invariants
variable {W : World S E R}

theorem Run.related (law : S → S → Prop) (refl : ∀ s, law s s)
    (trans : ∀ {a b c}, law a b → law b c → law a c)
    (perform : ∀ {i s e r s'}, W.step i s e r s' → law s s')
    (crash : ∀ {i s s'}, W.crash i s s' → law s s')
    {c c' : Config S E R α} (run : Run W c c') : law c.shared c'.shared := by
  induction run with
  | refl => exact refl _
  | tail _ step ih =>
      refine trans ih ?_
      cases step with
      | perform running effect => exact perform effect
      | crash running effect => exact crash effect

theorem Run.invariant (Inv : S → Prop) (perform : ∀ {i s e r s'}, Inv s → W.step i s e r s' → Inv s')
    (crash : ∀ {i s s'}, Inv s → W.crash i s s' → Inv s')
    {c c' : Config S E R α} (run : Run W c c') (holds : Inv c.shared) : Inv c'.shared :=
  Run.related (fun s s' => Inv s → Inv s') (fun _ => id) (fun f g => g ∘ f)
    (fun step inv => perform inv step) (fun step inv => crash inv step) run holds

end Invariants

end Interleaving
