import Phasegent.Interleaving.Effects
import Phasegent.Interleaving.History

namespace Interleaving

variable {S E : Type} {R : E → Type} {α ε : Type}

def Config.solo (p : Prog E R α) (s : S) : Config S E R α :=
  ⟨s, fun i => if i = 0 then some p else none⟩

@[simp] theorem Config.solo_shared (p : Prog E R α) (s : S) : (Config.solo p s).shared = s := rfl

/-- What runs of one program leave behind, one after the other, each stopped wherever it was. -/
inductive Sessions (W : World S E R) (p : Prog E R α) (stop : S → Prop) (s₀ : S) : S → Prop
  | start : Sessions W p stop s₀ s₀
  | run {s : S} {c : Config S E R α} (before : Sessions W p stop s₀ s)
      (run : Run W (.solo p s) c) (stopped : stop c.shared) : Sessions W p stop s₀ c.shared

section Alone
variable {W : World S E R} {Inv P : S → Prop} {Q : α → S → Prop} {p : Prog E R α} {s s₀ : S}

theorem Config.solo_safe (triple : Triple W (.alone 0 Inv) 0 P p Q) (inv : Inv s) (pre : P s) :
    (Config.solo p s).Safe W (.alone 0 Inv) fun _ => Q := by
  refine ⟨inv, fun i q running => ?_⟩
  by_cases first : i = 0
  · subst first
    obtain rfl : p = q := by simpa [Config.solo] using running
    exact triple s inv pre
  · simp [Config.solo, first] at running

variable {c : Config S E R α} {a : α}

theorem Run.solo (still : ∀ i s s', W.crash i s s' → s' = s)
    (triple : Triple W (.alone 0 Inv) 0 P p Q) (inv : Inv s) (pre : P s)
    (run : Run W (.solo p s) c) : c.Safe W (.alone 0 Inv) fun _ => Q := by
  apply run.safe _ (Config.solo_safe triple inv pre)
  intro i s s' inv crashed
  obtain rfl := still i s s' crashed
  exact ⟨inv, .inr rfl⟩

theorem Run.returns (still : ∀ i s s', W.crash i s s' → s' = s)
    (triple : Triple W (.alone 0 Inv) 0 P p Q) (inv : Inv s) (pre : P s)
    (run : Run W (.solo p s) c) (finished : c.result 0 = some a) : Q a c.shared :=
  (run.solo still triple inv pre).result finished

end Alone

end Interleaving
