import Mathlib.Logic.Relation
import Mathlib.Logic.Function.Basic

namespace Interleaving

variable {E : Type} {R : E → Type} {α β ε S : Type}

/-- A program that performs one effect at a time and continues with its answer. -/
inductive Prog (E : Type) (R : E → Type) (α : Type) where
  | done (value : α)
  | call (effect : E) (next : R effect → Prog E R α)

namespace Prog

def bind : Prog E R α → (α → Prog E R β) → Prog E R β
  | .done a, f => f a
  | .call e next, f => .call e fun r => (next r).bind f

def map (f : α → β) (p : Prog E R α) : Prog E R β := p.bind fun a => .done (f a)

instance : Monad (Prog E R) where
  pure := .done
  bind := Prog.bind

@[simp] theorem bind_done (a : α) (f : α → Prog E R β) : (Prog.done a).bind f = f a := rfl

@[simp] theorem bind_call (e : E) (next : R e → Prog E R α) (f : α → Prog E R β) :
    (Prog.call e next).bind f = .call e fun r => (next r).bind f := rfl

@[simp] theorem pure_eq (a : α) : (pure a : Prog E R α) = .done a := rfl

@[simp] theorem bind_eq (p : Prog E R α) (f : α → Prog E R β) : p >>= f = p.bind f := rfl

theorem bind_assoc {γ : Type} (p : Prog E R α) (f : α → Prog E R β) (g : β → Prog E R γ) :
    (p.bind f).bind g = p.bind fun a => (f a).bind g := by
  induction p with
  | done a => rfl
  | call e next ih => simp only [bind_call, ih]

def Calls (ok : E → Prop) : Prog E R α → Prop
  | .done _ => True
  | .call e next => ok e ∧ ∀ r, (next r).Calls ok

theorem Calls.of_forall {ok : E → Prop} (all : ∀ e, ok e) (p : Prog E R α) : p.Calls ok := by
  induction p with
  | done a => trivial
  | call e next ih => exact ⟨all e, ih⟩

theorem Calls.bind {ok : E → Prop} {p : Prog E R α} {f : α → Prog E R β} (first : p.Calls ok)
    (rest : ∀ a, (f a).Calls ok) : (p.bind f).Calls ok := by
  induction p with
  | done a => exact rest a
  | call e next ih => exact ⟨first.1, fun r => ih r (first.2 r)⟩

theorem Calls.mono {ok ok' : E → Prop} {p : Prog E R α} (calls : p.Calls ok)
    (implies : ∀ e, ok e → ok' e) : p.Calls ok' := by
  induction p with
  | done a => trivial
  | call e next ih => exact ⟨implies e calls.1, fun r => ih r (calls.2 r)⟩

end Prog

end Interleaving
