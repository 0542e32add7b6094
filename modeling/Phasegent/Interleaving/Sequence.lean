import Mathlib.Data.List.Basic

namespace Interleaving

variable {S C : Type} {step : S → C → S} {start : S} {calls : List C} {P : S → Prop} {c : C} {k : Nat}

def stateAt (step : S → C → S) (start : S) (calls : List C) (k : Nat) : S :=
  (calls.take k).foldl step start

@[simp] theorem stateAt_zero : stateAt step start calls 0 = start := rfl

theorem stateAt_succ (call : calls[k]? = some c) :
    stateAt step start calls (k + 1) = step (stateAt step start calls k) c := by
  obtain ⟨bound, rfl⟩ := List.getElem?_eq_some_iff.mp call
  rw [stateAt, List.take_add_one, List.getElem?_eq_getElem bound, List.foldl_append]
  rfl

theorem stateAt_beyond (past : calls[k]? = none) :
    stateAt step start calls (k + 1) = stateAt step start calls k := by
  simp [stateAt, List.take_add_one, past]

theorem stateAt_invariant (initial : P start)
    (keeps : ∀ s, ∀ c ∈ calls, P s → P (step s c)) (k : Nat) : P (stateAt step start calls k) := by
  induction k with
  | zero => exact initial
  | succ k ih =>
      cases call : calls[k]? with
      | none =>
          rw [stateAt_beyond call]
          exact ih
      | some c =>
          rw [stateAt_succ call]
          exact keeps _ c (List.mem_of_getElem? call) ih

end Interleaving
