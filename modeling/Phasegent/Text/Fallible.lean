import Mathlib.Data.List.Forall2

namespace Fallible

variable {ε ε' α β : Type}

@[simp] theorem bind_eq_ok {x : Except ε α} {f : α → Except ε β} {b : β} :
    x >>= f = .ok b ↔ ∃ a, x = .ok a ∧ f a = .ok b := by
  cases x with
  | ok a => simp [bind, Except.bind]
  | error e => simp [bind, Except.bind]

@[simp] theorem ok_bind (a : α) (f : α → Except ε β) : (Except.ok a : Except ε α) >>= f = f a := rfl

@[simp] theorem error_bind (e : ε) (f : α → Except ε β) :
    (Except.error e : Except ε α) >>= f = .error e := rfl

@[simp] theorem pure_eq (a : α) : (pure a : Except ε α) = .ok a := rfl

@[simp] theorem throw_eq (e : ε) : (throw e : Except ε α) = .error e := rfl

@[simp] theorem map_eq_ok {x : Except ε α} {f : α → β} {b : β} :
    x.map f = .ok b ↔ ∃ a, x = .ok a ∧ f a = b := by
  cases x with
  | ok a => simp [Except.map]
  | error e => simp [Except.map]

@[simp] theorem mapError_eq_ok {x : Except ε α} {f : ε → ε'} {a : α} :
    x.mapError f = .ok a ↔ x = .ok a := by
  cases x with
  | ok b => simp [Except.mapError]
  | error e => simp [Except.mapError]

/-- The early return of a check. -/
def refuse (p : Prop) [Decidable p] (e : ε) : Except ε Unit := if p then .error e else .ok ()

@[simp] theorem refuse_eq_ok {p : Prop} [Decidable p] {e : ε} {u : Unit} :
    refuse p e = .ok u ↔ ¬p := by
  by_cases holds : p <;> simp [refuse, holds]

theorem refuse_eq_error {p : Prop} [Decidable p] {e e' : ε} : refuse p e = .error e' ↔ p ∧ e = e' := by
  by_cases holds : p <;> simp [refuse, holds]

theorem bind_eq_error {x : Except ε α} {f : α → Except ε β} {e : ε} :
    x >>= f = .error e ↔ x = .error e ∨ ∃ a, x = .ok a ∧ f a = .error e := by
  cases x with
  | ok a => simp [bind, Except.bind]
  | error e => simp [bind, Except.bind]

theorem refuse_of_not {p : Prop} [Decidable p] {e : ε} (accepted : ¬p) : refuse p e = .ok () := if_neg accepted

theorem mapM_eq_ok {f : α → Except ε β} {xs : List α} {ys : List β} :
    xs.mapM f = .ok ys ↔ List.Forall₂ (fun x y => f x = .ok y) xs ys := by
  induction xs generalizing ys with
  | nil => cases ys <;> simp [List.forall₂_nil_left_iff]
  | cons x xs ih => cases ys <;> simp [ih, List.forall₂_cons_left_iff]

theorem exists_mapM_eq_ok {f : α → Except ε β} {xs : List α} :
    (∃ ys, xs.mapM f = .ok ys) ↔ ∀ x ∈ xs, ∃ y, f x = .ok y := by
  simp only [mapM_eq_ok]
  induction xs with
  | nil => simp
  | cons x xs ih =>
      rw [List.forall_mem_cons, ← ih]
      constructor
      · rintro ⟨ys, matched⟩
        obtain ⟨y, rest, first, others, -⟩ := List.forall₂_cons_left_iff.mp matched
        exact ⟨⟨y, first⟩, rest, others⟩
      · rintro ⟨⟨y, first⟩, rest, others⟩
        exact ⟨y :: rest, .cons first others⟩

def keep (check : α → Except ε Bool) : List α → Except ε (List α)
  | [] => return []
  | x :: xs => do
      let accepted ← check x
      let rest ← keep check xs
      return if accepted then x :: rest else rest

def accepts (check : α → Except ε Bool) (x : α) : Bool := (check x).toOption.getD false

@[simp] theorem accepts_iff {check : α → Except ε Bool} {x : α} :
    accepts check x ↔ check x = .ok true := by
  cases answer : check x <;> simp [accepts, answer, Except.toOption]

theorem keep_eq_ok {check : α → Except ε Bool} {xs ys : List α} :
    keep check xs = .ok ys ↔
      (∀ x ∈ xs, ∃ b, check x = .ok b) ∧ xs.filter (accepts check) = ys := by
  induction xs generalizing ys with
  | nil => simp [keep]
  | cons x xs ih =>
      cases answer : check x with
      | error e => simp [keep, answer]
      | ok accepted =>
          simp only [keep, answer, ok_bind, bind_eq_ok, ih, pure_eq, List.forall_mem_cons,
            List.filter_cons, accepts]
          cases accepted <;> simp [Except.toOption]

end Fallible
