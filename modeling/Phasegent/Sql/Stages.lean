import Phasegent.Sql.Transaction

namespace Sql
open Interleaving

variable {E D S : Type} {R : E → Type} {ε α β : Type} {act : D → (e : E) → R e × D} {view : D → S}

def Undone (act : D → (e : E) → R e × D) (view : D → S) (p : Attempt E R ε α) (start : S) (d : D) : Prop :=
  ∀ e d', execute act p.run d = (.error e, d') → view d' = start

section Rules
variable {p : Attempt E R ε α} {f : α → Attempt E R ε β} {start : S} {d d' : D}

theorem undone_of_ok {a : α} (ran : execute act p.run d = (.ok a, d')) : Undone act view p start d := by
  intro e after failed
  rw [ran] at failed
  cases failed

theorem undone_of_error {e : ε} (ran : execute act p.run d = (.error e, d')) :
    Undone act view p start d ↔ view d' = start := by
  constructor
  · intro undone
    exact undone e d' ran
  · intro same e after failed
    rw [ran] at failed
    cases failed
    exact same

theorem undone_bind_ok {a : α} (ran : execute act p.run d = (.ok a, d')) :
    Undone act view (p >>= f) start d ↔ Undone act view (f a) start d' := by
  rw [Undone, Undone, execute_bind_ok ran]

theorem undone_bind_error {e : ε} (ran : execute act p.run d = (.error e, d')) :
    Undone act view (p >>= f) start d ↔ view d' = start :=
  undone_of_error (execute_bind_error ran)

theorem undone_then_pure {g : α → β} :
    Undone act view (p >>= fun a => pure (g a)) start d ↔ Undone act view p start d := by
  rcases ran : execute act p.run d with ⟨answer | answer, after⟩
  · rw [undone_bind_error ran, undone_of_error ran]
  · rw [undone_bind_ok ran]
    exact iff_of_true (undone_of_ok rfl) (undone_of_ok ran)

end Rules

theorem attempt_bind_assoc {γ : Type} (p : Attempt E R ε α) (f : α → Attempt E R ε β) (g : β → Attempt E R ε γ) :
    p >>= f >>= g = p >>= fun a => f a >>= g := by
  change Prog.bind (Prog.bind p _) _ = Prog.bind p _
  rw [Prog.bind_assoc]
  congr
  funext answer
  cases answer <;> rfl

/-- A step that either has its whole effect or fails without any. -/
structure Stage (act : D → (e : E) → R e × D) (view : D → S) (ε : Type) where
  action : Attempt E R ε Unit
  Passes : S → Prop
  effect : S → S
  passed : ∀ d, Passes (view d) → ∃ d', execute act action.run d = (.ok (), d') ∧ view d' = effect (view d)
  failed : ∀ d, ¬Passes (view d) → ∃ e d', execute act action.run d = (.error e, d') ∧ view d' = view d

namespace Stage

def inOrder (last : Attempt E R ε α) : List (Stage act view ε) → Attempt E R ε α
  | [] => last
  | stage :: rest => do
      stage.action
      inOrder last rest

/-- A stage fails after earlier ones have changed something. -/
def Spoils : List (Stage act view ε) → S → S → Prop
  | [], _, _ => False
  | stage :: rest, start, s =>
      (¬stage.Passes s ∧ s ≠ start) ∨ (stage.Passes s ∧ Spoils rest start (stage.effect s))

theorem undone_inOrder (stages : List (Stage act view ε)) {a : α} {start : S} (d : D) :
    Undone act view (inOrder (pure a) stages) start d ↔ ¬Spoils stages start (view d) := by
  induction stages generalizing d with
  | nil => exact iff_of_true (undone_of_ok rfl) not_false
  | cons stage rest ih =>
      rw [inOrder, Spoils]
      by_cases passes : stage.Passes (view d)
      · obtain ⟨after, ran, seen⟩ := stage.passed d passes
        rw [undone_bind_ok ran, ih, seen]
        simp [passes]
      · obtain ⟨e, after, ran, seen⟩ := stage.failed d passes
        rw [undone_bind_error ran, seen]
        simp [passes]

def whenGiven {γ : Type} (given : Option γ) (stage : γ → Stage act view ε) : Stage act view ε where
  action := match given with
    | none => pure ()
    | some x => (stage x).action
  Passes s := ∀ x ∈ given, (stage x).Passes s
  effect s := match given with
    | none => s
    | some x => (stage x).effect s
  passed := by
    intro d passes
    cases given with
    | none => exact ⟨d, rfl, rfl⟩
    | some x => exact (stage x).passed d (passes x rfl)
  failed := by
    intro d fails
    cases given with
    | none => simp at fails
    | some x => exact (stage x).failed d (by simpa using fails)

def checked {γ : Type} (check : Except ε γ) (stage : γ → Stage act view ε) : Stage act view ε where
  action := fromExcept check >>= fun x => (stage x).action
  Passes s := ∃ x, check = .ok x ∧ (stage x).Passes s
  effect s := match check with
    | .ok x => (stage x).effect s
    | .error _ => s
  passed := by
    intro d ⟨x, valid, passes⟩
    subst valid
    exact (stage x).passed d passes
  failed := by
    intro d fails
    cases check with
    | ok x => exact (stage x).failed d (by simpa using fails)
    | error e => exact ⟨e, d, rfl, rfl⟩

end Stage

end Sql
