import Phasegent.Interleaving.Embedding
import Phasegent.Sql.Transaction

namespace Sql
open Interleaving

variable {E E' D D' α ε : Type} {R : E → Type} {R' : E' → Type}

theorem execute_outcome {ε' : Type} {act : D → (e : E) → R e × D} (p : Attempt E R ε α) (d : D) :
    execute act (outcome p : Attempt E R ε' (Except ε α)).run d =
      (.ok (execute act p.run d).1, (execute act p.run d).2) := by
  change execute act (p.run.bind _) d = _
  rw [execute_bind]
  rfl

theorem execute_pure {act : D → (e : E) → R e × D} (a : α) (d : D) :
    execute act (pure a : Attempt E R ε α).run d = (.ok a, d) := rfl

theorem execute_bind_eq_ok {β : Type} {act : D → (e : E) → R e × D} {p : Attempt E R ε α}
    {f : α → Attempt E R ε β} {d d'' : D} {b : β} (ran : execute act (p >>= f).run d = (.ok b, d'')) :
    ∃ a d', execute act p.run d = (.ok a, d') ∧ execute act (f a).run d' = (.ok b, d'') := by
  rcases first : execute act p.run d with ⟨answer, d'⟩
  cases answer with
  | error e =>
      rw [execute_bind_error first] at ran
      simp at ran
  | ok a =>
      rw [execute_bind_ok first] at ran
      exact ⟨a, d', rfl, ran⟩

/-- A part of a larger state, on which the effects of a smaller interface act. -/
structure Part (act : D → (e : E) → R e × D) (act' : D' → (e' : E') → R' e' × D')
    (emb : Embedding E R E' R') where
  view : D' → D
  place : D' → D → D'
  view_place : ∀ s d, view (place s d) = d
  place_view : ∀ s, place s (view s) = s
  place_place : ∀ s d d', place (place s d) d' = place s d'
  answers : ∀ s e, emb.answer e (act' s (emb.effect e)).1 = (act (view s) e).1
  changes : ∀ s e, (act' s (emb.effect e)).2 = place s (act (view s) e).2

variable {act : D → (e : E) → R e × D} {act' : D' → (e' : E') → R' e' × D'} {emb : Embedding E R E' R'}

theorem Part.execute_prog (part : Part act act' emb) (p : Prog E R α) (s : D') :
    execute act' (p.embed emb) s =
      ((execute act p (part.view s)).1, part.place s (execute act p (part.view s)).2) := by
  induction p generalizing s with
  | done a => simp [Prog.embed, execute, part.place_view]
  | call e next ih =>
      simp only [Prog.embed, execute]
      rw [ih, part.answers, part.changes, part.view_place, part.place_place]

theorem Part.execute_embed (part : Part act act' emb) (p : Attempt E R ε α) (s : D') :
    execute act' (embed emb p).run s =
      ((execute act p.run (part.view s)).1, part.place s (execute act p.run (part.view s)).2) :=
  part.execute_prog p.run s

end Sql
