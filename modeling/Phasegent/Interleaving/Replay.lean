import Phasegent.Interleaving.World

namespace Interleaving
open Relation

variable {S E : Type} {R : E → Type} {α : Type}

namespace Config

def turn (act : Pid → S → (e : E) → R e × S) (c : Config S E R α) (i : Pid) : Config S E R α :=
  match c.procs i with
  | some (.call e next) =>
      c.put i (some (next (act i c.shared e).1)) (act i c.shared e).2
  | _ => c

def replay (act : Pid → S → (e : E) → R e × S) (c : Config S E R α) (schedule : List Pid) :
    Config S E R α :=
  schedule.foldl (turn act) c

def admits (act : Pid → S → (e : E) → R e × S) (condition : Pid → S → (e : E) → R e → Prop)
    [∀ i s e r, Decidable (condition i s e r)] (c : Config S E R α) : List Pid → Bool
  | [] => true
  | i :: rest =>
      (match c.procs i with
        | some (.call e _) => decide (condition i c.shared e (act i c.shared e).1)
        | _ => true) && admits act condition (c.turn act i) rest

end Config

section Replay
variable {W : World S E R} {act : Pid → S → (e : E) → R e × S}

theorem Run.turn (sound : ∀ i s e, W.step i s e (act i s e).1 (act i s e).2)
    {c₀ c : Config S E R α} (run : Run W c₀ c) (i : Pid) : Run W c₀ (c.turn act i) := by
  unfold Config.turn
  split
  · next e next running => exact run.perform i _ _ running (sound i c.shared e)
  · exact run

theorem Run.replay (sound : ∀ i s e, W.step i s e (act i s e).1 (act i s e).2)
    (c : Config S E R α) (schedule : List Pid) : Run W c (c.replay act schedule) := by
  suffices follow : ∀ c', Run W c c' → Run W c (c'.replay act schedule) from follow c .refl
  induction schedule with
  | nil => exact fun _ run => run
  | cons i rest ih => exact fun _ run => ih _ (Run.turn sound run i)

theorem Run.replay_guard {condition : Pid → S → (e : E) → R e → Prop}
    [∀ i s e r, Decidable (condition i s e r)]
    (sound : ∀ i s e, W.step i s e (act i s e).1 (act i s e).2) (c : Config S E R α)
    (schedule : List Pid) (admitted : c.admits act condition schedule) :
    Run (W.guard condition) c (c.replay act schedule) := by
  suffices follow : ∀ c' : Config S E R α, c'.admits act condition schedule →
      Run (W.guard condition) c c' → Run (W.guard condition) c (c'.replay act schedule) from
    follow c admitted .refl
  clear admitted
  induction schedule with
  | nil => exact fun _ _ run => run
  | cons i rest ih =>
      intro c' admitted run
      rw [Config.admits, Bool.and_eq_true] at admitted
      apply ih _ admitted.2
      have first := admitted.1
      unfold Config.turn
      split
      · next e next running =>
          rw [running] at first
          exact run.perform i _ _ running ⟨sound i c'.shared e, of_decide_eq_true first⟩
      · exact run

end Replay

end Interleaving
