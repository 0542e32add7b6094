import Phasegent.Interleaving.Replay

namespace Interleaving
open Relation

variable {S E : Type} {R : E → Type} {α : Type}

structure Event (S E : Type) (R : E → Type) where
  pid : Pid
  effect : E
  answer : R effect
  before : S
  after : S

/-- The world that also remembers every effect, the newest first. -/
def World.record (W : World S E R) : World (S × List (Event S E R)) E R where
  step i s e r s' := W.step i s.1 e r s'.1 ∧ s'.2 = ⟨i, e, r, s.1, s'.1⟩ :: s.2
  crash i s s' := W.crash i s.1 s'.1 ∧ s'.2 = s.2

namespace Config

def record (c : Config S E R α) : Config (S × List (Event S E R)) E R α := ⟨(c.shared, []), c.procs⟩

def forget (c : Config (S × List (Event S E R)) E R α) : Config S E R α := ⟨c.shared.1, c.procs⟩

end Config

section Record
variable {W : World S E R}

theorem Step.forget {c c' : Config (S × List (Event S E R)) E R α} (step : Step W.record c c') :
    Step W c.forget c'.forget := by
  cases step with
  | perform running effect => exact .perform (c := c.forget) running effect.1
  | crash running effect => exact .crash (c := c.forget) running effect.1

theorem Run.forget {c c' : Config (S × List (Event S E R)) E R α} (run : Run W.record c c') :
    Run W c.forget c'.forget :=
  ReflTransGen.lift Config.forget (fun _ _ step => Step.forget step) _ _ run

theorem Step.remember {c c' : Config S E R α} (step : Step W c c') (history : List (Event S E R)) :
    ∃ history', Step W.record ⟨(c.shared, history), c.procs⟩ ⟨(c'.shared, history'), c'.procs⟩ := by
  cases step with
  | @perform i e next r s' running effect =>
      have recorded : W.record.step i (c.shared, history) e r (s', ⟨i, e, r, c.shared, s'⟩ :: history) :=
        ⟨effect, rfl⟩
      exact ⟨_, .perform (c := ⟨(c.shared, history), c.procs⟩) running recorded⟩
  | @crash i p s' running effect =>
      have recorded : W.record.crash i (c.shared, history) (s', history) := ⟨effect, rfl⟩
      exact ⟨history, .crash (c := ⟨(c.shared, history), c.procs⟩) running recorded⟩

/-- Remembering restricts nothing: every run is the visible part of a recorded one. -/
theorem Run.remember {c c' : Config S E R α} (run : Run W c c') :
    ∃ history, Run W.record c.record ⟨(c'.shared, history), c'.procs⟩ := by
  induction run with
  | refl => exact ⟨[], .refl⟩
  | tail _ step ih =>
      obtain ⟨history, recorded⟩ := ih
      obtain ⟨history', next⟩ := step.remember history
      exact ⟨history', recorded.tail next⟩

def Genuine (W : World S E R) (history : List (Event S E R)) : Prop :=
  ∀ event ∈ history, W.step event.pid event.before event.effect event.answer event.after

theorem Run.genuine {c₀ : Config S E R α} {c : Config (S × List (Event S E R)) E R α}
    (run : Run W.record c₀.record c) : Genuine W c.shared.2 := by
  apply run.invariant fun s => Genuine W s.2
  · intro i s e r s' genuine step event member
    rw [step.2] at member
    rcases List.mem_cons.mp member with rfl | earlier
    · exact step.1
    · exact genuine event earlier
  · intro i s s' genuine crashed
    rwa [crashed.2]
  · intro event member
    cases member

theorem Run.newest (crash : ∀ {i s s'}, W.crash i s s' → s' = s) {c₀ : Config S E R α}
    {c : Config (S × List (Event S E R)) E R α} (run : Run W.record c₀.record c) {event : Event S E R}
    {earlier : List (Event S E R)} (split : c.shared.2 = event :: earlier) : event.after = c.shared.1 := by
  revert event earlier
  apply run.invariant fun s => ∀ {event earlier}, s.2 = event :: earlier → event.after = s.1
  · intro i s e r s' _ step event earlier split
    rw [step.2] at split
    obtain ⟨rfl, rfl⟩ := List.cons.inj split
    rfl
  · intro i s s' newest crashed event earlier split
    rw [crashed.2] at split
    rw [crash crashed.1]
    exact newest split
  · intro event earlier split
    cases split

theorem Run.admitted {condition : Pid → S × List (Event S E R) → (e : E) → R e → Prop}
    {c₀ : Config S E R α} {c : Config (S × List (Event S E R)) E R α}
    (run : Run (W.record.guard condition) c₀.record c) {later earlier : List (Event S E R)}
    {event : Event S E R} (split : c.shared.2 = later ++ event :: earlier) :
    condition event.pid (event.before, earlier) event.effect event.answer := by
  induction run generalizing later with
  | refl => simp [Config.record] at split
  | @tail c c' before step ih =>
      cases step with
      | perform running effect =>
          rw [Config.put_shared, effect.1.2] at split
          cases later with
          | nil =>
              obtain ⟨rfl, rfl⟩ := List.cons.inj split
              exact effect.2
          | cons _ later => exact ih (List.cons.inj split).2
      | crash running effect =>
          rw [Config.put_shared, effect.2] at split
          exact ih split

def recording (act : Pid → S → (e : E) → R e × S) (i : Pid) (s : S × List (Event S E R)) (e : E) :
    R e × (S × List (Event S E R)) :=
  ((act i s.1 e).1, ((act i s.1 e).2, ⟨i, e, (act i s.1 e).1, s.1, (act i s.1 e).2⟩ :: s.2))

theorem recording_sound {act : Pid → S → (e : E) → R e × S}
    (sound : ∀ i s e, W.step i s e (act i s e).1 (act i s e).2) (i : Pid)
    (s : S × List (Event S E R)) (e : E) :
    W.record.step i s e (recording act i s e).1 (recording act i s e).2 :=
  ⟨sound i s.1 e, rfl⟩

end Record

end Interleaving
