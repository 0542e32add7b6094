import Phasegent.Interleaving.History

namespace Interleaving
open Relation

variable {S E : Type} {R : E → Type} {α β : Type}

/-- The effects of a list, answered as listed, take one program to the other. -/
inductive Follows : Prog E R α → List (Event S E R) → Prog E R α → Prop
  | nil (p : Prog E R α) : Follows p [] p
  | cons {e : E} {next : R e → Prog E R α} {i : Pid} {r : R e} {s s' : S}
      {events : List (Event S E R)} {p : Prog E R α} (rest : Follows (next r) events p) :
      Follows (.call e next) (⟨i, e, r, s, s'⟩ :: events) p

theorem Follows.snoc {p : Prog E R α} {events : List (Event S E R)} {e : E}
    {next : R e → Prog E R α} (follows : Follows p events (.call e next)) (i : Pid) (r : R e)
    (s s' : S) : Follows p (events ++ [⟨i, e, r, s, s'⟩]) (next r) := by
  generalize target : Prog.call e next = q at follows
  induction follows with
  | nil p =>
      subst target
      exact .cons (.nil _)
  | cons rest ih => exact .cons (ih target)

def actsOf (i : Pid) (history : List (Event S E R)) : List (Event S E R) :=
  (history.filter (·.pid == i)).reverse

theorem Genuine.actsOf {W : World S E R} {history : List (Event S E R)} (genuine : Genuine W history)
    (i : Pid) : Genuine W (actsOf i history) :=
  fun event member => genuine event (List.mem_filter.mp (List.mem_reverse.mp member)).1

theorem Run.follows {W : World S E R} {c₀ : Config S E R α}
    {c : Config (S × List (Event S E R)) E R α} (run : Run W.record c₀.record c) {i : Pid}
    {p : Prog E R α} (running : c.procs i = some p) :
    ∃ p₀, c₀.procs i = some p₀ ∧ Follows p₀ (actsOf i c.shared.2) p := by
  induction run generalizing p with
  | refl => exact ⟨p, running, .nil p⟩
  | @tail c c' _ step ih =>
      cases step with
      | @perform j e next r s' before effect =>
          rw [Config.put_shared, actsOf, effect.2, List.filter_cons]
          by_cases same : i = j
          · subst same
            rw [Config.put_self, Option.some.injEq] at running
            obtain ⟨p₀, started, follows⟩ := ih before
            refine ⟨p₀, started, ?_⟩
            rw [if_pos (beq_self_eq_true i), List.reverse_cons, ← running]
            exact follows.snoc i r _ _
          · rw [Config.put_other same] at running
            obtain ⟨p₀, started, follows⟩ := ih running
            refine ⟨p₀, started, ?_⟩
            rw [if_neg (by simpa using Ne.symm same)]
            exact follows
      | @crash j q s' before effect =>
          rw [Config.put_shared, effect.2]
          by_cases same : i = j
          · subst same
            rw [Config.put_self] at running
            cases running
          · rw [Config.put_other same] at running
            exact ih running

theorem Run.followed {W : World S E R} {c₀ : Config S E R α}
    {c : Config (S × List (Event S E R)) E R α} (run : Run W.record c₀.record c) {i : Pid}
    {p₀ : Prog E R α} (started : c₀.procs i = some p₀) :
    ∃ p, Follows p₀ (actsOf i c.shared.2) p := by
  induction run with
  | refl => exact ⟨p₀, .nil p₀⟩
  | @tail c c' before step ih =>
      cases step with
      | @perform j e next r s' running effect =>
          by_cases same : j = i
          · subst same
            obtain ⟨p, started', follows⟩ := Run.follows (before.tail (.perform running effect))
              (Config.put_self _ _ _ _)
            obtain rfl : p₀ = p := Option.some.inj (started.symm.trans started')
            exact ⟨next r, follows⟩
          · rw [Config.put_shared, actsOf, effect.2, List.filter_cons, if_neg (by simpa using same)]
            exact ih
      | @crash j q s' running effect =>
          rw [Config.put_shared, effect.2]
          exact ih

theorem Run.always {W : World S E R} {I : S → Prop} {c₀ : Config S E R α}
    (always : ∀ c : Config (S × List (Event S E R)) E R α, Run W.record c₀.record c → I c.shared.1)
    {c : Config (S × List (Event S E R)) E R α} (run : Run W.record c₀.record c) :
    ∀ event ∈ c.shared.2, I event.before := by
  induction run with
  | refl => exact fun _ impossible => nomatch impossible
  | @tail c c' before step ih =>
      intro event among
      cases step with
      | perform running effect =>
          rw [Config.put_shared, effect.2] at among
          obtain rfl | earlier := List.mem_cons.mp among
          · exact always c before
          · exact ih event earlier
      | crash running effect =>
          rw [Config.put_shared, effect.2] at among
          exact ih event among

end Interleaving
