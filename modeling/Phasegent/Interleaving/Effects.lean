import Phasegent.Interleaving.RelyGuarantee
import Phasegent.Interleaving.Traces
import Phasegent.Text.Fallible

namespace Interleaving

abbrev Attempt (E : Type) (R : E → Type) (ε : Type) := ExceptT ε (Prog E R)

variable {E : Type} {R : E → Type} {ε : Type}

def request {α : Type} (e : E) (decode : R e → Except ε α) : Attempt E R ε α :=
  ExceptT.mk (.call e fun r => .done (decode r))

def attempt {α : Type} (p : Attempt E R ε (Except ε α)) : Attempt E R ε α := do
  match ← p with
  | .ok a => return a
  | .error e => throw e

def fromExcept {α : Type} (x : Except ε α) : Attempt E R ε α := ExceptT.mk (.done x)

/-- The outcome of a program as a value, so that the caller goes on after a failure. -/
def outcome {ε' α : Type} (p : Attempt E R ε α) : Attempt E R ε' (Except ε α) :=
  ExceptT.mk (p.run.bind fun result => .done (.ok result))

def renameFailure {ε' α : Type} (rename : ε → ε') (p : Attempt E R ε α) : Attempt E R ε' α :=
  ExceptT.mk (p.run.bind fun result => .done (result.mapError rename))

section Calls
variable {α β : Type} {ok : E → Prop}

theorem run_bind (p : Attempt E R ε α) (f : α → Attempt E R ε β) :
    (p >>= f).run = p.run.bind fun
      | .ok a => (f a).run
      | .error e => .done (.error e) := by
  change Prog.bind p _ = Prog.bind p _
  congr

theorem run_tryCatch (p : Attempt E R ε α) (handle : ε → Attempt E R ε α) :
    (tryCatch p handle).run = p.run.bind fun
      | .ok a => .done (.ok a)
      | .error e => (handle e).run := by
  change Prog.bind p _ = Prog.bind p _
  congr

-- The effects that a fallible program may perform.
def Performs (ok : E → Prop) (p : Attempt E R ε α) : Prop := Prog.Calls ok p.run

theorem performs_pure (a : α) : Performs ok (pure a : Attempt E R ε α) := trivial

theorem performs_throw (e : ε) : Performs ok (throw e : Attempt E R ε α) := trivial

theorem performs_fromExcept (x : Except ε α) :
    Performs ok (fromExcept x : Attempt E R ε α) := trivial

theorem performs_request {e : E} {decode : R e → Except ε α} (allowed : ok e) :
    Performs ok (request e decode) :=
  ⟨allowed, fun _ => trivial⟩

theorem performs_bind {p : Attempt E R ε α} {f : α → Attempt E R ε β} (first : Performs ok p)
    (rest : ∀ a, Performs ok (f a)) : Performs ok (p >>= f) := by
  rw [Performs, run_bind]
  apply Prog.Calls.bind first
  intro answer
  cases answer with
  | ok a => exact rest a
  | error e => trivial

theorem performs_attempt {p : Attempt E R ε (Except ε α)} (performs : Performs ok p) :
    Performs ok (attempt p) := by
  apply performs_bind performs
  intro answer
  cases answer with
  | ok a => exact performs_pure a
  | error e => exact performs_throw e

theorem performs_outcome {ε' : Type} {p : Attempt E R ε α} (performs : Performs ok p) :
    Performs ok (outcome p : Attempt E R ε' (Except ε α)) :=
  Prog.Calls.bind performs fun _ => trivial

theorem performs_renameFailure {ε' : Type} {rename : ε → ε'} {p : Attempt E R ε α}
    (performs : Performs ok p) : Performs ok (renameFailure rename p) :=
  Prog.Calls.bind performs fun _ => trivial

theorem Performs.mono {ok' : E → Prop} {p : Attempt E R ε α} (performs : Performs ok p)
    (implies : ∀ op, ok op → ok' op) : Performs ok' p :=
  Prog.Calls.mono performs implies

theorem Performs.calls {p : Attempt E R ε α} (performs : Performs ok p) : p.run.Calls ok := performs

end Calls

section Triples
variable {S α β : Type} {W : World S E R} {C : Contract S} {i : Pid} {P : S → Prop}

-- A failed program owes nothing.
def Hoare (W : World S E R) (C : Contract S) (i : Pid) (P : S → Prop)
    (p : Attempt E R ε α) (Q : α → S → Prop) : Prop :=
  Triple W C i P p.run (OnOk Q)

theorem hoare_pure {Q : α → S → Prop} {a : α} (stable : C.Stable i (Q a))
    (post : ∀ s, C.Inv s → P s → Q a s) :
    Hoare W C i P (pure a : Attempt E R ε α) Q :=
  Triple.done stable post

theorem hoare_throw {Q : α → S → Prop} {e : ε} :
    Hoare W C i P (throw e : Attempt E R ε α) Q :=
  Triple.failed

theorem hoare_fromExcept {x : Except ε α} (stable : C.Stable i P) :
    Hoare W C i P (fromExcept x : Attempt E R ε α) fun a s => x = .ok a ∧ P s := by
  cases x with
  | ok a => exact Triple.done ((Contract.stable_const i _).and stable) fun _ _ holds => ⟨rfl, holds⟩
  | error e => exact Triple.failed

theorem hoare_bind {Q : β → S → Prop} {M : α → S → Prop} {p : Attempt E R ε α}
    {f : α → Attempt E R ε β} (first : Hoare W C i P p M) (rest : ∀ a, Hoare W C i (M a) (f a) Q) :
    Hoare W C i P (p >>= f) Q := by
  rw [Hoare, run_bind]
  apply Triple.bind first
  intro answer
  cases answer with
  | ok a => exact rest a
  | error e => exact Triple.failed

theorem hoare_performs {ok : E → Prop} {p : Attempt E R ε α} (stable : C.Stable i P)
    (effect : ∀ s op answer s', C.Inv s → P s → ok op → W.step i s op answer s' →
      C.Inv s' ∧ C.guarantee i s s' ∧ P s')
    (performs : Performs ok p) : Hoare W C i P p fun _ => P := by
  apply (Triple.calls stable effect performs).weaken
  intro answer s holds
  cases answer with
  | ok a => exact holds
  | error e => trivial

theorem hoare_request {e : E} {decode : R e → Except ε α} {Q : α → S → Prop} (stable : C.Stable i P)
    (post : ∀ a, C.Stable i (Q a))
    (effect : ∀ s r s', C.Inv s → P s → W.step i s e r s' →
      C.Inv s' ∧ C.guarantee i s s' ∧ OnOk Q (decode r) s') : Hoare W C i P (request e decode) Q :=
  Triple.call stable effect fun r =>
    Triple.done (Contract.stable_onOk post (decode r)) fun _ _ holds => holds

theorem hoare_tryCatch {Q : α → S → Prop} {p : Attempt E R ε α} {handle : ε → Attempt E R ε α}
    (post : ∀ a, C.Stable i (Q a)) (first : Hoare W C i P p Q)
    (rest : ∀ e, Hoare W C i (fun _ => True) (handle e) Q) :
    Hoare W C i P (tryCatch p handle) Q := by
  rw [Hoare, run_tryCatch]
  apply Triple.bind first
  intro answer
  cases answer with
  | ok a => exact Triple.done (post a) fun _ _ holds => holds
  | error e => exact rest e

theorem hoare_outcome {ε' : Type} {Q : α → S → Prop} {p : Attempt E R ε α}
    (post : ∀ a, C.Stable i (Q a)) (first : Hoare W C i P p Q) :
    Hoare W C i P (outcome p : Attempt E R ε' (Except ε α)) fun result => OnOk Q result := by
  apply Triple.bind first
  intro result
  exact Triple.done (Contract.stable_onOk post result) fun _ _ holds => holds

theorem hoare_renameFailure {ε' : Type} {rename : ε → ε'} {Q : α → S → Prop} {p : Attempt E R ε α}
    (post : ∀ a, C.Stable i (Q a)) (first : Hoare W C i P p Q) :
    Hoare W C i P (renameFailure rename p) Q := by
  apply Triple.bind first
  intro result
  cases result with
  | ok a => exact Triple.done (post a) fun _ _ holds => holds
  | error e => exact Triple.failed

theorem Hoare.of_pure {holds : Prop} {Q : α → S → Prop} {p : Attempt E R ε α}
    (hoare : holds → Hoare W C i P p Q) : Hoare W C i (fun s => holds ∧ P s) p Q :=
  Triple.of_pure hoare

theorem Hoare.pre {M : S → Prop} {Q : α → S → Prop} {p : Attempt E R ε α}
    (hoare : Hoare W C i M p Q) (implies : ∀ s, C.Inv s → P s → M s) : Hoare W C i P p Q :=
  Triple.pre hoare implies

theorem Hoare.assume {holds : Prop} {Q : α → S → Prop} {p : Attempt E R ε α}
    (implied : ∀ s, C.Inv s → P s → holds) (hoare : holds → Hoare W C i P p Q) : Hoare W C i P p Q :=
  (Hoare.of_pure hoare).pre fun s inv pre => ⟨implied s inv pre, pre⟩

theorem Hoare.weaken {Q Q' : α → S → Prop} {p : Attempt E R ε α} (hoare : Hoare W C i P p Q)
    (implies : ∀ a s, Q a s → Q' a s) : Hoare W C i P p Q' := by
  apply Triple.weaken hoare
  intro result s holds
  cases result with
  | ok a => exact implies a s holds
  | error e => trivial

theorem Hoare.triple {Q : α → S → Prop} {p : Attempt E R ε α} (hoare : Hoare W C i P p Q) :
    Triple W C i P p.run (OnOk Q) :=
  hoare

end Triples

-- The rules for a program whose failures have something to say, too.
section Failures
variable {S α β : Type} {W : World S E R} {C : Contract S} {i : Pid} {P : S → Prop}
  {Q : α → S → Prop} {F : ε → S → Prop}

def Ends (Q : α → S → Prop) (F : ε → S → Prop) : Except ε α → S → Prop
  | .ok a => Q a
  | .error e => F e

theorem stable_ends (post : ∀ a, C.Stable i (Q a)) (failed : ∀ e, C.Stable i (F e))
    (result : Except ε α) : C.Stable i (Ends Q F result) := by
  cases result with
  | ok a => exact post a
  | error e => exact failed e

def HoareElse (W : World S E R) (C : Contract S) (i : Pid) (P : S → Prop) (p : Attempt E R ε α)
    (Q : α → S → Prop) (F : ε → S → Prop) : Prop :=
  Triple W C i P p.run (Ends Q F)

theorem else_pure {a : α} (post : C.Stable i (Q a)) (holds : ∀ s, C.Inv s → P s → Q a s) :
    HoareElse W C i P (pure a : Attempt E R ε α) Q F :=
  Triple.done post holds

theorem else_throw {e : ε} (failed : C.Stable i (F e)) (holds : ∀ s, C.Inv s → P s → F e s) :
    HoareElse W C i P (throw e : Attempt E R ε α) Q F :=
  Triple.done failed holds

theorem else_fromExcept {x : Except ε α} (stable : C.Stable i P)
    (holds : ∀ s e, x = .error e → C.Inv s → P s → F e s) (failed : ∀ e, C.Stable i (F e)) :
    HoareElse W C i P (fromExcept x : Attempt E R ε α) (fun a s => x = .ok a ∧ P s) F := by
  cases x with
  | ok a => exact Triple.done ((Contract.stable_const i _).and stable) fun _ _ holds => ⟨rfl, holds⟩
  | error e => exact Triple.done (failed e) fun s inv pre => holds s e rfl inv pre

theorem else_bind {Q : β → S → Prop} {M : α → S → Prop} {p : Attempt E R ε α}
    {f : α → Attempt E R ε β} (failed : ∀ e, C.Stable i (F e)) (first : HoareElse W C i P p M F)
    (rest : ∀ a, HoareElse W C i (M a) (f a) Q F) : HoareElse W C i P (p >>= f) Q F := by
  rw [HoareElse, run_bind]
  apply Triple.bind first
  intro result
  cases result with
  | ok a => exact rest a
  | error e => exact Triple.done (failed e) fun _ _ holds => holds

theorem else_request {e : E} {decode : R e → Except ε α} (stable : C.Stable i P)
    (post : ∀ a, C.Stable i (Q a)) (failed : ∀ e, C.Stable i (F e))
    (effect : ∀ s r s', C.Inv s → P s → W.step i s e r s' →
      C.Inv s' ∧ C.guarantee i s s' ∧ Ends Q F (decode r) s') :
    HoareElse W C i P (request e decode) Q F :=
  Triple.call stable effect fun r =>
    Triple.done (stable_ends post failed (decode r)) fun _ _ holds => holds

theorem else_outcome {ε' : Type} {G : ε' → S → Prop} {p : Attempt E R ε α}
    (post : ∀ a, C.Stable i (Q a)) (failed : ∀ e, C.Stable i (F e))
    (first : HoareElse W C i P p Q F) :
    HoareElse W C i P (outcome p : Attempt E R ε' (Except ε α)) (fun result => Ends Q F result) G := by
  apply Triple.bind first
  intro result
  exact Triple.done (stable_ends post failed result) fun _ _ holds => holds

theorem else_renameFailure {ε' : Type} {rename : ε → ε'} {F' : ε' → S → Prop} {p : Attempt E R ε α}
    (post : ∀ a, C.Stable i (Q a)) (failed : ∀ e, C.Stable i (F' e))
    (renamed : ∀ e s, F e s → F' (rename e) s) (first : HoareElse W C i P p Q F) :
    HoareElse W C i P (renameFailure rename p) Q F' := by
  apply Triple.bind first
  intro result
  cases result with
  | ok a => exact Triple.done (post a) fun _ _ holds => holds
  | error e => exact Triple.done (failed (rename e)) fun s _ holds => renamed e s holds

theorem else_performs {ok : E → Prop} {p : Attempt E R ε α} (stable : C.Stable i P)
    (effect : ∀ s op answer s', C.Inv s → P s → ok op → W.step i s op answer s' →
      C.Inv s' ∧ C.guarantee i s s' ∧ P s')
    (performs : Performs ok p) : HoareElse W C i P p (fun _ => P) fun _ => P := by
  apply (Triple.calls stable effect performs).weaken
  intro result s holds
  cases result <;> exact holds

theorem HoareElse.pre {M : S → Prop} {p : Attempt E R ε α} (hoare : HoareElse W C i M p Q F)
    (implies : ∀ s, C.Inv s → P s → M s) : HoareElse W C i P p Q F :=
  Triple.pre hoare implies

theorem HoareElse.of_pure {holds : Prop} {p : Attempt E R ε α}
    (hoare : holds → HoareElse W C i P p Q F) : HoareElse W C i (fun s => holds ∧ P s) p Q F :=
  Triple.of_pure hoare

theorem HoareElse.of_exists {ι : Type} {P : ι → S → Prop} {p : Attempt E R ε α}
    (hoare : ∀ x, HoareElse W C i (P x) p Q F) : HoareElse W C i (fun s => ∃ x, P x s) p Q F :=
  fun s inv ⟨x, holds⟩ => hoare x s inv holds

theorem HoareElse.assume {holds : Prop} {p : Attempt E R ε α} (implied : ∀ s, C.Inv s → P s → holds)
    (hoare : holds → HoareElse W C i P p Q F) : HoareElse W C i P p Q F :=
  (HoareElse.of_pure hoare).pre fun s inv pre => ⟨implied s inv pre, pre⟩

theorem HoareElse.weaken {Q' : α → S → Prop} {F' : ε → S → Prop} {p : Attempt E R ε α}
    (hoare : HoareElse W C i P p Q F) (implies : ∀ a s, Q a s → Q' a s)
    (failed : ∀ e s, F e s → F' e s) : HoareElse W C i P p Q' F' := by
  apply Triple.weaken hoare
  intro result s holds
  cases result with
  | ok a => exact implies a s holds
  | error e => exact failed e s holds

theorem HoareElse.triple {p : Attempt E R ε α} (hoare : HoareElse W C i P p Q F) :
    Triple W C i P p.run (Ends Q F) :=
  hoare

theorem HoareElse.hoare {p : Attempt E R ε α} (hoare : HoareElse W C i P p Q F) :
    Hoare W C i P p Q := by
  apply Triple.weaken hoare
  intro result s holds
  cases result with
  | ok a => exact holds
  | error e => trivial

end Failures

section Runs
variable {S α β : Type} {events : List (Event S E R)} {result : Except ε β}

theorem follows_done {a b : α} {events : List (Event S E R)}
    (follows : Follows (.done a) events (.done b)) : events = [] ∧ a = b := by
  cases follows
  exact ⟨rfl, rfl⟩

theorem follows_request {e : E} {decode : R e → Except ε α} {f : α → Attempt E R ε β}
    (follows : Follows (request e decode >>= f).run events (.done result)) :
    (∃ i r a s s' rest, events = ⟨i, e, r, s, s'⟩ :: rest ∧ decode r = .ok a ∧
        Follows (f a).run rest (.done result)) ∨
      ∃ i r failure s s', events = [⟨i, e, r, s, s'⟩] ∧ decode r = .error failure ∧
        result = .error failure := by
  rw [run_bind] at follows
  cases follows with
  | @cons _ _ i r s s' rest _ following =>
      cases decoded : decode r with
      | ok a =>
          simp only [Prog.bind_done, decoded] at following
          exact Or.inl ⟨i, r, a, s, s', rest, rfl, decoded, following⟩
      | error failure =>
          simp only [Prog.bind_done, decoded] at following
          obtain ⟨rfl, same⟩ := follows_done following
          exact Or.inr ⟨i, r, failure, s, s', rfl, decoded, same.symm⟩

end Runs

-- From here on the rules are used, not the programs under them.
attribute [irreducible] Performs Hoare HoareElse

end Interleaving
