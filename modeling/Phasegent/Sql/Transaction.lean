import Phasegent.Interleaving.Effects

namespace Sql
open Interleaving

variable {E D : Type} {R : E → Type} {α β ε ε' : Type} {act : D → (e : E) → R e × D}

/-- A program run to its end on a database that nobody else has. -/
def execute (act : D → (e : E) → R e × D) : Prog E R α → D → α × D
  | .done a, d => (a, d)
  | .call e next, d => execute act (next (act d e).1) (act d e).2

theorem execute_bind (p : Prog E R α) (f : α → Prog E R β) (d : D) :
    execute act (p.bind f) d = execute act (f (execute act p d).1) (execute act p d).2 := by
  induction p generalizing d with
  | done a => rfl
  | call e next ih => exact ih _ _

section Outcomes
variable {p : Attempt E R ε α} {f : α → Attempt E R ε β} {d d' : D} {a : α} {e : ε}

theorem execute_bind_ok (ran : execute act p.run d = (.ok a, d')) :
    execute act (p >>= f).run d = execute act (f a).run d' := by
  rw [run_bind, execute_bind, ran]

theorem execute_bind_error (ran : execute act p.run d = (.error e, d')) :
    execute act (p >>= f).run d = (.error e, d') := by
  rw [run_bind, execute_bind, ran]
  rfl

theorem execute_renameFailure {rename : ε → ε'} :
    execute act (renameFailure rename p).run d =
      ((execute act p.run d).1.mapError rename, (execute act p.run d).2) := by
  change execute act (p.run.bind _) d = _
  rw [execute_bind]
  rfl

theorem execute_fromExcept (x : Except ε α) :
    execute act (fromExcept x : Attempt E R ε α).run d = (x, d) := rfl

theorem execute_request {op : E} {decode : R op → Except ε α} :
    execute act (request op decode).run d = (decode (act d op).1, (act d op).2) := rfl

end Outcomes

theorem execute_invariant {I : D → Prop} (keeps : ∀ d e, I d → I (act d e).2) (p : Prog E R α) {d : D}
    (holds : I d) : I (execute act p d).2 := by
  induction p generalizing d with
  | done a => exact holds
  | call e next ih => exact ih _ (keeps d e holds)

def admitted (act : D → (e : E) → R e × D) (ok : D → E → Bool) : Prog E R α → D → Bool
  | .done _, _ => true
  | .call e next, d => ok d e && admitted act ok (next (act d e).1) (act d e).2

/-- A program that is safe among others ends alone as it promises. -/
theorem execute_safe {W : World D E R} {C : Contract D} {i : Pid} {Q : α → D → Prop} {ok : D → E → Bool}
    (sound : ∀ d e, ok d e → W.step i d e (act d e).1 (act d e).2) {p : Prog E R α} {d : D}
    (inv : C.Inv d) (safe : Safe W C i Q p d) (allowed : admitted act ok p d) :
    C.Inv (execute act p d).2 ∧ Q (execute act p d).1 (execute act p d).2 := by
  induction p generalizing d with
  | done a => exact ⟨inv, safe d .refl⟩
  | call e next ih =>
      rw [admitted, Bool.and_eq_true] at allowed
      obtain ⟨inv', -, rest⟩ := safe d .refl inv _ _ (sound d e allowed.1)
      exact ih _ inv' rest allowed.2

section Reading

def look (act : D → (e : E) → R e × D) (p : Attempt E R ε α) (d : D) : Except ε α :=
  (execute act p.run d).1

variable {ok : E → Prop}

theorem execute_stays (stays : ∀ d e, ok e → (act d e).2 = d) {p : Prog E R α} (calls : p.Calls ok)
    (d : D) : (execute act p d).2 = d := by
  induction p generalizing d with
  | done a => rfl
  | call e next ih =>
      have here := stays d e calls.1
      rw [execute, here]
      exact ih _ (calls.2 _) d

theorem execute_reading (stays : ∀ d e, ok e → (act d e).2 = d) {p : Attempt E R ε α}
    (reads : Performs ok p) (d : D) : execute act p.run d = (look act p d, d) :=
  Prod.ext rfl (execute_stays stays reads.calls d)

theorem look_bind (stays : ∀ d e, ok e → (act d e).2 = d) {p : Attempt E R ε α}
    (reads : Performs ok p) (f : α → Attempt E R ε β) (d : D) :
    look act (p >>= f) d = look act p d >>= fun a => look act (f a) d := by
  have ran := execute_reading stays reads d
  cases answer : look act p d with
  | ok a =>
      rw [answer] at ran
      rw [look, execute_bind_ok ran]
      rfl
  | error e =>
      rw [answer] at ran
      rw [look, execute_bind_error ran]
      rfl

theorem look_renameFailure {rename : ε → ε'} {p : Attempt E R ε α} (d : D) :
    look act (renameFailure rename p) d = (look act p d).mapError rename := by
  rw [look, execute_renameFailure, look]

end Reading

/-- The program as one transaction: an error rolls back whatever it wrote. -/
def transaction (act : D → (e : E) → R e × D) (p : Attempt E R ε α) (d : D) : Except ε α × D :=
  match execute act p.run d with
  | (.ok a, d') => (.ok a, d')
  | (.error e, _) => (.error e, d)

def Within (act : D → (e : E) → R e × D) (P : D → Prop) (p : Attempt E R ε α) (Q : α → D → Prop) :
    Prop :=
  ∀ d, P d → OnOk Q (execute act p.run d).1 (execute act p.run d).2

section Rules
variable {P : D → Prop} {Q : α → D → Prop}

theorem within_pure {a : α} (holds : ∀ d, P d → Q a d) :
    Within act P (pure a : Attempt E R ε α) Q :=
  holds

theorem within_throw {e : ε} : Within act P (throw e : Attempt E R ε α) Q := fun _ _ => trivial

theorem within_fromExcept {x : Except ε α} :
    Within act P (fromExcept x : Attempt E R ε α) fun a d => x = .ok a ∧ P d := by
  intro d pre
  cases x with
  | ok a => exact ⟨rfl, pre⟩
  | error e => trivial

theorem within_request {e : E} {decode : R e → Except ε α}
    (answered : ∀ d a, P d → decode (act d e).1 = .ok a → Q a (act d e).2) :
    Within act P (request e decode) Q := by
  intro d pre
  change OnOk Q (decode (act d e).1) (act d e).2
  cases answer : decode (act d e).1 with
  | ok a => exact answered d a pre answer
  | error e => trivial

theorem within_bind {M : α → D → Prop} {Q : β → D → Prop} {p : Attempt E R ε α}
    {f : α → Attempt E R ε β} (first : Within act P p M) (rest : ∀ a, Within act (M a) (f a) Q) :
    Within act P (p >>= f) Q := by
  intro d pre
  have mid := first d pre
  rw [run_bind, execute_bind]
  cases result : (execute act p.run d).1 with
  | ok a =>
      rw [result] at mid
      exact rest a _ mid
  | error e => trivial

theorem within_renameFailure {rename : ε → ε'} {p : Attempt E R ε α} (within : Within act P p Q) :
    Within act P (renameFailure rename p) Q := by
  intro d pre
  have post := within d pre
  change OnOk Q (execute act (p.run.bind _) d).1 (execute act (p.run.bind _) d).2
  rw [execute_bind]
  cases result : (execute act p.run d).1 with
  | ok a =>
      rw [result] at post
      exact post
  | error e => trivial

theorem Within.pre {P' : D → Prop} {p : Attempt E R ε α} (within : Within act P' p Q)
    (implies : ∀ d, P d → P' d) : Within act P p Q :=
  fun d holds => within d (implies d holds)

theorem Within.of_pure {given : Prop} {p : Attempt E R ε α} (within : given → Within act P p Q) :
    Within act (fun d => given ∧ P d) p Q :=
  fun d holds => within holds.1 d holds.2

theorem Within.of_start {p : Attempt E R ε α}
    (within : ∀ start, P start → Within act (· = start) p Q) : Within act P p Q :=
  fun d holds => within d holds d rfl

theorem Within.weaken {M : α → D → Prop} {p : Attempt E R ε α} (within : Within act P p Q)
    (implies : ∀ a d, Q a d → M a d) : Within act P p M := by
  intro d pre
  have post := within d pre
  cases result : (execute act p.run d).1 with
  | ok a =>
      rw [result] at post
      exact implies a _ post
  | error e => trivial

end Rules

def forEach (f : α → Attempt E R ε β) : List α → Attempt E R ε (List β)
  | [] => return []
  | x :: xs => do
      let y ← f x
      let ys ← forEach f xs
      return y :: ys

theorem within_forEach {P : D → Prop} {Q : α → D → Prop} {f : α → Attempt E R ε β} {xs : List α}
    (each : ∀ x ∈ xs, ∀ done : List α,
      Within act (fun d => P d ∧ ∀ y ∈ done, Q y d) (f x)
        fun _ d => P d ∧ Q x d ∧ ∀ y ∈ done, Q y d) :
    Within act P (forEach f xs) fun _ d => P d ∧ ∀ x ∈ xs, Q x d := by
  suffices onward : ∀ rest done : List α, (∀ x ∈ rest, x ∈ xs) →
      Within act (fun d => P d ∧ ∀ y ∈ done, Q y d) (forEach f rest)
        fun _ d => P d ∧ (∀ x ∈ rest, Q x d) ∧ ∀ y ∈ done, Q y d from
    ((onward xs [] fun _ => id).pre fun d holds => ⟨holds, by simp⟩).weaken
      fun _ _ post => ⟨post.1, post.2.1⟩
  intro rest
  induction rest with
  | nil =>
      intro done _
      exact within_pure fun d holds => ⟨holds.1, by simp, holds.2⟩
  | cons x rest ih =>
      intro done inside
      apply within_bind (each x (inside x List.mem_cons_self) done)
      intro y
      apply within_bind ((ih (x :: done) fun z member => inside z (List.mem_cons_of_mem _ member)).pre
        fun d holds => ⟨holds.1, List.forall_mem_cons.mpr holds.2⟩)
      intro ys
      apply within_pure
      intro d ⟨holds, later, all⟩
      obtain ⟨first, before⟩ := List.forall_mem_cons.mp all
      exact ⟨holds, List.forall_mem_cons.mpr ⟨first, later⟩, before⟩

theorem transaction_error {p : Attempt E R ε α} {d : D} {e : ε}
    (failed : (transaction act p d).1 = .error e) : (transaction act p d).2 = d := by
  unfold transaction at failed ⊢
  split at failed
  · cases failed
  · rfl

theorem Within.execute_ok {P : D → Prop} {Q : α → D → Prop} {p : Attempt E R ε α}
    (within : Within act P p Q) {d : D} {a : α} (pre : P d) (ran : (execute act p.run d).1 = .ok a) :
    Q a (execute act p.run d).2 := by
  have post := within d pre
  rw [ran] at post
  exact post

theorem Within.transaction_ok {P : D → Prop} {Q : α → D → Prop} {p : Attempt E R ε α}
    (within : Within act P p Q) {d : D} {a : α} (pre : P d)
    (committed : (transaction act p d).1 = .ok a) : Q a (transaction act p d).2 := by
  have post := within d pre
  unfold transaction at committed ⊢
  split at committed
  · next a' d' ran =>
      rw [ran] at post
      cases committed
      exact post
  · cases committed

attribute [irreducible] Within

end Sql
