import Phasegent.Interleaving.Effects

namespace Interleaving

structure Act (E : Type) (R : E → Type) where
  effect : E
  answer : R effect

-- What a program has done, the newest first.
abbrev History (E : Type) (R : E → Type) := List (Act E R)

variable {E : Type} {R : E → Type} {α β ε ε' : Type}

/-- The histories of a program whose environment answers whatever it likes. -/
inductive Reaches (p : Prog E R α) : History E R → Prog E R α → Prop
  | start : Reaches p [] p
  | step {h : History E R} {e : E} {next : R e → Prog E R α} (before : Reaches p h (.call e next))
      (r : R e) : Reaches p (⟨e, r⟩ :: h) (next r)

variable {ok : History E R → E → Prop}

/-- Every effect has in the history before it what it needs. -/
def Guarded (ok : History E R → E → Prop) : History E R → Prop
  | [] => True
  | act :: before => ok before act.effect ∧ Guarded ok before

theorem Guarded.needs {later before : History E R} {act : Act E R}
    (guarded : Guarded ok (later ++ act :: before)) : ok before act.effect := by
  induction later with
  | nil => exact guarded.1
  | cons _ _ ih => exact ih guarded.2

theorem Guarded.once {mark : E → Bool} {h : History E R} (guarded : Guarded ok h)
    (first : ∀ h e, ok h e → mark e → ∀ act ∈ h, mark act.effect = false) :
    (h.filter fun act => mark act.effect).length ≤ 1 := by
  induction h with
  | nil => simp
  | cons act before ih =>
      obtain ⟨needs, earlier⟩ := guarded
      cases marked : mark act.effect with
      | false => simpa [marked] using ih earlier
      | true =>
          have none : before.filter (fun act => mark act.effect) = [] := by
            simpa using first before act.effect needs marked
          simp [marked, none]

namespace Prog

/-- From the history on, every effect of the program has what it needs, and every result fits the
history it comes with. -/
def Along (ok : History E R → E → Prop) (Q : α → History E R → Prop) :
    Prog E R α → History E R → Prop
  | .done a, h => Q a h
  | .call e next, h => ok h e ∧ ∀ r, (next r).Along ok Q (⟨e, r⟩ :: h)

variable {Q : α → History E R → Prop}

theorem Along.bind {Q : β → History E R → Prop} {p : Prog E R α} {f : α → Prog E R β}
    {h : History E R} (along : p.Along ok (fun a h' => (f a).Along ok Q h') h) :
    (p.bind f).Along ok Q h := by
  induction p generalizing h with
  | done a => exact along
  | call e next ih => exact ⟨along.1, fun r => ih r (along.2 r)⟩

theorem Along.weaken {Q' : α → History E R → Prop} {p : Prog E R α} {h : History E R}
    (along : p.Along ok Q h) (implies : ∀ a h', Q a h' → Q' a h') : p.Along ok Q' h := by
  induction p generalizing h with
  | done a => exact implies a h along
  | call e next ih => exact ⟨along.1, fun r => ih r (along.2 r)⟩

theorem Along.wider {ok' : History E R → E → Prop} {p : Prog E R α} {h : History E R}
    (along : p.Along ok Q h) (implies : ∀ h e, ok h e → ok' h e) : p.Along ok' Q h := by
  induction p generalizing h with
  | done a => exact along
  | call e next ih => exact ⟨implies h e along.1, fun r => ih r (along.2 r)⟩

theorem Along.reaches {p q : Prog E R α} {h : History E R} (along : p.Along ok Q [])
    (reaches : Reaches p h q) : Guarded ok h ∧ q.Along ok Q h := by
  induction reaches with
  | start => exact ⟨trivial, along⟩
  | step _ r ih => exact ⟨⟨ih.2.1, ih.1⟩, ih.2.2 r⟩

theorem Along.calls {ok' : E → Prop} {P : History E R → Prop} {p : Prog E R α} {h : History E R}
    (allowed : ∀ h e, P h → ok' e → ok h e) (kept : ∀ h e r, P h → ok' e → P (⟨e, r⟩ :: h))
    (calls : p.Calls ok') (holds : P h) : p.Along ok (fun _ => P) h := by
  induction p generalizing h with
  | done a => exact holds
  | call e next ih =>
      exact ⟨allowed h e holds calls.1, fun r => ih r (calls.2 r) (kept h e r holds calls.1)⟩

theorem Along.respects {ok' : E → Prop} {p : Prog E R α} {h h₀ part : History E R}
    (along : p.Along (fun _ => ok') Q h) (allowed : ∀ h e, ok' e → ok h e) (same : h = part ++ h₀)
    (all : ∀ act ∈ part, ok' act.effect) : p.Along ok
      (fun a h' => Q a h' ∧ ∃ part', h' = part' ++ h₀ ∧ ∀ act ∈ part', ok' act.effect) h := by
  induction p generalizing h part with
  | done a => exact ⟨along, part, same, all⟩
  | call e next ih =>
      have longer : ∀ r, ∀ act ∈ ⟨e, r⟩ :: part, ok' act.effect :=
        fun r => List.forall_mem_cons.mpr ⟨along.1, all⟩
      exact ⟨allowed h e along.1, fun r => ih r (along.2 r) (by rw [same, List.cons_append]) (longer r)⟩

theorem Along.appended {p : Prog E R α} {h₀ : History E R} (along : p.Along ok Q h₀) :
    p.Along ok (fun a h => Q a h ∧ ∃ part, h = part ++ h₀) h₀ := by
  suffices onward : ∀ (q : Prog E R α) (part : History E R), q.Along ok Q (part ++ h₀) →
      q.Along ok (fun a h => Q a h ∧ ∃ part, h = part ++ h₀) (part ++ h₀) from onward p [] along
  intro q
  induction q with
  | done a => exact fun part ended => ⟨ended, part, rfl⟩
  | call e next ih => exact fun part later => ⟨later.1, fun r => ih r (⟨e, r⟩ :: part) (later.2 r)⟩

theorem Along.performed {ok' : E → Prop} {p : Prog E R α} {h : History E R} (along : p.Along ok Q h)
    (implies : ∀ h e, ok h e → ok' e) : p.Calls ok' := by
  induction p generalizing h with
  | done a => trivial
  | call e next ih => exact ⟨implies h e along.1, fun r => ih r (along.2 r)⟩

theorem Along.map {Q : β → History E R → Prop} {p : Prog E R α} {f : α → β} {h : History E R}
    (along : p.Along ok (fun a => Q (f a)) h) : (p.map f).Along ok Q h :=
  Along.bind along

/-- Begun after the history `h₀`, the program can end in the result with the history `h`. -/
def Finishes : Prog E R α → History E R → α → History E R → Prop
  | .done b, h₀, a, h => a = b ∧ h = h₀
  | .call e next, h₀, a, h => ∃ r, (next r).Finishes (⟨e, r⟩ :: h₀) a h

theorem Finishes.bind {p : Prog E R α} {f : α → Prog E R β} {h₀ h h' : History E R} {a : α} {b : β}
    (first : p.Finishes h₀ a h) (rest : (f a).Finishes h b h') : (p.bind f).Finishes h₀ b h' := by
  induction p generalizing h₀ with
  | done a =>
      obtain ⟨rfl, rfl⟩ := first
      exact rest
  | call e next ih =>
      obtain ⟨r, first⟩ := first
      exact ⟨r, ih r first⟩

theorem Along.finishes {p : Prog E R α} {h₀ : History E R} (along : p.Along ok Q h₀) :
    p.Along ok (fun a h => Q a h ∧ p.Finishes h₀ a h) h₀ := by
  induction p generalizing h₀ with
  | done a => exact ⟨along, rfl, rfl⟩
  | call e next ih =>
      refine ⟨along.1, fun r => (ih r (along.2 r)).weaken ?_⟩
      exact fun a h ended => ⟨ended.1, r, ended.2⟩

def against (respond : History E R → (e : E) → R e) : Prog E R α → History E R → α × History E R
  | .done a, h => (a, h)
  | .call e next, h => (next (respond h e)).against respond (⟨e, respond h e⟩ :: h)

@[simp] theorem against_done (respond : History E R → (e : E) → R e) (a : α) (h : History E R) :
    (Prog.done a : Prog E R α).against respond h = (a, h) := rfl

@[simp] theorem against_call (respond : History E R → (e : E) → R e) (e : E) (next : R e → Prog E R α)
    (h : History E R) : (Prog.call e next).against respond h =
      (next (respond h e)).against respond (⟨e, respond h e⟩ :: h) := rfl

theorem against_bind (respond : History E R → (e : E) → R e) (p : Prog E R α) (f : α → Prog E R β)
    (h : History E R) : (p.bind f).against respond h =
      (f (p.against respond h).1).against respond (p.against respond h).2 := by
  induction p generalizing h with
  | done a => rfl
  | call e next ih => exact ih (respond h e) _

theorem reaches_against (respond : History E R → (e : E) → R e) (p : Prog E R α) :
    Reaches p (p.against respond []).2 (.done (p.against respond []).1) := by
  suffices onward : ∀ (q : Prog E R α) h, Reaches p h q →
      Reaches p (q.against respond h).2 (.done (q.against respond h).1) from onward p [] .start
  intro q
  induction q with
  | done a => exact fun h reached => reached
  | call e next ih => exact fun h reached => ih (respond h e) _ (.step reached _)

end Prog

section Histories
variable {S : Type}

def Event.act (event : Event S E R) : Act E R := ⟨event.effect, event.answer⟩

def historyOf (i : Pid) (events : List (Event S E R)) : History E R :=
  (events.filter (·.pid == i)).map Event.act

theorem Reaches.append {p q r : Prog E R α} {h h' : History E R} (first : Reaches p h q)
    (second : Reaches q h' r) : Reaches p (h' ++ h) r := by
  induction second with
  | start => exact first
  | step _ answer ih => exact .step ih answer

theorem Follows.reaches {p q : Prog E R α} {events : List (Event S E R)}
    (follows : Follows p events q) : Reaches p (events.map Event.act).reverse q := by
  induction follows with
  | nil p => exact .start
  | @cons e next i r s s' events q rest ih =>
      rw [List.map_cons, List.reverse_cons]
      exact (Reaches.step .start r).append ih

theorem Run.reaches {W : World S E R} {c₀ : Config S E R α}
    {c : Config (S × List (Event S E R)) E R α} (run : Run W.record c₀.record c) {i : Pid}
    {p₀ : Prog E R α} (started : c₀.procs i = some p₀) :
    ∃ p, Reaches p₀ (historyOf i c.shared.2) p := by
  obtain ⟨p, follows⟩ := run.followed started
  have reached := follows.reaches
  rw [actsOf, List.map_reverse, List.reverse_reverse] at reached
  exact ⟨p, reached⟩

theorem Run.reached {W : World S E R} {c₀ : Config S E R α}
    {c : Config (S × List (Event S E R)) E R α} (run : Run W.record c₀.record c) {i : Pid}
    {p : Prog E R α} (running : c.procs i = some p) :
    ∃ p₀, c₀.procs i = some p₀ ∧ Reaches p₀ (historyOf i c.shared.2) p := by
  obtain ⟨p₀, started, follows⟩ := run.follows running
  have reached := follows.reaches
  rw [actsOf, List.map_reverse, List.reverse_reverse] at reached
  exact ⟨p₀, started, reached⟩

theorem Run.started {W : World S E R} {c₀ : Config S E R α}
    {c : Config (S × List (Event S E R)) E R α} (run : Run W.record c₀.record c) :
    ∀ event ∈ c.shared.2, ∃ p, c₀.procs event.pid = some p := by
  induction run with
  | refl => exact fun _ impossible => nomatch impossible
  | @tail c c' before step ih =>
      intro event among
      cases step with
      | @perform i e next r s' running effect =>
          rw [Config.put_shared, effect.2] at among
          obtain rfl | earlier := List.mem_cons.mp among
          · obtain ⟨p₀, started, _⟩ := Run.follows before running
            exact ⟨p₀, started⟩
          · exact ih event earlier
      | crash running effect =>
          rw [Config.put_shared, effect.2] at among
          exact ih event among

theorem Run.needs {W : World S E R} {Q : Pid → α → History E R → Prop} {c₀ : Config S E R α}
    {c : Config (S × List (Event S E R)) E R α} (run : Run W.record c₀.record c)
    (along : ∀ i p, c₀.procs i = some p → p.Along ok (Q i) []) {later earlier : List (Event S E R)}
    {event : Event S E R} (split : c.shared.2 = later ++ event :: earlier) :
    ok (historyOf event.pid earlier) event.effect := by
  obtain ⟨p₀, started⟩ := run.started event (split ▸ by simp)
  obtain ⟨p, reached⟩ := run.reaches started
  have guarded := ((along _ p₀ started).reaches reached).1
  have parts : historyOf event.pid c.shared.2 =
      historyOf event.pid later ++ event.act :: historyOf event.pid earlier := by
    rw [split, historyOf, List.filter_append, List.filter_cons, if_pos (beq_self_eq_true _)]
    simp [historyOf]
  rw [parts] at guarded
  exact guarded.needs

theorem Run.ended {W : World S E R} {Q : Pid → α → History E R → Prop} {c₀ : Config S E R α}
    {c : Config (S × List (Event S E R)) E R α} (run : Run W.record c₀.record c)
    (along : ∀ i p, c₀.procs i = some p → p.Along ok (Q i) []) {i : Pid} {a : α}
    (finished : c.result i = some a) : Q i a (historyOf i c.shared.2) := by
  obtain ⟨p₀, started, reached⟩ := run.reached (Config.result_eq_some.mp finished)
  exact ((along i p₀ started).reaches reached).2

end Histories

section Rules
variable {P P' : History E R → Prop} {Q Q' : α → History E R → Prop} {F F' : ε → History E R → Prop}

/-- A program whose effects have what they need, and whose successes and failures fit the history
they come with. -/
def Traced (ok : History E R → E → Prop) (P : History E R → Prop) (p : Attempt E R ε α)
    (Q : α → History E R → Prop) (F : ε → History E R → Prop) : Prop :=
  ∀ h, P h → p.run.Along ok (Ends Q F) h

theorem traced_pure {a : α} (holds : ∀ h, P h → Q a h) :
    Traced ok P (pure a : Attempt E R ε α) Q F :=
  fun h pre => holds h pre

theorem traced_throw {e : ε} (holds : ∀ h, P h → F e h) :
    Traced ok P (throw e : Attempt E R ε α) Q F :=
  fun h pre => holds h pre

theorem traced_fromExcept {x : Except ε α} (failed : ∀ h e, x = .error e → P h → F e h) :
    Traced ok P (fromExcept x : Attempt E R ε α) (fun a h => x = .ok a ∧ P h) F := by
  intro h pre
  cases x with
  | ok a => exact ⟨rfl, pre⟩
  | error e => exact failed h e rfl pre

theorem traced_request {e : E} {decode : R e → Except ε α} (allowed : ∀ h, P h → ok h e)
    (answered : ∀ h r, P h → Ends Q F (decode r) (⟨e, r⟩ :: h)) :
    Traced ok P (request e decode) Q F :=
  fun h pre => ⟨allowed h pre, fun r => answered h r pre⟩

theorem ends_of_ok {x : Except ε α} {h : History E R} (holds : ∀ a, x = .ok a → Q a h) :
    Ends Q (fun _ _ => True) x h := by
  cases x with
  | ok a => exact holds a rfl
  | error e => trivial

theorem traced_requested {e : E} {decode : R e → Except ε α} (allowed : ∀ h, P h → ok h e) :
    Traced ok P (request e decode) (fun _ _ => True) fun _ _ => True := by
  apply traced_request allowed
  intro h r _
  cases decode r <;> trivial

theorem traced_bind {Q : β → History E R → Prop} {M : α → History E R → Prop} {p : Attempt E R ε α}
    {f : α → Attempt E R ε β} (first : Traced ok P p M F) (rest : ∀ a, Traced ok (M a) (f a) Q F) :
    Traced ok P (p >>= f) Q F := by
  intro h pre
  rw [run_bind]
  apply Prog.Along.bind
  apply (first h pre).weaken
  intro result h' mid
  cases result with
  | ok a => exact rest a h' mid
  | error e => exact mid

theorem traced_renameFailure {rename : ε → ε'} {F' : ε' → History E R → Prop} {p : Attempt E R ε α}
    (renamed : ∀ e h, F e h → F' (rename e) h) (traced : Traced ok P p Q F) :
    Traced ok P (renameFailure rename p) Q F' := by
  intro h pre
  apply Prog.Along.bind
  apply (traced h pre).weaken
  intro result h' ended
  cases result with
  | ok a => exact ended
  | error e => exact renamed e h' ended

theorem traced_outcome {F' : ε' → History E R → Prop} {p : Attempt E R ε α}
    (traced : Traced ok P p Q F) :
    Traced ok P (outcome p : Attempt E R ε' (Except ε α)) (fun result => Ends Q F result) F' := by
  intro h pre
  apply Prog.Along.bind
  exact (traced h pre).weaken fun _ _ ended => ended

theorem traced_performs {ok' : E → Prop} {p : Attempt E R ε α}
    (allowed : ∀ h e, P h → ok' e → ok h e) (kept : ∀ h e r, P h → ok' e → P (⟨e, r⟩ :: h))
    (performs : Performs ok' p) : Traced ok P p (fun _ => P) fun _ => P := by
  intro h pre
  apply (Prog.Along.calls allowed kept performs.calls pre).weaken
  intro result h' holds
  cases result <;> exact holds

theorem Traced.pre {M : History E R → Prop} {p : Attempt E R ε α} (traced : Traced ok M p Q F)
    (implies : ∀ h, P h → M h) : Traced ok P p Q F :=
  fun h pre => traced h (implies h pre)

theorem Traced.weaken {p : Attempt E R ε α} (traced : Traced ok P p Q F)
    (implies : ∀ a h, Q a h → Q' a h) (failed : ∀ e h, F e h → F' e h) : Traced ok P p Q' F' := by
  intro h pre
  apply (traced h pre).weaken
  intro result h' ended
  cases result with
  | ok a => exact implies a h' ended
  | error e => exact failed e h' ended

theorem Traced.any {p : Attempt E R ε α} (traced : Traced ok P p Q F) :
    Traced ok P p (fun _ _ => True) fun _ _ => True :=
  traced.weaken (fun _ _ _ => trivial) fun _ _ _ => trivial

theorem Traced.of_pure {given : Prop} {p : Attempt E R ε α} (traced : given → Traced ok P p Q F) :
    Traced ok (fun h => given ∧ P h) p Q F :=
  fun h pre => traced pre.1 h pre.2

theorem Traced.of_exists {ι : Type} {P : ι → History E R → Prop} {p : Attempt E R ε α}
    (traced : ∀ x, Traced ok (P x) p Q F) : Traced ok (fun h => ∃ x, P x h) p Q F :=
  fun h ⟨x, pre⟩ => traced x h pre

theorem Traced.along {p : Attempt E R ε α} {h : History E R} (traced : Traced ok P p Q F) (pre : P h) :
    p.run.Along ok (Ends Q F) h :=
  traced h pre

theorem Traced.reaches {p : Attempt E R ε α} {q : Prog E R (Except ε α)} {h : History E R}
    (traced : Traced ok (· = []) p Q F) (reaches : Reaches p.run h q) :
    Guarded ok h ∧ q.Along ok (Ends Q F) h :=
  Prog.Along.reaches (traced [] rfl) reaches

end Rules

-- Programs that may run after any history, by what their own part of it looks like.
section Parts
variable {Q Q' : α → History E R → Prop} {F F' : ε → History E R → Prop}

def Appends (ok : History E R → E → Prop) (p : Attempt E R ε α) (Q : α → History E R → Prop)
    (F : ε → History E R → Prop) : Prop :=
  ∀ h₀, Traced ok (· = h₀) p (fun a h => ∃ part, h = part ++ h₀ ∧ Q a part)
    fun e h => ∃ part, h = part ++ h₀ ∧ F e part

theorem appends_pure {a : α} (holds : Q a []) : Appends ok (pure a : Attempt E R ε α) Q F :=
  fun _ => traced_pure fun _ same => ⟨[], same, holds⟩

theorem appends_throw {e : ε} (holds : F e []) : Appends ok (throw e : Attempt E R ε α) Q F :=
  fun _ => traced_throw fun _ same => ⟨[], same, holds⟩

theorem appends_fromExcept {x : Except ε α} (holds : ∀ a, x = .ok a → Q a [])
    (failed : ∀ e, x = .error e → F e []) : Appends ok (fromExcept x : Attempt E R ε α) Q F := by
  cases x with
  | ok a => exact appends_pure (holds a rfl)
  | error e => exact appends_throw (failed e rfl)

theorem appends_request {e : E} {decode : R e → Except ε α} (allowed : ∀ h, ok h e)
    (answered : ∀ r, Ends Q F (decode r) [⟨e, r⟩]) : Appends ok (request e decode) Q F := by
  intro h₀
  apply traced_request fun h _ => allowed h
  rintro h r rfl
  have ended := answered r
  cases result : decode r with
  | ok a =>
      rw [result] at ended
      exact ⟨[⟨e, r⟩], rfl, ended⟩
  | error failure =>
      rw [result] at ended
      exact ⟨[⟨e, r⟩], rfl, ended⟩

theorem appends_answered {e : E} {decode : R e → Except ε α} (allowed : ∀ h, ok h e)
    (answered : ∀ r a, decode r = .ok a → Q a [⟨e, r⟩]) :
    Appends ok (request e decode) Q fun _ _ => True := by
  exact appends_request allowed fun r => ends_of_ok fun a result => answered r a result

theorem Appends.after {p : Attempt E R ε α} (appends : Appends ok p Q F) {P : History E R → Prop} :
    Traced ok P p (fun a h => ∃ before part, h = part ++ before ∧ P before ∧ Q a part)
      fun e h => ∃ before part, h = part ++ before ∧ P before ∧ F e part := by
  refine ((Traced.of_exists (P := fun before h => P before ∧ h = before) fun before =>
    Traced.of_pure fun holds => (appends before).weaken ?_ ?_).pre fun h holds => ⟨h, holds, rfl⟩)
  · rintro a h ⟨part, same, post⟩
    exact ⟨before, part, same, holds, post⟩
  · rintro e h ⟨part, same, failed⟩
    exact ⟨before, part, same, holds, failed⟩

theorem appends_bind {M : α → History E R → Prop} {Q : β → History E R → Prop} {p : Attempt E R ε α}
    {f : α → Attempt E R ε β} (first : Appends ok p M F)
    (rest : ∀ a part, M a part → Appends ok (f a) (fun b more => Q b (more ++ part))
      fun e more => F e (more ++ part)) : Appends ok (p >>= f) Q F := by
  intro h₀
  apply traced_bind (first h₀)
  intro a
  apply Traced.of_exists
  intro part
  refine (Traced.of_pure (P := fun h => h = part ++ h₀) fun mid =>
    (rest a part mid (part ++ h₀)).weaken ?_ ?_).pre fun h holds => ⟨holds.2, holds.1⟩
  · rintro b h ⟨more, rfl, post⟩
    exact ⟨more ++ part, (List.append_assoc _ _ _).symm, post⟩
  · rintro e h ⟨more, rfl, failed⟩
    exact ⟨more ++ part, (List.append_assoc _ _ _).symm, failed⟩

theorem appends_renameFailure {rename : ε → ε'} {F' : ε' → History E R → Prop} {p : Attempt E R ε α}
    (renamed : ∀ e part, F e part → F' (rename e) part) (appends : Appends ok p Q F) :
    Appends ok (renameFailure rename p) Q F' :=
  fun h₀ => traced_renameFailure (fun e _ ⟨part, same, failed⟩ =>
    ⟨part, same, renamed e part failed⟩) (appends h₀)

theorem appends_outcome {F' : ε' → History E R → Prop} {p : Attempt E R ε α}
    (appends : Appends ok p Q F) :
    Appends ok (outcome p : Attempt E R ε' (Except ε α)) (fun result part => Ends Q F result part)
      F' := by
  intro h₀
  apply (traced_outcome (appends h₀)).weaken
  · intro result h ended
    cases result with
    | ok a => exact ended
    | error e => exact ended
  · exact fun e h impossible => impossible

theorem appends_performs {ok' : E → Prop} {p : Attempt E R ε α} (allowed : ∀ h e, ok' e → ok h e)
    (performs : Performs ok' p) :
    Appends ok p (fun _ part => ∀ act ∈ part, ok' act.effect)
      fun _ part => ∀ act ∈ part, ok' act.effect := by
  intro h₀
  refine (traced_performs (P := fun h => ∃ part, h = part ++ h₀ ∧ ∀ act ∈ part, ok' act.effect)
    (fun h e _ => allowed h e) ?_ performs).pre fun h same => ⟨[], same, by rintro _ ⟨⟩⟩
  rintro h e r ⟨part, rfl, all⟩ holds
  exact ⟨⟨e, r⟩ :: part, rfl, List.forall_mem_cons.mpr ⟨holds, all⟩⟩

theorem Appends.respects {ok' : E → Prop} {p : Attempt E R ε α}
    (appends : Appends (fun _ => ok') p Q F) (allowed : ∀ h e, ok' e → ok h e) :
    Appends ok p (fun a part => Q a part ∧ ∀ act ∈ part, ok' act.effect)
      fun e part => F e part ∧ ∀ act ∈ part, ok' act.effect := by
  rintro h₀ h rfl
  have along := (appends h h rfl).respects allowed (List.nil_append h).symm (by simp)
  apply along.weaken
  rintro result h' ⟨ended, part', rfl, all⟩
  cases result with
  | ok a =>
      obtain ⟨part, same, post⟩ := ended
      obtain rfl := List.append_cancel_right same
      exact ⟨part', rfl, post, all⟩
  | error e =>
      obtain ⟨part, same, failed⟩ := ended
      obtain rfl := List.append_cancel_right same
      exact ⟨part', rfl, failed, all⟩

theorem Appends.weaken {p : Attempt E R ε α} (appends : Appends ok p Q F)
    (implies : ∀ a part, Q a part → Q' a part) (failed : ∀ e part, F e part → F' e part) :
    Appends ok p Q' F' :=
  fun h₀ => (appends h₀).weaken (fun a _ ⟨part, same, post⟩ => ⟨part, same, implies a part post⟩)
    fun e _ ⟨part, same, post⟩ => ⟨part, same, failed e part post⟩

end Parts

-- Programs of quiet effects, which every guard admits, by what their successes leave behind.
section Quiet
variable {quiet : E → Prop} {Q Q' : α → History E R → Prop}

def Reads (quiet : E → Prop) (p : Attempt E R ε α) (Q : α → History E R → Prop) : Prop :=
  ∀ ok : History E R → E → Prop, (∀ h e, quiet e → ok h e) → Appends ok p Q fun _ _ => True

theorem reads_pure {a : α} (holds : Q a []) : Reads quiet (pure a : Attempt E R ε α) Q :=
  fun _ _ => appends_pure holds

theorem reads_throw {e : ε} : Reads quiet (throw e : Attempt E R ε α) Q :=
  fun _ _ => appends_throw trivial

theorem reads_fromExcept {x : Except ε α} (holds : ∀ a, x = .ok a → Q a []) :
    Reads quiet (fromExcept x : Attempt E R ε α) Q :=
  fun _ _ => appends_fromExcept holds fun _ _ => trivial

theorem reads_request {e : E} {decode : R e → Except ε α} (admitted : quiet e)
    (answered : ∀ r a, decode r = .ok a → Q a [⟨e, r⟩]) : Reads quiet (request e decode) Q :=
  fun _ allowed => appends_answered (fun h => allowed h e admitted) answered

theorem reads_bind {M : α → History E R → Prop} {Q : β → History E R → Prop} {p : Attempt E R ε α}
    {f : α → Attempt E R ε β} (first : Reads quiet p M)
    (rest : ∀ a part, M a part → Reads quiet (f a) fun b more => Q b (more ++ part)) :
    Reads quiet (p >>= f) Q :=
  fun ok allowed => appends_bind (first ok allowed) fun a part mid => rest a part mid ok allowed

theorem reads_renameFailure {rename : ε → ε'} {p : Attempt E R ε α} (reads : Reads quiet p Q) :
    Reads quiet (renameFailure rename p) Q :=
  fun ok allowed => appends_renameFailure (fun _ _ _ => trivial) (reads ok allowed)

theorem reads_outcome {p : Attempt E R ε α} (reads : Reads quiet p Q) :
    Reads quiet (outcome p : Attempt E R ε' (Except ε α)) fun result part =>
      ∀ a, result = .ok a → Q a part := by
  intro ok allowed
  have ended : Appends ok (outcome p : Attempt E R ε' (Except ε α))
      (fun result part => Ends Q (fun _ _ => True) result part) fun _ _ => True :=
    appends_outcome (reads ok allowed)
  refine ended.weaken (fun result part holds a same => ?_) fun _ _ _ => trivial
  rw [same] at holds
  exact holds

theorem reads_of_performs {p : Attempt E R ε α} (performs : Performs quiet p) :
    Reads quiet p fun _ part => ∀ act ∈ part, quiet act.effect :=
  fun _ allowed => (appends_performs allowed performs).weaken (fun _ _ all => all) fun _ _ _ => trivial

theorem Reads.stays {p : Attempt E R ε α} (reads : Reads quiet p Q) :
    Reads quiet p fun a part => Q a part ∧ ∀ act ∈ part, quiet act.effect :=
  fun _ allowed => ((reads (fun _ => quiet) fun _ _ holds => holds).respects allowed).weaken
    (fun _ _ ended => ended) fun _ _ _ => trivial

theorem Reads.wider {quiet' : E → Prop} {p : Attempt E R ε α} (reads : Reads quiet p Q)
    (implies : ∀ e, quiet e → quiet' e) : Reads quiet' p Q :=
  fun ok allowed => reads ok fun h e holds => allowed h e (implies e holds)

theorem Reads.performs {p : Attempt E R ε α} (reads : Reads quiet p Q) : Performs quiet p := by
  have traced := (reads (fun _ => quiet) fun _ _ holds => holds) [] [] rfl
  unfold Performs
  exact traced.performed fun _ _ holds => holds

theorem Reads.weaken {p : Attempt E R ε α} (reads : Reads quiet p Q)
    (implies : ∀ a part, Q a part → Q' a part) : Reads quiet p Q' :=
  fun ok allowed => (reads ok allowed).weaken implies fun _ _ _ => trivial

theorem Reads.after {p : Attempt E R ε α} (reads : Reads quiet p Q)
    (allowed : ∀ h e, quiet e → ok h e) {P : History E R → Prop} :
    Traced ok P p (fun a h => ∃ before part, h = part ++ before ∧ P before ∧ Q a part)
      fun _ _ => True :=
  (reads ok allowed).after.weaken (fun _ _ ended => ended) fun _ _ _ => trivial

theorem Reads.along {p : Attempt E R ε α} (reads : Reads (fun _ => True) p Q) :
    p.run.Along (fun _ _ => True) (fun result h => ∀ a, result = .ok a → Q a h) [] := by
  have traced := (reads (fun _ _ => True) fun _ _ _ => trivial) []
  apply (traced.reaches .start).2.weaken
  intro result h ended a same
  rw [same] at ended
  obtain ⟨part, split, holds⟩ := ended
  rw [split, List.append_nil]
  exact holds

theorem Reads.reached {p : Attempt E R ε α} {a : α} {h : History E R} (reads : Reads (fun _ => True) p Q)
    (reached : Reaches p.run h (.done (.ok a))) : Q a h :=
  ((Prog.Along.reaches reads.along reached).2) a rfl

end Quiet

attribute [irreducible] Traced Appends

end Interleaving
