import Phasegent.Interleaving.Adversary

namespace Interleaving

variable {E E' : Type} {R : E → Type} {R' : E' → Type} {α ε : Type}

/-- The effects of one interface as effects of a larger one. -/
structure Embedding (E : Type) (R : E → Type) (E' : Type) (R' : E' → Type) where
  effect : E → E'
  answer : ∀ e, R' (effect e) → R e

def Prog.embed (emb : Embedding E R E' R') : Prog E R α → Prog E' R' α
  | .done a => .done a
  | .call e next => .call (emb.effect e) fun r => (next (emb.answer e r)).embed emb

def embed (emb : Embedding E R E' R') (p : Attempt E R ε α) : Attempt E' R' ε α :=
  ExceptT.mk (p.run.embed emb)

/-- What a program did, and how it shows in the larger interface. -/
inductive Shows (emb : Embedding E R E' R') : History E R → History E' R' → Prop
  | nil : Shows emb [] []
  | cons {e : E} {h : History E R} {h' : History E' R'} (r : R' (emb.effect e))
      (shows' : Shows emb h h') : Shows emb (⟨e, emb.answer e r⟩ :: h) (⟨emb.effect e, r⟩ :: h')

variable {emb : Embedding E R E' R'}

theorem Shows.effects {h : History E R} {h' : History E' R'} (shows' : Shows emb h h') :
    h'.map (·.effect) = h.map fun act => emb.effect act.effect := by
  induction shows' with
  | nil => rfl
  | cons r _ ih => simp [ih]

namespace Prog

variable {ok : History E R → E → Prop} {ok' : History E' R' → E' → Prop}

theorem Along.embed {Q : α → History E R → Prop} {k : History E' R'}
    (allowed : ∀ {h h' e}, Shows emb h h' → ok h e → ok' (h' ++ k) (emb.effect e))
    {p : Prog E R α} {h : History E R} {h' : History E' R'} (along : p.Along ok Q h)
    (shows' : Shows emb h h') : (p.embed emb).Along ok'
      (fun a t => ∃ g g', t = g' ++ k ∧ Shows emb g g' ∧ Q a g) (h' ++ k) := by
  induction p generalizing h h' with
  | done a => exact ⟨h, h', rfl, shows', along⟩
  | call e next ih =>
      exact ⟨allowed shows' along.1, fun r => ih _ (along.2 (emb.answer e r)) (shows'.cons r)⟩

theorem Calls.embed {okay : E → Prop} {okay' : E' → Prop} {p : Prog E R α} (calls : p.Calls okay)
    (allowed : ∀ e, okay e → okay' (emb.effect e)) : (p.embed emb).Calls okay' := by
  induction p with
  | done a => trivial
  | call e next ih => exact ⟨allowed e calls.1, fun r => ih _ (calls.2 (emb.answer e r))⟩

def handle (handler : (e : E) → Prog E' R' (R e)) : Prog E R α → Prog E' R' α
  | .done a => .done a
  | .call e next => (handler e).bind fun r => (next r).handle handler

theorem handle_bind {β : Type} (handler : (e : E) → Prog E' R' (R e)) (p : Prog E R α)
    (f : α → Prog E R β) : (p.bind f).handle handler = (p.handle handler).bind fun a => (f a).handle handler := by
  induction p with
  | done a => rfl
  | call e next ih =>
      simp only [bind_call, handle, bind_assoc]
      congr 1
      funext r
      exact ih r

/-- The same, where what answers the calls keeps a state of its own. -/
def serve {S : Type} (handler : S → (e : E) → Prog E' R' (R e × S)) :
    Prog E R α → S → Prog E' R' (α × S)
  | .done a, s => .done (a, s)
  | .call e next, s => (handler s e).bind fun answer => (next answer.1).serve handler answer.2

/-- A program over calls that a host with a state answers. -/
def interpret {S : Type} (host : (e : E) → StateM S (R e)) : Prog E R α → StateM S α
  | .done a => pure a
  | .call e next => host e >>= fun r => (next r).interpret host

theorem interpret_bind {S : Type} {β : Type} (host : (e : E) → StateM S (R e)) (p : Prog E R α)
    (f : α → Prog E R β) : (p.bind f).interpret host = p.interpret host >>= fun a => (f a).interpret host := by
  induction p with
  | done a => rfl
  | call e next ih =>
      simp only [bind_call, interpret]
      exact bind_congr fun r => ih r

theorem serve_bind {S : Type} {β : Type} (handler : S → (e : E) → Prog E' R' (R e × S))
    (p : Prog E R α) (f : α → Prog E R β) (s : S) : (p.bind f).serve handler s =
      (p.serve handler s).bind fun answer => (f answer.1).serve handler answer.2 := by
  induction p generalizing s with
  | done a => rfl
  | call e next ih =>
      simp only [bind_call, serve, bind_assoc]
      congr 1
      funext answer
      exact ih answer.1 answer.2

theorem Calls.serve {S : Type} {handler : S → (e : E) → Prog E' R' (R e × S)} {okay : E' → Prop}
    (each : ∀ s e, (handler s e).Calls okay) (p : Prog E R α) (s : S) :
    (p.serve handler s).Calls okay := by
  induction p generalizing s with
  | done a => trivial
  | call e next ih => exact (each s e).bind fun answer => ih answer.1 answer.2

theorem Along.handle {handler : (e : E) → Prog E' R' (R e)} {P : History E' R' → Prop}
    (each : ∀ e h, P h → (handler e).Along ok' (fun _ => P) h) (p : Prog E R α) {h : History E' R'}
    (holds : P h) : (p.handle handler).Along ok' (fun _ => P) h := by
  induction p generalizing h with
  | done a => exact holds
  | call e next ih =>
      apply Along.bind
      exact (each e h holds).weaken fun r h' kept => ih r kept

end Prog

theorem performs_embed {okay : E → Prop} {okay' : E' → Prop} {p : Attempt E R ε α}
    (performs : Performs okay p) (allowed : ∀ e, okay e → okay' (emb.effect e)) :
    Performs okay' (embed emb p) := by
  unfold Performs at performs ⊢
  exact performs.embed allowed

theorem appends_embed {ok : History E R → E → Prop} {ok' : History E' R' → E' → Prop}
    {Q : α → History E R → Prop} {F : ε → History E R → Prop} {p : Attempt E R ε α}
    (allowed : ∀ h₀ {h h' e}, Shows emb h h' → ok h e → ok' (h' ++ h₀) (emb.effect e))
    (appends : Appends ok p Q F) :
    Appends ok' (embed emb p) (fun a part' => ∃ part, Shows emb part part' ∧ Q a part)
      fun e part' => ∃ part, Shows emb part part' ∧ F e part := by
  unfold Appends Traced at *
  rintro h₀ h rfl
  have along := Prog.Along.embed (k := h) (allowed h) (appends [] [] rfl) .nil
  apply along.weaken
  rintro (failure | a) t ⟨g, g', rfl, shows', part, rfl, ended⟩
  · exact ⟨g', rfl, part, by simpa using shows', ended⟩
  · exact ⟨g', rfl, part, by simpa using shows', ended⟩

theorem reads_embed {quiet : E → Prop} {quiet' : E' → Prop} {Q : α → History E R → Prop}
    {p : Attempt E R ε α} (admitted : ∀ e, quiet e → quiet' (emb.effect e)) (reads : Reads quiet p Q) :
    Reads quiet' (embed emb p) fun a part' => ∃ part, Shows emb part part' ∧ Q a part := by
  intro ok' allowed
  have appends := reads (fun _ => quiet) fun _ _ holds => holds
  refine (appends_embed ?_ appends).weaken (fun _ _ ended => ended) fun _ _ _ => trivial
  exact fun _ _ _ e _ holds => allowed _ _ (admitted e holds)

end Interleaving
