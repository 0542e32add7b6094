import Phasegent.Cleanup.Sessions

namespace Phasegent.Cleanup
open Fallible Interleaving

abbrev HostHistory := History HostOp HostOp.Ret

abbrev answered (id : String) (located : LocatedSession) : Act HostOp HostOp.Ret :=
  ⟨.session id, .ok located⟩

def Names (id : String) (located : LocatedSession) : Prop :=
  located.id = id ∧ isAbsolute located.directory = true

def movedBy (act : Act HostOp HostOp.Ret) : Option String :=
  match act.effect with
  | .moveSession id _ => some id
  | _ => none

def movedIn (h : HostHistory) : List String := h.filterMap movedBy

@[simp] theorem movedIn_nil : movedIn [] = [] := rfl

@[simp] theorem movedIn_append (newer older : HostHistory) :
    movedIn (newer ++ older) = movedIn newer ++ movedIn older :=
  List.filterMap_append

def Still (h : HostHistory) : Prop := movedIn h = []

theorem still_append {newer older : HostHistory} (later : Still newer) (sooner : Still older) :
    Still (newer ++ older) := by
  rw [Still, movedIn_append, later, sooner, List.nil_append]

inductive Chain (family : List String) : Nat → String → HostHistory → Prop
  | reached {edges : Nat} {parent : String} (member : parent ∈ family) :
      Chain family (edges + 1) parent []
  | up {edges : Nat} {parent next : String} {located : LocatedSession} {newer : HostHistory}
      (named : Names parent located) (above : located.parentId = some next)
      (rest : Chain family edges next newer) :
      Chain family (edges + 1) parent (newer ++ [answered parent located])

def Related (family : List String) (parent : Option String) (chain : HostHistory) : Prop :=
  ∃ start, parent = some start ∧ Chain family maxParentEdges start chain

def Member (family : List String) (id : String) (located : LocatedSession) (chain : HostHistory) :
    Prop :=
  (id ∈ family ∧ chain = []) ∨ Related family located.parentId chain

inductive Listing : Option String → List LocatedSession → HostHistory → Prop
  | last {cursor : Option String} {page : SessionPage} (final : page.nextCursor = none) :
      Listing cursor page.sessions [⟨.list "" cursor, .ok page⟩]
  | more {cursor : Option String} {page : SessionPage} {next : String} {rest : List LocatedSession}
      {newer : HostHistory} (continued : page.nextCursor = some next)
      (following : Listing (some next) rest newer) :
      Listing cursor (page.sessions ++ rest) (newer ++ [⟨.list "" cursor, .ok page⟩])

section Justified
variable (canonical : String → String) (directory : String) (exempt : Option String)

def Outside (located : LocatedSession) : Prop :=
  sameDirectory canonical located.directory directory = false

def Harmless (busy : List String) (id : String) (located : LocatedSession) : Prop :=
  exempt = some id ∨ id ∉ busy ∧ Outside canonical directory located

def Answers (ok : String → LocatedSession → Prop) (ids : List String) (lookups : HostHistory) : Prop :=
  (∀ act ∈ lookups, ∃ id located, act = answered id located) ∧
    ∀ id ∈ ids, ∃ located, answered id located ∈ lookups ∧ Names id located ∧ ok id located

/-- One complete running-session answer, every session of which has been located and is harmless. -/
def Idle (busy : List String) (check : HostHistory) : Prop :=
  ∃ ids lookups, check = lookups ++ [⟨.activeSessions, .ok ids⟩] ∧
    Answers (Harmless canonical directory exempt busy) ids lookups

/-- What stands in the history when the move of a session may be requested. -/
def MoveJustified (mode : CleanupMode) (family : List String) (h : HostHistory)
    (id destination : String) : Prop :=
  (mode = .close ∨ mode = .prune) ∧ id ∉ movedIn h ∧
    ⟨.resolveMainCheckout, .ok destination⟩ ∈ h ∧
    ∃ check chain located between listing older sessions,
      h = check ++ chain ++ answered id located :: (between ++ listing ++ older) ∧
        Names id located ∧ sameDirectory canonical located.directory directory = true ∧
        Member family id located chain ∧ Idle canonical directory exempt (id :: movedIn h) check ∧
        Listing none sessions listing

/-- What stands at the end of the history when the directory is reported free. -/
def Freed (family : List String) (h : HostHistory) : Prop :=
  ∃ check roots listing older sessions, h = check ++ roots ++ listing ++ older ∧
    Still (check ++ roots ++ listing) ∧
    Listing none sessions listing ∧ (∀ occupant ∈ sessions, Outside canonical directory occupant) ∧
    Answers (fun _ => Outside canonical directory) family roots ∧
    Idle canonical directory exempt (movedIn h) check

def guard (mode : CleanupMode) (family : List String) (h : HostHistory) : HostOp → Prop
  | .moveSession id destination =>
      MoveJustified canonical directory exempt mode family h id destination
  | _ => True

end Justified

def HostOp.Looks : HostOp → Prop
  | .moveSession .. => False
  | _ => True

theorem still_single {op : HostOp} (looks : op.Looks) (r : op.Ret) : Still [⟨op, r⟩] := by
  cases op <;> first | rfl | exact looks.elim

theorem still_of_looks {h : HostHistory} (looks : ∀ act ∈ h, act.effect.Looks) : Still h := by
  induction h with
  | nil => rfl
  | cons act h ih =>
      have first := still_single (looks act List.mem_cons_self) act.answer
      have before : Still h := ih fun old among => looks old (.tail _ among)
      exact still_append first before

theorem Chain.still {family : List String} {edges : Nat} {parent : String} {h : HostHistory}
    (chain : Chain family edges parent h) : Still h := by
  induction chain with
  | reached => rfl
  | up _ _ _ ih => exact still_append ih rfl

theorem Member.still {family : List String} {id : String} {located : LocatedSession}
    {h : HostHistory} (member : Member family id located h) : Still h := by
  obtain ⟨_, rfl⟩ | ⟨start, _, chain⟩ := member
  · rfl
  · exact chain.still

theorem Listing.still {cursor : Option String} {sessions : List LocatedSession} {h : HostHistory}
    (listing : Listing cursor sessions h) : Still h := by
  induction listing with
  | last => rfl
  | more _ _ ih => exact still_append ih rfl

theorem Answers.still {ok : String → LocatedSession → Prop} {ids : List String} {h : HostHistory}
    (answers : Answers ok ids h) : Still h := by
  apply still_of_looks
  intro act among
  obtain ⟨id, located, rfl⟩ := answers.1 act among
  trivial

theorem Answers.imp {ok ok' : String → LocatedSession → Prop} {ids : List String} {h : HostHistory}
    (answers : Answers ok ids h)
    (implies : ∀ id located, Names id located → ok id located → ok' id located) :
    Answers ok' ids h := by
  refine ⟨answers.1, fun id among => ?_⟩
  obtain ⟨located, asked, named, holds⟩ := answers.2 id among
  exact ⟨located, asked, named, implies id located named holds⟩

theorem Idle.still {canonical : String → String} {directory : String} {exempt : Option String}
    {busy : List String} {h : HostHistory} (idle : Idle canonical directory exempt busy h) :
    Still h := by
  obtain ⟨ids, lookups, rfl, answers⟩ := idle
  exact still_append answers.still rfl

section Readers

theorem reads_still {ε α : Type} {p : Attempt HostOp HostOp.Ret ε α}
    (performs : Performs HostOp.Looks p) : Reads HostOp.Looks p fun _ => Still :=
  (reads_of_performs performs).weaken fun _ _ looks => still_of_looks looks

theorem reads_listPage (cursor : Option String) :
    Reads HostOp.Looks (listPage cursor) fun page part => part = [⟨.list "" cursor, .ok page⟩] :=
  reads_request trivial fun _ _ result => result ▸ rfl

theorem reads_walkPages (pages : Nat) (followed : List String) (cursor : Option String) :
    Reads HostOp.Looks (walkPages pages followed cursor) (Listing cursor) := by
  induction pages generalizing followed cursor with
  | zero => exact reads_throw
  | succ pages ih =>
      apply reads_bind (reads_listPage cursor)
      rintro page _ rfl
      cases continued : page.nextCursor with
      | none => exact reads_pure (.last continued)
      | some next =>
          dsimp only
          split
          · exact reads_throw
          · apply reads_bind (ih (followed ++ [next]) (some next))
            intro rest newer following
            exact reads_pure (.more continued following)

theorem reads_occupants (canonical : String → String) (directory : String) :
    Reads HostOp.Looks (occupantsOfDirectory canonical directory) fun occupants part =>
      ∃ sessions, Listing none sessions part ∧
        occupants = sessions.filter fun session =>
          sameDirectory canonical session.directory directory := by
  apply reads_bind (reads_renameFailure (reads_walkPages maxListPages [] none))
  intro sessions part listing
  exact reads_pure ⟨sessions, listing, rfl⟩

theorem reads_locate (texts : LookupTexts) (id : String) :
    Reads HostOp.Looks (locate texts id) fun located part => part = [answered id located] ∧ Names id located := by
  apply reads_bind (M := fun located part => part = [answered id located])
  · exact reads_request trivial fun r located result => by
      rw [mapError_eq_ok] at result
      rw [result]
  · rintro located _ rfl
    apply reads_fromExcept
    intro admitted result
    simp only [admitLocated, bind_eq_ok, refuse_eq_ok, pure_eq, Except.ok.injEq] at result
    obtain ⟨_, named, _, absolute, rfl⟩ := result
    exact ⟨rfl, not_not.mp named, Bool.of_not_eq_false absolute⟩

theorem reads_locateAll (texts : String → LookupTexts) (ids : List String) :
    Reads HostOp.Looks (locateAll texts ids) fun answers part =>
      Answers (fun _ located => located ∈ answers) ids part := by
  induction ids with
  | nil => exact reads_pure ⟨by simp, by simp⟩
  | cons id rest ih =>
      apply reads_bind (reads_locate (texts id) id)
      rintro located _ ⟨rfl, named⟩
      apply reads_bind ih
      rintro others part ⟨lookups, answers⟩
      apply reads_pure
      refine ⟨?_, List.forall_mem_cons.mpr ⟨⟨located, by simp, named, by simp⟩, ?_⟩⟩
      · simp only [List.nil_append, List.mem_append, List.mem_singleton]
        rintro act (earlier | rfl)
        · exact lookups act earlier
        · exact ⟨id, located, rfl⟩
      · intro other among
        obtain ⟨found, asked, named, holds⟩ := answers other among
        exact ⟨found, by simp [asked], named, by simp [holds]⟩

theorem checkAll_ok {α : Type} {check : α → Except String Unit} {l : List α} {u : Unit}
    (passed : checkAll check l = .ok u) : ∀ a ∈ l, check a = .ok () := by
  induction l with
  | nil => simp
  | cons a rest ih =>
      simp only [checkAll, bind_eq_ok] at passed
      obtain ⟨_, first, others⟩ := passed
      exact List.forall_mem_cons.mpr ⟨first, ih others⟩

theorem mem_distinct {id : String} {seen ids : List String} :
    id ∈ distinct seen ids ↔ id ∈ ids ∧ id ∉ seen := by
  induction ids generalizing seen with
  | nil => simp [distinct]
  | cons first rest ih =>
      by_cases known : first ∈ seen
      · simp only [distinct, List.contains_iff_mem, known, if_true, ih, List.mem_cons]
        constructor
        · rintro ⟨later, fresh⟩
          exact ⟨.inr later, fresh⟩
        · rintro ⟨rfl | later, fresh⟩
          · exact (fresh known).elim
          · exact ⟨later, fresh⟩
      · simp only [distinct, List.contains_iff_mem, known, if_false, ih, List.mem_cons, not_or]
        constructor
        · rintro (rfl | ⟨later, _, fresh⟩)
          · exact ⟨.inl rfl, known⟩
          · exact ⟨.inr later, fresh⟩
        · rintro ⟨rfl | later, fresh⟩
          · exact .inl rfl
          · by_cases same : id = first
            · exact .inl same
            · exact .inr ⟨later, same, fresh⟩

theorem reads_runningSessions :
    Reads HostOp.Looks runningSessions fun running part => ∃ ids lookups,
      part = lookups ++ [⟨.activeSessions, .ok ids⟩] ∧
        Answers (fun _ located => located ∈ running) ids lookups := by
  apply reads_bind (M := fun ids part => part = [⟨.activeSessions, .ok ids⟩])
  · exact reads_request trivial fun r ids result => by
      rw [mapError_eq_ok] at result
      rw [result]
  · rintro ids _ rfl
    apply (reads_locateAll runningTexts (distinct [] ids)).weaken
    intro running lookups answers
    refine ⟨ids, lookups, rfl, answers.1, fun id among => answers.2 id ?_⟩
    exact mem_distinct.mpr ⟨among, List.not_mem_nil⟩

section Running
variable {canonical : String → String} {directory : String}

theorem harmless_of_passed {exempt intended : Option String} {already : List String}
    {id : String} {located : LocatedSession} (named : Names id located)
    (passed : runningBlockerOf canonical directory exempt intended already located = .ok ()) :
    Harmless canonical directory exempt (intended.toList ++ already) id located := by
  obtain ⟨rfl, _⟩ := named
  by_cases root : exempt = some located.id
  · exact .inl root
  · simp only [runningBlockerOf, root, if_false, bind_eq_ok, refuse_eq_ok] at passed
    obtain ⟨_, notNext, _, notBefore, elsewhere⟩ := passed
    refine .inr ⟨fun among => ?_, Bool.of_not_eq_true elsewhere⟩
    obtain next | before := List.mem_append.mp among
    · exact notNext (Option.mem_toList.mp next)
    · exact notBefore before

theorem reads_runningBlocker (exempt intended : Option String) (already : List String) :
    Reads HostOp.Looks (runningBlocker canonical directory exempt intended already) fun _ part =>
      Idle canonical directory exempt (intended.toList ++ already) part := by
  apply reads_bind reads_runningSessions
  rintro running part ⟨ids, lookups, rfl, answers⟩
  apply reads_fromExcept
  intro _ passed
  refine ⟨ids, lookups, rfl, answers.imp fun id located named among => ?_⟩
  exact harmless_of_passed named (checkAll_ok passed located among)

end Running

theorem reads_climb (id : String) (family : List String) (edges : Nat) (visited : List String)
    (parent : String) :
    Reads HostOp.Looks (climb id family edges visited parent) fun related part =>
      related = true → Chain family edges parent part := by
  induction edges generalizing visited parent with
  | zero => exact reads_throw
  | succ edges ih =>
      apply reads_bind (reads_fromExcept (Q := fun _ part => part = []) fun _ _ => rfl)
      rintro _ _ rfl
      split
      · rename_i member
        exact reads_pure fun _ => .reached (List.contains_iff_mem.mp member)
      · apply reads_bind (reads_fromExcept (Q := fun _ part => part = []) fun _ _ => rfl)
        rintro _ _ rfl
        apply reads_bind (reads_locate (parentTexts id parent) parent)
        rintro located _ ⟨rfl, named⟩
        cases above : located.parentId with
        | none => exact reads_pure (by simp)
        | some next =>
            apply (ih (parent :: visited) next).weaken
            intro related newer chain proven
            simpa using Chain.up named above (chain proven)

theorem reads_lineage (id : String) (start : Option String) (family : List String) :
    Reads HostOp.Looks (lineage id start family) fun related part => related = true → Related family start part := by
  cases start with
  | none => exact reads_pure (by simp)
  | some parent =>
      apply (reads_climb id family maxParentEdges [id] parent).weaken
      intro related part chain proven
      exact ⟨parent, rfl, chain proven⟩

theorem reads_proveMember (family : List String) (id : String) (located : LocatedSession) :
    Reads HostOp.Looks (proveMember family id located) fun _ part => Member family id located part := by
  unfold proveMember
  split
  · rename_i member
    exact reads_pure (.inl ⟨List.contains_iff_mem.mp member, rfl⟩)
  · apply reads_bind (reads_lineage id located.parentId family)
    intro related part chain
    apply reads_fromExcept
    intro _ passed
    rw [refuse_eq_ok, Bool.not_eq_false] at passed
    exact .inr (chain passed)

end Readers

section Release
variable {canonical : String → String} {directory : String} {exempt : Option String}
  {mode : CleanupMode} {family : List String}

theorem guard_of_looks (h : HostHistory) (op : HostOp) (looks : op.Looks) :
    guard canonical directory exempt mode family h op := by
  cases op <;> trivial

theorem Idle.fewer {busy busy' : List String} {h : HostHistory}
    (idle : Idle canonical directory exempt busy h) (fewer : ∀ id ∈ busy', id ∈ busy) :
    Idle canonical directory exempt busy' h := by
  obtain ⟨ids, lookups, rfl, answers⟩ := idle
  refine ⟨ids, lookups, rfl, answers.imp fun id located _ harmless => ?_⟩
  exact harmless.imp_right fun out => ⟨fun among => out.1 (fewer id among), out.2⟩

theorem performs_walkPages (pages : Nat) (followed : List String) (cursor : Option String) :
    Performs HostOp.Looks (walkPages pages followed cursor) := by
  induction pages generalizing followed cursor with
  | zero => exact performs_throw _
  | succ pages ih =>
      apply performs_bind (performs_request trivial)
      intro page
      split
      · exact performs_pure _
      · split
        · exact performs_throw _
        · exact performs_bind (ih _ _) fun _ => performs_pure _

theorem performs_locateAll (texts : String → LookupTexts) (ids : List String) :
    Performs HostOp.Looks (locateAll texts ids) := by
  induction ids with
  | nil => exact performs_pure []
  | cons id rest ih =>
      apply performs_bind (performs_bind (performs_request trivial) fun _ => performs_fromExcept _)
      exact fun located => performs_bind ih fun _ => performs_pure _

theorem performs_runningBlocker (intended : Option String) (already : List String) :
    Performs HostOp.Looks (runningBlocker canonical directory exempt intended already) := by
  apply performs_bind
  · exact performs_bind (performs_request trivial) fun ids => performs_locateAll runningTexts _
  · exact fun running => performs_fromExcept _

theorem performs_climb (id : String) (edges : Nat) (visited : List String) (parent : String) :
    Performs HostOp.Looks (climb id family edges visited parent) := by
  induction edges generalizing visited parent with
  | zero => exact performs_throw _
  | succ edges ih =>
      apply performs_bind (performs_fromExcept _)
      intro _
      split
      · exact performs_pure true
      · apply performs_bind (performs_fromExcept _)
        intro _
        apply performs_bind (performs_bind (performs_request trivial) fun _ => performs_fromExcept _)
        intro located
        split
        · exact performs_pure false
        · exact ih (parent :: visited) _

theorem performs_lineage (id : String) (start : Option String) :
    Performs HostOp.Looks (lineage id start family) := by
  cases start with
  | none => exact performs_pure false
  | some parent => exact performs_climb id maxParentEdges [id] parent

theorem reads_relate (hosted : List (String × Option String)) :
    Reads HostOp.Looks (relate family hosted) fun movable part => movable = hosted.map Prod.fst ∧ Still part := by
  induction hosted with
  | nil => exact reads_pure ⟨rfl, rfl⟩
  | cons entry rest ih =>
      apply reads_bind (M := fun _ => Still)
      · split
        · exact reads_pure rfl
        · exact reads_still (performs_lineage entry.1 entry.2)
      · intro related chain still
        apply reads_bind (reads_fromExcept (Q := fun _ part => part = []) fun _ _ => rfl)
        rintro _ _ rfl
        apply reads_bind ih
        rintro _ more ⟨rfl, later⟩
        exact reads_pure ⟨rfl, still_append (still_append later rfl) still⟩

theorem performs_checkBudget (id : String) : Performs HostOp.Looks (checkBudget id) :=
  performs_bind (performs_request trivial) fun _ => performs_fromExcept _

theorem performs_observe {id old destination : String} :
    Performs HostOp.Looks (observe canonical id old destination) :=
  performs_bind (performs_request trivial) fun _ => performs_fromExcept _

theorem performs_observeAll (old destination : String) (ids : List String) :
    Performs HostOp.Looks (observeAll canonical old destination ids) := by
  induction ids with
  | nil => exact performs_pure []
  | cons id rest ih =>
      apply performs_bind (performs_checkBudget id)
      exact fun _ => performs_bind performs_observe fun stays => performs_bind ih fun _ => performs_pure _

theorem performs_waitPending {old destination : String} {runningCheck : HostM Unit}
    (checks : Performs HostOp.Looks runningCheck) (polls : Nat) (pending : List String) :
    Performs HostOp.Looks (waitPending canonical old destination runningCheck polls pending) := by
  induction polls generalizing pending with
  | zero =>
      cases pending with
      | nil => exact performs_pure ()
      | cons first rest => exact performs_throw _
  | succ polls ih =>
      cases pending with
      | nil => exact performs_pure ()
      | cons first rest =>
          apply performs_bind (performs_checkBudget first)
          intro _
          apply performs_bind checks
          intro _
          apply performs_bind (performs_checkBudget first)
          intro _
          apply performs_bind (performs_request trivial)
          intro remaining
          apply performs_bind (performs_fromExcept _)
          intro _
          apply performs_bind (performs_request trivial)
          intro _
          apply performs_bind (performs_checkBudget first)
          intro _
          apply performs_bind (performs_observeAll old destination (first :: rest))
          exact fun still => ih still

theorem performs_policyWait {old destination : String} {runningCheck : HostM Unit}
    (checks : Performs HostOp.Looks runningCheck) (policy : MovePolicy) (pending : List String) :
    Performs HostOp.Looks (policy.waitPending canonical old destination runningCheck pending) := by
  cases policy with
  | noWait =>
      cases pending with
      | nil => exact performs_pure ()
      | cons first rest => exact performs_throw _
  | bounded polls => exact performs_waitPending checks polls pending

/-- Where the loop over the sessions to return stands. -/
structure Underway (destination : String) (accepted waiting : List String) (h : HostHistory) : Prop where
  verified : ⟨.resolveMainCheckout, .ok destination⟩ ∈ h
  listed : ∃ between listing older sessions, h = between ++ listing ++ older ∧
    Listing none sessions listing
  known : ∀ id ∈ movedIn h, id ∈ accepted
  fresh : ∀ id ∈ waiting, id ∉ movedIn h

theorem Underway.append {destination : String} {accepted waiting : List String} {h part : HostHistory}
    (underway : Underway destination accepted waiting h) (still : Still part) :
    Underway destination accepted waiting (part ++ h) where
  verified := List.mem_append_right part underway.verified
  listed := by
    obtain ⟨between, listing, older, sessions, rfl, complete⟩ := underway.listed
    exact ⟨part ++ between, listing, older, sessions, by simp, complete⟩
  known id among := underway.known id (by simpa [show movedIn part = [] from still] using among)
  fresh id among moved := underway.fresh id among (by simpa [show movedIn part = [] from still] using moved)

theorem Underway.moved {destination id : String} {accepted waiting : List String} {h : HostHistory}
    (underway : Underway destination accepted (id :: waiting) h) (once : id ∉ waiting)
    (r : HostOp.Ret (.moveSession id destination)) :
    Underway destination (accepted ++ [id]) waiting (⟨.moveSession id destination, r⟩ :: h) where
  verified := List.mem_cons_of_mem _ underway.verified
  listed := by
    obtain ⟨between, listing, older, sessions, rfl, complete⟩ := underway.listed
    exact ⟨_ :: between, listing, older, sessions, rfl, complete⟩
  known other among := by
    obtain rfl | before := List.mem_cons.mp (show other ∈ id :: movedIn h from among)
    · simp
    · exact List.mem_append_left _ (underway.known other before)
  fresh other among moved := by
    obtain rfl | before := List.mem_cons.mp (show other ∈ id :: movedIn h from moved)
    · exact once among
    · exact underway.fresh other (.tail _ among) before

def Ready (canonical : String → String) (directory : String) (family : List String)
    (destination id : String) (accepted waiting : List String) (h : HostHistory) : Prop :=
  ∃ chain located before, h = chain ++ answered id located :: before ∧ Names id located ∧
    sameDirectory canonical located.directory directory = true ∧
    Member family id located chain ∧ Underway destination accepted (id :: waiting) before

theorem Ready.underway {destination id : String} {accepted waiting : List String} {h : HostHistory}
    (ready : Ready canonical directory family destination id accepted waiting h) :
    Underway destination accepted (id :: waiting) h := by
  obtain ⟨chain, located, before, rfl, _, _, member, underway⟩ := ready
  exact (underway.append (show Still [answered id located] from rfl)).append member.still

theorem Ready.justifies {destination id : String} {accepted waiting : List String}
    {h check : HostHistory} (moves : mode = .close ∨ mode = .prune)
    (ready : Ready canonical directory family destination id accepted waiting h)
    (idle : Idle canonical directory exempt (id :: accepted) check) :
    MoveJustified canonical directory exempt mode family (check ++ h) id destination := by
  have underway := ready.underway.append idle.still
  refine ⟨moves, underway.fresh id List.mem_cons_self, underway.verified, ?_⟩
  obtain ⟨chain, located, before, rfl, named, here, member, sooner⟩ := ready
  obtain ⟨between, listing, older, sessions, rfl, complete⟩ := sooner.listed
  refine ⟨check, chain, located, between, listing, older, sessions, by simp, named, here, member, ?_,
    complete⟩
  apply idle.fewer
  intro other among
  obtain rfl | moved := List.mem_cons.mp among
  · exact List.mem_cons_self
  · exact .tail _ (underway.known other moved)

theorem traced_requestMove (moves : mode = .close ∨ mode = .prune) (destination id : String)
    (requests : Requests) {waiting : List String} (once : id ∉ waiting) :
    Traced (guard canonical directory exempt mode family)
      (Ready canonical directory family destination id requests.accepted waiting)
      (requestMove canonical directory exempt destination id requests)
      (fun result => Underway destination result.accepted waiting) fun _ _ => True := by
  apply traced_bind ((reads_runningBlocker exempt (some id) requests.accepted).after guard_of_looks)
  intro _
  apply traced_bind (M := fun _ => Underway destination (requests.accepted ++ [id]) waiting)
  · apply traced_request
    · rintro h ⟨before, check, rfl, ready, idle⟩
      exact ready.justifies moves idle
    · rintro h r ⟨before, check, rfl, ready, idle⟩
      have underway := (ready.underway.append idle.still).moved once r
      cases r with
      | ok => exact underway
      | error => trivial
  · intro _
    apply traced_bind ((reads_still performs_observe).after guard_of_looks)
    intro pending
    apply traced_pure
    rintro h ⟨before, part, rfl, underway, still⟩
    exact underway.append still

theorem traced_returnSession (moves : mode = .close ∨ mode = .prune) (destination id : String)
    (requests : Requests) {waiting : List String} (once : id ∉ waiting) :
    Traced (guard canonical directory exempt mode family)
      (Underway destination requests.accepted (id :: waiting))
      (returnSession canonical directory family exempt destination id requests)
      (fun result => Underway destination result.accepted waiting) fun _ _ => True := by
  apply traced_bind ((reads_locate (moveTexts id) id).after guard_of_looks)
  intro located
  apply traced_bind ((reads_proveMember family id located).after guard_of_looks)
  intro _
  split
  · apply traced_pure
    rintro h ⟨_, chain, rfl, ⟨before, _, rfl, underway, rfl, named⟩, member⟩
    have onward := (underway.append (show Still [answered id located] from rfl)).append member.still
    exact { onward with fresh := fun other among => onward.fresh other (.tail _ among) }
  · apply traced_bind (traced_fromExcept fun _ _ _ _ => trivial)
    intro _
    refine (traced_requestMove moves destination id requests once).pre ?_
    rintro h ⟨passed, _, chain, rfl, ⟨before, _, rfl, underway, rfl, named⟩, member⟩
    rw [refuse_eq_ok, Bool.not_eq_false] at passed
    exact ⟨chain, located, before, rfl, named, passed, member, underway⟩

theorem traced_returnSessions (moves : mode = .close ∨ mode = .prune) (destination : String)
    (movable : List String) (distinct : movable.Nodup) (requests : Requests) :
    Traced (guard canonical directory exempt mode family)
      (Underway destination requests.accepted movable)
      (returnSessions canonical directory family exempt destination movable requests)
      (fun result => Underway destination result.accepted []) fun _ _ => True := by
  induction movable generalizing requests with
  | nil => exact traced_pure fun _ underway => underway
  | cons id rest ih =>
      obtain ⟨once, later⟩ := List.nodup_cons.mp distinct
      apply traced_bind (traced_returnSession moves destination id requests once)
      exact fun result => ih later result

def Listed (h : HostHistory) : Prop :=
  ∃ between listing older sessions, h = between ++ listing ++ older ∧ Listing none sessions listing

theorem traced_releaseFamily (moves : mode = .close ∨ mode = .prune) (policy : MovePolicy)
    (movable : List String) (distinct : movable.Nodup) :
    Traced (guard canonical directory exempt mode family) (fun h => Listed h ∧ Still h)
      (releaseFamily canonical directory family exempt policy movable)
      (fun _ => Freed canonical directory exempt family) fun _ _ => True := by
  apply traced_bind (M := fun destination => Underway destination [] movable)
  · apply traced_request fun _ _ => trivial
    rintro h r ⟨⟨between, listing, older, sessions, rfl, complete⟩, still⟩
    cases r with
    | error => trivial
    | ok destination =>
        refine ⟨List.mem_cons_self, ⟨_ :: between, listing, older, sessions, rfl, complete⟩, ?_, ?_⟩
        · intro id among
          rw [show movedIn (⟨.resolveMainCheckout, .ok destination⟩ ::
            (between ++ listing ++ older)) = [] from still] at among
          exact among
        · intro id _ among
          rw [show movedIn (⟨.resolveMainCheckout, .ok destination⟩ ::
            (between ++ listing ++ older)) = [] from still] at among
          exact List.not_mem_nil among
  intro destination
  apply traced_bind (traced_returnSessions moves destination movable distinct ⟨[], []⟩)
  intro requests
  have checks : Performs HostOp.Looks
      (runningBlocker canonical directory exempt none requests.accepted) :=
    performs_runningBlocker none requests.accepted
  apply traced_bind ((reads_still (performs_policyWait checks policy requests.pending)).after
    guard_of_looks)
  intro _
  apply traced_bind ((reads_occupants canonical directory).after guard_of_looks)
  intro occupants
  apply traced_bind (traced_fromExcept fun _ _ _ _ => trivial)
  intro _
  apply Traced.of_pure
  intro nobody
  rw [refuse_eq_ok, not_not] at nobody
  apply traced_bind ((reads_locateAll rootTexts family).after guard_of_looks)
  intro located
  apply traced_bind (traced_fromExcept fun _ _ _ _ => trivial)
  intro _
  apply Traced.of_pure
  intro elsewhere
  apply traced_bind ((reads_runningBlocker exempt none requests.accepted).after guard_of_looks)
  intro _
  apply traced_pure
  rintro h ⟨_, check, rfl, ⟨_, roots, rfl, ⟨_, listing, rfl, ⟨before, waited, rfl, underway, still⟩,
    sessions, complete, rfl⟩, answers⟩, idle⟩
  have onward := underway.append still
  have quiet := still_append (still_append idle.still answers.still) complete.still
  refine ⟨check, roots, listing, waited ++ before, sessions, by simp, quiet, complete, ?_, ?_, ?_⟩
  · intro occupant among
    have absent := List.filter_eq_nil_iff.mp nobody occupant among
    exact Bool.of_not_eq_true absent
  · apply answers.imp
    intro id root _ among
    have passed := checkAll_ok elsewhere root among
    rw [rootsElsewhere, refuse_eq_ok] at passed
    exact Bool.of_not_eq_true passed
  · apply idle.fewer
    intro id among
    have later := (onward.append quiet).known id (by simpa using among)
    simpa using later

end Release

section Hosted

instance : IsTrans (String × Option String) hostedBefore where
  trans left middle right first second := by
    obtain smaller | ⟨same, first⟩ := first
    · obtain smaller' | ⟨same', _⟩ := second
      · exact .inl (smaller.trans smaller')
      · exact .inl (same' ▸ smaller)
    · obtain smaller' | ⟨same', second⟩ := second
      · exact .inl (same ▸ smaller')
      · refine .inr ⟨same.trans same', ?_⟩
        rcases left with ⟨_, _ | parent⟩ <;> rcases middle with ⟨_, _ | parent'⟩ <;>
          rcases right with ⟨_, _ | parent''⟩
        all_goals first | trivial | exact le_trans first second

instance : Std.Total hostedBefore where
  total left right := by
    obtain smaller | same | larger := lt_trichotomy left.1 right.1
    · exact .inl (.inl smaller)
    · rcases left with ⟨id, _ | parent⟩ <;> rcases right with ⟨_, _ | parent'⟩
      · exact .inl (.inr ⟨same, trivial⟩)
      · exact .inl (.inr ⟨same, trivial⟩)
      · exact .inr (.inr ⟨same.symm, trivial⟩)
      · exact (le_total parent parent').imp (fun le => .inr ⟨same, le⟩) fun le => .inr ⟨same.symm, le⟩
    · exact .inr (.inl larger)

theorem hostedSessions_nodup (canonical : String → String) (directory : String)
    (occupants locatedRoots : List LocatedSession) :
    ((hostedSessions canonical directory occupants locatedRoots).map Prod.fst).Nodup := by
  unfold hostedSessions
  generalize (occupants.map _ ++ _ : List (String × Option String)) = hosted
  dsimp only
  have sorted := ((List.pairwise_insertionSort hostedBefore hosted).sublist
    (List.destutter_sublist (fun left right => left.1 ≠ right.1) _)).isChain
  have apart := List.isChain_destutter (fun left right : String × Option String => left.1 ≠ right.1)
    (hosted.insertionSort hostedBefore)
  have rising : List.IsChain (fun left right : String × Option String => left.1 < right.1)
      ((hosted.insertionSort hostedBefore).destutter fun left right => left.1 ≠ right.1) := by
    rw [List.isChain_iff_forall_rel_of_append_cons_cons] at sorted apart ⊢
    intro left right _ _ adjacent
    exact (sorted adjacent).resolve_right fun same => apart adjacent same.1
  have ordered := List.isChain_iff_pairwise.mp (List.isChain_map_of_isChain (S := (· < ·)) Prod.fst
    (fun _ _ less => less) rising)
  exact ordered.imp ne_of_lt

end Hosted

section Finalize
variable (canonical : String → String) (mode : CleanupMode) (directory : String)
  (associated : List String) (closing : Option String) (policy : MovePolicy)

def Earned (exempt : Option String) (family : List String) (outcome : FamilyOutcome) (h : HostHistory) :
    Prop :=
  ∀ sessions, outcome = .released sessions → Freed canonical directory exempt family h

variable {canonical mode directory}

theorem traced_decideFamily {exempt : Option String} {family movable : List String}
    (distinct : movable.Nodup) :
    Traced (guard canonical directory exempt mode family) (fun h => Listed h ∧ Still h)
      (decideFamily canonical mode directory family exempt policy movable)
      (Earned canonical directory exempt family) fun _ _ => True := by
  unfold decideFamily
  split
  · exact traced_throw fun _ _ => trivial
  · split
    · rename_i _ moves
      refine (traced_releaseFamily ?_ policy movable distinct).weaken (fun _ _ freed _ _ => freed)
        fun _ _ ended => ended
      cases mode <;> simp_all [CleanupMode.mayMoveSessions]
    · split
      · apply traced_bind (M := fun _ _ => True)
        · exact traced_request (fun _ _ => trivial) fun _ r _ => by cases r <;> trivial
        · exact fun _ => traced_pure fun _ _ _ impossible => nomatch impossible
      · exact traced_pure fun _ _ _ impossible => nomatch impossible

theorem traced_assessFamily (exempt : Option String) (family : List String) :
    Traced (guard canonical directory exempt mode family) (· = [])
      (assessFamily canonical mode directory family exempt policy)
      (Earned canonical directory exempt family) fun _ _ => True := by
  apply traced_bind ((reads_still (performs_locateAll rootTexts family)).after guard_of_looks)
  intro locatedRoots
  apply traced_bind ((reads_occupants canonical directory).after guard_of_looks)
  intro occupants
  apply traced_bind (traced_fromExcept fun _ _ _ _ => trivial)
  intro _
  apply Traced.of_pure
  intro _
  apply traced_bind (M := fun _ h => Listed h ∧ Still h)
  · have ready : ∀ h : HostHistory, (∃ before part, h = part ++ before ∧
        (∃ before' part', before = part' ++ before' ∧ before' = [] ∧ Still part') ∧
        ∃ sessions, Listing none sessions part ∧ occupants = sessions.filter fun session =>
          sameDirectory canonical session.directory directory) → Listed h ∧ Still h := by
      rintro h ⟨_, listing, rfl, ⟨_, roots, rfl, rfl, still⟩, sessions, complete, _⟩
      exact ⟨⟨[], listing, _, sessions, rfl, complete⟩, still_append complete.still (by simpa using still)⟩
    split
    · refine (((reads_runningBlocker exempt none []).after guard_of_looks).weaken ?_
        fun _ _ ended => ended).pre ready
      rintro _ h ⟨_, check, rfl, ⟨⟨between, listing, older, sessions, rfl, complete⟩, still⟩, idle⟩
      exact ⟨⟨check ++ between, listing, older, sessions, by simp, complete⟩,
        still_append idle.still still⟩
    · exact traced_pure ready
  · intro _
    dsimp only
    split
    · exact traced_pure fun _ _ _ impossible => nomatch impossible
    · apply traced_bind ((reads_relate _).after guard_of_looks)
      intro movable
      refine (Traced.of_pure (P := fun h => Listed h ∧ Still h) fun same =>
        traced_decideFamily policy ?_).pre (M := fun h => movable = (hostedSessions canonical directory
          occupants locatedRoots).map Prod.fst ∧ Listed h ∧ Still h) ?_
      · exact same ▸ hostedSessions_nodup canonical directory occupants locatedRoots
      · rintro h ⟨_, proofs, rfl, ⟨⟨between, listing, older, sessions, rfl, complete⟩, still⟩, same, later⟩
        exact ⟨same, ⟨proofs ++ between, listing, older, sessions, by simp, complete⟩,
          still_append later still⟩

theorem traced_finalizeFamilyIn :
    Traced (guard canonical directory (closeRoot mode closing) mode (familyOf mode associated closing))
      (· = []) (finalizeFamilyIn canonical mode directory associated closing policy)
      (Earned canonical directory (closeRoot mode closing) (familyOf mode associated closing))
      fun _ _ => True := by
  unfold finalizeFamilyIn
  dsimp only
  split
  · split
    · exact traced_pure fun _ _ _ impossible => nomatch impossible
    · exact traced_throw fun _ _ => trivial
  · split
    · exact traced_pure fun _ _ _ impossible => nomatch impossible
    · exact traced_assessFamily policy _ _

theorem along_finalizeFamilyWith :
    (finalizeFamilyWith canonical mode directory associated closing policy).Along
      (guard canonical directory (closeRoot mode closing) mode (familyOf mode associated closing))
      (Earned canonical directory (closeRoot mode closing) (familyOf mode associated closing)) [] := by
  have traced : Traced
      (guard canonical directory (closeRoot mode closing) mode (familyOf mode associated closing))
      (· = []) (finalizeFamilyIn canonical mode directory associated closing policy)
      (Earned canonical directory (closeRoot mode closing) (familyOf mode associated closing))
      fun _ _ => True := traced_finalizeFamilyIn associated closing policy
  have along := (traced.reaches .start).2
  apply Prog.Along.bind
  apply along.weaken
  intro result h ended
  cases result with
  | ok outcome => exact ended
  | error reason => exact fun _ impossible => nomatch impossible

theorem closeRoot_close {id : String} (root : closeRoot mode closing = some id) : mode = .close := by
  unfold closeRoot at root
  split at root
  · nomatch root
  · rename_i close
    exact not_not.mp close

end Finalize

/-- Whatever the host answers, a move is requested only with its evidence in the history, and the
directory is reported free only after it was seen to be. -/
theorem moves_justified (canonical : String → String) (mode : CleanupMode) (directory : String)
    (associated : List String) (closing : Option String) (policy : MovePolicy) {h : HostHistory}
    {q : Prog HostOp HostOp.Ret FamilyOutcome}
    (reaches : Reaches (finalizeFamilyWith canonical mode directory associated closing policy) h q) :
    (∀ later id destination r before, h = later ++ ⟨.moveSession id destination, r⟩ :: before →
      MoveJustified canonical directory (closeRoot mode closing) mode (familyOf mode associated closing)
        before id destination) ∧
    (∀ sessions, q = .done (.released sessions) →
      Freed canonical directory (closeRoot mode closing) (familyOf mode associated closing) h) ∧
    ∀ id, closeRoot mode closing = some id → mode = .close := by
  obtain ⟨guarded, along⟩ := (along_finalizeFamilyWith associated closing policy).reaches reaches
  refine ⟨?_, ?_, fun id root => closeRoot_close closing root⟩
  · rintro later id destination r before rfl
    exact guarded.needs
  · rintro sessions rfl
    exact along sessions rfl

section Runs

def hostOf (place : HostHistory → String) (running : List String) (h : HostHistory) :
    (op : HostOp) → op.Ret
  | .session id => .ok ⟨id, place h, none⟩
  | .list .. => .ok ⟨if place h = "/wt" then [⟨"ses_a", "/wt", none⟩] else [], none⟩
  | .moveSession .. => .ok ()
  | .activeSessions => .ok running
  | .resolveMainCheckout => .ok "/main"
  | .budgetExpired => false
  | .budgetRemaining => 0
  | .poll _ => ()

def movesOnRequest (h : HostHistory) : String := if movedIn h = [] then "/wt" else "/main"

theorem prune_frees : ∃ h, Freed id "/wt" none ["ses_a"] h ∧ movedIn h = ["ses_a"] := by
  have released : ((finalizeFamilyWith id .prune "/wt" ["ses_a"] none .noWait).against
      (hostOf movesOnRequest []) []).1 = .released ["ses_a"] := by decide
  have reached := Prog.reaches_against (hostOf movesOnRequest [])
    (finalizeFamilyWith id .prune "/wt" ["ses_a"] none .noWait)
  rw [released] at reached
  exact ⟨_, (moves_justified id .prune "/wt" ["ses_a"] none .noWait reached).2.1 _ rfl, by decide⟩

def latestSession : HostHistory → Option LocatedSession
  | [] => none
  | ⟨.session _, .ok located⟩ :: _ => some located
  | _ :: older => latestSession older

def answersBeforeMoves : HostHistory → List (String × Option LocatedSession)
  | [] => []
  | ⟨.moveSession id _, _⟩ :: older => (id, latestSession older) :: answersBeforeMoves older
  | _ :: older => answersBeforeMoves older

def wanders (h : HostHistory) : String :=
  if (h.filter fun act => act.effect = .session "ses_a").length = 3 then "/elsewhere" else "/wt"

/-- The closing session is exempt from the running check, whose own lookup may place it elsewhere
right before its move. -/
theorem moved_from_elsewhere :
    ¬∀ (canonical : String → String) (mode : CleanupMode) (directory : String)
      (associated : List String) (closing : Option String) (policy : MovePolicy) (h : HostHistory)
      (q : Prog HostOp HostOp.Ret FamilyOutcome),
      Reaches (finalizeFamilyWith canonical mode directory associated closing policy) h q →
        ∀ move ∈ answersBeforeMoves h, ∃ located, move.2 = some located ∧ located.id = move.1 ∧
          sameDirectory canonical located.directory directory = true := by
  intro claimed
  have reached := Prog.reaches_against (hostOf wanders ["ses_a"])
    (finalizeFamilyWith id .close "/wt" ["ses_a"] (some "ses_a") .noWait)
  have requested : ("ses_a", some ⟨"ses_a", "/elsewhere", none⟩) ∈ answersBeforeMoves
      ((finalizeFamilyWith id .close "/wt" ["ses_a"] (some "ses_a") .noWait).against
        (hostOf wanders ["ses_a"]) []).2 := by decide
  obtain ⟨located, same, _, here⟩ := claimed _ _ _ _ _ _ _ _ reached _ requested
  cases same
  exact absurd here (by decide)

end Runs

end Phasegent.Cleanup
