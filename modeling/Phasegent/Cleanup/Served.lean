import Phasegent.Cleanup.Moves
import Phasegent.Sql.Transaction

namespace Phasegent.Cleanup
open Fallible Interleaving Sql

abbrev AbsolutePath := { path : String // isAbsolute path = true }

structure HostSession where
  id : String
  directory : AbsolutePath
  parent : Option String
  running : Bool
  deriving DecidableEq

def HostSession.located (session : HostSession) : LocatedSession :=
  ⟨session.id, session.directory.1, session.parent⟩

def HostSession.placed (moved : List String) (destination : AbsolutePath) (session : HostSession) :
    HostSession :=
  if session.id ∈ moved then { session with directory := destination } else session

@[simp] theorem HostSession.placed_id (moved : List String) (destination : AbsolutePath)
    (session : HostSession) : (session.placed moved destination).id = session.id := by
  unfold placed
  split <;> rfl

@[simp] theorem HostSession.placed_parent (moved : List String) (destination : AbsolutePath)
    (session : HostSession) : (session.placed moved destination).parent = session.parent := by
  unfold placed
  split <;> rfl

@[simp] theorem HostSession.placed_running (moved : List String) (destination : AbsolutePath)
    (session : HostSession) : (session.placed moved destination).running = session.running := by
  unfold placed
  split <;> rfl

structure SessionHost where
  sessions : List HostSession
  ids : (sessions.map (·.id)).Nodup

namespace SessionHost

def find (host : SessionHost) (id : String) : Option HostSession :=
  host.sessions.find? (·.id == id)

def relocate (host : SessionHost) (moved : List String) (destination : AbsolutePath) :
    SessionHost where
  sessions := host.sessions.map (·.placed moved destination)
  ids := by simpa [List.map_map, Function.comp_def] using host.ids

theorem same_session {host : SessionHost} {a b : HostSession} (first : a ∈ host.sessions)
    (second : b ∈ host.sessions) (same : a.id = b.id) : a = b :=
  List.inj_on_of_nodup_map host.ids first second same

theorem find_of_mem {host : SessionHost} {session : HostSession} (member : session ∈ host.sessions) :
    host.find session.id = some session := by
  cases found : host.find session.id with
  | none =>
      have none := List.find?_eq_none.mp found session member
      exact absurd (beq_self_eq_true session.id) none
  | some other =>
      have id : (other.id == session.id) = true :=
        List.find?_some (p := fun other : HostSession => other.id == session.id) found
      exact congrArg some (same_session (List.mem_of_find?_eq_some found) member (beq_iff_eq.mp id))

theorem mem_of_find {host : SessionHost} {id : String} {session : HostSession}
    (found : host.find id = some session) : session ∈ host.sessions ∧ session.id = id := by
  have same : (session.id == id) = true :=
    List.find?_some (p := fun session : HostSession => session.id == id) found
  exact ⟨List.mem_of_find?_eq_some found, beq_iff_eq.mp same⟩

theorem find_relocate (host : SessionHost) (moved : List String) (destination : AbsolutePath)
    (id : String) :
    (host.relocate moved destination).find id = (host.find id).map (·.placed moved destination) := by
  rw [find, relocate, List.find?_map]
  simp [find]

theorem relocate_nil (host : SessionHost) (destination : AbsolutePath) :
    host.relocate [] destination = host := by
  cases host
  simp [relocate, HostSession.placed]

theorem relocate_relocate (host : SessionHost) (moved : List String) (id : String)
    (destination : AbsolutePath) :
    (host.relocate moved destination).relocate [id] destination =
      host.relocate (moved ++ [id]) destination := by
  simp only [relocate, List.map_map, mk.injEq]
  apply List.map_congr_left
  intro session _
  by_cases now : session.id = id
  · subst now
    by_cases before : session.id ∈ moved <;> simp [HostSession.placed, before]
  · by_cases before : session.id ∈ moved <;> simp [HostSession.placed, before, now]

end SessionHost

-- What a host is free to choose, and what the assessment asks elsewhere.
structure HostService where
  page : SessionHost → Option String → SessionPage
  active : SessionHost → List String
  unknown : String → ApiError
  target : Except String AbsolutePath
  expired : Bool
  remaining : Nat

/-- The host answers from the sessions that it knows, and a move takes effect at once. -/
def serve (service : HostService) (host : SessionHost) : (op : HostOp) → op.Ret × SessionHost
  | .session id =>
      (match host.find id with
        | some session => .ok session.located
        | none => .error (service.unknown id), host)
  | .list _ cursor => (.ok (service.page host cursor), host)
  | .moveSession id destination =>
      if absolute : isAbsolute destination = true then
        match host.find id with
        | some _ => (.ok (), host.relocate [id] ⟨destination, absolute⟩)
        | none => (.error (service.unknown id), host)
      else (.error (service.unknown id), host)
  | .activeSessions => (.ok (service.active host), host)
  | .resolveMainCheckout => (service.target.map Subtype.val, host)
  | .budgetExpired => (service.expired, host)
  | .budgetRemaining => (service.remaining, host)
  | .poll _ => ((), host)

inductive Serves (page : Option String → SessionPage) :
    Nat → List String → Option String → List LocatedSession → Prop
  | last {pages : Nat} {followed : List String} {cursor : Option String}
      (final : (page cursor).nextCursor = none) :
      Serves page (pages + 1) followed cursor (page cursor).sessions
  | more {pages : Nat} {followed : List String} {cursor : Option String} {next : String}
      {rest : List LocatedSession} (continued : (page cursor).nextCursor = some next)
      (fresh : next ∉ followed) (following : Serves page pages (followed ++ [next]) (some next) rest) :
      Serves page (pages + 1) followed cursor ((page cursor).sessions ++ rest)

/-- Whatever has been moved, the host lists all its sessions within the page limit and reports
exactly its running ones. -/
structure Consistent (service : HostService) (host : SessionHost) : Prop where
  listed : ∀ moved destination, ∃ listed,
    Serves (service.page (host.relocate moved destination)) maxListPages [] none listed ∧
      ∀ occupant, occupant ∈ listed ↔
        ∃ session ∈ (host.relocate moved destination).sessions, session.located = occupant
  active : ∀ moved destination id, id ∈ service.active (host.relocate moved destination) ↔
    ∃ session ∈ (host.relocate moved destination).sessions, session.id = id ∧ session.running

theorem serve_looks (service : HostService) (host : SessionHost) (op : HostOp) (looks : op.Looks) :
    (serve service host op).2 = host := by
  cases op <;> first | rfl | exact looks.elim

section Lookups
variable {service : HostService} {host : SessionHost} {ε α β : Type}

theorem host_bind {p : Attempt HostOp HostOp.Ret ε α} (reads : Performs HostOp.Looks p)
    (f : α → Attempt HostOp HostOp.Ret ε β) :
    look (serve service) (p >>= f) host =
      look (serve service) p host >>= fun a => look (serve service) (f a) host :=
  look_bind (serve_looks service) reads f host

theorem host_bind_ok {p : Attempt HostOp HostOp.Ret ε α} (reads : Performs HostOp.Looks p)
    {f : α → Attempt HostOp HostOp.Ret ε β} {b : β}
    (ran : look (serve service) (p >>= f) host = .ok b) :
    ∃ a, look (serve service) p host = .ok a ∧ look (serve service) (f a) host = .ok b := by
  rw [host_bind reads] at ran
  exact bind_eq_ok.mp ran

theorem host_bind_eq {p : Attempt HostOp HostOp.Ret ε α} (reads : Performs HostOp.Looks p)
    {f : α → Attempt HostOp HostOp.Ret ε β} {a : α} (ran : look (serve service) p host = .ok a) :
    look (serve service) (p >>= f) host = look (serve service) (f a) host := by
  rw [host_bind reads, ran]
  rfl

theorem host_bind_error {p : Attempt HostOp HostOp.Ret ε α} (reads : Performs HostOp.Looks p)
    {f : α → Attempt HostOp HostOp.Ret ε β} {e : ε}
    (ran : look (serve service) p host = .error e) :
    look (serve service) (p >>= f) host = .error e := by
  rw [host_bind reads, ran]
  rfl

theorem look_request (op : HostOp) (decode : op.Ret → Except ε α) :
    look (serve service) (request op decode) host = decode (serve service host op).1 := rfl

theorem look_fromExcept (x : Except ε α) :
    look (serve service) (fromExcept x : Attempt HostOp HostOp.Ret ε α) host = x := rfl

theorem performs_locate (texts : LookupTexts) (id : String) :
    Performs HostOp.Looks (locate texts id) := by
  apply performs_bind
  · exact performs_request trivial
  · exact fun _ => performs_fromExcept _

theorem admitLocated_located (texts : LookupTexts) (session : HostSession) :
    admitLocated texts session.id session.located = .ok session.located := by
  have named : session.located.id = session.id := rfl
  have absolute : isAbsolute session.located.directory = true := session.directory.2
  simp [admitLocated, refuse, named, absolute, bind, Except.bind, pure, Except.pure]

theorem look_locate (texts : LookupTexts) (id : String) :
    look (serve service) (locate texts id) host =
      match host.find id with
      | some session => .ok session.located
      | none => .error (texts.failed (service.unknown id)) := by
  have asked : look (serve service)
      (request (.session id) (·.mapError texts.failed) : HostM LocatedSession) host =
        (serve service host (.session id)).1.mapError texts.failed := rfl
  have looks : Performs HostOp.Looks
      (request (.session id) (·.mapError texts.failed) : HostM LocatedSession) :=
    performs_request trivial
  cases found : host.find id with
  | none =>
      simp only [serve, found, Except.mapError] at asked
      exact host_bind_error looks asked
  | some session =>
      simp only [serve, found, Except.mapError] at asked
      obtain ⟨-, rfl⟩ := SessionHost.mem_of_find found
      rw [locate, host_bind_eq looks asked, look_fromExcept, admitLocated_located]

theorem locateAll_ok {texts : String → LookupTexts} {ids : List String}
    {found : List LocatedSession}
    (ran : look (serve service) (locateAll texts ids) host = .ok found) :
    (∀ id ∈ ids, ∃ session ∈ host.sessions, session.id = id ∧ session.located ∈ found) ∧
      ∀ located ∈ found, ∃ session ∈ host.sessions, session.located = located ∧ session.id ∈ ids := by
  induction ids generalizing found with
  | nil =>
      cases ran
      simp
  | cons id rest ih =>
      obtain ⟨located, first, ran⟩ := host_bind_ok (performs_locate _ _) ran
      obtain ⟨others, later, last⟩ := host_bind_ok (performs_locateAll texts rest) ran
      cases last
      rw [look_locate] at first
      cases known : host.find id with
      | none =>
          rw [known] at first
          cases first
      | some session =>
          rw [known] at first
          cases first
          obtain ⟨member, rfl⟩ := SessionHost.mem_of_find known
          obtain ⟨answered, listed⟩ := ih later
          constructor
          · intro other among
            cases among with
            | head => exact ⟨session, member, rfl, List.mem_cons_self⟩
            | tail _ among =>
                obtain ⟨session', member', same, inside⟩ := answered other among
                exact ⟨session', member', same, .tail _ inside⟩
          · intro other among
            cases among with
            | head => exact ⟨session, member, rfl, List.mem_cons_self⟩
            | tail _ among =>
                obtain ⟨session', member', same, inside⟩ := listed other among
                exact ⟨session', member', same, .tail _ inside⟩

theorem locateAll_total (service : HostService) (texts : String → LookupTexts) {ids : List String}
    (known : ∀ id ∈ ids, ∃ session ∈ host.sessions, session.id = id) :
    ∃ found, look (serve service) (locateAll texts ids) host = .ok found := by
  induction ids with
  | nil => exact ⟨[], rfl⟩
  | cons id rest ih =>
      obtain ⟨⟨session, member, rfl⟩, rest'⟩ := List.forall_mem_cons.mp known
      obtain ⟨others, later⟩ := ih rest'
      refine ⟨session.located :: others, ?_⟩
      have first : look (serve service) (locate (texts session.id) session.id) host =
          .ok session.located := by
        rw [look_locate, SessionHost.find_of_mem member]
      rw [locateAll, host_bind_eq (performs_locate _ _) first,
        host_bind_eq (performs_locateAll texts rest) later]
      rfl

theorem look_climb_relocate (id : String) (family : List String) (moved : List String)
    (destination : AbsolutePath) (edges : Nat) (visited : List String) (parent : String) :
    look (serve service) (climb id family edges visited parent) (host.relocate moved destination) =
      look (serve service) (climb id family edges visited parent) host := by
  induction edges generalizing visited parent with
  | zero => rfl
  | succ edges ih =>
      rw [climb, host_bind (performs_fromExcept _), host_bind (performs_fromExcept _)]
      congr 1
      funext _
      split
      · rfl
      · rw [host_bind (performs_fromExcept _), host_bind (performs_fromExcept _)]
        congr 1
        funext _
        rw [host_bind (performs_locate _ _), host_bind (performs_locate _ _), look_locate,
          look_locate, SessionHost.find_relocate]
        cases host.find parent with
        | none => rfl
        | some session =>
            have above : (session.placed moved destination).located.parentId =
                session.located.parentId :=
              HostSession.placed_parent moved destination session
            simp only [Option.map_some, bind, Except.bind, above]
            cases session.located.parentId with
            | none => rfl
            | some next => exact ih (parent :: visited) next

theorem look_lineage_relocate (id : String) (start : Option String) (family moved : List String)
    (destination : AbsolutePath) :
    look (serve service) (lineage id start family) (host.relocate moved destination) =
      look (serve service) (lineage id start family) host := by
  cases start with
  | none => rfl
  | some parent => exact look_climb_relocate id family moved destination maxParentEdges [id] parent

end Lookups

theorem checkAll_of_forall {α : Type} {check : α → Except String Unit} {l : List α}
    (passes : ∀ a ∈ l, check a = .ok ()) : checkAll check l = .ok () := by
  induction l with
  | nil => rfl
  | cons a rest ih =>
      obtain ⟨first, others⟩ := List.forall_mem_cons.mp passes
      rw [checkAll, first]
      exact ih others

section Listing
variable {service : HostService} {host : SessionHost}

theorem performs_listPage (cursor : Option String) : Performs HostOp.Looks (listPage cursor) :=
  performs_request trivial

theorem performs_listing : Performs HostOp.Looks
    (renameFailure incomplete allSessions : HostM (List LocatedSession)) :=
  performs_renameFailure (performs_walkPages _ _ _)

theorem look_walkPages {pages : Nat} {followed : List String} {cursor : Option String}
    {listed : List LocatedSession} (serves : Serves (service.page host) pages followed cursor listed) :
    look (serve service) (walkPages pages followed cursor) host = .ok listed := by
  have page : ∀ cursor, look (serve service) (listPage cursor) host = .ok (service.page host cursor) :=
    fun _ => rfl
  induction serves with
  | last final =>
      rw [walkPages, host_bind_eq (performs_listPage _) (page _), final]
      rfl
  | @more pages followed cursor next rest continued fresh following ih =>
      rw [walkPages, host_bind_eq (performs_listPage _) (page _), continued]
      simp only [List.contains_iff_mem, fresh, if_false]
      rw [host_bind_eq (performs_walkPages pages _ _) ih]
      rfl

theorem performs_occupants (canonical : String → String) (directory : String) :
    Performs HostOp.Looks (occupantsOfDirectory canonical directory) :=
  performs_bind performs_listing fun _ => performs_pure _

theorem look_occupants (canonical : String → String) (directory : String)
    {listed : List LocatedSession}
    (serves : Serves (service.page host) maxListPages [] none listed) :
    look (serve service) (occupantsOfDirectory canonical directory) host =
      .ok (listed.filter fun session => sameDirectory canonical session.directory directory) := by
  have whole : look (serve service) (renameFailure incomplete allSessions : HostM _) host =
      .ok listed := by
    rw [look_renameFailure, allSessions, look_walkPages serves]
    rfl
  rw [occupantsOfDirectory, host_bind_eq performs_listing whole]
  rfl

def askActive : HostM (List String) :=
  request .activeSessions
    (·.mapError fun error => "the running-session query failed: " ++ bounded error.message)

theorem performs_askActive : Performs HostOp.Looks askActive := performs_request trivial

theorem performs_runningSessions : Performs HostOp.Looks runningSessions :=
  performs_bind performs_askActive fun _ => performs_locateAll runningTexts _

variable {canonical : String → String} {directory : String}

def ReportsRunning (service : HostService) (host : SessionHost) : Prop :=
  ∀ id, id ∈ service.active host ↔ ∃ session ∈ host.sessions, session.id = id ∧ session.running

theorem look_active : look (serve service) askActive host = .ok (service.active host) := rfl

theorem runningBlocker_passes (reports : ReportsRunning service host) {intended : Option String}
    {already : List String}
    (harmless : ∀ session ∈ host.sessions, session.running →
      runningBlockerOf canonical directory none intended already session.located = .ok ()) :
    look (serve service) (runningBlocker canonical directory none intended already) host = .ok () := by
  have known : ∀ id ∈ distinct [] (service.active host), ∃ session ∈ host.sessions,
      session.id = id := by
    intro id among
    obtain ⟨session, member, same, -⟩ := (reports id).mp (mem_distinct.mp among).1
    exact ⟨session, member, same⟩
  obtain ⟨found, located⟩ := locateAll_total service runningTexts known
  have running : look (serve service) runningSessions host = .ok found := by
    exact (host_bind_eq performs_askActive look_active).trans located
  rw [runningBlocker, host_bind_eq performs_runningSessions running, look_fromExcept]
  apply checkAll_of_forall
  intro answer among
  obtain ⟨session, member, rfl, asked⟩ := (locateAll_ok located).2 answer among
  obtain ⟨other, member', same, runs⟩ := (reports _).mp (mem_distinct.mp asked).1
  obtain rfl := SessionHost.same_session member' member same
  exact harmless other member runs

theorem running_elsewhere (reports : ReportsRunning service host)
    (passed : look (serve service) (runningBlocker canonical directory none none []) host = .ok ())
    {session : HostSession} (member : session ∈ host.sessions) (runs : session.running) :
    sameDirectory canonical session.directory.1 directory = false := by
  obtain ⟨found, running, checked⟩ := host_bind_ok performs_runningSessions passed
  obtain ⟨ids, asked, located⟩ := host_bind_ok performs_askActive running
  cases look_active.symm.trans asked
  have among : session.id ∈ distinct [] (service.active host) :=
    mem_distinct.mpr ⟨(reports _).mpr ⟨session, member, rfl, runs⟩, List.not_mem_nil⟩
  obtain ⟨other, member', same, inside⟩ := (locateAll_ok located).1 _ among
  obtain rfl := SessionHost.same_session member' member same
  have passes := checkAll_ok checked _ inside
  simp only [runningBlockerOf, reduceCtorEq, if_false, bind_eq_ok, refuse_eq_ok] at passes
  obtain ⟨_, -, _, -, away⟩ := passes
  exact Bool.eq_false_iff.mpr away

end Listing

end Phasegent.Cleanup
