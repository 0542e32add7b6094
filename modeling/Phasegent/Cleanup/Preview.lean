import Phasegent.Cleanup.Served

namespace Phasegent.Cleanup
open Fallible Interleaving Sql

section Hosted
variable {canonical : String → String} {directory : String}

theorem destutter_covers {rows : List (String × Option String)} {row : String × Option String}
    (member : row ∈ rows) :
    ∃ kept ∈ rows.destutter fun left right => left.1 ≠ right.1, kept.1 = row.1 := by
  have covers : ∀ (rest : List (String × Option String)) (first row : String × Option String),
      row ∈ first :: rest →
        ∃ kept ∈ List.destutter' (fun left right : String × Option String => left.1 ≠ right.1) first
          rest, kept.1 = row.1 := by
    intro rest
    induction rest with
    | nil =>
        intro first row among
        exact ⟨first, by simp, by rw [List.mem_singleton.mp among]⟩
    | cons second rest ih =>
        intro first row among
        by_cases apart : first.1 ≠ second.1
        · rw [List.destutter'_cons_pos (R := fun left right : String × Option String => left.1 ≠ right.1) _ apart]
          cases among with
          | head => exact ⟨first, List.mem_cons_self, rfl⟩
          | tail _ later =>
              obtain ⟨kept, inside, same⟩ := ih second row later
              exact ⟨kept, .tail _ inside, same⟩
        · rw [List.destutter'_cons_neg (R := fun left right : String × Option String => left.1 ≠ right.1) _ apart]
          cases among with
          | head => exact ih first first List.mem_cons_self
          | tail _ later =>
              cases later with
              | head =>
                  obtain ⟨kept, inside, same⟩ := ih first first List.mem_cons_self
                  exact ⟨kept, inside, same.trans (not_not.mp apart)⟩
              | tail _ later => exact ih first row (.tail _ later)
  cases rows with
  | nil => cases member
  | cons first rest => exact covers rest first row member

theorem mem_hostedSessions {occupants roots : List LocatedSession} {row : String × Option String}
    (member : row ∈ hostedSessions canonical directory occupants roots) :
    (∃ occupant ∈ occupants, row = (occupant.id, occupant.parentId)) ∨
      ∃ root ∈ roots, sameDirectory canonical root.directory directory = true ∧
        row = (root.id, none) := by
  have listed := (List.destutter_sublist _ _).mem member
  rw [List.mem_insertionSort, List.mem_append] at listed
  cases listed with
  | inl occupied =>
      obtain ⟨occupant, among, rfl⟩ := List.mem_map.mp occupied
      exact .inl ⟨occupant, among, rfl⟩
  | inr rooted =>
      obtain ⟨root, among, rfl⟩ := List.mem_map.mp rooted
      obtain ⟨among, here⟩ := List.mem_filter.mp among
      exact .inr ⟨root, among, here, rfl⟩

theorem hostedSessions_covers {occupants roots : List LocatedSession} {occupant : LocatedSession}
    (member : occupant ∈ occupants) :
    occupant.id ∈ (hostedSessions canonical directory occupants roots).map Prod.fst := by
  have listed : (occupant.id, occupant.parentId) ∈ List.insertionSort hostedBefore
      (occupants.map (fun occupant => (occupant.id, occupant.parentId)) ++
        (roots.filter fun root => sameDirectory canonical root.directory directory).map
          fun root => (root.id, none)) := by
    rw [List.mem_insertionSort, List.mem_append]
    exact .inl (List.mem_map_of_mem member)
  obtain ⟨kept, inside, same⟩ := destutter_covers listed
  exact List.mem_map.mpr ⟨kept, inside, same⟩

variable {service : HostService} {host : SessionHost}

theorem performs_relating (family : List String) (row : String × Option String) :
    Performs HostOp.Looks
      (if family.contains row.1 then return true else lineage row.1 row.2 family : HostM Bool) := by
  split
  · exact performs_pure true
  · exact performs_lineage row.1 row.2

theorem performs_relate (family : List String) (hosted : List (String × Option String)) :
    Performs HostOp.Looks (relate family hosted) := by
  induction hosted with
  | nil => exact performs_pure []
  | cons row rest ih =>
      apply performs_bind (performs_relating family row)
      intro related
      apply performs_bind (performs_fromExcept _)
      exact fun _ => performs_bind ih fun _ => performs_pure _

theorem relate_ok {family : List String} {hosted : List (String × Option String)}
    {movable : List String}
    (ran : look (serve service) (relate family hosted) host = .ok movable) :
    movable = hosted.map Prod.fst ∧ ∀ row ∈ hosted, row.1 ∉ family →
      look (serve service) (lineage row.1 row.2 family) host = .ok true := by
  induction hosted generalizing movable with
  | nil =>
      cases ran
      simp
  | cons row rest ih =>
      obtain ⟨related, proven, ran⟩ := host_bind_ok (performs_relating family row) ran
      obtain ⟨_, checked, ran⟩ := host_bind_ok (performs_fromExcept _) ran
      obtain ⟨others, later, last⟩ := host_bind_ok (performs_relate family rest) ran
      cases last
      obtain ⟨rfl, onward⟩ := ih later
      refine ⟨rfl, List.forall_mem_cons.mpr ⟨?_, onward⟩⟩
      intro outside
      rw [look_fromExcept, refuse_eq_ok, Bool.not_eq_false] at checked
      rw [if_neg (by simpa using outside), checked] at proven
      exact proven

end Hosted

/-- What the shared assessment establishes about the sessions that are to be returned. -/
structure Returnable (service : HostService) (canonical : String → String) (directory : String)
    (family : List String) (host : SessionHost) (movable : List String) : Prop where
  distinct : movable.Nodup
  here : ∀ id ∈ movable, ∃ session ∈ host.sessions, session.id = id ∧
    sameDirectory canonical session.directory.1 directory = true
  every : ∀ session ∈ host.sessions, sameDirectory canonical session.directory.1 directory = true →
    session.id ∈ movable
  idle : ∀ session ∈ host.sessions, session.running →
    sameDirectory canonical session.directory.1 directory = false
  roots : ∀ root ∈ family, ∃ session ∈ host.sessions, session.id = root
  related : ∀ session ∈ host.sessions, session.id ∈ movable → session.id ∉ family →
    look (serve service) (lineage session.id session.parent family) host = .ok true

section Return
variable {service : HostService} {canonical : String → String} {directory : String}
  {family : List String} {host : SessionHost} {movable : List String}

theorem sameDirectory_apart {left middle right : String}
    (here : sameDirectory canonical left middle = true)
    (apart : sameDirectory canonical middle right = false) :
    sameDirectory canonical left right = false := by
  unfold sameDirectory at *
  rwa [beq_iff_eq.mp here]

theorem SessionHost.mem_relocate {moved : List String} {destination : AbsolutePath}
    {session : HostSession} : session ∈ (host.relocate moved destination).sessions ↔
      ∃ old ∈ host.sessions, old.placed moved destination = session :=
  List.mem_map

theorem HostSession.placed_of_not_mem {moved : List String} {destination : AbsolutePath}
    {session : HostSession} (stays : session.id ∉ moved) :
    session.placed moved destination = session :=
  if_neg stays

theorem HostSession.placed_of_mem {moved : List String} {destination : AbsolutePath}
    {session : HostSession} (moves : session.id ∈ moved) :
    session.placed moved destination = { session with directory := destination } :=
  if_pos moves

theorem Returnable.unmoved (returnable : Returnable service canonical directory family host movable)
    {session : HostSession} (member : session ∈ host.sessions) (runs : session.running) :
    session.id ∉ movable := by
  intro among
  obtain ⟨other, member', same, here⟩ := returnable.here _ among
  obtain rfl := SessionHost.same_session member' member same
  rw [returnable.idle other member runs] at here
  cases here

theorem Returnable.check_passes (returnable : Returnable service canonical directory family host movable)
    (consistent : Consistent service host) (destination : AbsolutePath) (intended : Option String)
    {accepted : List String} (inside : ∀ id ∈ accepted, id ∈ movable)
    (family' : ∀ id, intended = some id → id ∈ movable) :
    look (serve service) (runningBlocker canonical directory none intended accepted)
      (host.relocate accepted destination) = .ok () := by
  apply runningBlocker_passes (consistent.active accepted destination)
  intro session member runs
  obtain ⟨old, known, rfl⟩ := SessionHost.mem_relocate.mp member
  rw [HostSession.placed_running] at runs
  have outside := returnable.unmoved known runs
  have stays : old.id ∉ accepted := fun among => outside (inside _ among)
  have unintended : intended ≠ some old.id := fun same => outside (family' _ same)
  have away := returnable.idle old known runs
  rw [HostSession.placed_of_not_mem stays]
  simp [runningBlockerOf, HostSession.located, refuse, unintended, stays, away, bind, Except.bind]

theorem execute_ok {p : HostM α} {a : α} {host : SessionHost} (reads : Performs HostOp.Looks p)
    (ran : look (serve service) p host = .ok a) :
    execute (serve service) p.run host = (.ok a, host) := by
  rw [execute_reading (serve_looks service) reads, ran]

theorem performs_proveMember (id : String) (located : LocatedSession) :
    Performs HostOp.Looks (proveMember family id located) := by
  unfold proveMember
  split
  · exact performs_pure ()
  · exact performs_bind (performs_lineage id _) fun _ => performs_fromExcept _

theorem Returnable.member_proven
    (returnable : Returnable service canonical directory family host movable)
    {session : HostSession} (member : session ∈ host.sessions) (among : session.id ∈ movable)
    (moved : List String) (destination : AbsolutePath) :
    look (serve service) (proveMember family session.id session.located)
      (host.relocate moved destination) = .ok () := by
  unfold proveMember
  by_cases root : session.id ∈ family
  · rw [if_pos (by simpa using root)]
    rfl
  · have related : look (serve service) (lineage session.id session.located.parentId family)
        (host.relocate moved destination) = .ok true := by
      rw [look_lineage_relocate]
      exact returnable.related session member among root
    rw [if_neg (by simpa using root), host_bind_eq (performs_lineage _ _) related]
    rfl

theorem execute_move (service : HostService) {session : HostSession} (member : session ∈ host.sessions)
    (destination : AbsolutePath) (decode : Except ApiError Unit → Except String Unit) :
    execute (serve service) (request (.moveSession session.id destination.1) decode : HostM Unit).run
      host = (decode (.ok ()), host.relocate [session.id] destination) := by
  rw [execute_request]
  simp [serve, destination.2, SessionHost.find_of_mem member]

theorem look_observe (service : HostService) (old : String) {session : HostSession}
    (member : session ∈ host.sessions) {destination : String}
    (arrived : sameDirectory canonical session.directory.1 destination = true) :
    look (serve service) (observe canonical session.id old destination) host = .ok false := by
  have asked : look (serve service) (request (.session session.id) (·.mapError fun error =>
      "the OpenCode session '" ++ session.id ++ "' could not be confirmed after the move request: " ++
        Lease.bounded error.message) : HostM LocatedSession) host = .ok session.located := by
    rw [look_request]
    simp [serve, SessionHost.find_of_mem member, Except.mapError]
  have named : session.located.id = session.id := rfl
  have absolute : isAbsolute session.located.directory = true := session.directory.2
  have arrived' : sameDirectory canonical session.located.directory destination = true := arrived
  have reads : Performs HostOp.Looks (request (.session session.id) (·.mapError fun error =>
      "the OpenCode session '" ++ session.id ++ "' could not be confirmed after the move request: " ++
        Lease.bounded error.message) : HostM LocatedSession) := performs_request trivial
  rw [observe, host_bind_eq reads asked, look_fromExcept]
  simp [placement, refuse, named, absolute, arrived', bind, Except.bind, pure, Except.pure]

theorem execute_past {β : Type} {x : Except String α} {a : α} (passes : x = .ok a) (f : α → HostM β)
    (host : SessionHost) : execute (serve service) (fromExcept x >>= f).run host =
      execute (serve service) (f a).run host := by
  subst passes
  exact execute_bind_ok (execute_fromExcept _)

theorem execute_requestMove
    (returnable : Returnable service canonical directory family host movable)
    (consistent : Consistent service host) (destination : AbsolutePath) {session : HostSession}
    {accepted : List String} (inside : ∀ id ∈ accepted, id ∈ movable)
    (member : session ∈ host.sessions) (among : session.id ∈ movable)
    (fresh : session.id ∉ accepted) :
    execute (serve service)
      (requestMove canonical directory none destination.1 session.id ⟨accepted, []⟩).run
      (host.relocate accepted destination) =
        (.ok ⟨accepted ++ [session.id], []⟩, host.relocate (accepted ++ [session.id]) destination) := by
  have idle := returnable.check_passes consistent destination (some session.id) inside
    fun id same => Option.some.inj same ▸ among
  have stays : session ∈ (host.relocate accepted destination).sessions :=
    SessionHost.mem_relocate.mpr ⟨session, member, HostSession.placed_of_not_mem fresh⟩
  have moved : { session with directory := destination } ∈
      (host.relocate (accepted ++ [session.id]) destination).sessions :=
    SessionHost.mem_relocate.mpr ⟨session, member, HostSession.placed_of_mem (by simp)⟩
  have arrived : sameDirectory canonical destination.1 destination.1 = true := beq_self_eq_true _
  have observed := look_observe service directory moved arrived
  have accepts := execute_move service stays destination
    (·.mapError fun error => "moving the OpenCode session '" ++ session.id ++ "' failed: " ++
      bounded error.message)
  rw [SessionHost.relocate_relocate] at accepts
  rw [requestMove, execute_bind_ok (execute_ok (performs_runningBlocker _ _) idle),
    execute_bind_ok accepts, execute_bind_ok (execute_ok performs_observe observed)]
  rfl

theorem execute_returnSession
    (returnable : Returnable service canonical directory family host movable)
    (consistent : Consistent service host) {destination : AbsolutePath}
    (elsewhere : sameDirectory canonical directory destination.1 = false) {id : String}
    {accepted : List String} (inside : ∀ id ∈ accepted, id ∈ movable) (among : id ∈ movable)
    (fresh : id ∉ accepted) :
    execute (serve service)
      (returnSession canonical directory family none destination.1 id ⟨accepted, []⟩).run
      (host.relocate accepted destination) =
        (.ok ⟨accepted ++ [id], []⟩, host.relocate (accepted ++ [id]) destination) := by
  obtain ⟨session, member, rfl, here⟩ := returnable.here id among
  have stays : session ∈ (host.relocate accepted destination).sessions :=
    SessionHost.mem_relocate.mpr ⟨session, member, HostSession.placed_of_not_mem fresh⟩
  have located : look (serve service) (locate (moveTexts session.id) session.id)
      (host.relocate accepted destination) = .ok session.located := by
    rw [look_locate, SessionHost.find_of_mem stays]
  have proven := returnable.member_proven member among accepted destination
  have away : sameDirectory canonical session.located.directory destination.1 = false :=
    sameDirectory_apart here elsewhere
  have inPlace : ¬sameDirectory canonical session.located.directory directory = false :=
    Bool.not_eq_false _ ▸ here
  rw [returnSession, execute_bind_ok (execute_ok (performs_locate _ _) located),
    execute_bind_ok (execute_ok (performs_proveMember _ _) proven), away, if_neg Bool.false_ne_true,
    execute_past (refuse_of_not inPlace)]
  exact execute_requestMove returnable consistent destination inside member among fresh

theorem execute_returnSessions
    (returnable : Returnable service canonical directory family host movable)
    (consistent : Consistent service host) {destination : AbsolutePath}
    (elsewhere : sameDirectory canonical directory destination.1 = false)
    {accepted rest : List String} (whole : accepted ++ rest = movable) :
    execute (serve service)
      (returnSessions canonical directory family none destination.1 rest ⟨accepted, []⟩).run
      (host.relocate accepted destination) =
        (.ok ⟨movable, []⟩, host.relocate movable destination) := by
  induction rest generalizing accepted with
  | nil =>
      rw [List.append_nil] at whole
      subst whole
      rfl
  | cons id rest ih =>
      have among : id ∈ movable := whole ▸ List.mem_append_right _ List.mem_cons_self
      have inside : ∀ id ∈ accepted, id ∈ movable := fun id old => whole ▸ List.mem_append_left _ old
      have fresh : id ∉ accepted := by
        have distinct := whole ▸ returnable.distinct
        intro old
        exact (List.disjoint_of_nodup_append distinct) old List.mem_cons_self
      have first := execute_returnSession returnable consistent elsewhere inside among fresh
      rw [returnSessions, execute_bind_ok first]
      exact ih (by rw [← whole, List.append_assoc, List.singleton_append])

theorem Returnable.vacated (returnable : Returnable service canonical directory family host movable)
    {destination : AbsolutePath} (elsewhere : sameDirectory canonical directory destination.1 = false)
    {session : HostSession} (member : session ∈ (host.relocate movable destination).sessions) :
    sameDirectory canonical session.directory.1 directory = false := by
  obtain ⟨old, known, rfl⟩ := SessionHost.mem_relocate.mp member
  by_cases moved : old.id ∈ movable
  · rw [HostSession.placed_of_mem moved]
    unfold sameDirectory at *
    rw [Bool.beq_comm]
    exact elsewhere
  · rw [HostSession.placed_of_not_mem moved]
    by_contra here
    exact moved (returnable.every old known (Bool.eq_true_of_not_eq_false here))

theorem performs_locateRoots (roots : List String) : Performs HostOp.Looks (locateRoots roots) :=
  performs_locateAll rootTexts roots

theorem performs_resolveMainCheckout : Performs HostOp.Looks resolveMainCheckout :=
  performs_request trivial

theorem execute_releaseFamily
    (returnable : Returnable service canonical directory family host movable)
    (consistent : Consistent service host) {destination : AbsolutePath}
    (target : service.target = .ok destination)
    (elsewhere : sameDirectory canonical directory destination.1 = false) (policy : MovePolicy) :
    look (serve service) (releaseFamily canonical directory family none policy movable) host =
      .ok (.released movable) := by
  have resolved : look (serve service) resolveMainCheckout host = .ok destination.1 := by
    rw [resolveMainCheckout, look_request, serve, target]
    rfl
  have returned := execute_returnSessions returnable consistent elsewhere (List.nil_append movable)
  rw [SessionHost.relocate_nil] at returned
  have waited : execute (serve service) (policy.waitPending canonical directory destination.1
      (runningBlocker canonical directory none none movable) []).run
        (host.relocate movable destination) = (.ok (), host.relocate movable destination) := by
    cases policy with
    | noWait => rfl
    | bounded polls => cases polls <;> rfl
  obtain ⟨listed, serves, occupants⟩ := consistent.listed movable destination
  have empty : listed.filter (fun session => sameDirectory canonical session.directory directory) =
      [] := by
    rw [List.filter_eq_nil_iff]
    intro occupant among
    obtain ⟨session, member, rfl⟩ := (occupants occupant).mp among
    exact Bool.eq_false_iff.mp (returnable.vacated elsewhere member)
  have nobody := look_occupants canonical directory serves
  rw [empty] at nobody
  have known : ∀ root ∈ family, ∃ session ∈ (host.relocate movable destination).sessions,
      session.id = root := by
    intro root inside
    obtain ⟨session, member, same⟩ := returnable.roots root inside
    exact ⟨_, SessionHost.mem_relocate.mpr ⟨session, member, rfl⟩,
      (session.placed_id movable destination).trans same⟩
  obtain ⟨found, located⟩ := locateAll_total service rootTexts known
  have answered : look (serve service) (locateRoots family) (host.relocate movable destination) =
      .ok found := located
  have away : checkAll (rootsElsewhere canonical directory) found = .ok () := by
    apply checkAll_of_forall
    intro root among
    obtain ⟨session, member, rfl, -⟩ := (locateAll_ok located).2 root among
    have vacated := returnable.vacated elsewhere member
    exact refuse_eq_ok.mpr (Bool.eq_false_iff.mp vacated)
  have idle := returnable.check_passes consistent destination none
    (fun id (among : id ∈ movable) => among) fun id same => by cases same
  rw [look, releaseFamily,
    execute_bind_ok (execute_ok performs_resolveMainCheckout resolved), execute_bind_ok returned,
    execute_bind_ok waited, execute_bind_ok (execute_ok (performs_occupants _ _) nobody),
    execute_past (refuse_of_not (not_not.mpr rfl)),
    execute_bind_ok (execute_ok (performs_locateRoots _) answered), execute_past away,
    execute_bind_ok (execute_ok (performs_runningBlocker _ _) idle)]
  rfl

end Return

section Assessment
variable {service : HostService} {canonical : String → String} {directory : String}
  {family : List String} {host : SessionHost}

theorem Consistent.now (consistent : Consistent service host) :
    ReportsRunning service host ∧ ∃ listed,
      Serves (service.page host) maxListPages [] none listed ∧
        ∀ occupant, occupant ∈ listed ↔ ∃ session ∈ host.sessions, session.located = occupant := by
  let anywhere : AbsolutePath := ⟨"/", by decide⟩
  have active := consistent.active [] anywhere
  have listed := consistent.listed [] anywhere
  rw [SessionHost.relocate_nil] at active listed
  exact ⟨active, listed⟩

theorem returnable_of_assessed (reports : ReportsRunning service host)
    {roots listed : List LocatedSession} {movable : List String}
    (occupants : ∀ occupant, occupant ∈ listed ↔
      ∃ session ∈ host.sessions, session.located = occupant)
    (located : look (serve service) (locateRoots family) host = .ok roots)
    (idle : look (serve service) (runningBlocker canonical directory none none []) host = .ok ())
    (related : look (serve service) (relate family (hostedSessions canonical directory
      (listed.filter fun session => sameDirectory canonical session.directory directory) roots))
      host = .ok movable) :
    Returnable service canonical directory family host movable := by
  obtain ⟨rfl, proven⟩ := relate_ok related
  have known := locateAll_ok located
  have origin : ∀ row ∈ hostedSessions canonical directory
      (listed.filter fun session => sameDirectory canonical session.directory directory) roots,
      ∃ session ∈ host.sessions, session.id = row.1 ∧
        sameDirectory canonical session.directory.1 directory = true ∧
          (row.2 = session.parent ∨ row.1 ∈ family) := by
    intro row member
    cases mem_hostedSessions member with
    | inl occupied =>
        obtain ⟨occupant, among, rfl⟩ := occupied
        obtain ⟨among, here⟩ := List.mem_filter.mp among
        obtain ⟨session, known, rfl⟩ := (occupants occupant).mp among
        exact ⟨session, known, rfl, here, .inl rfl⟩
    | inr rooted =>
        obtain ⟨root, among, here, rfl⟩ := rooted
        obtain ⟨session, answered, rfl, asked⟩ := known.2 root among
        exact ⟨session, answered, rfl, here, .inr asked⟩
  refine ⟨hostedSessions_nodup canonical directory _ roots, ?_, ?_,
    fun session => running_elsewhere reports idle, ?_, ?_⟩
  · intro id among
    obtain ⟨row, member, rfl⟩ := List.mem_map.mp among
    obtain ⟨session, member', same, here, -⟩ := origin row member
    exact ⟨session, member', same, here⟩
  · intro session member here
    have listing : session.located ∈ listed.filter fun session =>
        sameDirectory canonical session.directory directory :=
      List.mem_filter.mpr ⟨(occupants _).mpr ⟨session, member, rfl⟩, here⟩
    exact hostedSessions_covers listing
  · intro root inside
    obtain ⟨session, member, same, -⟩ := known.1 root inside
    exact ⟨session, member, same⟩
  · intro session member among outside
    obtain ⟨row, inside, same⟩ := List.mem_map.mp among
    obtain ⟨other, member', same', -, edge⟩ := origin row inside
    obtain rfl := SessionHost.same_session member' member (same'.trans same)
    have edge := edge.resolve_right fun root => outside (same ▸ root)
    have chain := proven row inside fun root => outside (same ▸ root)
    rwa [same, edge] at chain

def Ends (service : HostService) (canonical : String → String) (directory : String)
    (family : List String) (host : SessionHost) (result : Except String FamilyOutcome) : Prop :=
  ∀ (mode : CleanupMode) (policy : MovePolicy), mode.readsRunningState →
    look (serve service) (assessFamily canonical mode directory family none policy) host = result

def Decides (service : HostService) (canonical : String → String) (directory : String)
    (family : List String) (host : SessionHost) (movable : List String) : Prop :=
  ∀ (mode : CleanupMode) (policy : MovePolicy), mode.readsRunningState →
    look (serve service) (assessFamily canonical mode directory family none policy) host =
      look (serve service) (decideFamily canonical mode directory family none policy movable) host

/-- A pass over a consistent host either ends before it decides, in every mode alike, or decides
about sessions that can be returned. -/
theorem assess_cases (consistent : Consistent service host) (canonical : String → String)
    (directory : String) (family : List String) :
    (∃ reason, Ends service canonical directory family host (.error reason)) ∨
      Ends service canonical directory family host (.ok .vacant) ∨
      ∃ movable, movable ≠ [] ∧ Returnable service canonical directory family host movable ∧
        Decides service canonical directory family host movable := by
  obtain ⟨reports, listed, serves, occupants⟩ := consistent.now
  have hosts := look_occupants canonical directory serves
  generalize among : (listed.filter fun session =>
    sameDirectory canonical session.directory directory) = hosting at hosts
  have checks : Performs HostOp.Looks (runningBlocker canonical directory none none []) :=
    performs_runningBlocker none []
  cases located : look (serve service) (locateRoots family) host with
  | error reason =>
      refine .inl ⟨reason, fun mode policy reads => ?_⟩
      exact host_bind_error (performs_locateRoots family) located
  | ok roots =>
  cases agreed : checkAll (disagreement canonical directory hosting) roots with
  | error reason =>
      refine .inl ⟨reason, fun mode policy reads => ?_⟩
      rw [assessFamily, host_bind_eq (performs_locateRoots family) located,
        host_bind_eq (performs_occupants _ _) hosts, agreed]
      exact host_bind_error (performs_fromExcept _) rfl
  | ok =>
  have onward : ∀ (mode : CleanupMode) (policy : MovePolicy), mode.readsRunningState →
      look (serve service) (assessFamily canonical mode directory family none policy) host =
        look (serve service) (do
          runningBlocker canonical directory none none []
          if hostedSessions canonical directory hosting roots = [] then return .vacant
          else do
            let movable ← relate family (hostedSessions canonical directory hosting roots)
            decideFamily canonical mode directory family none policy movable) host := by
    intro mode policy reads
    rw [assessFamily, host_bind_eq (performs_locateRoots family) located,
      host_bind_eq (performs_occupants _ _) hosts, agreed,
      host_bind_eq (performs_fromExcept _) rfl, reads, if_pos rfl]
  cases idle : look (serve service) (runningBlocker canonical directory none none []) host with
  | error reason =>
      refine .inl ⟨reason, fun mode policy reads => ?_⟩
      rw [onward mode policy reads]
      exact host_bind_error checks idle
  | ok =>
  by_cases vacant : hostedSessions canonical directory hosting roots = []
  · refine .inr (.inl fun mode policy reads => ?_)
    rw [onward mode policy reads, host_bind_eq checks idle, if_pos vacant]
    rfl
  · cases related : look (serve service)
        (relate family (hostedSessions canonical directory hosting roots)) host with
    | error reason =>
        refine .inl ⟨reason, fun mode policy reads => ?_⟩
        rw [onward mode policy reads, host_bind_eq checks idle, if_neg vacant]
        exact host_bind_error (performs_relate _ _) related
    | ok movable =>
        have some : movable ≠ [] := by
          rw [(relate_ok related).1]
          exact fun nothing => vacant (List.map_eq_nil_iff.mp nothing)
        subst among
        refine .inr (.inr ⟨movable, some, ?_, fun mode policy reads => ?_⟩)
        · exact returnable_of_assessed reports occupants located idle related
        · rw [onward mode policy reads, host_bind_eq checks idle, if_neg vacant,
            host_bind_eq (performs_relate _ _) related]

end Assessment

section Preview
variable {service : HostService} {canonical : String → String} {directory : String}
  {host : SessionHost}

def assess (service : HostService) (canonical : String → String) (mode : CleanupMode)
    (directory : String) (associated : List String) (closing : Option String) (policy : MovePolicy)
    (host : SessionHost) : FamilyOutcome :=
  (execute (serve service) (finalizeFamilyWith canonical mode directory associated closing policy)
    host).1

theorem assess_eq (associated : List String) (closing : Option String) {mode : CleanupMode}
    (policy : MovePolicy) (prunes : mode = .preview ∨ mode = .prune) :
    assess service canonical mode directory associated closing policy host =
      .ofResult (look (serve service) (assessFamily canonical mode directory
        (rootSessions associated) none policy) host) := by
  have answer : assess service canonical mode directory associated closing policy host =
      .ofResult (look (serve service)
        (finalizeFamilyIn canonical mode directory associated closing policy) host) := by
    unfold assess finalizeFamilyWith
    exact congrArg Prod.fst (execute_bind _ _ host)
  rw [answer]
  cases prunes with
  | inl preview =>
      subst preview
      simp [finalizeFamilyIn, familyOf, closeRoot, CleanupMode.enumeratesUnmanagedCandidates]
  | inr prune =>
      subst prune
      simp [finalizeFamilyIn, familyOf, closeRoot, CleanupMode.enumeratesUnmanagedCandidates]

theorem look_decide_preview {family movable : List String} (policy : MovePolicy)
    (some : movable ≠ []) :
    look (serve service) (decideFamily canonical .preview directory family none policy movable) host =
      (look (serve service) resolveMainCheckout host).map fun _ => .releasable movable := by
  have decided : decideFamily canonical .preview directory family none policy movable = (do
      let _ ← resolveMainCheckout
      return .releasable movable) := by
    simp [decideFamily, CleanupMode.mayMoveSessions, some]
  rw [decided, host_bind performs_resolveMainCheckout]
  cases look (serve service) resolveMainCheckout host <;> rfl

theorem look_decide_prune {family movable : List String}
    (returnable : Returnable service canonical directory family host movable)
    (consistent : Consistent service host)
    (elsewhere : ∀ destination, service.target = .ok destination →
      sameDirectory canonical directory destination.1 = false) (policy : MovePolicy) :
    look (serve service) (decideFamily canonical .prune directory family none policy movable) host =
      (look (serve service) resolveMainCheckout host).map fun _ => .released movable := by
  have decided : decideFamily canonical .prune directory family none policy movable =
      releaseFamily canonical directory family none policy movable := by
    simp [decideFamily, CleanupMode.mayMoveSessions]
  have resolved : look (serve service) resolveMainCheckout host =
      (service.target.map Subtype.val).mapError fun reason =>
        "no verified main checkout to move the associated OpenCode session to: " ++ reason := rfl
  rw [decided]
  cases target : service.target with
  | error reason =>
      rw [target] at resolved
      have failed : execute (serve service) resolveMainCheckout.run host = (.error _, host) :=
        (execute_reading (serve_looks service) performs_resolveMainCheckout host).trans
          (congrArg (·, host) resolved)
      rw [resolved, look, releaseFamily, execute_bind_error failed]
      rfl
  | ok destination =>
      rw [target] at resolved
      rw [execute_releaseFamily returnable consistent target (elsewhere destination target), resolved]
      rfl

/-- The preview tells what the prune would do. -/
theorem preview_truthful (consistent : Consistent service host)
    (elsewhere : ∀ destination, service.target = .ok destination →
      sameDirectory canonical directory destination.1 = false)
    (associated : List String) (closing : Option String) (policy : MovePolicy) :
    let preview := assess service canonical .preview directory associated closing .noWait host
    let prune := assess service canonical .prune directory associated closing policy host
    (∀ reason, preview = .keep reason ↔ prune = .keep reason) ∧
      (preview = .unmanaged ↔ prune = .unmanaged) ∧ (preview = .vacant ↔ prune = .vacant) ∧
      ∀ sessions, preview = .releasable sessions ↔ prune = .released sessions := by
  intro preview prune
  have previewed : preview = _ := assess_eq associated closing .noWait (.inl rfl)
  have pruned : prune = _ := assess_eq associated closing policy (.inr rfl)
  cases assess_cases consistent canonical directory (rootSessions associated) with
  | inl ends =>
      obtain ⟨reason, ends⟩ := ends
      rw [ends .preview _ rfl] at previewed
      rw [ends .prune _ rfl] at pruned
      simp [previewed, pruned, FamilyOutcome.ofResult]
  | inr rest =>
  cases rest with
  | inl ends =>
      rw [ends .preview _ rfl] at previewed
      rw [ends .prune _ rfl] at pruned
      simp [previewed, pruned, FamilyOutcome.ofResult]
  | inr decides =>
      obtain ⟨movable, some, returnable, decides⟩ := decides
      rw [decides .preview _ rfl, look_decide_preview _ some] at previewed
      rw [decides .prune _ rfl, look_decide_prune returnable consistent elsewhere] at pruned
      cases resolved : look (serve service) resolveMainCheckout host with
      | error reason => simp [previewed, pruned, resolved, FamilyOutcome.ofResult, Except.map]
      | ok destination => simp [previewed, pruned, resolved, FamilyOutcome.ofResult, Except.map]

end Preview

section Sample

def plainService (target : Except String AbsolutePath) : HostService where
  page host _ := ⟨host.sessions.map HostSession.located, none⟩
  active host := (host.sessions.filter (·.running)).map (·.id)
  unknown id := .plain ("no session " ++ id)
  target := target
  expired := true
  remaining := 0

theorem plainService_consistent (target : Except String AbsolutePath) (host : SessionHost) :
    Consistent (plainService target) host where
  listed moved destination :=
    ⟨(host.relocate moved destination).sessions.map HostSession.located, .last rfl,
      fun _ => List.mem_map⟩
  active moved destination id := by
    simp only [plainService, List.mem_map, List.mem_filter]
    constructor
    · intro ⟨session, ⟨member, runs⟩, same⟩
      exact ⟨session, member, same, runs⟩
    · intro ⟨session, member, same, runs⟩
      exact ⟨session, ⟨member, runs⟩, same⟩

def mainCheckout : AbsolutePath := ⟨"/main", by decide⟩

def worktree : AbsolutePath := ⟨"/wt", by decide⟩

def threeSessions : SessionHost where
  sessions := [⟨"ses_b", worktree, some "ses_a", false⟩, ⟨"ses_c", mainCheckout, none, true⟩,
    ⟨"ses_a", worktree, none, false⟩]
  ids := by decide

theorem three_told :
    assess (plainService (.ok mainCheckout)) id .preview "/wt" ["ses_a"] none .noWait threeSessions =
        .releasable ["ses_a", "ses_b"] ∧
      assess (plainService (.ok mainCheckout)) id .prune "/wt" ["ses_a"] none (.bounded 3) threeSessions =
        .released ["ses_a", "ses_b"] := by
  have elsewhere : ∀ destination, (plainService (.ok mainCheckout)).target = .ok destination →
      sameDirectory id "/wt" destination.1 = false := by
    intro destination same
    cases same
    decide
  have told := preview_truthful (plainService_consistent (.ok mainCheckout) threeSessions) elsewhere
    ["ses_a"] none (.bounded 3)
  have preview : assess (plainService (.ok mainCheckout)) id .preview "/wt" ["ses_a"] none .noWait
      threeSessions = .releasable ["ses_a", "ses_b"] := by decide
  exact ⟨preview, (told.2.2.2 _).mp preview⟩

end Sample

end Phasegent.Cleanup
