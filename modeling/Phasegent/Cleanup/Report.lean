import Phasegent.Cleanup.Surroundings

namespace Phasegent.Cleanup
open Fallible Interleaving Sql
open Restore (isBlank)
open Lease (joinPath LeaseDb LeaseRow LeaseScope Tables GitOutput WorktreeError repoRows scopeMapForConnectionWithKey)

variable {T : Type} {s : Surroundings T} {canonical : String → String} {identity : String}
  {issue : Nat} {session : Option String}

section Assessed
open Surroundings

theorem look_assessRow {allowed : Option LeaseScope} {context : CleanupContext} {row : LeaseRow}
    {w : SyncState T} {cache : Option CacheInventory} :
    look s.perform (assessRow canonical identity issue session allowed context row) w = .ok cache ↔
      context.directoryScopeAllowed canonical row.worktreePath allowed = true ∧
        refuseForeign canonical context.rows session row = .ok () ∧
        s.assess canonical identity w.trees row.worktreePath = .ok cache ∧
        denyOtherIssues issue (associatedIssues canonical context.rows row.worktreePath) = .ok () := by
  have guards : Performs CleanupOp.Observes
      (evaluateGuards canonical identity context.rows session row) :=
    observes (performs_evaluateGuards identity context.rows session row)
  rw [assessRow, look_checked, bind_eq_ok]
  simp only [look_observing guards, bind_eq_ok, look_evaluateGuards, refuse_eq_ok, Bool.not_eq_false]
  constructor
  · rintro ⟨_, free, found, ⟨unowned, clean⟩, confirmed⟩
    rw [look_asked _ _ (by trivial), bind_eq_ok] at confirmed
    obtain ⟨_, denied, same⟩ := confirmed
    cases same
    exact ⟨free, unowned, clean, denied⟩
  · rintro ⟨free, unowned, clean, denied⟩
    refine ⟨(), free, cache, ⟨unowned, clean⟩, ?_⟩
    rw [look_asked _ _ (by trivial), bind_eq_ok]
    exact ⟨(), denied, rfl⟩

theorem keepReason_report (directory : String) (associated : List String) (closing : Option String)
    (memo : HostMemo) : ∃ reason, OccupancyGuard.keepReason canonical .report directory associated
      closing .direct memo = .done (reason, memo) ∧ (reason = none → rootSessions associated = []) := by
  by_cases unmanaged : rootSessions associated = []
  · refine ⟨none, ?_, fun _ => unmanaged⟩
    simp [OccupancyGuard.keepReason, directOccupancy, occupancyOutcome, finalizeFamilyWith,
      finalizeFamilyIn, unmanaged]
    rfl
  · refine ⟨some ("an OpenCode session lease points here (" ++
      ", ".intercalate (rootSessions associated) ++ "); occupancy is not probed in report mode"), ?_,
      by simp⟩
    simp [OccupancyGuard.keepReason, directOccupancy, occupancyOutcome, finalizeFamilyWith,
      finalizeFamilyIn, unmanaged]
    rfl

theorem keepReason_unmanaged {associated : List String} (unmanaged : rootSessions associated = [])
    (directory : String) (closing : Option String) (memo : HostMemo) :
    OccupancyGuard.keepReason canonical .sync directory associated closing .sync memo =
      .done (none, memo.begin) := by
  simp [OccupancyGuard.keepReason, syncOccupancy, occupancyOutcome, finalizeFamilyWith,
    finalizeFamilyIn, unmanaged, CleanupMode.enumeratesUnmanagedCandidates]
  rfl

theorem unmanaged_of_roots {rows : List LeaseRow} {directory : String}
    (none : rootSessions (associatedSessions canonical rows directory) = []) :
    associatedSessions canonical rows directory = [] := by
  rw [List.eq_nil_iff_forall_not_mem] at none ⊢
  exact fun id among => none id (associatedSessions_roots among)

end Assessed

section DryRun

theorem dryRun_observes {op : CleanupOp} (observes : op.Observes) (removals : List String) :
    dryRun removals op = .call op fun r => .done (r, removals) := by
  cases op with
  | git arguments workdir =>
      change dryRunGit removals workdir arguments = _
      unfold dryRunGit
      split
      · exact absurd rfl observes
      · rfl
  | _ => rfl

theorem execute_dryRun {α : Type} {p : CleanupProg α} (calls : p.Calls CleanupOp.Observes)
    (removals : List String) (w : SyncState T) :
    execute s.perform (p.serve dryRun removals) w = (((execute s.perform p w).1, removals), w) := by
  induction p with
  | done a => rfl
  | call op next ih =>
      have here := s.perform_observes w calls.1
      rw [Prog.serve, dryRun_observes calls.1, execute, Prog.bind_call, execute, here]
      exact ih _ (calls.2 _)

/-- What the report has seen of a row whose removal it writes down. -/
structure Promised (s : Surroundings T) (canonical : String → String) (identity : String)
    (issue : Nat) (session : Option String) (context : CleanupContext) (w : SyncState T)
    (row : LeaseRow) : Prop where
  present : s.present w.trees row.worktreePath = true
  free : context.directoryScopeAllowed canonical row.worktreePath none = true
  unowned : refuseForeign canonical context.rows session row = .ok ()
  ready : ∃ cache, s.assess canonical identity w.trees row.worktreePath = .ok cache
  own : denyOtherIssues issue (associatedIssues canonical context.rows row.worktreePath) = .ok ()
  unmanaged : associatedSessions canonical context.rows row.worktreePath = []

theorem removeWorktree_report (directory : String) (expected : Option CacheInventory) :
    removeWorktree canonical .report identity issue session none directory expected =
      renameFailure (fun error => "worktree removal failed (" ++ bounded error.message ++ ")")
        (worktreeRemove directory directory) := rfl

variable (s canonical identity issue session) in
theorem reported_cleanRow (context : CleanupContext) (row : LeaseRow) (memo : HostMemo)
    (removals : List String) (w : SyncState T) : ∃ outcome written,
      execute s.perform ((cleanRow canonical .direct .report identity issue session none context row
        memo).serve dryRun removals) w = (((outcome, memo), written), w) ∧
        ∀ target ∈ written, target ∈ removals ∨
          target = row.worktreePath ∧ Promised s canonical identity issue session context w row := by
  have assessed : (assessRow canonical identity issue session none context row).run.Calls
      CleanupOp.Observes := (performs_assessRow identity issue session none context row).calls
  have guarded (associated : List String) : ∃ reason, OccupancyGuard.keepReason canonical .report
      row.worktreePath associated session .direct memo = .done (reason, memo) ∧
        (reason = none → rootSessions associated = []) :=
    keepReason_report row.worktreePath associated session memo
  have stay : ∀ outcome : RowOutcome, ∃ outcome' written,
      ((((outcome, memo), removals), w) : ((RowOutcome × HostMemo) × List String) × SyncState T) =
        (((outcome', memo), written), w) ∧ ∀ target ∈ written, target ∈ removals ∨
          target = row.worktreePath ∧ Promised s canonical identity issue session context w row :=
    fun outcome => ⟨outcome, removals, rfl, fun _ among => .inl among⟩
  cases present : s.present w.trees row.worktreePath with
  | false =>
      simp only [cleanRow, Prog.bind_eq, Prog.bind_call, Prog.bind_done, Prog.serve, dryRun, execute,
        Surroundings.perform, present, if_true]
      exact stay .absent
  | true =>
      simp only [cleanRow, Prog.bind_eq, Prog.bind_call, Prog.bind_done, Prog.serve, dryRun, execute,
        Surroundings.perform, present, Bool.true_eq_false, if_false]
      rw [cleanPresent, Prog.bind_eq, Prog.serve_bind, execute_bind, execute_dryRun assessed]
      cases seen : look s.perform (assessRow canonical identity issue session none context row) w with
      | error reason =>
          rw [look] at seen
          rw [seen]
          exact stay (.kept reason)
      | ok cache =>
          obtain ⟨free, unowned, ready, own⟩ := look_assessRow.mp seen
          rw [look] at seen
          rw [seen]
          obtain ⟨blocked, kept, unmanaged⟩ := guarded
            (associatedSessions canonical context.rows row.worktreePath)
          simp only [kept]
          cases blocked with
          | some reason => exact stay (.kept reason)
          | none =>
              have promised : Promised s canonical identity issue session context w row :=
                ⟨present, free, unowned, ⟨cache, ready⟩, own, unmanaged_of_roots (unmanaged rfl)⟩
              rw [removeWorktree_report]
              refine ⟨_, _, rfl, fun target among => ?_⟩
              rw [List.mem_append, List.mem_singleton] at among
              exact among.imp_right fun same => ⟨same, promised⟩

variable (s canonical identity issue session) in
theorem reported_cleanRows (context : CleanupContext) (rows : List LeaseRow) (memo : HostMemo)
    (removals : List String) (w : SyncState T) : ∃ outcome written,
      execute s.perform ((cleanRows canonical .direct .report identity issue session none context rows
        memo).serve dryRun removals) w = ((outcome, written), w) ∧
        ∀ target ∈ written, target ∈ removals ∨ ∃ row ∈ rows,
          target = row.worktreePath ∧ Promised s canonical identity issue session context w row := by
  induction rows generalizing memo removals with
  | nil => exact ⟨_, removals, rfl, fun _ among => .inl among⟩
  | cons row rest ih =>
      obtain ⟨outcome, written, ran, known⟩ := reported_cleanRow s canonical identity issue session
        context row memo removals w
      obtain ⟨others, later, ranRest, knownRest⟩ := ih memo written
      refine ⟨(others.1.count issue row.worktreePath outcome, others.2), later, ?_, ?_⟩
      · rw [cleanRows, Prog.bind_eq, Prog.serve_bind, execute_bind, ran]
        simp only [Prog.bind_eq, Prog.serve_bind, execute_bind, ranRest]
        rfl
      · intro target among
        cases knownRest target among with
        | inl before =>
            exact (known target before).imp_right fun this => ⟨row, List.mem_cons_self, this⟩
        | inr found =>
            obtain ⟨other, listed, promised⟩ := found
            exact .inr ⟨other, .tail _ listed, promised⟩

theorem performs_resolveContext (repoPath : String) (issue : Nat) :
    Performs CleanupOp.Observes (resolveContext repoPath issue) := by
  unfold resolveContext
  split
  · exact performs_pure _
  · apply performs_bind (performs_request trivial)
    intro identity
    apply performs_bind (performs_request trivial)
    intro _
    apply performs_bind (performs_request trivial)
    exact fun _ => performs_renameFailure Surroundings.performs_load

theorem look_resolveContext {repoPath : String} {w : SyncState T} {context : CleanupContext}
    (known : s.repoIdentity repoPath = .ok identity)
    (resolved : look s.perform (resolveContext repoPath issue) w = .ok context) :
    context.rows = [] ∨ issue ≠ 0 ∧ s.opened = .ok () ∧
      look s.perform (CleanupContext.load identity) w = .ok context := by
  unfold resolveContext at resolved
  split at resolved
  · cases resolved
    exact .inl rfl
  · rename_i positive
    rw [Surroundings.look_asked _ _ (by trivial)] at resolved
    simp only [Surroundings.perform, known, mapError_ok, ok_bind] at resolved
    rw [Surroundings.look_asked _ _ (by trivial), bind_eq_ok] at resolved
    obtain ⟨_, opened, resolved⟩ := resolved
    rw [Surroundings.look_asked _ _ (by trivial), bind_eq_ok] at resolved
    obtain ⟨_, _, resolved⟩ := resolved
    rw [look_renameFailure, mapError_eq_ok] at resolved
    exact .inr ⟨positive, mapError_eq_ok.mp opened, resolved⟩

variable (s canonical issue) in
theorem reported_context (context : CleanupContext) (session : Option String) (w : SyncState T) :
    ∃ outcome written, execute s.perform ((cleanupClosedIssueWorktreesInContext canonical .direct
      .report issue session none context freshMemo).serve dryRun []) w = ((outcome, written), w) ∧
        ∀ target ∈ written, ∃ row ∈ context.rows, row.issueNumber = issue ∧
          target = row.worktreePath ∧
          Promised s canonical context.identity issue (namedSession session) context w row := by
  unfold cleanupClosedIssueWorktreesInContext
  split
  · exact ⟨_, [], rfl, fun _ impossible => nomatch impossible⟩
  · obtain ⟨outcome, written, ran, known⟩ := reported_cleanRows s canonical context.identity issue
      (namedSession session) context (candidates context issue none) freshMemo [] w
    refine ⟨(.ofTally outcome.1, outcome.2), written, ?_, ?_⟩
    · rw [Prog.bind_eq, Prog.serve_bind, execute_bind, ran]
      rfl
    · intro target among
      obtain ⟨row, listed, same, promised⟩ := (known target among).resolve_left List.not_mem_nil
      simp only [candidates, List.mem_filter, beq_iff_eq, and_true] at listed
      exact ⟨row, listed.1, listed.2, same, promised⟩

variable (canonical issue) in
theorem reported_with {repoPath : String} (known : s.repoIdentity repoPath = .ok identity)
    (session : Option String) (w : SyncState T) :
    ∃ outcome written, execute s.perform ((cleanupClosedIssueWorktreesWith canonical .report repoPath
      issue session).serve dryRun []) w = ((outcome, written), w) ∧ ∀ target ∈ written,
        issue ≠ 0 ∧ s.opened = .ok () ∧ ∃ context row,
          look s.perform (CleanupContext.load identity) w = .ok context ∧ row ∈ context.rows ∧ row.issueNumber = issue ∧ target = row.worktreePath ∧
          Promised s canonical identity issue (namedSession session) context w row := by
  have resolve := (performs_resolveContext repoPath issue).calls
  rw [cleanupClosedIssueWorktreesWith, Prog.bind_eq, Prog.serve_bind, execute_bind,
    execute_dryRun resolve]
  cases resolved : look s.perform (resolveContext repoPath issue) w with
  | error reason =>
      rw [look] at resolved
      rw [resolved]
      exact ⟨_, [], rfl, fun _ impossible => absurd impossible List.not_mem_nil⟩
  | ok context =>
      have found := look_resolveContext known resolved
      obtain ⟨outcome, written, ran, promises⟩ := reported_context s canonical issue context session w
      rw [look] at resolved
      rw [resolved]
      refine ⟨outcome.1, written, ?_, ?_⟩
      · simp only [Prog.bind_eq, Prog.serve_bind, execute_bind, ran]
        rfl
      · intro target among
        obtain ⟨row, listed, number, same, promised⟩ := promises target among
        cases found with
        | inl nothing =>
            rw [nothing] at listed
            cases listed
        | inr loaded =>
            obtain ⟨positive, opened, loaded⟩ := loaded
            obtain ⟨scopes, mapped, rfl⟩ := Surroundings.look_load.mp loaded
            exact ⟨positive, opened, _, row, loaded, listed, number, same, promised⟩

theorem promised_of_wouldClean {repoPath : String} {row : LeaseRow} {w : SyncState T}
    (known : s.repoIdentity repoPath = .ok identity)
    (verdict : (execute s.perform (reportVerdict canonical repoPath issue row) w).1 = .wouldClean) :
    issue ≠ 0 ∧ s.opened = .ok () ∧ ∃ context candidate,
      look s.perform (CleanupContext.load identity) w = .ok context ∧ candidate ∈ context.rows ∧
        candidate.issueNumber = issue ∧ row.worktreePath = candidate.worktreePath ∧
        Promised s canonical identity issue (namedSession (some row.session)) context w candidate := by
  obtain ⟨outcome, written, ran, promises⟩ := reported_with canonical issue known
    (some row.session) w
  rw [reportVerdict, Prog.bind_eq, execute_bind, ran] at verdict
  dsimp only at verdict
  split at verdict
  · rename_i among
    exact promises row.worktreePath (List.contains_iff_mem.mp among)
  · nomatch verdict

end DryRun

section Clean
open Surroundings

structure Cleanable (s : Surroundings T) (canonical : String → String) (issue : Nat)
    (context : CleanupContext) (path : String) : Prop where
  opened : s.opened = .ok ()
  free : context.directoryScopeAllowed canonical path none = true
  idle : ∀ row ∈ rowsOf canonical context.rows path, row.isActive = false
  own : denyOtherIssues issue (associatedIssues canonical context.rows path) = .ok ()
  unmanaged : associatedSessions canonical context.rows path = []
  listed : ∃ row ∈ context.rows, row.worktreePath = path

theorem refuseForeign_idle {rows : List LeaseRow} {row : LeaseRow} {path : String}
    (idle : ∀ other ∈ rowsOf canonical rows path, other.isActive = false)
    (here : sameDirectory canonical row.worktreePath path = true) :
    refuseForeign canonical rows session row = .ok () := by
  have none : foreignActiveLease canonical rows session row = none := by
    apply List.find?_eq_none.mpr
    intro other listed
    simp only [Bool.and_eq_true, decide_eq_true_eq, not_and]
    intro foreign there
    have quiet := idle other (mem_rowsOf.mpr ⟨listed, sameDirectory_trans there here⟩)
    rw [quiet] at foreign
    cases foreign.1
  rw [refuseForeign, none]

theorem look_reload {w : SyncState T} {context : CleanupContext} {unreadable : String}
    (opened : s.opened = .ok ())
    (loaded : look s.perform (CleanupContext.load identity) w = .ok context) :
    look s.perform (reload identity unreadable) w = .ok context := by
  rw [reload, look_asked _ _ (by trivial), ok_bind, look_asked _ _ (by trivial)]
  simp only [perform, opened, id, ok_bind]
  rw [look_renameFailure, loaded, mapError_ok]

theorem look_recheckAfterCache {w : SyncState T} {context : CleanupContext} {path : String}
    (laws : s.Laws canonical identity) (cleanable : Cleanable s canonical issue context path)
    (loaded : look s.perform (CleanupContext.load identity) w = .ok context)
    (ready : s.assess canonical identity w.trees path = .ok none) :
    look s.perform (recheckAfterCache canonical identity issue session none path) w = .ok () := by
  obtain ⟨row, listed, rfl⟩ := cleanable.listed
  obtain ⟨fresh, found⟩ : ∃ fresh, context.rows.find? (fun other =>
      sameDirectory canonical other.worktreePath row.worktreePath) = some fresh := by
    rw [← Option.isSome_iff_exists, List.find?_isSome]
    exact ⟨row, listed, by simp [sameDirectory]⟩
  have here : sameDirectory canonical fresh.worktreePath row.worktreePath = true :=
    List.find?_some (p := fun other : LeaseRow =>
      sameDirectory canonical other.worktreePath row.worktreePath) found
  have guarded : look s.perform (evaluateGuards canonical identity context.rows session fresh) w =
      .ok none := look_evaluateGuards.mpr ⟨refuseForeign_idle cleanable.idle here,
    laws.spelled _ _ _ _ (sameDirectory_symm here) ready⟩
  rw [recheckAfterCache, look_observing (performs_reload _ _), look_reload cleanable.opened loaded,
    ok_bind, look_observing (performs_evaluateFresh _ _ _ _ _ _ _), evaluateFresh, look_checked,
    refuse_of_not (by simp [cleanable.free]), ok_bind, found]
  simp only [look_renameFailure, guarded, mapError_ok, ok_bind]
  rw [look_checked, refuse_of_not (by simp), ok_bind, look_asked _ _ (by trivial)]
  simp only [perform, cleanable.own, id, ok_bind, cleanable.unmanaged, if_true]
  rfl

theorem look_cleanOrCache {w : SyncState T} {path : String} {cache : Option CacheInventory}
    (seen : look s.perform (cleanOrCache path) w = .ok cache) :
    match cache with
    | none => look s.perform (isClean path) w = .ok true
    | some inventory => look s.perform (inspect path) w = .ok (.cacheOnly inventory) := by
  rw [cleanOrCache, look_observing (observes (performs_renameFailure (performs_isClean path))),
    bind_eq_ok] at seen
  obtain ⟨clean, answered, seen⟩ := seen
  rw [look_renameFailure, mapError_eq_ok] at answered
  cases clean with
  | true =>
      cases seen
      exact answered
  | false =>
      simp only [Bool.false_eq_true, if_false] at seen
      rw [look_observing (observes (performs_inspect path)), bind_eq_ok] at seen
      obtain ⟨inspection, inspected, seen⟩ := seen
      cases inspection with
      | cacheOnly inventory =>
          cases seen
          exact inspected
      | notCacheOnly => nomatch seen

theorem clean_of_assess {w : SyncState T} {path : String} {cache : Option CacheInventory}
    (ready : s.assess canonical identity w.trees path = .ok cache) :
    look s.perform (cleanOrCache path) w = .ok cache := by
  rw [← look_treeGuards, treeGuards, look_observing (observes (performs_notMainCheckout _ _)),
    bind_eq_ok] at ready
  obtain ⟨_, _, seen⟩ := ready
  exact seen

def afterClearing (s : Surroundings T) (w : SyncState T) (path : String) :
    Option CacheInventory → SyncState T
  | none => w
  | some _ => { w with trees := (s.clear w.trees path).2 }

theorem ready_afterClearing (laws : s.Laws canonical identity) {w : SyncState T} {path : String}
    {cache : Option CacheInventory} (ready : s.assess canonical identity w.trees path = .ok cache) :
    s.assess canonical identity (afterClearing s w path cache).trees path = .ok none := by
  cases cache with
  | none => exact ready
  | some inventory => exact (laws.cleared _ _ _ ready).2

theorem look_requireClean {w : SyncState T} {path dirty unreadable : String}
    (ready : s.assess canonical identity w.trees path = .ok none) :
    look s.perform (requireClean path dirty unreadable) w = .ok () := by
  have clean := look_cleanOrCache (clean_of_assess ready)
  rw [requireClean, look_observing (observes (performs_renameFailure (performs_isClean path))),
    look_renameFailure, clean, mapError_ok, ok_bind, Surroundings.look_fromExcept]
  exact refuse_of_not (by simp)

theorem execute_clearCacheOnly (laws : s.Laws canonical identity) {w : SyncState T} {path : String}
    {cache : Option CacheInventory} (ready : s.assess canonical identity w.trees path = .ok cache) :
    execute s.perform (clearCacheOnly path cache).run w = (.ok (), afterClearing s w path cache) := by
  cases cache with
  | none =>
      rw [clearCacheOnly, execute_observing (observes (performs_requireClean _ _ _)),
        look_requireClean ready]
      rfl
  | some inventory =>
      have inspected := look_cleanOrCache (clean_of_assess ready)
      have again := ready_afterClearing laws ready
      have inspecting : execute s.perform (inspect path).run w = (.ok (.cacheOnly inventory), w) := by
        rw [execute_observing (observes (performs_inspect path)), inspected]
      have clearing : execute s.perform (request (.removeCache path) (·.mapError fun error =>
          "removing the root .cache failed: " ++ Lease.bounded error) :
            CleanupM Unit).run w = (.ok (), afterClearing s w path (some inventory)) := by
        rw [execute_request]
        simp only [perform, (laws.cleared _ _ _ ready).1, mapError_ok, afterClearing]
      have expected : execute s.perform (fromExcept (expectCache inventory (.cacheOnly inventory)) :
          CleanupM Unit).run w = (.ok (), w) := by
        rw [execute_fromExcept, expectCache, refuse_of_not (by simp)]
      rw [clearCacheOnly, execute_bind_ok inspecting, execute_bind_ok expected, execute_bind_ok clearing,
        execute_observing (observes (performs_requireClean _ _ _)), look_requireClean again]

-- A pass that never moves a session leaves the host as it is, whatever it asks of it.
def CleanupOp.Steady (op : CleanupOp) : Prop := op.Observes ∨ ∃ asked, op = .host asked

theorem perform_steady (w : SyncState T) (op : CleanupOp) (steady : op.Steady) :
    (s.perform w op).2 = w := by
  cases steady with
  | inl observes => exact perform_observes w observes
  | inr host =>
      obtain ⟨asked, rfl⟩ := host
      rfl

theorem steadily {ε α : Type} {p : Attempt CleanupOp CleanupOp.Ret ε α}
    (performs : Performs CleanupOp.Observes p) : Performs CleanupOp.Steady p :=
  performs.mono fun _ => .inl

theorem performs_recheckAfterCache (directory : String) :
    Performs CleanupOp.Steady
      (recheckAfterCache canonical identity issue session none directory) := by
  apply performs_bind (steadily (performs_reload _ _))
  intro context
  apply performs_bind (steadily (performs_evaluateFresh _ _ _ _ _ _ _))
  intro cache
  apply performs_bind (performs_fromExcept _)
  intro _
  apply performs_bind (performs_request (.inl trivial))
  intro _
  dsimp only
  split
  · exact performs_pure ()
  · have asks : (directOccupancy canonical .verify directory
        (associatedSessions canonical context.rows directory) none).Calls CleanupOp.Steady :=
      calls_directOccupancy _ _ _ _ _ fun asked => .inr ⟨asked, rfl⟩
    unfold Performs
    exact Prog.Calls.bind asks fun _ => trivial

def removed (s : Surroundings T) (w : SyncState T) (path : String) : SyncState T :=
  { w with trees := (s.remove w.trees path path).2, removals := w.removals ++ [path] }

theorem execute_worktreeRemove (w : SyncState T) (path : String) :
    ∃ result, execute s.perform (worktreeRemove path path).run w = (result, removed s w path) := by
  have asked : execute s.perform (runGit ["worktree", "remove", path] path).run w =
      ((s.remove w.trees path path).1, removed s w path) := rfl
  cases answer : (s.remove w.trees path path).1 with
  | ok output =>
      rw [answer] at asked
      rw [worktreeRemove, execute_bind_ok asked, execute_fromExcept]
      exact ⟨_, rfl⟩
  | error error =>
      rw [answer] at asked
      rw [worktreeRemove, execute_bind_error asked]
      exact ⟨_, rfl⟩

theorem removeWorktree_sync (directory : String) (expected : Option CacheInventory) :
    removeWorktree canonical .sync identity issue session none directory expected = (do
      (do
        renameFailure (fun reason => "cache cleanup could not finish (" ++ reason ++ ")")
          (clearCacheOnly directory expected)
        renameFailure (fun reason => "kept after cache cleanup (" ++ reason ++ ")")
          (recheckAfterCache canonical identity issue session none directory))
      renameFailure (fun error => "worktree removal failed (" ++ bounded error.message ++ ")")
        (worktreeRemove directory directory)) := rfl

section Removal
variable {w : SyncState T} {path : String} {cache : Option CacheInventory}
  (laws : s.Laws canonical identity) (ready : s.assess canonical identity w.trees path = .ok cache)
include laws ready

theorem execute_cleared : execute s.perform (renameFailure (fun reason =>
      "cache cleanup could not finish (" ++ reason ++ ")") (clearCacheOnly path cache)).run w =
    (.ok (), afterClearing s w path cache) := by
  rw [execute_renameFailure, execute_clearCacheOnly laws ready]
  rfl

theorem execute_removed (passed : look s.perform
      (recheckAfterCache canonical identity issue session none path) (afterClearing s w path cache) =
        .ok ()) :
    ∃ result, execute s.perform (removeWorktree canonical .sync identity issue session none path
      cache).run w = (result, removed s (afterClearing s w path cache) path) := by
  have rechecked : execute s.perform (renameFailure (fun reason =>
      "kept after cache cleanup (" ++ reason ++ ")") (recheckAfterCache canonical identity issue
        session none path)).run (afterClearing s w path cache) =
      (.ok (), afterClearing s w path cache) := by
    rw [execute_renameFailure, execute_reading perform_steady (performs_recheckAfterCache path), passed]
    rfl
  have cleared := execute_bind_ok (f := fun _ => renameFailure (fun reason =>
    "kept after cache cleanup (" ++ reason ++ ")") (recheckAfterCache canonical identity issue
      session none path)) (execute_cleared laws ready)
  rw [rechecked] at cleared
  obtain ⟨result, ran⟩ := execute_worktreeRemove (s := s) (afterClearing s w path cache) path
  rw [removeWorktree_sync, execute_bind_ok cleared, execute_renameFailure, ran]
  exact ⟨_, rfl⟩

theorem execute_refused {reason : String} (failed : look s.perform
      (recheckAfterCache canonical identity issue session none path) (afterClearing s w path cache) =
        .error reason) :
    ∃ result, execute s.perform (removeWorktree canonical .sync identity issue session none path
      cache).run w = (result, afterClearing s w path cache) := by
  have rechecked : execute s.perform (renameFailure (fun reason =>
      "kept after cache cleanup (" ++ reason ++ ")") (recheckAfterCache canonical identity issue
        session none path)).run (afterClearing s w path cache) =
      (.error ("kept after cache cleanup (" ++ reason ++ ")"), afterClearing s w path cache) := by
    rw [execute_renameFailure, execute_reading perform_steady (performs_recheckAfterCache path), failed]
    rfl
  have cleared := execute_bind_ok (f := fun _ => renameFailure (fun reason =>
    "kept after cache cleanup (" ++ reason ++ ")") (recheckAfterCache canonical identity issue
      session none path)) (execute_cleared laws ready)
  rw [rechecked] at cleared
  rw [removeWorktree_sync, execute_bind_error cleared]
  exact ⟨_, rfl⟩

end Removal

/-- What becomes of one row: only a directory that may go is touched, and only one that passes its
last check is removed. -/
inductive Handled (s : Surroundings T) (canonical : String → String) (identity : String)
    (issue : Nat) (context : CleanupContext) (row : LeaseRow) (w : SyncState T) : SyncState T → Prop
  | absent (gone : s.present w.trees row.worktreePath = false) :
      Handled s canonical identity issue context row w w
  | unassessed {reason : String} (failed : look s.perform (assessRow canonical identity issue none none
        context row) w = .error reason) : Handled s canonical identity issue context row w w
  | managed (sessions : associatedSessions canonical context.rows row.worktreePath ≠ []) :
      Handled s canonical identity issue context row w w
  | refused {cache : Option CacheInventory} {reason : String}
      (ready : s.assess canonical identity w.trees row.worktreePath = .ok cache)
      (failed : look s.perform (recheckAfterCache canonical identity issue none none row.worktreePath)
        (afterClearing s w row.worktreePath cache) = .error reason) :
      Handled s canonical identity issue context row w (afterClearing s w row.worktreePath cache)
  | removed {cache : Option CacheInventory}
      (ready : s.assess canonical identity w.trees row.worktreePath = .ok cache) :
      Handled s canonical identity issue context row w
        (removed s (afterClearing s w row.worktreePath cache) row.worktreePath)

theorem execute_cleanRow (laws : s.Laws canonical identity) (context : CleanupContext)
    (row : LeaseRow) (memo : HostMemo) (w : SyncState T) :
    ∃ outcome w', execute s.perform (cleanRow canonical .sync .sync identity issue none none context row
      memo) w = (outcome, w') ∧ Handled s canonical identity issue context row w w' := by
  have start : execute s.perform (cleanRow canonical .sync .sync identity issue none none context row
      memo) w = execute s.perform (if s.present w.trees row.worktreePath = false then
        .done (.absent, memo) else cleanPresent canonical .sync .sync identity issue none none context
          row memo) w := rfl
  rw [start]
  by_cases present : s.present w.trees row.worktreePath = false
  · rw [if_pos present]
    exact ⟨_, w, rfl, .absent present⟩
  · rw [if_neg present, cleanPresent, Prog.bind_eq, execute_bind,
      execute_observing (performs_assessRow identity issue none none context row)]
    cases seen : look s.perform (assessRow canonical identity issue none none context row) w with
    | error reason => exact ⟨_, w, rfl, .unassessed seen⟩
    | ok cache =>
        obtain ⟨_, _, ready, _⟩ := look_assessRow.mp seen
        have asks : (OccupancyGuard.keepReason canonical .sync row.worktreePath (associatedSessions
            canonical context.rows row.worktreePath) none .sync memo).Calls CleanupOp.Steady :=
          calls_keepReason _ _ _ _ _ (fun asked => .inr ⟨asked, rfl⟩) _ _
        have still : (execute s.perform (OccupancyGuard.keepReason canonical .sync row.worktreePath
            (associatedSessions canonical context.rows row.worktreePath) none .sync memo) w).2 = w :=
          execute_stays perform_steady asks w
        have guarded : associatedSessions canonical context.rows row.worktreePath = [] →
            (execute s.perform (OccupancyGuard.keepReason canonical .sync row.worktreePath
              (associatedSessions canonical context.rows row.worktreePath) none .sync memo) w).1.1 =
                none := by
          intro unmanaged
          rw [keepReason_unmanaged (by rw [unmanaged]; rfl)]
          rfl
        dsimp only
        rw [Prog.bind_eq, execute_bind, still]
        cases blocked : (execute s.perform (OccupancyGuard.keepReason canonical .sync row.worktreePath
            (associatedSessions canonical context.rows row.worktreePath) none .sync memo) w).1.1 with
        | some reason =>
            refine ⟨_, w, rfl, .managed fun unmanaged => ?_⟩
            rw [guarded unmanaged] at blocked
            cases blocked
        | none =>
            dsimp only
            rw [Prog.bind_eq, execute_bind]
            cases rechecked : look s.perform (recheckAfterCache canonical identity issue none none
                row.worktreePath) (afterClearing s w row.worktreePath cache) with
            | ok passed =>
                obtain ⟨result, ran⟩ := execute_removed laws ready rechecked
                rw [ran]
                exact ⟨_, _, rfl, .removed ready⟩
            | error reason =>
                obtain ⟨result, ran⟩ := execute_refused laws ready rechecked
                rw [ran]
                exact ⟨_, _, rfl, .refused ready rechecked⟩

section Standing

structure Standing (s : Surroundings T) (canonical : String → String) (identity path : String)
    (w : SyncState T) : Prop where
  ready : s.present w.trees path = true → ∃ cache, s.assess canonical identity w.trees path = .ok cache
  gone : s.present w.trees path = false → w.removals ≠ []

structure Onward (s : Surroundings T) (path : String) (w w' : SyncState T) : Prop where
  store : w'.store = w.store
  written : ∀ target ∈ w.removals, target ∈ w'.removals
  absent : s.present w.trees path = false → s.present w'.trees path = false

theorem Onward.refl (path : String) (w : SyncState T) : Onward s path w w :=
  ⟨rfl, fun _ among => among, fun gone => gone⟩

theorem Onward.trans {path : String} {w w' w'' : SyncState T} (first : Onward s path w w')
    (second : Onward s path w' w'') : Onward s path w w'' where
  store := second.store.trans first.store
  written := fun target among => second.written target (first.written target among)
  absent := fun gone => second.absent (first.absent gone)

variable {w w' : SyncState T} {path other : String} {cache : Option CacheInventory}
  (laws : s.Laws canonical identity)
include laws

theorem onward_afterClearing : Onward s other w (afterClearing s w path cache) := by
  cases cache with
  | none => exact .refl other w
  | some inventory => exact ⟨rfl, fun _ among => among, fun gone => (laws.absent _ _ _ gone).1⟩

theorem onward_removed : Onward s other w (removed s w path) :=
  ⟨rfl, fun _ among => List.mem_append_left _ among, fun gone => (laws.absent _ _ _ gone).2⟩

theorem Standing.afterClearing (standing : Standing s canonical identity other w)
    (ready : s.assess canonical identity w.trees path = .ok cache) :
    Standing s canonical identity other (afterClearing s w path cache) := by
  cases cache with
  | none => exact standing
  | some inventory =>
      cases here : s.present w.trees other with
      | true =>
          obtain ⟨own, may⟩ := standing.ready here
          obtain ⟨stays, left⟩ := laws.clearedBeside _ _ _ _ _ ready here may
          exact ⟨fun _ => left, fun gone => absurd (gone.symm.trans stays) Bool.false_ne_true⟩
      | false =>
          have gone := (laws.absent w.trees path other here).1
          exact ⟨fun stands => absurd (gone.symm.trans stands) Bool.false_ne_true,
            fun _ => standing.gone here⟩

theorem Standing.removed (standing : Standing s canonical identity other w)
    (ready : s.assess canonical identity w.trees path = .ok none) :
    Standing s canonical identity other (removed s w path) where
  ready := by
    intro stands
    have before : s.present w.trees other = true := by
      by_contra gone
      have after := (laws.absent w.trees path other (Bool.of_not_eq_true gone)).2
      exact absurd (after.symm.trans stands) Bool.false_ne_true
    obtain ⟨own, may⟩ := standing.ready before
    exact laws.removedBeside _ _ _ _ ready may stands
  gone := fun _ => by simp [Cleanup.removed]

theorem Standing.handled {context : CleanupContext} {row : LeaseRow}
    (standing : Standing s canonical identity other w)
    (handled : Handled s canonical identity issue context row w w') :
    Standing s canonical identity other w' ∧ Onward s other w w' := by
  cases handled with
  | absent => exact ⟨standing, .refl other w⟩
  | unassessed => exact ⟨standing, .refl other w⟩
  | managed => exact ⟨standing, .refl other w⟩
  | refused ready => exact ⟨standing.afterClearing laws ready, onward_afterClearing laws⟩
  | removed ready =>
      have cleared := standing.afterClearing laws ready
      exact ⟨cleared.removed laws (ready_afterClearing laws ready),
        (onward_afterClearing laws).trans (onward_removed laws)⟩

theorem removed_of_handled {context : CleanupContext} {row : LeaseRow}
    (cleanable : Cleanable s canonical issue context row.worktreePath)
    (loaded : look s.perform (CleanupContext.load identity) w = .ok context)
    (standing : Standing s canonical identity row.worktreePath w)
    (handled : Handled s canonical identity issue context row w w') :
    row.worktreePath ∈ w'.removals ∨ s.present w'.trees row.worktreePath = false := by
  cases handled with
  | absent gone => exact .inr gone
  | unassessed failed =>
      right
      by_contra stands
      rw [Bool.not_eq_false] at stands
      obtain ⟨cache, ready⟩ := standing.ready stands
      have seen : look s.perform (assessRow canonical identity issue none none context row) w =
          .ok cache := look_assessRow.mpr ⟨cleanable.free,
        refuseForeign_idle cleanable.idle (by simp [sameDirectory]), ready, cleanable.own⟩
      rw [failed] at seen
      cases seen
  | managed sessions => exact (sessions cleanable.unmanaged).elim
  | @refused cache reason ready failed =>
      have onward : Onward s row.worktreePath w (afterClearing s w row.worktreePath cache) :=
        onward_afterClearing laws
      have again : look s.perform (CleanupContext.load identity)
          (afterClearing s w row.worktreePath cache) = .ok context := by
        rw [look_load] at loaded ⊢
        rw [onward.store]
        exact loaded
      rw [look_recheckAfterCache laws cleanable again (ready_afterClearing laws ready)] at failed
      cases failed
  | removed ready => exact .inl (by simp [Cleanup.removed])

end Standing

section Rows

theorem cleaned_rows (laws : s.Laws canonical identity) {context : CleanupContext} {path : String}
    (cleanable : Cleanable s canonical issue context path) (rows : List LeaseRow) (memo : HostMemo)
    {w : SyncState T} (loaded : look s.perform (CleanupContext.load identity) w = .ok context)
    (standing : Standing s canonical identity path w) :
    ∃ outcome w', execute s.perform (cleanRows canonical .sync .sync identity issue none none context
      rows memo) w = (outcome, w') ∧ Standing s canonical identity path w' ∧ Onward s path w w' ∧
        ((∃ row ∈ rows, row.worktreePath = path) →
          path ∈ w'.removals ∨ s.present w'.trees path = false) := by
  induction rows generalizing memo w with
  | nil => exact ⟨_, w, rfl, standing, .refl path w, by simp⟩
  | cons row rest ih =>
      obtain ⟨outcome, w₁, ran, handled⟩ := execute_cleanRow laws context row memo w
      obtain ⟨standing₁, onward₁⟩ := standing.handled laws handled
      have loaded₁ : look s.perform (CleanupContext.load identity) w₁ = .ok context := by
        rw [Surroundings.look_load] at loaded ⊢
        rw [onward₁.store]
        exact loaded
      obtain ⟨others, w₂, ranRest, standing₂, onward₂, turns⟩ := ih outcome.2 loaded₁ standing₁
      refine ⟨(others.1.count issue row.worktreePath outcome.1, others.2), w₂, ?_, standing₂,
        onward₁.trans onward₂, ?_⟩
      · rw [cleanRows, Prog.bind_eq, execute_bind, ran]
        simp only [Prog.bind_eq, execute_bind, ranRest]
        rfl
      · intro listed
        by_cases here : row.worktreePath = path
        · subst here
          cases removed_of_handled laws cleanable loaded standing handled with
          | inl written => exact .inl (onward₂.written _ written)
          | inr gone => exact .inr (onward₂.absent gone)
        · obtain ⟨other, among, same⟩ := listed
          cases among with
          | head => exact (here same).elim
          | tail _ later => exact turns ⟨other, later, same⟩

end Rows

end Clean

section Released

def releaseEdit (tables : Tables) (identity : String) (issue : Nat) (reason : String) (now : Int)
    (row : LeaseRow) : LeaseRow :=
  if row.repoIdentity == identity && row.issue == Lease.asI64 issue && row.isActive &&
      !Lease.hasSidecar tables row.leaseId then Lease.retain now reason row
  else row

section Edit
variable (tables : Tables) (identity : String) (issue : Nat) (reason : String) (now : Int)
  (row : LeaseRow)

@[simp] theorem releaseEdit_leaseId :
    (releaseEdit tables identity issue reason now row).leaseId = row.leaseId := by
  unfold releaseEdit
  split <;> rfl

@[simp] theorem releaseEdit_repoIdentity :
    (releaseEdit tables identity issue reason now row).repoIdentity = row.repoIdentity := by
  unfold releaseEdit
  split <;> rfl

@[simp] theorem releaseEdit_issue :
    (releaseEdit tables identity issue reason now row).issue = row.issue := by
  unfold releaseEdit
  split <;> rfl

@[simp] theorem releaseEdit_createdAt :
    (releaseEdit tables identity issue reason now row).createdAt = row.createdAt := by
  unfold releaseEdit
  split <;> rfl

@[simp] theorem releaseEdit_worktreePath :
    (releaseEdit tables identity issue reason now row).worktreePath = row.worktreePath := by
  unfold releaseEdit
  split <;> rfl

@[simp] theorem releaseEdit_session :
    (releaseEdit tables identity issue reason now row).session = row.session := by
  unfold releaseEdit
  split <;> rfl

end Edit

theorem releaseActive_ok (store : LeaseDb) (identity : String) (positive : issue ≠ 0)
    (reason : String) (now : Int) : ∃ n store', releaseActive store identity issue reason now =
      (.ok n, store') ∧ store'.toTables = store.toTables.editLeases
        (releaseEdit store.toTables identity issue reason now) := by
  obtain ⟨n, store', ran⟩ := Lease.retains_total "release issue leases" (fun tables row =>
    row.repoIdentity == identity && row.issue == Lease.asI64 issue && row.isActive &&
      !Lease.hasSidecar tables row.leaseId) now reason store
  obtain ⟨edited, _⟩ := Lease.updateLeases_ok ran
  refine ⟨n, store', ?_, edited⟩
  have committed : (Lease.retainActiveLeasesForIssue identity issue reason now).commit store =
      (.ok n, store') := by
    rw [Tx.commit, Lease.retainActiveLeasesForIssue, ran]
  rw [releaseActive, if_neg positive, committed]

section Directory
variable {edit : LeaseRow → LeaseRow} {rows : List LeaseRow} {path : String}
  (paths : ∀ row, (edit row).worktreePath = row.worktreePath)
include paths

theorem rowsOf_map : rowsOf canonical (rows.map edit) path = (rowsOf canonical rows path).map edit := by
  simp only [rowsOf, List.filter_map, Function.comp_def, paths]

theorem associatedIssues_map (issues : ∀ row, (edit row).issue = row.issue) :
    associatedIssues canonical (rows.map edit) path = associatedIssues canonical rows path := by
  simp only [associatedIssues, rowsOf_map paths, List.map_map, Function.comp_def,
    LeaseRow.issueNumber, issues]

theorem associatedSessions_map (sessions : ∀ row, (edit row).session = row.session) :
    associatedSessions canonical (rows.map edit) path = associatedSessions canonical rows path := by
  simp only [associatedSessions, rowsOf_map paths, List.map_map, Function.comp_def, sessions]

end Directory

theorem denyOtherIssues_ok {issues : List Nat} {u : Unit}
    (denied : denyOtherIssues issue issues = .ok u) : ∀ other ∈ issues, other = issue := by
  simp only [denyOtherIssues, refuse_eq_ok, not_not, List.map_eq_nil_iff, List.filter_eq_nil_iff] at denied
  intro other among
  simpa using denied other among

theorem releaseEdit_idle {w : SyncState T} {context : CleanupContext} {path reason : String} {now : Int}
    (ranged : ∀ row ∈ w.store.leases, row.issue < 2 ^ 63) (positive : issue ≠ 0)
    (loaded : look s.perform (CleanupContext.load identity) w = .ok context)
    (free : context.directoryScopeAllowed canonical path none = true)
    (own : denyOtherIssues issue (associatedIssues canonical context.rows path) = .ok ())
    {row : LeaseRow} (among : row ∈ rowsOf canonical context.rows path) :
    (releaseEdit w.store.toTables identity issue reason now row).isActive = false := by
  obtain ⟨scopes, mapped, rfl⟩ := Surroundings.look_load.mp loaded
  have here := (mem_rowsOf.mp among).1
  rw [repoRows, mem_orderDesc, List.mem_filter, beq_iff_eq] at here
  obtain ⟨stored, ours⟩ := here
  have bare : scopes.lookup row.leaseId = none := by
    cases directoryScopeAllowed_iff.mp free with
    | inl unscoped => exact unscoped row among
    | inr named =>
        obtain ⟨_, impossible, _⟩ := named
        cases impossible
  have unscoped : Lease.hasSidecar w.store.toTables row.leaseId = false := by
    rw [Lease.hasSidecar, List.any_eq_false]
    intro sidecar beside names
    have carried := Lease.lookup_of_sidecar mapped stored ours beside (beq_iff_eq.mp names)
    rw [bare] at carried
    cases carried
  have number : row.issueNumber = issue :=
    denyOtherIssues_ok own _ (mem_associatedIssues.mpr ⟨row, among, rfl⟩)
  have column : row.issue = Lease.asI64 issue := by
    have bound := ranged row stored
    rw [LeaseRow.issueNumber] at number
    rw [Lease.asI64, if_pos (by omega)]
    omega
  cases active : row.isActive with
  | true => simp [releaseEdit, ours, column, active, unscoped, Lease.active_retain]
  | false => simp [releaseEdit, active]

def CleanupContext.edited (context : CleanupContext) (edit : LeaseRow → LeaseRow) : CleanupContext :=
  { context with rows := context.rows.map edit }

theorem cleanable_of_promised {w : SyncState T} {context : CleanupContext} {row : LeaseRow}
    {reason : String} {now : Int}
    (ranged : ∀ row ∈ w.store.leases, row.issue < 2 ^ 63) (positive : issue ≠ 0)
    (opened : s.opened = .ok ())
    (loaded : look s.perform (CleanupContext.load identity) w = .ok context)
    (listed : row ∈ context.rows)
    (promised : Promised s canonical identity issue session context w row) :
    Cleanable s canonical issue
      (context.edited (releaseEdit w.store.toTables identity issue reason now)) row.worktreePath where
  opened := opened
  free := by
    have free := promised.free
    rw [directoryScopeAllowed_iff] at free ⊢
    left
    cases free with
    | inl unscoped => simpa [CleanupContext.edited, rowsOf_map] using unscoped
    | inr named =>
        obtain ⟨_, impossible, _⟩ := named
        cases impossible
  idle := by
    rw [CleanupContext.edited, rowsOf_map (by simp), List.forall_mem_map]
    exact fun other among => releaseEdit_idle ranged positive loaded promised.free promised.own among
  own := by
    rw [CleanupContext.edited, associatedIssues_map (by simp) (by simp)]
    exact promised.own
  unmanaged := by
    rw [CleanupContext.edited, associatedSessions_map (by simp) (by simp)]
    exact promised.unmanaged
  listed := ⟨_, List.mem_map_of_mem listed, by simp⟩

theorem load_released {w w' : SyncState T} {context : CleanupContext} {reason : String} {now : Int}
    (edited : w'.store.toTables = w.store.toTables.editLeases
      (releaseEdit w.store.toTables identity issue reason now))
    (loaded : look s.perform (CleanupContext.load identity) w = .ok context) :
    look s.perform (CleanupContext.load identity) w' =
      .ok (context.edited (releaseEdit w.store.toTables identity issue reason now)) := by
  obtain ⟨scopes, mapped, rfl⟩ := Surroundings.look_load.mp loaded
  refine Surroundings.look_load.mpr ⟨scopes, ?_, ?_⟩
  · rw [edited, Lease.scopeMap_edit _ _ (by simp) _ _ (by simp) (by simp), mapped]
  · rw [edited, Lease.repoRows_edit _ _ (by simp) (by simp)]
    rfl

end Released

section Sound
open Surroundings

theorem calls_classifyRows (issue : Nat) (kept : List String) (rows : List LeaseRow) :
    (classifyRows issue kept rows).Calls CleanupOp.Observes := by
  induction rows with
  | nil => trivial
  | cons row rest ih =>
      apply Prog.Calls.bind
      · unfold classifyRow
        split
        · trivial
        · exact ⟨trivial, fun _ => trivial⟩
      · exact fun _ => ih.bind fun _ => trivial

theorem cleaned_issue {path : String} {rows : List LeaseRow} {memo : HostMemo} {w w' : SyncState T}
    {context : CleanupContext} {n : Nat} {store : LeaseDb} (laws : s.Laws canonical identity)
    (released : releaseActive w.store identity issue syncReleaseReason s.now = (.ok n, store))
    (loaded : look s.perform (CleanupContext.load identity) { w with store } = .ok context)
    (cleanable : Cleanable s canonical issue context path)
    (candidate : ∃ row ∈ context.rows, row.issueNumber = issue ∧ row.worktreePath = path)
    (standing : Standing s canonical identity path { w with store })
    (ended : (execute s.perform (cleanIssue canonical identity issue rows memo) w).2 = w') :
    Standing s canonical identity path w' ∧
      (path ∈ w'.removals ∨ s.present w'.trees path = false) := by
  obtain ⟨row, listed, number, here⟩ := candidate
  obtain ⟨outcome, w₁, ran, standing₁, _, turn⟩ := cleaned_rows laws cleanable
    (candidates context issue none) memo loaded standing
  have named : context.hasIssue issue = true := by
    rw [CleanupContext.hasIssue, List.any_eq_true]
    exact ⟨row, listed, beq_iff_eq.mpr number⟩
  have passed : execute s.perform (cleanPass canonical identity issue memo) { w with store } =
      ((.ofTally outcome.1, outcome.2), w₁) := by
    rw [cleanPass, Prog.bind_eq, execute_bind, execute_observing performs_load, loaded]
    simp only [cleanupClosedIssueWorktreesInContext, named, Bool.true_eq_false, if_false]
    obtain ⟨scopes, mapped, rfl⟩ := look_load.mp loaded
    change execute s.perform (Prog.bind (cleanRows canonical .sync .sync identity issue none none _ _ _)
      _) _ = _
    rw [execute_bind, ran]
    rfl
  have same : w' = w₁ := by
    rw [← ended, cleanIssue, Prog.bind_eq, Prog.bind_call, execute]
    simp only [perform, released, Prog.bind_done, Prog.bind_eq]
    rw [execute_bind, passed, execute_bind]
    exact execute_stays stays (calls_classifyRows issue _ rows) w₁
  rw [same]
  refine ⟨standing₁, turn ⟨row, ?_, here⟩⟩
  simp [candidates, listed, number]

/-- Where a root cache that is all of a directory's dirt can be cleared, what the report promises to
clean is removed by the clean pass, unless another removal of the pass has taken it; and what
removes nothing promises nothing. -/
theorem promises_are_kept (canonical : String → String) (identity : String)
    (laws : s.Laws canonical identity) (store : LeaseDb)
    (ranged : ∀ row ∈ store.leases, row.issue < 2 ^ 63) (trees : T) {repoPath : String}
    (known : s.repoIdentity repoPath = .ok identity) (issue : Nat) (rows : List LeaseRow)
    (memo : HostMemo) {after : SyncState T}
    (cleaned : (execute s.perform (cleanIssue canonical identity issue rows memo)
      ⟨store, trees, []⟩).2 = after) :
    (∀ row, (execute s.perform (reportVerdict canonical repoPath issue row) ⟨store, trees, []⟩).1 =
        .wouldClean →
      row.worktreePath ∈ after.removals ∨
        after.removals ≠ [] ∧ s.present after.trees row.worktreePath = false) ∧
    (after.removals = [] → ∀ row, (execute s.perform (reportVerdict canonical repoPath issue row)
      ⟨store, trees, []⟩).1 ≠ .wouldClean) := by
  have kept : ∀ row, (execute s.perform (reportVerdict canonical repoPath issue row)
      ⟨store, trees, []⟩).1 = .wouldClean → row.worktreePath ∈ after.removals ∨
        after.removals ≠ [] ∧ s.present after.trees row.worktreePath = false := by
    intro row verdict
    obtain ⟨positive, opened, context, candidate, loaded, listed, number, same, promised⟩ :=
      promised_of_wouldClean known verdict
    obtain ⟨n, store', released, edited⟩ :=
      releaseActive_ok store identity positive syncReleaseReason s.now
    have loaded' : look s.perform (CleanupContext.load identity) ⟨store', trees, []⟩ =
        .ok (context.edited (releaseEdit store.toTables identity issue syncReleaseReason s.now)) :=
      load_released (w := ⟨store, trees, []⟩) edited loaded
    have standing : Standing s canonical identity candidate.worktreePath ⟨store', trees, []⟩ :=
      ⟨fun _ => promised.ready, fun gone => absurd (gone.symm.trans promised.present)
        Bool.false_ne_true⟩
    obtain ⟨standing', turn⟩ := cleaned_issue (w := ⟨store, trees, []⟩) laws released loaded'
      (cleanable_of_promised ranged positive opened loaded listed promised)
      ⟨_, List.mem_map_of_mem listed, by simpa [LeaseRow.issueNumber] using number, by simp⟩ standing
      cleaned
    rw [same]
    exact turn.imp_right fun gone => ⟨standing'.gone gone, gone⟩
  refine ⟨kept, fun nothing row verdict => ?_⟩
  cases kept row verdict with
  | inl among =>
      rw [nothing] at among
      cases among
  | inr gone => exact gone.1 nothing

end Sound

section Runs

def cliStore : LeaseDb where
  leases := [{ Lease.heldLease with worktreePath := "/wt" }]
  scopes := []
  bindings := []
  memberships := []
  valid := by constructor <;> decide

def someCache : CacheInventory := ⟨⟨1, 2, 3, 0, 3, 0, 0, true⟩, []⟩

def cachedTree (deletes : Bool) : Surroundings (Bool × Bool) where
  git t arguments _ :=
    .ok ⟨0, if arguments = ["rev-parse", "--git-dir"] then "/repo/.git/worktrees/wt"
      else if arguments = ["status", "--porcelain"] ∧ t.2 = true then "?? .cache/"
      else if arguments = insideCache then "?? .cache/x" else ""⟩
  present t _ := t.1
  metadata _ _ := .directory
  sameFilesystem _ _ := true
  inventory _ _ := .ok someCache
  clear t _ := if deletes then (.ok (), (t.1, false)) else (.error "Permission denied", t)
  remove t _ _ := (.ok ⟨0, ""⟩, (false, t.2))
  host := hostOf (fun _ => "/main") [] []
  repoIdentity _ := .ok "/repo/.git"
  opened := .ok ()
  schema := .ok ()
  repoKey _ := none
  urls := forgejoTest
  now := 300

theorem gitDir_cachedTree (path : String) :
    readGitDir id path "/repo/.git" ⟨0, "/repo/.git/worktrees/wt"⟩ = .ok false := by
  have linked : joinPath path "/repo/.git/worktrees/wt" = "/repo/.git/worktrees/wt" := rfl
  rw [readGitDir_ok]
  exact ⟨rfl, by decide, by rw [show trimText "/repo/.git/worktrees/wt" =
    "/repo/.git/worktrees/wt" by decide, linked]; decide⟩

theorem assess_cachedTree (deletes : Bool) (t : Bool × Bool) (path : String) :
    (cachedTree deletes).assess id "/repo/.git" t path =
      .ok (if t.2 then some someCache else none) := by
  obtain ⟨here, cached⟩ := t
  have main (w : SyncState (Bool × Bool)) : look (cachedTree deletes).perform
      (isMainCheckout id path "/repo/.git") w = .ok false := by
    rw [← gitDir_cachedTree path]
    rfl
  have guarded (w : SyncState (Bool × Bool)) : look (cachedTree deletes).perform
      (notMainCheckout id "/repo/.git" path) w = .ok () := by
    have reads : Performs CleanupOp.Observes (isMainCheckout id path "/repo/.git") :=
      performs_bind (performs_request (by simp [CleanupOp.Observes])) fun _ => performs_fromExcept _
    rw [notMainCheckout, Surroundings.look_observing (performs_renameFailure reads),
      look_renameFailure, main]
    rfl
  have clean (w : SyncState (Bool × Bool)) : look (cachedTree deletes).perform (isClean path) w =
      readStatus ⟨0, if w.trees.2 then "?? .cache/" else ""⟩ := by
    obtain ⟨store, ⟨here, cached⟩, removals⟩ := w
    cases cached <;> rfl
  have inspected (w : SyncState (Bool × Bool)) : look (cachedTree deletes).perform (inspect path) w =
      .ok (.cacheOnly someCache) := by
    have blank : isBlank "" = true := by with_unfolding_all rfl
    have untracked : "?? ".toList.isPrefixOf (Text.trim "?? .cache/x".toList) = true := by decide
    have tracked : (cachedTree deletes).git w.trees ["ls-files", "--", ".cache"] path = .ok ⟨0, ""⟩ := by
      simp [cachedTree, insideCache]
    have outside : (cachedTree deletes).git w.trees outsideCache path = .ok ⟨0, ""⟩ := by
      simp [cachedTree, outsideCache, insideCache]
    have inside : (cachedTree deletes).git w.trees insideCache path = .ok ⟨0, "?? .cache/x"⟩ := by
      simp [cachedTree, insideCache]
    have directory : (cachedTree deletes).metadata w.trees path = .directory := rfl
    have same : (cachedTree deletes).sameFilesystem w.trees path = true := rfl
    rw [inspect, Surroundings.look_asked _ _ (by trivial)]
    simp only [Surroundings.perform, directory, ok_bind]
    rw [inspectDirectory, Surroundings.look_asked _ _ (by trivial)]
    simp only [Surroundings.perform, same, ok_bind, Bool.true_eq_false]
    rw [Surroundings.look_checked, refuse_of_not not_false, ok_bind,
      Surroundings.look_observing (observes (performs_probe (by simp))),
      Surroundings.look_probe _ _ (by simp) tracked, ok_bind]
    simp only [blank, Bool.true_eq_false, if_false]
    rw [Surroundings.look_observing (observes (performs_probe (by simp [outsideCache]))),
      Surroundings.look_probe _ _ (by simp [outsideCache]) outside, ok_bind]
    simp only [blank, Bool.true_eq_false, if_false]
    rw [Surroundings.look_observing (observes (performs_probe (by simp [insideCache]))),
      Surroundings.look_probe _ _ (by simp [insideCache]) inside, ok_bind]
    simp only [untracked, Bool.true_eq_false, if_false]
    rfl
  rw [Surroundings.assess, Surroundings.treeGuards,
    Surroundings.look_observing (observes (performs_notMainCheckout _ _)), guarded, ok_bind, cleanOrCache,
    Surroundings.look_observing (observes (performs_renameFailure (performs_isClean path))),
    look_renameFailure, clean]
  cases cached with
  | false => with_unfolding_all rfl
  | true =>
      have dirty : readStatus ⟨0, "?? .cache/"⟩ = .ok false := by with_unfolding_all rfl
      simp only [if_true, dirty, mapError_ok, ok_bind, Bool.false_eq_true, if_false]
      rw [Surroundings.look_observing (observes (performs_inspect path)), inspected]
      rfl

theorem laws_cachedTree : (cachedTree true).Laws id "/repo/.git" where
  spelled t a b cache _ ready := by
    rw [assess_cachedTree] at ready ⊢
    exact ready
  cleared t path cache _ := ⟨rfl, by rw [assess_cachedTree]; rfl⟩
  clearedBeside t path cache other own _ here _ := ⟨here, _, assess_cachedTree _ _ _⟩
  removedBeside t path other own _ _ stands := nomatch stands
  absent t path other gone := ⟨gone, rfl⟩

theorem removes_cachedTree (deletes : Bool) : (cachedTree deletes).Removes id "/repo/.git" :=
  fun _ _ _ => ⟨_, _, rfl, rfl, rfl⟩

theorem cached_promise_kept : ∃ after, (execute (cachedTree true).perform
    (cleanIssue id "/repo/.git" 7 [] freshMemo) ⟨cliStore, (true, true), []⟩).2 = after ∧
      ("/wt" ∈ after.removals ∨ after.removals ≠ [] ∧
        (cachedTree true).present after.trees "/wt" = false) := by
  have verdict : (execute (cachedTree true).perform (reportVerdict id "/repo" 7
      { Lease.heldLease with worktreePath := "/wt" }) ⟨cliStore, (true, true), []⟩).1 = .wouldClean := by
    decide
  have known : (cachedTree true).repoIdentity "/repo" = .ok "/repo/.git" := rfl
  exact ⟨_, rfl, (promises_are_kept id "/repo/.git" laws_cachedTree cliStore (by decide) (true, true)
    known 7 [] freshMemo rfl).1 _ verdict⟩

/-- A cache that cannot be deleted keeps a directory that the report promised to clean. -/
theorem locked_cache_breaks_promise :
    ¬∀ (T : Type) (s : Surroundings T) (canonical : String → String) (identity repoPath : String)
      (store : LeaseDb) (trees : T) (issue : Nat) (rows : List LeaseRow) (memo : HostMemo)
      (after : SyncState T), s.Removes canonical identity →
        (∀ row ∈ store.leases, row.issue < 2 ^ 63) → s.repoIdentity repoPath = .ok identity →
        (execute s.perform (cleanIssue canonical identity issue rows memo) ⟨store, trees, []⟩).2 =
          after →
        (∀ row, (execute s.perform (reportVerdict canonical repoPath issue row)
          ⟨store, trees, []⟩).1 = .wouldClean → row.worktreePath ∈ after.removals) ∧
        (after.removals = [] → ∀ row, (execute s.perform (reportVerdict canonical repoPath issue row)
          ⟨store, trees, []⟩).1 ≠ .wouldClean) := by
  intro claimed
  have promised : (execute (cachedTree false).perform (reportVerdict id "/repo" 7
      { Lease.heldLease with worktreePath := "/wt" }) ⟨cliStore, (true, true), []⟩).1 = .wouldClean := by
    decide
  have nothing : (execute (cachedTree false).perform (cleanIssue id "/repo/.git" 7 [] freshMemo)
      ⟨cliStore, (true, true), []⟩).2.removals = [] := by decide
  exact (claimed _ (cachedTree false) id "/repo/.git" "/repo" cliStore (true, true) 7 [] freshMemo _
    (removes_cachedTree false) (by decide) rfl rfl).2 nothing _ promised

end Runs

end Phasegent.Cleanup
