import Phasegent.Prune.Evidence

namespace Phasegent.Prune
open Fallible Interleaving Cleanup
open Lease (LeaseRow LeaseScope LeaseStatus ScopeMap GitOutput WorktreeError)

def PruneOp.Spares (op : PruneOp) : Prop :=
  ∀ target workdir, op ≠ .cleanup (.git ["worktree", "remove", target] workdir)

theorem PruneOp.Observes.spares {op : PruneOp} (observes : op.Observes) : op.Spares := by
  rintro target workdir rfl
  exact observes rfl

section Rereading
variable {setup : PruneSetup} {identity : String} {repoKey : Option String} {pinned : List String}
  {candidate : DirectoryCandidate}

def rereading (identity : String) (repoKey : Option String) (fresh : Fresh) : PruneHistory :=
  [⟨.invalidate fresh.group.issues, ()⟩, ⟨.cleanup (.scopeMapForRepo identity repoKey), .ok fresh.scopes⟩,
    ⟨.canonicalPaths, fresh.resolve⟩, ⟨.cleanup (.listAllForRepo identity), .ok fresh.rows⟩]

theorem reads_reread (regroup : Option DirectoryGroup → Except String DirectoryGroup) :
    Reads PruneOp.Observes (reread setup identity repoKey candidate regroup) fun fresh part =>
      part = rereading identity repoKey fresh ∧
        fresh.resolve candidate.worktreePath = candidate.canonicalPath ∧
        ∃ group, regroup ((groupRows fresh.resolve fresh.rows).find?
          (·.canonicalPath = candidate.canonicalPath)) = .ok group ∧
            fresh.group = attachScopeProof fresh.scopes group := by
  apply reads_bind (M := fun rows part => part = [⟨.cleanup (.listAllForRepo identity), .ok rows⟩])
  · exact reads_request trivial fun r rows answered => by rw [mapError_eq_ok] at answered; rw [answered]
  rintro rows _ rfl
  apply reads_bind (M := fun resolve part => part = [⟨.canonicalPaths, resolve⟩])
  · exact reads_request trivial fun r _ answered => by cases answered; rfl
  rintro resolve _ rfl
  apply reads_bind (M := fun _ part => part = [] ∧
    resolve candidate.worktreePath = candidate.canonicalPath)
  · exact reads_fromExcept fun _ passed => ⟨rfl, not_not.mp (refuse_eq_ok.mp passed)⟩
  rintro _ _ ⟨rfl, stays⟩
  apply reads_bind (M := fun group part => part = [] ∧ regroup ((groupRows resolve rows).find?
    (·.canonicalPath = candidate.canonicalPath)) = .ok group)
  · exact reads_fromExcept fun _ chosen => ⟨rfl, chosen⟩
  rintro group _ ⟨rfl, chosen⟩
  apply reads_bind (M := fun scopes part =>
    part = [⟨.cleanup (.scopeMapForRepo identity repoKey), .ok scopes⟩])
  · exact reads_request trivial fun r scopes answered => by rw [mapError_eq_ok] at answered; rw [answered]
  rintro scopes _ rfl
  apply reads_bind (M := fun _ part => part = []) (reads_fromExcept fun _ _ => rfl)
  rintro _ _ rfl
  apply reads_bind (M := fun _ part =>
    part = [⟨.invalidate (attachScopeProof scopes group).issues, ()⟩])
  · exact reads_request trivial fun _ _ _ => rfl
  rintro _ _ rfl
  exact reads_pure ⟨rfl, stays, group, chosen, rfl⟩

theorem reads_verifyVacancy (fresh : Fresh) :
    Reads PruneOp.Observes (verifyVacancy candidate fresh) fun _ part => ∃ host,
      Shows hosting host part ∧ Vacant fresh.resolve candidate.canonicalPath
        (associatedSessions fresh.resolve fresh.rows candidate.canonicalPath) host := by
  apply reads_bind (reads_hosting (reads_finalizeVerify candidate.canonicalPath
    (associatedSessions fresh.resolve fresh.rows candidate.canonicalPath)))
  rintro outcome part ⟨host, shown, rfl, vacant⟩
  exact reads_fromExcept fun _ _ => ⟨host, shown, vacant.fewer fun _ => associatedSessions_roots⟩

end Rereading

section Cleared

/-- What the removal of a directory rests on: its rows and scopes as re-read, the Git guards, the
running sessions, the closures of the issues, and a full listing of the host. -/
structure Evidence (setup : PruneSetup) (identity : String) (pinned : List String) (directory : String)
    (fresh : Fresh) (vacancy closures running guards : PruneHistory) : Prop where
  leased : rowsAt fresh.resolve fresh.rows directory ≠ []
  settled : ∀ row ∈ rowsAt fresh.resolve fresh.rows directory,
    row.status = .retained ∨ row.status = .released
  unpinned : directory ∉ pinned
  owned : Owned setup (rowsAt fresh.resolve fresh.rows directory) fresh.scopes
  unambiguous : ∀ row ∈ rowsAt fresh.resolve fresh.rows directory, ∀ other ∈ fresh.rows,
    other.issueNumber = row.issueNumber →
      ((fresh.scopes.lookup other.leaseId).isSome ↔ (fresh.scopes.lookup row.leaseId).isSome)
  dropped : ∀ row ∈ rowsAt fresh.resolve fresh.rows directory, row.issueNumber ∈ fresh.group.issues
  closed : ∀ row ∈ rowsAt fresh.resolve fresh.rows directory,
    ⟨.closure (closureRead (ownTaskScope fresh.group) row.issueNumber) row.issueNumber, .closed⟩ ∈ closures
  linked : ∃ row ∈ rowsAt fresh.resolve fresh.rows directory, ∃ tree, Shows cleanupCalls tree guards ∧
    LinkedWorktree fresh.resolve identity row.worktreePath tree
  idle : ∃ host, Shows hosting host running ∧ Idle fresh.resolve directory none [] host
  vacant : ∃ host, Shows hosting host vacancy ∧ Vacant fresh.resolve directory
    (associatedSessions fresh.resolve fresh.rows directory) host
  observes : ∀ act ∈ vacancy ++ closures ++ running ++ guards, act.effect.Observes

theorem evidence_of_found {setup : PruneSetup} {identity : String} {pinned : List String} {fresh : Fresh}
    {group : DirectoryGroup} {vacancy closures running guards : PruneHistory}
    (found : Found setup identity pinned fresh closures running guards)
    (gathers : Gathers fresh.resolve fresh.rows group)
    (attached : fresh.group = attachScopeProof fresh.scopes group)
    (vacant : ∃ host, Shows hosting host vacancy ∧ Vacant fresh.resolve group.canonicalPath
      (associatedSessions fresh.resolve fresh.rows group.canonicalPath) host)
    (observes : ∀ act ∈ vacancy ++ closures ++ running ++ guards, act.effect.Observes) :
    Evidence setup identity pinned group.canonicalPath fresh vacancy closures running guards := by
  have rows : fresh.group.rows = group.rows := by rw [attached]; rfl
  have issues : fresh.group.issues = group.issues := by rw [attached]; rfl
  have path : fresh.group.canonicalPath = group.canonicalPath := by rw [attached]; rfl
  have member : ∀ row, row ∈ fresh.group.rows ↔ row ∈ rowsAt fresh.resolve fresh.rows group.canonicalPath :=
    fun row => rows ▸ gathers.members row
  have numbered : ∀ row ∈ rowsAt fresh.resolve fresh.rows group.canonicalPath,
      row.issueNumber ∈ fresh.group.issues := fun row among => by
    rw [issues, gathers.issues]
    exact ⟨row, (gathers.members row).mpr among, rfl⟩
  obtain ⟨first, rest, split⟩ := List.exists_cons_of_ne_nil gathers.inhabited
  have here : first ∈ rowsAt fresh.resolve fresh.rows group.canonicalPath :=
    (gathers.members first).mp (split ▸ List.mem_cons_self)
  refine ⟨List.ne_nil_of_mem here, fun row among => found.settled row ((member row).mpr among),
    path ▸ found.unpinned, ?_, fun row among other listed same => ?_, numbered,
    fun row among => found.closed _ (numbered row among), ⟨first, here, ?_⟩, path ▸ found.idle, vacant,
    observes⟩
  · obtain ⟨legacy, bare⟩ | ⟨key, same, authority⟩ := found.owned
    · exact .inl ⟨legacy, fun row among => bare row ((member row).mpr among)⟩
    · exact .inr ⟨key, fun row among => same row ((member row).mpr among), authority⟩
  · have clear := found.unambiguous row.issueNumber (numbered row among)
    exact sameNumberAmbiguous_false clear other listed row (mem_rowsAt.mp among).1 same rfl
  · have shown : representative fresh.group = first := by
      rw [representative, rows, split]
      rfl
    exact shown ▸ found.guarded

/-- The evidence stands at the newest end of the history, on top of a status that found the worktree
clean after the last change. -/
def Cleared (setup : PruneSetup) (identity : String) (pinned : List String) (directory target : String)
    (h : PruneHistory) : Prop :=
  ∃ fresh repoKey status vacancy closures running guards older,
    h = vacancy ++ closures ++ running ++ guards ++ ⟨.pathEntry directory, .present⟩ ::
      (rereading identity repoKey fresh ++
        ⟨.cleanup (.git ["status", "--porcelain"] target), .ok status⟩ :: older) ∧
    Clean status ∧ fresh.resolve target = directory ∧
    Evidence setup identity pinned directory fresh vacancy closures running guards

theorem Cleared.newer {setup : PruneSetup} {identity : String} {pinned : List String}
    {directory target : String} {part before : PruneHistory}
    (cleared : Cleared setup identity pinned directory target part) :
    Cleared setup identity pinned directory target (part ++ before) := by
  obtain ⟨fresh, repoKey, status, vacancy, closures, running, guards, older, rfl, rest⟩ := cleared
  exact ⟨fresh, repoKey, status, vacancy, closures, running, guards, older ++ before, by simp, rest⟩

variable {setup : PruneSetup} {identity : String} {repoKey : Option String} {pinned : List String}
  {candidate : DirectoryCandidate}

theorem regroupFound_ok {resolve : String → String} {rows : List LeaseRow} {group : DirectoryGroup}
    (chosen : regroupFound candidate ((groupRows resolve rows).find?
      (·.canonicalPath = candidate.canonicalPath)) = .ok group) :
    Gathers resolve rows group ∧ group.canonicalPath = candidate.canonicalPath := by
  unfold regroupFound at chosen
  split at chosen
  · rename_i found listed
    obtain rfl := Except.ok.inj chosen
    exact ⟨gathers_groupRows (List.mem_of_find?_eq_some listed),
      of_decide_eq_true (List.find?_some (p := fun group : DirectoryGroup =>
        decide (group.canonicalPath = candidate.canonicalPath)) listed)⟩
  · exact absurd chosen (by simp)

theorem reads_lastRecheck :
    Reads PruneOp.Observes (postMoveRecheck setup identity repoKey pinned candidate false)
      fun _ part => ∃ fresh vacancy closures running guards,
        part = vacancy ++ closures ++ running ++ guards ++
          ⟨.pathEntry candidate.canonicalPath, .present⟩ :: rereading identity repoKey fresh ∧
        fresh.resolve candidate.worktreePath = candidate.canonicalPath ∧
        Evidence setup identity pinned candidate.canonicalPath fresh vacancy closures running guards := by
  apply reads_bind (reads_reread (regroupFound candidate))
  rintro fresh _ ⟨rfl, stays, group, chosen, attached⟩
  obtain ⟨gathers, path⟩ := regroupFound_ok chosen
  have path' : fresh.group.canonicalPath = candidate.canonicalPath := by rw [attached]; exact path
  apply reads_bind (reads_outcome (reads_classifyFresh attached gathers.leaseIds).stays)
  intro classification classified verdict
  apply reads_bind (M := fun _ part => part = []) (reads_fromExcept fun _ _ => rfl)
  rintro _ _ rfl
  apply reads_bind (M := fun cache part => part = [] ∧ classification = .ok cache)
  · exact reads_fromExcept fun cache removable => ⟨rfl, mapError_eq_ok.mp removable⟩
  rintro cache _ ⟨rfl, removable⟩
  obtain ⟨⟨closures, running, guards, rfl, found⟩, seen⟩ := verdict cache removable
  simp only [Bool.false_eq_true, if_false]
  apply (reads_verifyVacancy fresh).stays.weaken
  rintro _ vacancy ⟨vacant, looked⟩
  have observes : ∀ act ∈ vacancy ++ closures ++ running ++ guards, act.effect.Observes := by
    intro act among
    rw [List.append_assoc, List.append_assoc] at among
    obtain last | earlier := List.mem_append.mp among
    · exact looked act last
    · exact seen act (List.mem_append_left _ (by simpa using earlier))
  refine ⟨fresh, vacancy, closures, running, guards, ?_, stays, ?_⟩
  · rw [path']
    simp
  · rw [← path] at vacant ⊢
    exact evidence_of_found found gathers attached vacant observes

theorem reads_requireClean (worktree dirty unread : String) :
    Reads CleanupOp.Observes (Cleanup.requireClean worktree dirty unread) fun _ part =>
      ∃ status, part = [⟨.git ["status", "--porcelain"] worktree, .ok status⟩] ∧ Clean status := by
  apply reads_bind (reads_renameFailure (reads_isClean worktree))
  rintro clean _ ⟨status, rfl, seen⟩
  apply reads_fromExcept
  intro _ passed
  rw [refuse_eq_ok, Bool.not_eq_false] at passed
  exact ⟨status, rfl, readStatus_ok.mp (passed ▸ seen)⟩

theorem reads_clearCacheOnly (worktree : String) (expected : Option CacheInventory) :
    Reads CleanupOp.Spares (Cleanup.clearCacheOnly worktree expected) fun _ part => ∃ status older,
      part = ⟨.git ["status", "--porcelain"] worktree, .ok status⟩ :: older ∧ Clean status := by
  cases expected with
  | none =>
      apply ((reads_requireClean worktree _ _).wider fun _ observes => observes.spares).weaken
      rintro _ _ ⟨status, rfl, clean⟩
      exact ⟨status, [], rfl, clean⟩
  | some expected =>
      have inspecting := reads_of_performs (spares (observes (performs_inspect worktree)))
      apply reads_bind inspecting
      intro inspection part _
      apply reads_bind (M := fun _ _ => True) (reads_fromExcept fun _ _ => trivial)
      intro _ part' _
      have removing : Reads CleanupOp.Spares (request (.removeCache worktree)
          (·.mapError fun error => "removing the root .cache failed: " ++ Lease.bounded error) :
            CleanupM Unit) fun _ _ => True :=
        reads_request (by simp [CleanupOp.Spares]) fun _ _ _ => trivial
      apply reads_bind removing
      intro _ part'' _
      apply ((reads_requireClean worktree _ _).wider fun _ observes => observes.spares).weaken
      rintro _ _ ⟨status, rfl, clean⟩
      exact ⟨status, part'' ++ (part' ++ part), by simp, clean⟩

theorem reads_clearAndRecheck :
    Reads PruneOp.Spares (clearAndRecheck setup identity repoKey pinned candidate) fun _ part =>
      Cleared setup identity pinned candidate.canonicalPath candidate.worktreePath part := by
  have clearing : Reads PruneOp.Spares
      (embed cleanupCalls (Cleanup.clearCacheOnly candidate.worktreePath candidate.cache))
      fun _ part => ∃ tree, Shows cleanupCalls tree part ∧ ∃ status older,
        tree = ⟨.git ["status", "--porcelain"] candidate.worktreePath, .ok status⟩ :: older ∧
          Clean status := by
    apply reads_embed _ (reads_clearCacheOnly candidate.worktreePath candidate.cache)
    rintro op spares target workdir same
    exact spares target workdir (PruneOp.cleanup.inj same)
  apply reads_bind (reads_renameFailure clearing)
  rintro _ _ ⟨_, shown, status, older, rfl, clean⟩
  cases shown with
  | @cons _ _ before r earlier =>
      apply (reads_renameFailure (reads_lastRecheck.wider fun _ observes => observes.spares)).weaken
      rintro _ _ ⟨fresh, vacancy, closures, running, guards, rfl, stays, evidence⟩
      exact ⟨fresh, repoKey, status, vacancy, closures, running, guards, before,
        by simp [cleanupCalls], clean, stays, evidence⟩

end Cleared

section Spared
variable {setup : PruneSetup} {identity repoPath : String} {repoKey : Option String}
  {pinned : List String} {scanned : List LeaseRow} {candidate : DirectoryCandidate}

variable {okay : PruneOp → Prop}

theorem observing {α : Type} {p : PruneProg α} (calls : p.Calls PruneOp.Observes) :
    p.Calls PruneOp.Spares :=
  calls.mono fun _ observes => observes.spares

theorem performs_hosting {ε α : Type} (host : ∀ op : HostOp, okay (.cleanup (.host op)))
    (p : Attempt HostOp HostOp.Ret ε α) : Performs okay (embed hosting p) := by
  have all : Performs (fun _ => True) p := by
    unfold Performs
    exact .of_forall (fun _ => trivial) _
  exact performs_embed all fun op _ => host op

theorem performs_recheck :
    Performs PruneOp.Observes (recheck setup identity repoKey pinned candidate) := by
  have whole : Reads PruneOp.Observes (recheck setup identity repoKey pinned candidate)
      fun _ _ => True := by
    apply reads_bind (reads_reread fun found => .ok (found.getD (emptyGroup candidate)))
    rintro fresh _ ⟨rfl, stays, group, chosen, attached⟩
    have gathered : group.leaseIds = group.rows.map (·.leaseId) := by
      obtain rfl := Except.ok.inj chosen
      cases listed : (groupRows fresh.resolve fresh.rows).find?
          (·.canonicalPath = candidate.canonicalPath) with
      | none => rfl
      | some found => exact (gathers_groupRows (List.mem_of_find?_eq_some listed)).leaseIds
    apply reads_bind (reads_renameFailure (reads_classifyFresh attached gathered))
    exact fun _ _ _ => reads_pure trivial
  exact whole.performs

theorem performs_postMoveRecheck (compareCache : Bool) :
    Performs PruneOp.Observes
      (postMoveRecheck setup identity repoKey pinned candidate compareCache) := by
  cases compareCache with
  | false => exact reads_lastRecheck.performs
  | true =>
      have whole : Reads PruneOp.Observes (postMoveRecheck setup identity repoKey pinned candidate true)
          fun _ _ => True := by
        apply reads_bind (reads_reread (regroupFound candidate))
        rintro fresh _ ⟨rfl, stays, group, chosen, attached⟩
        have gathered := (regroupFound_ok chosen).1.leaseIds
        apply reads_bind (reads_outcome (reads_classifyFresh attached gathered))
        intro classification _ _
        apply reads_bind (M := fun _ _ => True) (reads_fromExcept fun _ _ => trivial)
        intro _ _ _
        apply reads_bind (M := fun _ _ => True) (reads_fromExcept fun _ _ => trivial)
        exact fun _ _ _ => reads_pure trivial
      exact whole.performs

theorem performs_relocate (looks : ∀ op : PruneOp, op.Observes → okay op)
    (host : ∀ op : HostOp, okay (.cleanup (.host op))) :
    Performs okay (relocate setup identity repoKey pinned candidate) := by
  apply performs_bind (performs_recheck.mono looks)
  intro checked
  apply performs_bind (performs_fromExcept _)
  intro _
  apply performs_bind (performs_request (looks .canonicalPaths trivial))
  intro resolve
  apply performs_bind (performs_hosting host _)
  exact fun _ => (performs_postMoveRecheck true).mono looks

theorem PruneOp.spares_host (op : HostOp) : PruneOp.Spares (.cleanup (.host op)) := by
  rintro target workdir impossible
  exact absurd (PruneOp.cleanup.inj impossible) (by simp)

theorem calls_previewFamily (resolve : String → String) :
    (previewFamily scanned candidate resolve).Calls PruneOp.Observes := by
  have looks : (finalizeFamilyWith resolve .preview candidate.canonicalPath (associatedSessions resolve
      scanned candidate.canonicalPath) none .noWait).Calls HostOp.Looks := by
    apply (along_finalizeFamilyWith _ none .noWait).performed
    intro h op guarded
    cases op <;> first | trivial | exact absurd guarded.1 (by simp)
  exact looks.embed fun _ looks => looks

theorem calls_preview (action : PruneAction) :
    (preview scanned candidate action).Calls PruneOp.Observes := by
  refine ⟨trivial, fun resolve => ?_⟩
  apply Prog.Calls.bind (calls_previewFamily resolve)
  intro family
  have detailed : (previewCacheDetail candidate).Calls PruneOp.Observes := by
    have inspected := (observes (performs_inspect candidate.canonicalPath)).calls
    exact (inspected.embed fun _ observes => observes).bind fun _ => trivial
  split
  · trivial
  · exact detailed.bind fun _ => trivial

theorem calls_flipLeases (removed : String) (leaseIds : List String) (action : PruneAction) :
    (flipLeases removed leaseIds action).Calls PruneOp.Spares := by
  induction leaseIds with
  | nil => trivial
  | cons leaseId rest ih =>
      refine ⟨by simp [PruneOp.Spares], fun r => ?_⟩
      cases r with
      | ok u => exact ih
      | error error => trivial

theorem calls_reloadStatuses (leaseIds : List String) (action : PruneAction) :
    (reloadStatuses leaseIds action).Calls PruneOp.Observes := by
  induction leaseIds generalizing action with
  | nil => trivial
  | cons leaseId rest ih =>
      refine ⟨trivial, fun r => ?_⟩
      rcases r with error | found
      · trivial
      · cases found with
        | none => trivial
        | some updated => exact ih _

theorem calls_applyMissing (looks : ∀ op : PruneOp, op.Observes → okay op)
    (releases : ∀ identity repoKey targets approved,
      okay (.releaseAbsentLeases identity repoKey targets approved)) (action : PruneAction) :
    (applyMissing setup identity repoKey candidate action).Calls okay := by
  unfold applyMissing
  dsimp only
  split
  · refine ⟨releases _ _ _ _, fun r => ?_⟩
    rcases r with error | flipped
    · trivial
    · cases flipped with
      | nil => trivial
      | cons first rest => exact ((calls_reloadStatuses _ _).mono looks).bind fun _ => trivial
  · trivial

end Spared

section Scanned
variable {setup : PruneSetup} {identity : String} {pinned : List String} {resolve : String → String}
  {rows : List LeaseRow} {scopes : ScopeMap}

theorem performs_localVerdict (group : DirectoryGroup) :
    Performs PruneOp.Observes (localVerdict setup identity pinned resolve rows scopes group) := by
  apply performs_bind (performs_fromExcept _)
  intro _
  apply performs_bind (performs_fromExcept _)
  intro _
  apply performs_bind (performs_request trivial)
  intro _
  apply performs_renameFailure
  exact performs_embed (observes (performs_evaluateGuards _ _ _ _)) fun _ observes => observes

theorem performs_verdict (group : DirectoryGroup) (running : Except String (List LocatedSession))
    (cache : Option CacheInventory) :
    Performs PruneOp.Observes (verdict resolve group running cache) := by
  apply performs_bind (performs_fromExcept _)
  intro _
  apply performs_bind (performs_fromExcept _)
  intro _
  exact performs_bind (reads_closureOf group).performs fun _ => performs_pure _

theorem calls_scanHost (memo : ScanHostCache) (op : HostOp) :
    (memo.serve op).Calls PruneOp.Observes := by
  cases op with
  | session id =>
      simp only [ScanHostCache.serve]
      split
      · trivial
      · exact ⟨trivial, fun _ => trivial⟩
  | list listed cursor => trivial
  | moveSession id destination => trivial
  | activeSessions =>
      simp only [ScanHostCache.serve]
      split
      · trivial
      · exact ⟨trivial, fun _ => trivial⟩
  | resolveMainCheckout => exact ⟨trivial, fun _ => trivial⟩
  | budgetExpired => exact ⟨trivial, fun _ => trivial⟩
  | budgetRemaining => exact ⟨trivial, fun _ => trivial⟩
  | poll milliseconds => exact ⟨trivial, fun _ => trivial⟩

end Scanned

section Removing

def removalOutcome (r : Except WorktreeError GitOutput) : Except WorktreeError Unit :=
  r.bind fun output => refuse (output.status ≠ 0)
    (.new "git" ("git worktree remove failed with exit status " ++ toString output.status))

theorem embed_worktreeRemove (repoPath target : String) :
    (worktreeRemove repoPath target).run.embed cleanupCalls =
      .call (.cleanup (.git ["worktree", "remove", target] repoPath)) fun r =>
        .done (removalOutcome r) := by
  change Prog.call _ _ = Prog.call _ _
  congr 1
  funext r
  cases r <;> rfl

end Removing

section Justified

/-- The repository is the next to begin: those before it have ended, and the history is theirs. -/
def Opened (setup : PruneSetup) (scopes : List Scope) (memo : ScanHostCache) (h₀ : PruneHistory)
    (scope : RepoScope) (opening : PruneHistory) : Prop :=
  ∃ done rest outcomes, scopes = done ++ .resolved scope :: rest ∧
    (pruneRepositories setup done memo).run.Finishes h₀ (.ok outcomes) opening

-- What a repository reads before anything else: its scopes, its rows and where their paths lead.
def Begins (scope : RepoScope) (start : List LeaseRow) (pin : String → String)
    (opening h : PruneHistory) : Prop :=
  ∃ sidecars, h = ⟨.canonicalPaths, pin⟩ :: ⟨.cleanup (.listAllForRepo scope.identity), .ok start⟩ ::
    ⟨.cleanup (.scopeMapForRepo scope.identity scope.repoKey), .ok sidecars⟩ :: opening

/-- A removal belongs to an invocation that removes; the directory did not hold an active lease when
its repository began, and its evidence is newer than the scan. -/
def Justified (setup : PruneSetup) (opened : RepoScope → PruneHistory → Prop) (target workdir : String)
    (h : PruneHistory) : Prop :=
  setup.mode = .remove ∧ ∃ scope start pin scan after between beginning opening,
    opened scope opening ∧ Begins scope start pin opening beginning ∧ workdir = scope.path ∧
    h = after ++ ⟨.canonicalPaths, scan⟩ :: (between ++ beginning) ∧
    Cleared setup scope.identity (pinnedActivePaths pin start) (scan target) target after

def removalGuard (setup : PruneSetup) (opened : RepoScope → PruneHistory → Prop) (h : PruneHistory)
    (op : PruneOp) : Prop :=
  ∀ target workdir, op = .cleanup (.git ["worktree", "remove", target] workdir) →
    Justified setup opened target workdir h

variable {setup : PruneSetup} {opened : RepoScope → PruneHistory → Prop}

theorem removalGuard_of_spares (h : PruneHistory) {op : PruneOp} (spares : op.Spares) :
    removalGuard setup opened h op :=
  fun target workdir same => (spares target workdir same).elim

theorem removalGuard.wider {opened' : RepoScope → PruneHistory → Prop} {h : PruneHistory} {op : PruneOp}
    (guarded : removalGuard setup opened h op)
    (implies : ∀ scope opening, opened scope opening → opened' scope opening) :
    removalGuard setup opened' h op := by
  intro target workdir same
  obtain ⟨removes, scope, start, pin, scan, after, between, beginning, opening, open', rest⟩ :=
    guarded target workdir same
  exact ⟨removes, scope, start, pin, scan, after, between, beginning, opening, implies _ _ open', rest⟩

def Begun (opened : RepoScope → PruneHistory → Prop) (scope : RepoScope) (start : List LeaseRow)
    (pin : String → String) (h : PruneHistory) : Prop :=
  ∃ between beginning opening, h = between ++ beginning ∧ opened scope opening ∧
    Begins scope start pin opening beginning

def Underway (opened : RepoScope → PruneHistory → Prop) (scope : RepoScope) (start : List LeaseRow)
    (pin scan : String → String) (h : PruneHistory) : Prop :=
  ∃ after before, h = after ++ ⟨.canonicalPaths, scan⟩ :: before ∧ Begun opened scope start pin before

variable {scope : RepoScope} {start : List LeaseRow} {pin scan : String → String}

theorem Begun.newer {h : PruneHistory} (begun : Begun opened scope start pin h) (part : PruneHistory) :
    Begun opened scope start pin (part ++ h) := by
  obtain ⟨between, beginning, opening, rfl, rest⟩ := begun
  exact ⟨part ++ between, beginning, opening, by simp, rest⟩

theorem Underway.newer {h : PruneHistory} (underway : Underway opened scope start pin scan h)
    (part : PruneHistory) : Underway opened scope start pin scan (part ++ h) := by
  obtain ⟨after, before, rfl, begun⟩ := underway
  exact ⟨part ++ after, before, by simp, begun⟩

theorem along_spared {α : Type} {P : PruneHistory → Prop} {p : PruneProg α}
    (kept : ∀ part h, P h → P (part ++ h)) (calls : p.Calls PruneOp.Spares) {h : PruneHistory}
    (holds : P h) : p.Along (removalGuard setup opened) (fun _ => P) h :=
  Prog.Along.calls (fun h _ _ spares => removalGuard_of_spares h spares)
    (fun h e r before _ => kept [⟨e, r⟩] h before) calls holds

variable {repoPath : String} {repoKey : Option String} {scanned : List LeaseRow}
  {candidate : DirectoryCandidate}

theorem along_underway {α : Type} {p : PruneProg α} (calls : p.Calls PruneOp.Spares)
    {h : PruneHistory} (underway : Underway opened scope start pin scan h) :
    p.Along (removalGuard setup opened) (fun _ => Underway opened scope start pin scan) h :=
  along_spared (fun part _ before => before.newer part) calls underway

theorem along_clearAndRecheck {h : PruneHistory} (underway : Underway opened scope start pin scan h) :
    (clearAndRecheck setup scope.identity repoKey (pinnedActivePaths pin start) candidate).run.Along
      (removalGuard setup opened) (fun result h' => Underway opened scope start pin scan h' ∧
        (result = .ok () → ∃ part before, h' = part ++ before ∧
          Underway opened scope start pin scan before ∧ Cleared setup scope.identity
            (pinnedActivePaths pin start) candidate.canonicalPath candidate.worktreePath part)) h := by
  have clearing : Reads PruneOp.Spares
      (clearAndRecheck setup scope.identity repoKey (pinnedActivePaths pin start) candidate) fun _ part =>
        Cleared setup scope.identity (pinnedActivePaths pin start) candidate.canonicalPath
          candidate.worktreePath part := reads_clearAndRecheck
  have traced := (clearing (removalGuard setup opened) fun h _ spares =>
    removalGuard_of_spares h spares).after (P := Underway opened scope start pin scan)
  unfold Traced at traced
  apply (traced h underway).weaken
  intro result h' ended
  cases result with
  | ok u =>
      obtain ⟨before, part, rfl, earlier, cleared⟩ := ended
      exact ⟨earlier.newer part, fun _ => ⟨part, before, rfl, earlier, cleared⟩⟩
  | error reason =>
      obtain ⟨before, part, rfl, earlier, _⟩ := ended
      exact ⟨earlier.newer part, fun impossible => absurd impossible (by simp)⟩

theorem along_applyRemoval (removes : setup.mode = .remove)
    (resolved : scan candidate.worktreePath = candidate.canonicalPath) (action : PruneAction)
    {h : PruneHistory} (underway : Underway opened scope start pin scan h) :
    (applyRemoval setup scope.identity scope.path repoKey (pinnedActivePaths pin start) candidate
      action).Along (removalGuard setup opened)
        (fun _ => Underway opened scope start pin scan) h := by
  apply Prog.Along.bind
  apply (along_clearAndRecheck underway).weaken
  rintro result h' ⟨still, rests⟩
  cases result with
  | error reason => exact still
  | ok u =>
      obtain ⟨part, _, rfl, ⟨after, _, rfl, between, beginning, opening, rfl, began⟩, cleared⟩ := rests rfl
      rw [← resolved] at cleared
      rw [embed_worktreeRemove]
      refine ⟨?_, fun r => ?_⟩
      · rintro target workdir same
        obtain ⟨rfl, rfl⟩ : candidate.worktreePath = target ∧ scope.path = workdir := by
          simpa using same
        exact ⟨removes, scope, start, pin, scan, part ++ after, between, beginning, opening, began.1,
          began.2, rfl, by simp, cleared.newer⟩
      · have removed := still.newer [⟨.cleanup (.git ["worktree", "remove", candidate.worktreePath]
          scope.path), r⟩]
        simp only [Prog.bind_done]
        split
        · exact along_underway (calls_flipLeases _ _ _) removed
        · exact removed

theorem along_applyCandidate (resolved : scan candidate.worktreePath = candidate.canonicalPath) {h : PruneHistory}
    (underway : Underway opened scope start pin scan h) :
    (applyCandidate setup scope.identity scope.path repoKey (pinnedActivePaths pin start) scanned
      candidate).Along (removalGuard setup opened)
        (fun _ => Underway opened scope start pin scan) h := by
  unfold applyCandidate
  dsimp only
  split
  · exact underway
  · exact underway
  · exact underway
  · exact underway
  · exact along_underway (calls_applyMissing (fun _ observes => observes.spares)
      (by simp [PruneOp.Spares]) _) underway
  · unfold applyRemovable
    split
    · exact along_underway (observing (calls_preview _)) underway
    · rename_i fires
      have removes : setup.mode = .remove := by
        cases mode : setup.mode with
        | report => exact (fires mode).elim
        | remove => rfl
      apply Prog.Along.bind
      have relocating : Performs PruneOp.Spares (relocate setup scope.identity repoKey
          (pinnedActivePaths pin start) candidate) :=
        performs_relocate (fun _ observes => observes.spares) PruneOp.spares_host
      apply (along_underway relocating.calls underway).weaken
      intro result h' still
      cases result with
      | error reason => exact still
      | ok u => exact along_applyRemoval removes resolved _ still

theorem along_applyCandidates 
    {candidates : List DirectoryCandidate}
    (resolved : ∀ candidate ∈ candidates, scan candidate.worktreePath = candidate.canonicalPath)
    {h : PruneHistory} (underway : Underway opened scope start pin scan h) :
    (applyCandidates setup scope.identity scope.path (pinnedActivePaths pin start) scanned repoKey
      candidates).Along (removalGuard setup opened)
        (fun _ => Underway opened scope start pin scan) h := by
  induction candidates generalizing h with
  | nil => exact underway
  | cons candidate rest ih =>
      obtain ⟨own, others⟩ := List.forall_mem_cons.mp resolved
      apply Prog.Along.bind
      apply (along_applyCandidate own underway).weaken
      intro action h' still
      apply Prog.Along.bind
      exact (ih others still).weaken fun _ _ ended => ended

variable {sidecars : ScopeMap} {pinned : List String}

theorem along_classify (group : DirectoryGroup)
    (resolved : scan group.worktreePath = group.canonicalPath) (memo : ScanHostCache)
    {h : PruneHistory} (underway : Underway opened scope start pin scan h) :
    (classify setup scope.identity pinned scan scanned sidecars group memo).Along (removalGuard setup opened)
      (fun answer h' => scan answer.1.worktreePath = answer.1.canonicalPath ∧
        Underway opened scope start pin scan h') h := by
  apply Prog.Along.bind
  apply (along_underway
    (observing (performs_localVerdict group).calls) underway).weaken
  intro result h₁ still
  cases result with
  | error disposition => exact ⟨resolved, still⟩
  | ok cache =>
      apply Prog.Along.bind
      apply (along_underway
        (observing (Prog.Calls.serve calls_scanHost _ memo)) still).weaken
      intro answer h₂ still
      apply Prog.Along.bind
      apply (along_underway
        (observing (performs_verdict group answer.1 cache).calls) still).weaken
      exact fun classification h₃ still => ⟨resolved, still⟩

theorem along_scanGroups {groups : List DirectoryGroup}
    (resolved : ∀ group ∈ groups, scan group.worktreePath = group.canonicalPath) (memo : ScanHostCache)
    {h : PruneHistory} (underway : Underway opened scope start pin scan h) :
    (scanGroups setup scope.identity pinned scan scanned sidecars groups memo).Along
      (removalGuard setup opened) (fun answer h' =>
        (∀ candidate ∈ answer.1, scan candidate.worktreePath = candidate.canonicalPath) ∧
          Underway opened scope start pin scan h') h := by
  induction groups generalizing memo h with
  | nil => exact ⟨by simp, underway⟩
  | cons group rest ih =>
      obtain ⟨own, others⟩ := List.forall_mem_cons.mp resolved
      apply Prog.Along.bind
      apply (along_classify (attachScopeProof sidecars group) own memo underway).weaken
      rintro ⟨candidate, memo⟩ h' ⟨here, still⟩
      apply Prog.Along.bind
      apply (ih others memo still).weaken
      rintro ⟨candidates, memo⟩ h'' ⟨later, still⟩
      exact ⟨List.forall_mem_cons.mpr ⟨here, later⟩, still⟩

theorem removalGuard_of_observes (h : PruneHistory) {op : PruneOp} (observes : op.Observes) :
    removalGuard setup opened h op :=
  removalGuard_of_spares h observes.spares

theorem along_prunePass (memo : ScanHostCache)
    {h : PruneHistory} (begun : Begun opened scope start pin h) :
    (prunePassWithPolicy setup scope.identity scope.path (pinnedActivePaths pin start) scanned
      memo).Along (removalGuard setup opened) (fun _ _ => True) h := by
  refine ⟨removalGuard_of_observes _ trivial, fun repoKey =>
    ⟨removalGuard_of_observes _ trivial, fun answer => ?_⟩⟩
  cases answer with
  | error error =>
      apply Prog.Along.bind
      exact ⟨removalGuard_of_observes _ trivial, fun _ => trivial⟩
  | ok sidecars =>
      refine ⟨removalGuard_of_observes _ trivial, fun scan => ?_⟩
      have underway : Underway opened scope start pin scan (⟨.canonicalPaths, scan⟩ ::
          ⟨.cleanup (.scopeMapForRepo scope.identity repoKey), .ok sidecars⟩ ::
            ⟨.cleanup (.verifiedRepoKey scope.identity), repoKey⟩ :: h) :=
        ⟨[], _, rfl, begun.newer [⟨.cleanup (.scopeMapForRepo scope.identity repoKey), .ok sidecars⟩,
          ⟨.cleanup (.verifiedRepoKey scope.identity), repoKey⟩]⟩
      apply Prog.Along.bind
      apply (along_scanGroups
        (fun group among => (gathers_groupRows among).resolves) memo underway).weaken
      rintro ⟨candidates, memo⟩ h' ⟨resolved, still⟩
      apply Prog.Along.bind
      exact (along_applyCandidates resolved still).weaken fun _ _ _ => trivial

theorem performs_recoverStale (candidates : List LeaseRow) :
    Performs PruneOp.Spares (recoverStale setup scope candidates) := by
  unfold recoverStale
  split
  · exact performs_pure _
  · exact performs_bind (performs_request (by simp [PruneOp.Spares])) fun _ => performs_pure _

theorem performs_refreshedRows (summary : ReleaseStaleSummary) :
    Performs PruneOp.Spares (refreshedRows scope.identity start summary) := by
  unfold refreshedRows
  split
  · exact performs_request (by simp [PruneOp.Spares])
  · exact performs_pure _

theorem traced_begun {α : Type} {p : InvocationM α} (performs : Performs PruneOp.Spares p) :
    Traced (removalGuard setup opened) (Begun opened scope start pin) p
      (fun _ => Begun opened scope start pin) fun _ _ => True := by
  have traced : Traced (removalGuard setup opened) (Begun opened scope start pin) p
      (fun _ => Begun opened scope start pin) fun _ => Begun opened scope start pin :=
    traced_performs (fun h _ _ spares => removalGuard_of_spares h spares)
      (fun _ e r before _ => Begun.newer before [⟨e, r⟩]) performs
  exact traced.weaken (fun _ _ holds => holds) fun _ _ _ => trivial

theorem along_pruneRepository (memo : ScanHostCache) {opening : PruneHistory}
    (opens : opened scope opening) :
    (pruneRepository setup scope memo).run.Along (removalGuard setup opened) (fun _ _ => True)
      opening := by
  have traced : Traced (removalGuard setup opened) (· = opening) (pruneRepository setup scope memo)
      (fun _ _ => True) fun _ _ => True := by
    apply traced_bind (M := fun sidecars h =>
      h = ⟨.cleanup (.scopeMapForRepo scope.identity scope.repoKey), sidecars⟩ :: opening)
    · apply traced_request
      · exact fun h _ => removalGuard_of_observes h trivial
      · rintro _ r rfl
        rfl
    intro validated
    cases validated with
    | error error => exact traced_pure fun _ _ => trivial
    | ok sidecars =>
        apply traced_bind (M := fun start h =>
          h = ⟨.cleanup (.listAllForRepo scope.identity), .ok start⟩ ::
            ⟨.cleanup (.scopeMapForRepo scope.identity scope.repoKey), .ok sidecars⟩ :: opening)
        · apply traced_request
          · exact fun h _ => removalGuard_of_observes h trivial
          · rintro _ r rfl
            cases r with
            | ok start => rfl
            | error error => trivial
        intro start
        apply traced_bind (M := fun pin h => Begun opened scope start pin h)
        · apply traced_request
          · exact fun h _ => removalGuard_of_observes h trivial
          · rintro _ pin rfl
            exact ⟨[], _, opening, rfl, opens, sidecars, rfl⟩
        intro pin
        apply traced_bind (traced_begun (performs_request (by simp [PruneOp.Spares])))
        intro stale
        apply traced_bind (traced_begun (performs_recoverStale _))
        intro leases
        apply traced_bind (traced_begun (performs_refreshedRows leases))
        intro rows
        apply traced_bind (M := fun _ _ => True)
        · unfold Traced
          intro h begun
          apply Prog.Along.map
          exact (along_prunePass memo begun).weaken fun _ _ _ => trivial
        · exact fun _ => traced_pure fun _ _ => trivial
  unfold Traced at traced
  exact (traced opening rfl).weaken fun _ _ _ => trivial

/-- By induction on the repositories: the first begins at once, and any other where its predecessors in
the rest have ended, with the first before them. -/
theorem along_pruneRepositories (scopes : List Scope) (memo : ScanHostCache) (h₀ : PruneHistory) :
    (pruneRepositories setup scopes memo).run.Along (removalGuard setup (Opened setup scopes memo h₀))
      (fun _ _ => True) h₀ := by
  induction scopes generalizing memo h₀ with
  | nil => trivial
  | cons first rest ih =>
      cases first with
      | skipped identity reason =>
          rw [pruneRepositories, run_bind]
          apply Prog.Along.bind
          apply ((ih memo h₀).wider fun h op guarded => guarded.wider ?_).weaken
          · rintro (_ | outcomes) h _ <;> trivial
          · rintro scope opening ⟨done, others, outcomes, rfl, ended⟩
            refine ⟨.skipped identity reason :: done, others, skippedOutcome identity reason :: outcomes,
              rfl, ?_⟩
            rw [pruneRepositories, run_bind]
            exact ended.bind ⟨rfl, rfl⟩
      | resolved first =>
          rw [pruneRepositories, run_bind]
          have opens : Opened setup (.resolved first :: rest) memo h₀ first h₀ :=
            ⟨[], rest, [], rfl, rfl, rfl⟩
          apply Prog.Along.bind
          apply (along_pruneRepository memo opens).finishes.weaken
          rintro (_ | ⟨outcome, memo'⟩) h ⟨-, own⟩
          · trivial
          · dsimp only
            rw [run_bind]
            apply Prog.Along.bind
            apply ((ih memo' h).wider fun _ op guarded => guarded.wider ?_).weaken
            · rintro (_ | outcomes) h _ <;> trivial
            · rintro scope opening ⟨done, others, outcomes, rfl, ended⟩
              refine ⟨.resolved first :: done, others, outcome :: outcomes, rfl, ?_⟩
              rw [pruneRepositories, run_bind]
              apply own.bind
              dsimp only
              rw [run_bind]
              exact ended.bind ⟨rfl, rfl⟩

/-- Whatever is answered and changed between the reads, a pass over any repositories asks Git to
remove a directory only on evidence re-read after its last change, and never one that held an active
lease when its repository began, whether or not that lease was recovered since. -/
theorem prune_rests_on_fresh_evidence (setup : PruneSetup) (scopes : List Scope)
    (memo : ScanHostCache) {h : PruneHistory}
    {p : PruneProg (Except WorktreeError (List PruneRepoOutcome))}
    (reached : Reaches (pruneRepositories setup scopes memo).run h p) :
    ∀ later target workdir answer before,
      h = later ++ ⟨.cleanup (.git ["worktree", "remove", target] workdir), answer⟩ :: before →
        Justified setup (Opened setup scopes memo []) target workdir before := by
  rintro later target workdir answer before rfl
  exact ((along_pruneRepositories scopes memo []).reaches reached).1.needs target workdir rfl

end Justified

section Runs

-- One retained lease, whose worktree is clean and whose session has gone back to the main checkout.
def quietRepository (_ : PruneHistory) : (op : PruneOp) → op.Ret
  | .cleanup op => leftBehind [] op
  | .canonicalPaths => id
  | .pathEntry _ => .present
  | .closure .. => .closed
  | .invalidate _ => ()
  | .staleActiveLeases .. => .ok []
  | .recoverStaleActiveLeases .. => .ok []
  | .releaseAbsentLeases .. => .ok []
  | .updateStatus .. => .ok ()
  | .loadLease _ => .ok none

def removing : PruneSetup where
  mode := .remove
  confirmation := .noWait
  providerScope := none
  legacyNumericLeases := true
  selection := none
  recoveryScope := .legacyOnly
  recovery := none
  staleDays := 7
  staleBefore := 0
  now := 604800

def recorded : List Scope := [.resolved ⟨"/repo/.git", "/main", none⟩]

def pruned : PruneProg (Except WorktreeError (List PruneRepoOutcome)) :=
  (pruneRepositories removing recorded ⟨none, []⟩).run

theorem prune_removes : ∃ before,
    Justified removing (Opened removing recorded ⟨none, []⟩ []) "/wt" "/main" before := by
  have reached := Prog.reaches_against quietRepository pruned
  have second : ((pruned.against quietRepository []).2.map (·.effect))[1]? =
      some (.cleanup (.git ["worktree", "remove", "/wt"] "/main")) := by decide
  generalize (pruned.against quietRepository []).2 = h at reached second
  rcases h with _ | ⟨flip, _ | ⟨⟨effect, answer⟩, before⟩⟩
  · exact absurd second (by simp)
  · exact absurd second (by simp)
  · cases Option.some.inj second
    exact ⟨before, prune_rests_on_fresh_evidence removing recorded ⟨none, []⟩ reached [flip] "/wt"
      "/main" answer before rfl⟩

end Runs

end Phasegent.Prune
