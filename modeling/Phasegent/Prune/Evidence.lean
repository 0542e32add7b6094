import Phasegent.Cleanup.Evidence
import Phasegent.Prune.Grouping

namespace Phasegent.Prune
open Fallible Interleaving Cleanup
open Lease (LeaseRow LeaseScope LeaseStatus ScopeMap)

def PruneOp.Observes : PruneOp → Prop
  | .cleanup op => op.Observes
  | .recoverStaleActiveLeases .. => False
  | .releaseAbsentLeases .. => False
  | .updateStatus .. => False
  | _ => True

section Guards
variable {canonical : String → String} {identity : String}

def LinkedWorktree (canonical : String → String) (identity path : String) (part : CleanupHistory) :
    Prop :=
  ∃ gitDir status rest, part = rest ++ [⟨.git ["status", "--porcelain"] path, .ok status⟩,
      ⟨.git ["rev-parse", "--git-dir"] path, .ok gitDir⟩] ∧ Linked canonical identity path gitDir ∧
    (Clean status ∨ ∃ cache, ⟨.inventory path, .ok cache⟩ ∈ rest)

theorem reads_inventory (worktree : String) :
    Reads CleanupOp.Observes (inspectInventory worktree) fun _ part =>
      ∃ cache, ⟨.inventory worktree, .ok cache⟩ ∈ part := by
  apply reads_bind (M := fun cache part => part = [⟨.inventory worktree, .ok cache⟩])
  · exact reads_request trivial fun r _ answered => by rw [id] at answered; rw [answered]
  rintro cache _ rfl
  apply reads_bind (M := fun _ part => part = []) (reads_fromExcept fun _ _ => rfl)
  rintro _ _ rfl
  exact reads_pure ⟨cache, List.mem_singleton_self _⟩

-- A worktree is found to be dirty with its cache alone only by walking the cache.
def Walked (worktree : String) (inspection : CacheInspection) (part : CleanupHistory) : Prop :=
  inspection ≠ .notCacheOnly → ∃ cache, ⟨.inventory worktree, .ok cache⟩ ∈ part

theorem walked_later {worktree : String} {inspection : CacheInspection} {more part : CleanupHistory}
    (walked : Walked worktree inspection more) : Walked worktree inspection (more ++ part) := by
  intro alone
  obtain ⟨cache, among⟩ := walked alone
  exact ⟨cache, List.mem_append_left _ among⟩

theorem reads_notCacheOnly (worktree : String) :
    Reads CleanupOp.Observes (pure .notCacheOnly : CleanupM CacheInspection) (Walked worktree) :=
  reads_pure fun dirty => (dirty rfl).elim

theorem observes_probe {arguments : List String} {worktree unread failed : String}
    (reads : arguments.head? ≠ some "worktree") :
    Reads CleanupOp.Observes (Cleanup.probe arguments worktree unread failed) fun _ _ => True :=
  (reads_of_performs (observes (performs_probe reads))).weaken fun _ _ _ => trivial

theorem reads_walked (worktree : String) :
    Reads CleanupOp.Observes (Cleanup.inspectDirectory worktree) (Walked worktree) := by
  apply reads_bind (M := fun _ _ => True) (reads_request trivial fun _ _ _ => trivial)
  intro same _ _
  apply reads_bind (M := fun _ _ => True) (reads_fromExcept fun _ _ => trivial)
  intro _ _ _
  apply reads_bind (observes_probe (by simp))
  intro tracked _ _
  split
  · exact (reads_notCacheOnly worktree).weaken fun _ _ walked => walked_later (walked_later (walked_later walked))
  · apply reads_bind (observes_probe (by simp [outsideCache]))
    intro outside _ _
    split
    · exact (reads_notCacheOnly worktree).weaken fun _ _ walked =>
        walked_later (walked_later (walked_later (walked_later walked)))
    · apply reads_bind (observes_probe (by simp [insideCache]))
      intro inside _ _
      split
      · exact (reads_notCacheOnly worktree).weaken fun _ _ walked =>
          walked_later (walked_later (walked_later (walked_later (walked_later walked))))
      · apply (reads_inventory worktree).weaken
        intro inspection part found
        have walked : Walked worktree inspection part := fun _ => found
        exact walked_later (walked_later (walked_later (walked_later (walked_later walked))))

theorem reads_inspect (worktree : String) :
    Reads CleanupOp.Observes (Cleanup.inspect worktree) (Walked worktree) := by
  apply reads_bind (M := fun _ _ => True) (reads_request trivial fun _ _ _ => trivial)
  intro metadata part _
  have nothing : Reads CleanupOp.Observes (pure .notCacheOnly : CleanupM CacheInspection)
      fun inspection more => Walked worktree inspection (more ++ part) :=
    (reads_notCacheOnly worktree).weaken fun _ _ walked => walked_later walked
  cases metadata with
  | notFound => exact nothing
  | unreadable error => exact reads_throw
  | symlink => exact reads_throw
  | file => exact nothing
  | directory => exact (reads_walked worktree).weaken fun _ _ walked => walked_later walked

theorem reads_dirt (path : String) :
    Reads CleanupOp.Observes (cleanOrCache path) fun _ part => ∃ status rest,
      part = rest ++ [⟨.git ["status", "--porcelain"] path, .ok status⟩] ∧
        (Clean status ∨ ∃ cache, ⟨.inventory path, .ok cache⟩ ∈ rest) := by
  apply reads_bind (reads_renameFailure (reads_isClean path))
  rintro clean _ ⟨status, rfl, seen⟩
  cases clean with
  | true => exact reads_pure ⟨status, [], rfl, .inl (readStatus_ok.mp seen)⟩
  | false =>
      simp only [Bool.false_eq_true, if_false]
      apply reads_bind (reads_inspect path)
      intro inspection rest walked
      cases inspection with
      | cacheOnly cache =>
          exact reads_pure ⟨status, rest, rfl, .inr (walked (by simp))⟩
      | notCacheOnly => exact reads_throw

theorem reads_guards (rows : List LeaseRow) (session : Option String) (row : LeaseRow) :
    Reads CleanupOp.Observes (evaluateGuards canonical identity rows session row) fun _ part =>
      LinkedWorktree canonical identity row.worktreePath part := by
  apply reads_bind (reads_notMainCheckout _)
  rintro _ _ ⟨gitDir, rfl, linked⟩
  apply reads_bind (M := fun _ part => part = []) (reads_fromExcept fun _ _ => rfl)
  rintro _ _ rfl
  apply (reads_dirt row.worktreePath).weaken
  rintro cache _ ⟨status, rest, rfl, settled⟩
  exact ⟨gitDir, status, rest, by simp, linked, settled⟩

end Guards

section Classified
variable {setup : PruneSetup} {identity : String} {pinned : List String}

theorem reads_cleanup {ε α : Type} {Q : α → CleanupHistory → Prop} {p : Attempt CleanupOp CleanupOp.Ret ε α}
    (reads : Reads CleanupOp.Observes p Q) : Reads PruneOp.Observes (embed cleanupCalls p)
      fun a part' => ∃ part, Shows cleanupCalls part part' ∧ Q a part :=
  reads_embed (fun _ observes => observes) reads

theorem reads_hosting {ε α : Type} {Q : α → HostHistory → Prop} {p : Attempt HostOp HostOp.Ret ε α}
    (reads : Reads HostOp.Looks p Q) : Reads PruneOp.Observes (embed hosting p)
      fun a part' => ∃ part, Shows hosting part part' ∧ Q a part :=
  reads_embed (fun _ looks => looks) reads

/-- The scopes of a directory's leases: none, where the provider owns unscoped leases, or the same on
all of them, of a task or of the invocation's provider. -/
def Owned (setup : PruneSetup) (rows : List LeaseRow) (scopes : ScopeMap) : Prop :=
  (setup.legacyNumericLeases = true ∧ ∀ row ∈ rows, scopes.lookup row.leaseId = none) ∨
    ∃ key, (∀ row ∈ rows, (scopes.lookup row.leaseId).map keyOf = some key) ∧
      (key.taskId.isSome ∨ setup.providerScope = some (key.provider, key.project))

theorem checkOwnership_ok {rows : List LeaseRow} {scopes : ScopeMap} {group : DirectoryGroup} {u : Unit}
    (passed : checkOwnership setup rows scopes (attachScopeProof scopes group) = .ok u)
    (gathered : group.leaseIds = group.rows.map (·.leaseId)) :
    (∀ issue ∈ group.issues, sameNumberAmbiguous issue rows scopes = false) ∧
      Owned setup group.rows scopes := by
  simp only [checkOwnership, bind_eq_ok, refuse_eq_ok] at passed
  obtain ⟨_, clear, _, admitted, fits⟩ := passed
  refine ⟨fun issue among => ?_, ?_⟩
  · by_contra ambiguous
    exact clear (List.any_eq_true.mpr ⟨issue, among, Bool.of_not_eq_false ambiguous⟩)
  · cases has : (attachScopeProof scopes group).isScoped with
    | false =>
        rw [has] at admitted
        refine .inl ⟨Bool.of_not_eq_false fun refused => admitted ⟨refused, rfl⟩, fun row among => ?_⟩
        exact isScoped_false has row.leaseId (gathered ▸ List.mem_map_of_mem among)
    | true =>
        rw [has] at fits
        obtain ⟨key, same, authority⟩ := scopedGroupMatches_spec
          (Bool.of_not_eq_false fun differs => fits ⟨rfl, differs⟩)
        refine .inr ⟨key, fun row among => ?_, authority⟩
        exact same row.leaseId (gathered ▸ List.mem_map_of_mem among)

theorem checkStatuses_ok {group : DirectoryGroup} {u : Unit} (passed : checkStatuses pinned group = .ok u) :
    group.canonicalPath ∉ pinned ∧
      ∀ row ∈ group.rows, row.status = .retained ∨ row.status = .released := by
  simp only [checkStatuses, bind_eq_ok, refuse_eq_ok, not_or] at passed
  obtain ⟨_, ⟨inactive, unpinned⟩, known⟩ := passed
  refine ⟨unpinned, fun row among => ?_⟩
  have notActive : row.status ≠ .active := by
    intro active
    exact inactive (List.any_eq_true.mpr ⟨row, among, LeaseRow.isActive_iff.mpr active⟩)
  have listed : row.status ∈ [LeaseStatus.active, .retained, .released] := by
    by_contra unknown
    exact known (List.any_eq_true.mpr ⟨row, among, decide_eq_true unknown⟩)
  simpa [notActive] using listed

theorem reads_keepReasons (own : Option (Closure.TaskScopeRef × Nat)) (issues : List Nat) :
    Reads PruneOp.Observes (keepReasons own issues) fun reasons part => reasons = [] →
      ∀ issue ∈ issues, ⟨.closure (closureRead own issue) issue, .closed⟩ ∈ part := by
  induction issues with
  | nil => exact reads_pure fun _ _ impossible => absurd impossible List.not_mem_nil
  | cons issue rest ih =>
      apply reads_bind (M := fun answer part => part = [⟨.closure (closureRead own issue) issue, answer⟩])
      · exact reads_request trivial fun r _ answered => by cases answered; rfl
      rintro answer _ rfl
      apply reads_bind ih
      intro reasons part asked
      cases answer with
      | closed =>
          refine reads_pure fun none other among => ?_
          obtain rfl | later := List.mem_cons.mp among
          · simp
          · exact List.mem_append_left _ (asked none other later)
      | keep reason => exact reads_pure fun impossible => absurd impossible (List.cons_ne_nil _ _)

theorem reads_closureOf (group : DirectoryGroup) :
    Reads PruneOp.Observes (closureOf group) fun _ part => ∀ issue ∈ group.issues,
      ⟨.closure (closureRead (ownTaskScope group) issue) issue, .closed⟩ ∈ part := by
  apply reads_bind (reads_keepReasons (ownTaskScope group) group.issues)
  intro reasons part asked
  apply reads_fromExcept
  intro _ passed
  exact asked (not_not.mp (refuse_eq_ok.mp passed))

theorem idle_of_running {resolve : String → String} {group : DirectoryGroup}
    {sessions : List LocatedSession} {ids : List String} {lookups : HostHistory} {u : Unit}
    (answers : Answers (fun _ located => located ∈ sessions) ids lookups)
    (passed : snapshotBlocker resolve group sessions = .ok u) :
    Idle resolve group.canonicalPath none [] (lookups ++ [⟨.activeSessions, .ok ids⟩]) := by
  refine ⟨ids, lookups, rfl, answers.imp fun id located _ among => ?_⟩
  refine .inr ⟨List.not_mem_nil, ?_⟩
  unfold snapshotBlocker at passed
  split at passed
  · rename_i nobody
    exact Bool.of_not_eq_true (List.find?_eq_none.mp nobody located among)
  · exact absurd passed (by simp)

/-- What a directory that is found removable rests on, besides the re-read of its rows. -/
structure Found (setup : PruneSetup) (identity : String) (pinned : List String) (fresh : Fresh)
    (closures running guards : PruneHistory) : Prop where
  unambiguous : ∀ issue ∈ fresh.group.issues, sameNumberAmbiguous issue fresh.rows fresh.scopes = false
  owned : Owned setup fresh.group.rows fresh.scopes
  unpinned : fresh.group.canonicalPath ∉ pinned
  settled : ∀ row ∈ fresh.group.rows, row.status = .retained ∨ row.status = .released
  guarded : ∃ tree, Shows cleanupCalls tree guards ∧
    LinkedWorktree fresh.resolve identity (representative fresh.group).worktreePath tree
  idle : ∃ host, Shows hosting host running ∧ Idle fresh.resolve fresh.group.canonicalPath none [] host
  closed : ∀ issue ∈ fresh.group.issues,
    ⟨.closure (closureRead (ownTaskScope fresh.group) issue) issue, .closed⟩ ∈ closures

theorem reads_localVerdict {fresh : Fresh} {group : DirectoryGroup}
    (attached : fresh.group = attachScopeProof fresh.scopes group)
    (gathered : group.leaseIds = group.rows.map (·.leaseId)) :
    Reads PruneOp.Observes
      (localVerdict setup identity pinned fresh.resolve fresh.rows fresh.scopes fresh.group)
      fun _ part => ∃ guards, part = guards ++ [⟨.pathEntry fresh.group.canonicalPath, .present⟩] ∧
        ∀ closures running,
          (∃ host, Shows hosting host running ∧
            Idle fresh.resolve fresh.group.canonicalPath none [] host) →
          (∀ issue ∈ fresh.group.issues,
            ⟨.closure (closureRead (ownTaskScope fresh.group) issue) issue, .closed⟩ ∈ closures) →
          Found setup identity pinned fresh closures running guards := by
  apply reads_bind (M := fun _ part => part = [] ∧
    (∀ issue ∈ group.issues, sameNumberAmbiguous issue fresh.rows fresh.scopes = false) ∧
      Owned setup group.rows fresh.scopes)
  · refine reads_fromExcept fun _ passed => ⟨rfl, ?_⟩
    exact checkOwnership_ok (attached ▸ passed) gathered
  rintro _ _ ⟨rfl, unambiguous, owned⟩
  apply reads_bind (M := fun _ part => part = [] ∧ fresh.group.canonicalPath ∉ pinned ∧
    ∀ row ∈ fresh.group.rows, row.status = .retained ∨ row.status = .released)
  · exact reads_fromExcept fun _ passed => ⟨rfl, checkStatuses_ok passed⟩
  rintro _ _ ⟨rfl, unpinned, settled⟩
  apply reads_bind (M := fun _ part => part = [⟨.pathEntry fresh.group.canonicalPath, .present⟩])
  · refine reads_request trivial fun r _ admitted => ?_
    cases r with
    | present => rfl
    | missing => exact absurd admitted (by simp [admitEntry])
    | unreadable error => exact absurd admitted (by simp [admitEntry])
  rintro _ _ rfl
  have guarding : Reads CleanupOp.Observes
      (evaluateGuards fresh.resolve identity fresh.rows none (representative fresh.group))
      fun _ part => LinkedWorktree fresh.resolve identity
        (representative fresh.group).worktreePath part :=
    reads_guards fresh.rows none (representative fresh.group)
  apply (reads_renameFailure (reads_cleanup guarding)).weaken
  rintro cache guards ⟨tree, shown, linked⟩
  refine ⟨guards, by simp, fun closures running idle closed => ?_⟩
  exact ⟨by rw [attached]; exact unambiguous, by rw [attached]; exact owned, unpinned, settled,
    ⟨tree, shown, linked⟩, idle, closed⟩

theorem reads_classifyFresh {fresh : Fresh} {group : DirectoryGroup}
    (attached : fresh.group = attachScopeProof fresh.scopes group)
    (gathered : group.leaseIds = group.rows.map (·.leaseId)) :
    Reads PruneOp.Observes (classifyFresh setup identity pinned fresh) fun _ part =>
      ∃ closures running guards, part = closures ++ running ++ guards ++
        [⟨.pathEntry fresh.group.canonicalPath, .present⟩] ∧
          Found setup identity pinned fresh closures running guards := by
  apply reads_bind (reads_localVerdict attached gathered)
  rintro cache _ ⟨guards, rfl, found⟩
  apply reads_bind (reads_outcome (reads_hosting reads_runningSessions))
  intro result running answered
  have sessions : Reads PruneOp.Observes
      (fromExcept (result.mapError PruneDisposition.skippedProtected) : ClassifyM _)
      fun sessions part => part = [] ∧ result = .ok sessions :=
    reads_fromExcept fun sessions usable => ⟨rfl, mapError_eq_ok.mp usable⟩
  apply reads_bind sessions
  rintro sessions _ ⟨rfl, usable⟩
  obtain ⟨host, shown, ids, lookups, rfl, answers⟩ := answered sessions usable
  apply reads_bind (M := fun _ part => part = [] ∧
    Idle fresh.resolve fresh.group.canonicalPath none [] (lookups ++ [⟨.activeSessions, .ok ids⟩]))
  · exact reads_fromExcept fun _ passed => ⟨rfl, idle_of_running answers passed⟩
  rintro _ _ ⟨rfl, idle⟩
  apply reads_bind (reads_closureOf fresh.group)
  intro _ closures closed
  apply reads_pure
  exact ⟨closures, running, guards, by simp, found closures running ⟨_, shown, idle⟩ closed⟩

end Classified

end Phasegent.Prune
