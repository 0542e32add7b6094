import Mathlib
import Phasegent.Cleanup.Evidence
import Phasegent.Cleanup.Sync
import Phasegent.Lease.Recovery
import Phasegent.Lease.Sidecars
import Phasegent.Sql.Transaction

namespace Phasegent.Cleanup
open Fallible Interleaving Sql
open Lease (LeaseDb LeaseRow ScopeMap Tables GitOutput WorktreeError repoRows scopeMapForConnectionWithKey)

/-- What a pass runs on. Only its own writes change the working trees and the lease store. -/
structure Surroundings (T : Type) where
  git : T → List String → String → Except WorktreeError GitOutput
  present : T → String → Bool
  metadata : T → String → CacheMetadata
  sameFilesystem : T → String → Bool
  inventory : T → String → Except String CacheInventory
  clear : T → String → Except String Unit × T
  remove : T → String → String → Except WorktreeError GitOutput × T
  host : (op : HostOp) → op.Ret
  repoIdentity : String → Except WorktreeError String
  opened : Except String Unit
  schema : Except String Unit
  repoKey : String → Option String
  urls : UrlLibrary
  now : Int

structure SyncState (T : Type) where
  store : LeaseDb
  trees : T
  removals : List String

variable {T : Type}

theorem mapError_ok {ε ε' α : Type} (f : ε → ε') (a : α) :
    (Except.ok a : Except ε α).mapError f = .ok a := rfl

def releaseActive (store : LeaseDb) (identity : String) (issue : Nat) (reason : String) (now : Int) :
    Except WorktreeError Nat × LeaseDb :=
  if issue = 0 then (.error (.new "argument" "issue must be > 0"), store)
  else (Lease.retainActiveLeasesForIssue identity issue reason now).commit store

namespace Surroundings
variable (s : Surroundings T)

def command (w : SyncState T) (workdir : String) :
    List String → Except WorktreeError GitOutput × SyncState T
  | ["worktree", "remove", target] =>
      let (answer, trees) := s.remove w.trees workdir target
      (answer, { w with trees, removals := w.removals ++ [target] })
  | arguments => (s.git w.trees arguments workdir, w)

def perform (w : SyncState T) : (op : CleanupOp) → op.Ret × SyncState T
  | .host op => (s.host op, w)
  | .git arguments workdir => s.command w workdir arguments
  | .pathExists path => (s.present w.trees path, w)
  | .cacheMetadata worktree => (s.metadata w.trees worktree, w)
  | .sameFilesystem worktree => (s.sameFilesystem w.trees worktree, w)
  | .inventory worktree => (s.inventory w.trees worktree, w)
  | .removeCache worktree =>
      let (answer, trees) := s.clear w.trees worktree
      (answer, { w with trees })
  | .repoIdentity repoPath => (s.repoIdentity repoPath, w)
  | .openStore => (s.opened, w)
  | .ensureSchema => (s.schema, w)
  | .verifiedRepoKey identity => (s.repoKey identity, w)
  | .listAllForRepo identity => (.ok (repoRows w.store.toTables identity), w)
  | .scopeMapForRepo identity repoKey =>
      (scopeMapForConnectionWithKey s.urls w.store.toTables identity repoKey, w)
  | .releaseActiveLeases identity issue reason =>
      let (answer, store) := releaseActive w.store identity issue reason s.now
      (answer, { w with store })
  | .refresh => ((), w)
  | .confirmOthersClosed issue issues => (denyOtherIssues issue issues, w)

variable {s}

theorem perform_git (w : SyncState T) {arguments : List String} (workdir : String)
    (reads : arguments.head? ≠ some "worktree") :
    s.perform w (.git arguments workdir) = (s.git w.trees arguments workdir, w) := by
  change s.command w workdir arguments = _
  unfold command
  split
  · exact absurd rfl reads
  · rfl

theorem perform_observes (w : SyncState T) {op : CleanupOp} (observes : op.Observes) :
    (s.perform w op).2 = w := by
  cases op with
  | git arguments workdir => rw [perform_git w workdir observes]
  | removeCache worktree => exact observes.elim
  | releaseActiveLeases identity issue reason => exact observes.elim
  | _ => rfl

theorem perform_tree {w w' : SyncState T} (same : w.trees = w'.trees) {op : CleanupOp}
    (reads : op.ReadsTree) : (s.perform w op).1 = (s.perform w' op).1 := by
  cases op with
  | git arguments workdir => rw [perform_git w workdir reads, perform_git w' workdir reads, same]
  | cacheMetadata worktree => exact congrArg (s.metadata · worktree) same
  | sameFilesystem worktree => exact congrArg (s.sameFilesystem · worktree) same
  | inventory worktree => exact congrArg (s.inventory · worktree) same
  | _ => exact reads.elim

theorem look_tree {α ε : Type} {w w' : SyncState T} (same : w.trees = w'.trees)
    {p : Attempt CleanupOp CleanupOp.Ret ε α} (performs : Performs CleanupOp.ReadsTree p) :
    look s.perform p w = look s.perform p w' := by
  have calls := performs.calls
  unfold look
  generalize p.run = program at calls ⊢
  induction program with
  | done result => rfl
  | call op next ih =>
      have here := perform_observes (s := s) w calls.1.observes
      have there := perform_observes (s := s) w' calls.1.observes
      simp only [execute, here, there, perform_tree same calls.1]
      exact ih _ (calls.2 _)

section Readings
variable {ε α : Type} {p : Attempt CleanupOp CleanupOp.Ret ε α}

theorem stays (w : SyncState T) (op : CleanupOp) (observes : op.Observes) :
    (s.perform w op).2 = w :=
  perform_observes w observes

theorem execute_observing (performs : Performs CleanupOp.Observes p) (w : SyncState T) :
    execute s.perform p.run w = (look s.perform p w, w) :=
  execute_reading stays performs w

theorem look_observing {β : Type} (performs : Performs CleanupOp.Observes p)
    (f : α → Attempt CleanupOp CleanupOp.Ret ε β) (w : SyncState T) :
    look s.perform (p >>= f) w = look s.perform p w >>= fun a => look s.perform (f a) w :=
  look_bind stays performs f w

theorem look_request {op : CleanupOp} {decode : op.Ret → Except ε α} (w : SyncState T) :
    look s.perform (request op decode) w = decode (s.perform w op).1 := rfl

theorem look_fromExcept (x : Except ε α) (w : SyncState T) :
    look s.perform (fromExcept x) w = x := rfl

theorem look_asked {β : Type} {op : CleanupOp} {decode : op.Ret → Except ε α}
    (f : α → Attempt CleanupOp CleanupOp.Ret ε β) (w : SyncState T) (observes : op.Observes) :
    look s.perform (request op decode >>= f) w =
      decode (s.perform w op).1 >>= fun a => look s.perform (f a) w :=
  look_observing (performs_request observes) f w

theorem look_checked {β : Type} (x : Except ε α) (f : α → Attempt CleanupOp CleanupOp.Ret ε β)
    (w : SyncState T) :
    look s.perform (fromExcept x >>= f) w = x >>= fun a => look s.perform (f a) w :=
  look_observing (performs_fromExcept x) f w

end Readings

theorem look_probe {w : SyncState T} {arguments : List String} {worktree text : String}
    (unreadable failed : String) (reads : arguments.head? ≠ some "worktree")
    (answered : s.git w.trees arguments worktree = .ok ⟨0, text⟩) :
    look s.perform (probe arguments worktree unreadable failed) w = .ok text := by
  have asked : look s.perform (runGit arguments worktree) w = .ok ⟨0, text⟩ := by
    rw [runGit, look_request, perform_git w worktree reads, answered]
    rfl
  rw [probe, look_observing (observes (performs_renameFailure (performs_runGit reads))),
    look_renameFailure, asked, mapError_ok, ok_bind, look_checked]
  rfl

section Assessed
variable (s) (canonical : String → String) (identity : String)

def treeGuards (path : String) : CleanupM (Option CacheInventory) := do
  notMainCheckout canonical identity path
  cleanOrCache path

theorem empty_valid : Lease.Tables.Valid ⟨[], [], [], []⟩ := by
  constructor <;> simp

def assess (trees : T) (path : String) : Except String (Option CacheInventory) :=
  look s.perform (treeGuards canonical identity path) ⟨⟨⟨[], [], [], []⟩, empty_valid⟩, trees, []⟩

variable {s canonical identity}

theorem performs_treeGuards (path : String) :
    Performs CleanupOp.ReadsTree (treeGuards canonical identity path) :=
  performs_bind (performs_notMainCheckout identity path) fun _ => performs_cleanOrCache path

theorem look_treeGuards (w : SyncState T) (path : String) :
    look s.perform (treeGuards canonical identity path) w =
      s.assess canonical identity w.trees path := by
  unfold assess
  apply look_tree _ (performs_treeGuards path)
  rfl

theorem look_evaluateGuards {w : SyncState T} {rows : List LeaseRow} {session : Option String}
    {row : LeaseRow} {cache : Option CacheInventory} :
    look s.perform (evaluateGuards canonical identity rows session row) w = .ok cache ↔
      refuseForeign canonical rows session row = .ok () ∧
        s.assess canonical identity w.trees row.worktreePath = .ok cache := by
  have tree : Performs CleanupOp.Observes (notMainCheckout canonical identity row.worktreePath) :=
    observes (performs_notMainCheckout identity row.worktreePath)
  rw [← look_treeGuards w, evaluateGuards, treeGuards, look_observing tree, look_observing tree]
  simp only [look_observing (performs_fromExcept _), look_fromExcept, bind_eq_ok]
  constructor
  · rintro ⟨_, linked, _, unowned, clean⟩
    exact ⟨unowned, (), linked, clean⟩
  · rintro ⟨unowned, _, linked, clean⟩
    exact ⟨(), linked, (), unowned, clean⟩

end Assessed

section Laws
variable (s) (canonical : String → String) (identity : String)

/-- What a pass may rely on: a directory that may go reads alike under all its names; the cache of
one that may go after its cache can be deleted, and the directory is clean then; and neither a
deletion nor a removal changes what may be done to another directory that is still there. -/
structure Laws : Prop where
  spelled : ∀ t a b cache, sameDirectory canonical a b = true →
    s.assess canonical identity t a = .ok cache → s.assess canonical identity t b = .ok cache
  cleared : ∀ t path cache, s.assess canonical identity t path = .ok (some cache) →
    (s.clear t path).1 = .ok () ∧ s.assess canonical identity (s.clear t path).2 path = .ok none
  clearedBeside : ∀ t path cache other own, s.assess canonical identity t path = .ok (some cache) →
    s.present t other = true → s.assess canonical identity t other = .ok own →
      s.present (s.clear t path).2 other = true ∧
        ∃ left, s.assess canonical identity (s.clear t path).2 other = .ok left
  removedBeside : ∀ t path other own, s.assess canonical identity t path = .ok none →
    s.assess canonical identity t other = .ok own → s.present (s.remove t path path).2 other = true →
      ∃ left, s.assess canonical identity (s.remove t path path).2 other = .ok left
  absent : ∀ t path other, s.present t other = false →
    s.present (s.clear t path).2 other = false ∧ s.present (s.remove t path path).2 other = false

def Removes : Prop :=
  ∀ t path, s.assess canonical identity t path = .ok none →
    ∃ output trees, s.remove t path path = (.ok output, trees) ∧ output.status = 0 ∧
      s.present trees path = false

end Laws

section Contexts
variable {w : SyncState T} {identity : String}

theorem performs_load : Performs CleanupOp.Observes (CleanupContext.load identity) := by
  apply performs_bind (performs_request trivial)
  intro repoKey
  apply performs_bind (performs_request trivial)
  intro rows
  exact performs_bind (performs_request trivial) fun scopes => performs_pure _

theorem look_load {context : CleanupContext} :
    look s.perform (CleanupContext.load identity) w = .ok context ↔
      ∃ scopes, scopeMapForConnectionWithKey s.urls w.store.toTables identity (s.repoKey identity) =
        .ok scopes ∧ context = ⟨identity, repoRows w.store.toTables identity, scopes⟩ := by
  unfold CleanupContext.load
  rw [look_asked _ _ (by trivial)]
  simp only [perform, ok_bind]
  rw [look_asked _ _ (by trivial)]
  simp only [perform, mapError_ok, ok_bind]
  rw [look_asked _ _ (by trivial), bind_eq_ok]
  simp only [perform, mapError_eq_ok]
  constructor
  · rintro ⟨scopes, mapped, same⟩
    exact ⟨scopes, mapped, (Except.ok.inj same).symm⟩
  · rintro ⟨scopes, mapped, rfl⟩
    exact ⟨scopes, mapped, rfl⟩

end Contexts

end Surroundings

end Phasegent.Cleanup
