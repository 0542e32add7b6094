import Phasegent.Cleanup.Moves
import Phasegent.Cleanup.Removal

namespace Phasegent.Cleanup
open Fallible Interleaving
open Lease (LeaseRow LeaseScope GitOutput WorktreeError joinPath)
open Restore (isBlank)

def CleanupOp.Observes : CleanupOp → Prop
  | .host op => op.Looks
  | .git arguments _ => arguments.head? ≠ some "worktree"
  | .removeCache _ => False
  | .releaseActiveLeases .. => False
  | _ => True

def CleanupOp.Spares (op : CleanupOp) : Prop :=
  ∀ target workdir, op ≠ .git ["worktree", "remove", target] workdir

theorem CleanupOp.Observes.spares {op : CleanupOp} (observes : op.Observes) : op.Spares := by
  rintro target workdir rfl
  exact observes rfl

section Rows
variable {canonical : String → String} {rows : List LeaseRow} {directory : String}

theorem mem_rowsOf {row : LeaseRow} : row ∈ rowsOf canonical rows directory ↔
    row ∈ rows ∧ sameDirectory canonical row.worktreePath directory = true := by
  simp [rowsOf]

theorem sameDirectory_trans {a b c : String} (first : sameDirectory canonical a b = true)
    (second : sameDirectory canonical b c = true) : sameDirectory canonical a c = true := by
  simp only [sameDirectory, beq_iff_eq] at *
  exact first.trans second

theorem sameDirectory_symm {a b : String} (same : sameDirectory canonical a b = true) :
    sameDirectory canonical b a = true := by
  simp only [sameDirectory, beq_iff_eq] at *
  exact same.symm

theorem mem_destutter_of_mem {α : Type} [DecidableEq α] {l : List α} {a : α} :
    a ∈ l.destutter (· ≠ ·) ↔ a ∈ l := by
  have covers : ∀ (rest : List α) (first : α),
      a ∈ List.destutter' (· ≠ ·) first rest ↔ a ∈ first :: rest := by
    intro rest
    induction rest with
    | nil => simp
    | cons second rest ih =>
        intro first
        by_cases apart : first = second
        · subst apart
          simp [List.destutter', ih first]
        · simp [List.destutter', apart, ih second]
  cases l with
  | nil => simp
  | cons first rest => exact covers rest first

theorem mem_associatedIssues {issue : Nat} : issue ∈ associatedIssues canonical rows directory ↔
    ∃ row ∈ rowsOf canonical rows directory, row.issueNumber = issue := by
  simp [associatedIssues, mem_destutter_of_mem]

theorem mem_rootSessions {associated : List String} {id : String} :
    id ∈ rootSessions associated ↔ id ∈ associated.map trimText ∧ isOpencodeSession id = true := by
  simp [rootSessions, mem_destutter_of_mem]

theorem mem_associatedSessions {id : String} :
    id ∈ associatedSessions canonical rows directory ↔
      (∃ row ∈ rowsOf canonical rows directory, trimText row.session = id) ∧
        isOpencodeSession id = true := by
  simp [associatedSessions, mem_rootSessions]

theorem refuseForeign_ok {session : Option String} {row : LeaseRow} {u : Unit}
    (passed : refuseForeign canonical rows session row = .ok u)
    (here : sameDirectory canonical row.worktreePath directory = true) :
    ∀ other ∈ rowsOf canonical rows directory, other.isActive → session = some other.session := by
  intro other among active
  obtain ⟨listed, there⟩ := mem_rowsOf.mp among
  unfold refuseForeign at passed
  split at passed
  · rename_i none
    have spared := List.find?_eq_none.mp none other listed
    have same := sameDirectory_trans there (sameDirectory_symm here)
    simpa [active, same] using spared
  · nomatch passed

end Rows

theorem directoryScopeAllowed_iff {canonical : String → String} {context : CleanupContext}
    {directory : String} {allowed : Option LeaseScope} :
    context.directoryScopeAllowed canonical directory allowed = true ↔
      (∀ row ∈ rowsOf canonical context.rows directory, context.scopes.lookup row.leaseId = none) ∨
        ∃ own, allowed = some own ∧ ∀ row ∈ rowsOf canonical context.rows directory,
          ∃ scope, context.scopes.lookup row.leaseId = some scope ∧ scopeAllows own scope = true := by
  by_cases bare : ∀ row ∈ rowsOf canonical context.rows directory,
      context.scopes.lookup row.leaseId = none
  · have none : (rowsOf canonical context.rows directory).any
        (fun row => (context.scopes.lookup row.leaseId).isSome) = false := by
      rw [List.any_eq_false]
      intro row among
      rw [bare row among, Option.isSome_none]
      exact Bool.false_ne_true
    simp only [CleanupContext.directoryScopeAllowed, none, if_true, true_iff]
    exact .inl bare
  · have found : (rowsOf canonical context.rows directory).any
        (fun row => (context.scopes.lookup row.leaseId).isSome) = true := by
      rw [List.any_eq_true]
      by_contra nothing
      apply bare
      intro row among
      rw [← Option.not_isSome_iff_eq_none]
      exact fun listed => nothing ⟨row, among, listed⟩
    cases allowed with
    | none => simp only [CleanupContext.directoryScopeAllowed, found, bare, reduceCtorEq, if_false,
        false_and, exists_false, or_self]
    | some own =>
        simp only [CleanupContext.directoryScopeAllowed, found, bare, reduceCtorEq, if_false,
          List.all_eq_true, Option.any_eq_true, false_or, Option.some.injEq, exists_eq_left']

section Observed
variable {canonical : String → String}

def CleanupOp.ReadsTree : CleanupOp → Prop
  | .git arguments _ => arguments.head? ≠ some "worktree"
  | .cacheMetadata _ => True
  | .sameFilesystem _ => True
  | .inventory _ => True
  | _ => False

theorem CleanupOp.ReadsTree.observes {op : CleanupOp} (reads : op.ReadsTree) : op.Observes := by
  cases op <;> first | exact reads | trivial

theorem performs_runGit {arguments : List String} {workdir : String}
    (reads : arguments.head? ≠ some "worktree") :
    Performs CleanupOp.ReadsTree (runGit arguments workdir) :=
  performs_request reads

theorem performs_isClean (worktree : String) : Performs CleanupOp.ReadsTree (isClean worktree) :=
  performs_bind (performs_runGit (by simp)) fun _ => performs_fromExcept _

theorem performs_probe {arguments : List String} {worktree unreadable failed : String}
    (reads : arguments.head? ≠ some "worktree") :
    Performs CleanupOp.ReadsTree (probe arguments worktree unreadable failed) := by
  apply performs_bind (performs_renameFailure (performs_runGit reads))
  intro output
  exact performs_bind (performs_fromExcept _) fun _ => performs_pure _

theorem performs_inspectDirectory (worktree : String) :
    Performs CleanupOp.ReadsTree (inspectDirectory worktree) := by
  apply performs_bind (performs_request trivial)
  intro same
  apply performs_bind (performs_fromExcept _)
  intro _
  apply performs_bind (performs_probe (by simp))
  intro tracked
  split
  · exact performs_pure _
  · apply performs_bind (performs_probe (by simp [outsideCache]))
    intro outside
    split
    · exact performs_pure _
    · apply performs_bind (performs_probe (by simp [insideCache]))
      intro inside
      split
      · exact performs_pure _
      · apply performs_bind (performs_request trivial)
        intro inventory
        exact performs_bind (performs_fromExcept _) fun _ => performs_pure _

theorem performs_inspect (worktree : String) : Performs CleanupOp.ReadsTree (inspect worktree) := by
  apply performs_bind (performs_request trivial)
  intro metadata
  cases metadata with
  | notFound => exact performs_pure _
  | unreadable error => exact performs_throw _
  | symlink => exact performs_throw _
  | file => exact performs_pure _
  | directory => exact performs_inspectDirectory worktree

theorem performs_notMainCheckout (identity path : String) :
    Performs CleanupOp.ReadsTree (notMainCheckout canonical identity path) := by
  apply performs_bind
  · apply performs_renameFailure
    exact performs_bind (performs_runGit (by simp)) fun _ => performs_fromExcept _
  · exact fun _ => performs_fromExcept _

theorem performs_cleanOrCache (path : String) : Performs CleanupOp.ReadsTree (cleanOrCache path) := by
  apply performs_bind (performs_renameFailure (performs_isClean _))
  intro clean
  split
  · exact performs_pure none
  · apply performs_bind (performs_inspect _)
    intro inspection
    cases inspection with
    | cacheOnly cache => exact performs_pure _
    | notCacheOnly => exact performs_throw _

theorem performs_evaluateGuards (identity : String) (rows : List LeaseRow) (session : Option String)
    (row : LeaseRow) :
    Performs CleanupOp.ReadsTree (evaluateGuards canonical identity rows session row) := by
  apply performs_bind (performs_notMainCheckout _ _)
  intro _
  apply performs_bind (performs_fromExcept _)
  exact fun _ => performs_cleanOrCache _

theorem observes {ε α : Type} {p : Attempt CleanupOp CleanupOp.Ret ε α}
    (performs : Performs CleanupOp.ReadsTree p) : Performs CleanupOp.Observes p :=
  performs.mono fun _ reads => reads.observes

theorem spares {ε α : Type} {p : Attempt CleanupOp CleanupOp.Ret ε α}
    (performs : Performs CleanupOp.Observes p) : Performs CleanupOp.Spares p :=
  performs.mono fun _ observes => observes.spares

theorem performs_reload (identity unreadable : String) :
    Performs CleanupOp.Observes (reload identity unreadable) := by
  apply performs_bind (performs_request trivial)
  intro _
  apply performs_bind (performs_request trivial)
  intro _
  apply performs_renameFailure
  apply performs_bind (performs_request trivial)
  intro repoKey
  apply performs_bind (performs_request trivial)
  intro rows
  exact performs_bind (performs_request trivial) fun scopes => performs_pure _

theorem performs_evaluateFresh (identity : String) (session : Option String)
    (allowed : Option LeaseScope) (context : CleanupContext) (directory gone : String)
    (explain : String → String) : Performs CleanupOp.Observes
      (evaluateFresh canonical identity session allowed context directory gone explain) := by
  apply performs_bind (performs_fromExcept _)
  intro _
  split
  · exact performs_throw _
  · exact performs_renameFailure (observes (performs_evaluateGuards _ _ _ _))

theorem performs_reverify (mode : CleanupMode) (identity : String) (issue : Nat)
    (session : Option String) (allowed : Option LeaseScope) (directory : String)
    (expected : Option CacheInventory) : Performs CleanupOp.Observes
      (reverifyAfterMovement canonical mode identity issue session allowed directory expected) := by
  unfold reverifyAfterMovement
  split
  · exact performs_pure ()
  · apply performs_bind (performs_reload _ _)
    intro context
    apply performs_bind (performs_evaluateFresh _ _ _ _ _ _ _)
    intro cache
    exact performs_bind (performs_fromExcept _) fun _ => performs_request trivial

theorem performs_assessRow (identity : String) (issue : Nat) (session : Option String)
    (allowed : Option LeaseScope) (context : CleanupContext) (row : LeaseRow) :
    Performs CleanupOp.Observes
      (assessRow canonical identity issue session allowed context row) := by
  apply performs_bind (performs_fromExcept _)
  intro _
  apply performs_bind (observes (performs_evaluateGuards _ _ _ _))
  intro cache
  exact performs_bind (performs_request trivial) fun _ => performs_pure _

theorem performs_requireClean (worktree dirty unreadable : String) :
    Performs CleanupOp.ReadsTree (requireClean worktree dirty unreadable) :=
  performs_bind (performs_renameFailure (performs_isClean worktree)) fun _ => performs_fromExcept _

theorem performs_clearCacheOnly (worktree : String) (expected : Option CacheInventory) :
    Performs CleanupOp.Spares (clearCacheOnly worktree expected) := by
  cases expected with
  | none => exact spares (observes (performs_requireClean _ _ _))
  | some expected =>
      apply performs_bind (spares (observes (performs_inspect worktree)))
      intro inspection
      apply performs_bind (performs_fromExcept _)
      intro _
      apply performs_bind (performs_request (by simp [CleanupOp.Spares]))
      exact fun _ => spares (observes (performs_requireClean _ _ _))

end Observed

section Occupied
variable (canonical : String → String) (mode : CleanupMode) (directory : String)
  (associated : List String) (closing : Option String) {okay : CleanupOp → Prop}

theorem calls_directOccupancy (host : ∀ op, okay (.host op)) :
    (directOccupancy canonical mode directory associated closing).Calls okay := by
  have all : (occupancyOutcome canonical mode directory associated closing).Calls fun _ => True :=
    .of_forall (fun _ => trivial) _
  apply Prog.Calls.bind (all.embed fun op _ => host op)
  exact fun _ => trivial

theorem calls_memo (host : ∀ op, okay (.host op)) (memo : HostMemo) (op : HostOp) :
    (memo.serve op).Calls okay := by
  cases op with
  | session id =>
      simp only [HostMemo.serve]
      split
      · trivial
      · exact ⟨host _, fun r => by cases r <;> trivial⟩
  | list listed cursor =>
      simp only [HostMemo.serve]
      split
      · trivial
      · exact ⟨host _, fun r => by cases r <;> trivial⟩
  | moveSession id destination => trivial
  | activeSessions => exact ⟨host _, fun _ => trivial⟩
  | resolveMainCheckout => exact ⟨host _, fun _ => trivial⟩
  | budgetExpired => exact ⟨host _, fun _ => trivial⟩
  | budgetRemaining => exact ⟨host _, fun _ => trivial⟩
  | poll milliseconds => exact ⟨host _, fun _ => trivial⟩

theorem calls_keepReason (host : ∀ op, okay (.host op)) (guard : OccupancyGuard) (memo : HostMemo) :
    (guard.keepReason canonical mode directory associated closing memo).Calls okay := by
  have direct := calls_directOccupancy canonical mode directory associated closing host
  unfold OccupancyGuard.keepReason
  split
  · apply (Prog.Calls.serve (calls_memo host) _ _).bind
    intro answer
    dsimp only
    split
    · exact direct.bind fun _ => trivial
    · trivial
  · exact direct.bind fun _ => trivial

end Occupied

section Fresh
variable (canonical : String → String)

/-- One complete listing without a session in the directory, after every root was located elsewhere;
no running session is in the directory either. -/
def Vacant (directory : String) (roots : List String) (h : HostHistory) : Prop :=
  ∃ check listing lookups sessions, h = check ++ listing ++ lookups ∧
    Listing none sessions listing ∧ (∀ occupant ∈ sessions, Outside canonical directory occupant) ∧
    Answers (fun _ => Outside canonical directory) roots lookups ∧
    Idle canonical directory none [] check

variable {canonical}

theorem outside_of_not_hosted {directory : String} {occupants roots : List LocatedSession}
    (vacant : hostedSessions canonical directory occupants roots = []) :
    occupants = [] ∧ ∀ root ∈ roots, Outside canonical directory root := by
  simp only [hostedSessions, List.destutter_eq_nil] at vacant
  have none := List.length_eq_zero_iff.mpr vacant
  rw [List.length_insertionSort, List.length_eq_zero_iff] at none
  simp only [List.append_eq_nil_iff, List.map_eq_nil_iff, List.filter_eq_nil_iff] at none
  exact ⟨none.1, fun root among => Bool.of_not_eq_true (none.2 root among)⟩

theorem reads_finalizeVerify (directory : String) (associated : List String) :
    Reads HostOp.Looks (finalizeFamilyIn canonical .verify directory associated none .noWait)
      fun outcome part => outcome = .vacant ∧
        Vacant canonical directory (rootSessions associated) part := by
  have family : familyOf .verify associated none = rootSessions associated := rfl
  simp only [finalizeFamilyIn, reduceCtorEq, if_false, CleanupMode.enumeratesUnmanagedCandidates,
    Bool.true_eq_false, and_false, family]
  apply reads_bind (reads_locateAll rootTexts (rootSessions associated))
  intro roots lookups located
  apply reads_bind (reads_occupants canonical directory)
  rintro occupants listing ⟨sessions, listed, rfl⟩
  apply reads_bind (reads_fromExcept (Q := fun _ part => part = []) fun _ _ => rfl)
  rintro _ _ rfl
  apply reads_bind (M := fun _ part => Idle canonical directory none [] part)
  · have running : Reads HostOp.Looks (runningBlocker canonical directory none none [])
        fun _ part => Idle canonical directory none [] part := reads_runningBlocker none none []
    simpa [CleanupMode.readsRunningState, closeRoot] using running
  · intro _ check idle
    dsimp only
    split
    · rename_i vacant
      obtain ⟨nobody, elsewhere⟩ := outside_of_not_hosted vacant
      apply reads_pure
      refine ⟨rfl, check, listing, lookups, sessions, by simp, listed, ?_, ?_, idle⟩
      · intro occupant among
        exact Bool.of_not_eq_true (List.filter_eq_nil_iff.mp nobody occupant among)
      · exact located.imp fun id root _ among => elsewhere root among
    · apply reads_bind (reads_relate _)
      intro movable part _
      simp only [decideFamily, true_or, if_true]
      exact reads_throw

theorem vacated_eq (mode : CleanupMode) (directory : String) (associated : List String)
    (closing : Option String) :
    vacated (directOccupancy canonical mode directory associated closing) = (do
      let outcome ← embed hostCalls
        (finalizeFamilyIn canonical mode directory associated closing .noWait)
      fromExcept (match outcome.keepReason with
        | none => .ok ()
        | some reason => .error reason)) := by
  apply ExceptT.ext
  rw [run_bind]
  change Prog.bind (Prog.bind (Prog.embed hostCalls (Prog.bind
    (finalizeFamilyIn canonical mode directory associated closing .noWait).run _)) _) _ =
      Prog.bind (Prog.embed hostCalls
        (finalizeFamilyIn canonical mode directory associated closing .noWait).run) _
  induction (finalizeFamilyIn canonical mode directory associated closing .noWait).run with
  | done result =>
      cases result with
      | error reason => rfl
      | ok outcome => cases outcome <;> rfl
  | call op next ih =>
      simp only [Prog.bind_call, Prog.embed, Prog.call.injEq, heq_eq_eq, true_and]
      funext r
      exact ih _

theorem reads_vacated (directory : String) (associated : List String) :
    Reads CleanupOp.Observes (vacated (directOccupancy canonical .verify directory associated none))
      fun _ part => ∃ host, Shows hostCalls host part ∧
        Vacant canonical directory (rootSessions associated) host := by
  rw [vacated_eq]
  have direct : Reads CleanupOp.Observes
      (embed hostCalls (finalizeFamilyIn canonical .verify directory associated none .noWait))
      fun outcome part => ∃ host, Shows hostCalls host part ∧ outcome = .vacant ∧
        Vacant canonical directory (rootSessions associated) host :=
    reads_embed (fun op looks => looks) (reads_finalizeVerify directory associated)
  apply reads_bind direct
  rintro outcome part ⟨host, shown, rfl, vacant⟩
  exact reads_fromExcept fun _ _ => ⟨host, shown, vacant⟩

end Fresh

section Recheck
variable {canonical : String → String} {identity : String} {issue : Nat} {session : Option String}
  {allowed : Option LeaseScope} {directory : String}

-- The rows and scopes of the repository, read after everything remembered was dropped.
def Reread (identity : String) (context : CleanupContext) (part : CleanupHistory) : Prop :=
  ∃ repoKey, part = [⟨.scopeMapForRepo identity repoKey, .ok context.scopes⟩,
    ⟨.listAllForRepo identity, .ok context.rows⟩, ⟨.verifiedRepoKey identity, repoKey⟩,
    ⟨.openStore, .ok ()⟩, ⟨.refresh, ()⟩]

theorem reads_reload (unreadable : String) :
    Reads CleanupOp.Observes (reload identity unreadable) (Reread identity) := by
  apply reads_bind (M := fun _ part => part = [⟨.refresh, ()⟩])
  · exact reads_request trivial fun _ _ _ => rfl
  rintro _ _ rfl
  apply reads_bind (M := fun _ part => part = [⟨.openStore, .ok ()⟩])
  · exact reads_request trivial fun r _ opened => by rw [id] at opened; rw [opened]
  rintro _ _ rfl
  apply reads_renameFailure
  apply reads_bind (M := fun repoKey part => part = [⟨.verifiedRepoKey identity, repoKey⟩])
  · exact reads_request trivial fun _ _ answered => by cases answered; rfl
  rintro repoKey _ rfl
  apply reads_bind (M := fun rows part => part = [⟨.listAllForRepo identity, .ok rows⟩])
  · exact reads_request trivial fun r rows answered => by rw [mapError_eq_ok] at answered; rw [answered]
  rintro rows _ rfl
  apply reads_bind (M := fun scopes part => part = [⟨.scopeMapForRepo identity repoKey, .ok scopes⟩])
  · exact reads_request trivial fun r scopes answered => by rw [mapError_eq_ok] at answered; rw [answered]
  rintro scopes _ rfl
  exact reads_pure ⟨repoKey, rfl⟩

theorem readStatus_ok {output : GitOutput} {clean : Bool} :
    readStatus output = .ok clean ↔ output.status = 0 ∧ isBlank output.stdout = clean := by
  simp [readStatus]

theorem readGitDir_ok {output : GitOutput} {isMain : Bool} {path : String} :
    readGitDir canonical path identity output = .ok isMain ↔
      output.status = 0 ∧ isBlank output.stdout = false ∧
        sameDirectory canonical (joinPath path (trimText output.stdout)) identity = isMain := by
  simp [readGitDir]

def Linked (canonical : String → String) (identity path : String) (output : GitOutput) : Prop :=
  readGitDir canonical path identity output = .ok false

def Clean (output : GitOutput) : Prop := output.status = 0 ∧ isBlank output.stdout = true

theorem reads_runGit (arguments : List String) (workdir : String)
    (reads : arguments.head? ≠ some "worktree") :
    Reads CleanupOp.Observes (runGit arguments workdir) fun output part =>
      part = [⟨.git arguments workdir, .ok output⟩] :=
  reads_request reads fun r output answered => by rw [id] at answered; rw [answered]

theorem reads_isMainCheckout (path : String) :
    Reads CleanupOp.Observes (isMainCheckout canonical path identity) fun isMain part =>
      ∃ output, part = [⟨.git ["rev-parse", "--git-dir"] path, .ok output⟩] ∧
        readGitDir canonical path identity output = .ok isMain := by
  apply reads_bind (reads_runGit _ _ (by simp))
  rintro output _ rfl
  exact reads_fromExcept fun isMain result => ⟨output, rfl, result⟩

theorem reads_isClean (path : String) :
    Reads CleanupOp.Observes (isClean path) fun clean part =>
      ∃ output, part = [⟨.git ["status", "--porcelain"] path, .ok output⟩] ∧
        readStatus output = .ok clean := by
  apply reads_bind (reads_runGit _ _ (by simp))
  rintro output _ rfl
  exact reads_fromExcept fun clean result => ⟨output, rfl, result⟩

def Unprotected (canonical : String → String) (identity : String) (rows : List LeaseRow)
    (session : Option String) (path : String) (part : CleanupHistory) : Prop :=
  ∃ gitDir status, part = [⟨.git ["status", "--porcelain"] path, .ok status⟩,
      ⟨.git ["rev-parse", "--git-dir"] path, .ok gitDir⟩] ∧
    Linked canonical identity path gitDir ∧ Clean status ∧
    ∀ other ∈ rowsOf canonical rows path, other.isActive → session = some other.session

theorem reads_notMainCheckout (path : String) :
    Reads CleanupOp.Observes (notMainCheckout canonical identity path) fun _ part =>
      ∃ output, part = [⟨.git ["rev-parse", "--git-dir"] path, .ok output⟩] ∧
        Linked canonical identity path output := by
  apply reads_bind (reads_renameFailure (reads_isMainCheckout _))
  rintro isMain _ ⟨gitDir, rfl, main⟩
  apply reads_fromExcept
  intro _ passed
  rw [refuse_eq_ok, Bool.not_eq_true] at passed
  exact ⟨gitDir, rfl, by rw [Linked, main, passed]⟩

theorem reads_cleanOrCache (path : String) :
    Reads CleanupOp.Observes (cleanOrCache path) fun cache part => cache = none →
      ∃ output, part = [⟨.git ["status", "--porcelain"] path, .ok output⟩] ∧ Clean output := by
  apply reads_bind (reads_renameFailure (reads_isClean _))
  rintro clean _ ⟨status, rfl, seen⟩
  cases clean with
  | true => exact reads_pure fun _ => ⟨status, rfl, readStatus_ok.mp seen⟩
  | false =>
      simp only [Bool.false_eq_true, if_false]
      apply reads_bind (reads_of_performs (observes (performs_inspect path)))
      intro inspection part _
      cases inspection with
      | cacheOnly cache => exact reads_pure fun impossible => nomatch impossible
      | notCacheOnly => exact reads_throw

theorem reads_evaluateGuards (rows : List LeaseRow) (row : LeaseRow) :
    Reads CleanupOp.Observes (evaluateGuards canonical identity rows session row)
      fun cache part => cache = none →
        Unprotected canonical identity rows session row.worktreePath part := by
  apply reads_bind (reads_notMainCheckout _)
  rintro _ _ ⟨gitDir, rfl, linked⟩
  apply reads_bind (M := fun _ part => part = [] ∧
    ∀ other ∈ rowsOf canonical rows row.worktreePath, other.isActive → session = some other.session)
  · exact reads_fromExcept fun _ passed => ⟨rfl, refuseForeign_ok passed (by simp [sameDirectory])⟩
  rintro _ _ ⟨rfl, own⟩
  apply (reads_cleanOrCache _).weaken
  intro cache part seen none
  obtain ⟨status, rfl, clean⟩ := seen none
  exact ⟨gitDir, status, rfl, linked, clean, own⟩

theorem reads_evaluateFresh (context : CleanupContext) (gone : String) (explain : String → String) :
    Reads CleanupOp.Observes
      (evaluateFresh canonical identity session allowed context directory gone explain)
      fun cache part => context.directoryScopeAllowed canonical directory allowed = true ∧
        (cache = none → ∃ path, sameDirectory canonical path directory = true ∧
          Unprotected canonical identity context.rows session path part) := by
  apply reads_bind (M := fun _ part => part = [] ∧
    context.directoryScopeAllowed canonical directory allowed = true)
  · exact reads_fromExcept fun _ passed => ⟨rfl, Bool.of_not_eq_false (refuse_eq_ok.mp passed)⟩
  rintro _ _ ⟨rfl, free⟩
  split
  · exact reads_throw
  · rename_i row found
    have here : sameDirectory canonical row.worktreePath directory = true :=
      List.find?_some (p := fun row : LeaseRow => sameDirectory canonical row.worktreePath directory) found
    apply (reads_renameFailure (reads_evaluateGuards context.rows row)).weaken
    intro cache part guarded
    rw [List.append_nil]
    exact ⟨free, fun none => ⟨row.worktreePath, here, guarded none⟩⟩

theorem trimText_trimText (text : String) : trimText (trimText text) = trimText text := by
  simp [trimText]

theorem Vacant.fewer {roots fewer : List String} {h : HostHistory}
    (vacant : Vacant canonical directory roots h) (covered : ∀ id ∈ fewer, id ∈ roots) :
    Vacant canonical directory fewer h := by
  obtain ⟨check, listing, lookups, sessions, same, listed, nobody, located, idle⟩ := vacant
  exact ⟨check, listing, lookups, sessions, same, listed, nobody,
    ⟨located.1, fun id among => located.2 id (covered id among)⟩, idle⟩

theorem associatedSessions_roots {rows : List LeaseRow} {id : String}
    (among : id ∈ associatedSessions canonical rows directory) :
    id ∈ rootSessions (associatedSessions canonical rows directory) := by
  obtain ⟨⟨row, _, rfl⟩, managed⟩ := mem_associatedSessions.mp among
  rw [mem_rootSessions]
  exact ⟨List.mem_map.mpr ⟨_, among, trimText_trimText row.session⟩, managed⟩

/-- What a removal of the directory rests on: the reload, the local guards, and the host's answers. -/
structure Evidence (canonical : String → String) (identity : String) (session : Option String)
    (allowed : Option LeaseScope) (directory : String) (fresh : CleanupContext) (issues : List Nat)
    (hosts guards reads : CleanupHistory) : Prop where
  reread : Reread identity fresh reads
  scopeRule : (∀ row ∈ rowsOf canonical fresh.rows directory, fresh.scopes.lookup row.leaseId = none) ∨
    ∃ own, allowed = some own ∧ ∀ row ∈ rowsOf canonical fresh.rows directory,
      ∃ scope, fresh.scopes.lookup row.leaseId = some scope ∧ scopeAllows own scope = true
  unowned : ∀ row ∈ rowsOf canonical fresh.rows directory, row.isActive → session = some row.session
  linkedAndClean : ∃ path, sameDirectory canonical path directory = true ∧
    Unprotected canonical identity fresh.rows session path guards
  asked : ∀ row ∈ rowsOf canonical fresh.rows directory, row.issueNumber ∈ issues
  unhosted : ∀ row ∈ rowsOf canonical fresh.rows directory,
    isOpencodeSession (trimText row.session) = true → ∃ host, Shows hostCalls host hosts ∧
      Vacant canonical directory (associatedSessions canonical fresh.rows directory) host
  observes : ∀ act ∈ hosts ++ guards ++ reads, act.effect.Observes

def Cleared (canonical : String → String) (identity : String) (issue : Nat) (session : Option String)
    (allowed : Option LeaseScope) (directory : String) (h : CleanupHistory) : Prop :=
  ∃ fresh issues hosts guards reads older,
    h = hosts ++ ⟨.confirmOthersClosed issue issues, .ok ()⟩ :: (guards ++ reads ++ older) ∧
    Evidence canonical identity session allowed directory fresh issues hosts guards reads

theorem reads_recheckAfterCache :
    Reads CleanupOp.Observes
      (recheckAfterCache canonical identity issue session allowed directory)
      fun _ part => Cleared canonical identity issue session allowed directory part := by
  apply reads_bind (reads_reload _).stays
  rintro fresh reads ⟨reread, readings⟩
  apply reads_bind (reads_evaluateFresh fresh _ id).stays
  rintro cache guards ⟨⟨free, guarded⟩, guardings⟩
  apply reads_bind (M := fun _ part => cache = none ∧ part = [])
  · exact reads_fromExcept fun _ passed => ⟨not_not.mp (refuse_eq_ok.mp passed), rfl⟩
  rintro _ _ ⟨none, rfl⟩
  apply reads_bind (M := fun _ part => part = [⟨.confirmOthersClosed issue
    (associatedIssues canonical fresh.rows directory), .ok ()⟩])
  · exact reads_request trivial fun r _ answered => by rw [id] at answered; rw [answered]
  rintro _ _ rfl
  obtain ⟨path, here, unprotected⟩ := guarded none
  have unowned : ∀ row ∈ rowsOf canonical fresh.rows directory, row.isActive →
      session = some row.session := by
    obtain ⟨_, _, _, _, _, own⟩ := unprotected
    intro row among
    obtain ⟨listed, there⟩ := mem_rowsOf.mp among
    exact own row (mem_rowsOf.mpr ⟨listed, sameDirectory_trans there (sameDirectory_symm here)⟩)
  have asked : ∀ row ∈ rowsOf canonical fresh.rows directory,
      row.issueNumber ∈ associatedIssues canonical fresh.rows directory :=
    fun row among => mem_associatedIssues.mpr ⟨row, among, rfl⟩
  have evidence : ∀ hosts : CleanupHistory, (∀ act ∈ hosts, act.effect.Observes) →
      (associatedSessions canonical fresh.rows directory ≠ [] → ∃ host, Shows hostCalls host hosts ∧
        Vacant canonical directory (associatedSessions canonical fresh.rows directory) host) →
      Evidence canonical identity session allowed directory fresh
        (associatedIssues canonical fresh.rows directory) hosts guards reads := by
    intro hosts looks seen
    refine ⟨reread, directoryScopeAllowed_iff.mp free, unowned, ⟨path, here, unprotected⟩, asked, ?_, ?_⟩
    · intro row among managed
      exact seen (List.ne_nil_of_mem (mem_associatedSessions.mpr ⟨⟨row, among, rfl⟩, managed⟩))
    · simp only [List.mem_append, or_imp, forall_and]
      exact ⟨⟨looks, guardings⟩, readings⟩
  dsimp only
  split
  · rename_i unmanaged
    apply reads_pure
    exact ⟨fresh, _, [], guards, reads, [], by simp, evidence [] (by simp) fun managed =>
      (managed unmanaged).elim⟩
  · apply (reads_vacated directory _).stays.weaken
    rintro _ hosts ⟨⟨host, shown, vacant⟩, looks⟩
    exact ⟨fresh, _, hosts, guards, reads, [], by simp, evidence hosts looks fun _ =>
      ⟨host, shown, vacant.fewer fun _ => associatedSessions_roots⟩⟩

end Recheck

section Pass
variable (canonical : String → String) (guard : OccupancyGuard) (mode : CleanupMode)
  (identity : String) (issue : Nat) (session : Option String) (allowed : Option LeaseScope)

-- A removal needs its evidence, and nothing else needs any.
def removalGuard (h : CleanupHistory) (op : CleanupOp) : Prop :=
  ∀ target workdir, op = .git ["worktree", "remove", target] workdir →
    Cleared canonical identity issue session allowed target h

variable {canonical guard mode identity issue session allowed}

theorem removalGuard_of_spares (h : CleanupHistory) {op : CleanupOp} (spares : op.Spares) :
    removalGuard canonical identity issue session allowed h op :=
  fun target workdir same => (spares target workdir same).elim

theorem Cleared.newer {directory : String} {part before : CleanupHistory}
    (cleared : Cleared canonical identity issue session allowed directory part) :
    Cleared canonical identity issue session allowed directory (part ++ before) := by
  obtain ⟨fresh, issues, hosts, guards, reads, older, rfl, evidence⟩ := cleared
  exact ⟨fresh, issues, hosts, guards, reads, older ++ before, by simp, evidence⟩

theorem traced_spares {ε α : Type} {p : Attempt CleanupOp CleanupOp.Ret ε α}
    (performs : Performs CleanupOp.Spares p) :
    Traced (removalGuard canonical identity issue session allowed) (fun _ => True) p
      (fun _ _ => True) fun _ _ => True := by
  have traced : Traced (removalGuard canonical identity issue session allowed) (fun _ => True) p
      (fun _ _ => True) fun _ _ => True :=
    traced_performs (fun h _ _ spares => removalGuard_of_spares h spares)
      (fun _ _ _ _ _ => trivial) performs
  exact traced.any

theorem traced_removeWorktree (fires : mode ≠ .report) (directory : String)
    (expected : Option CacheInventory) :
    Traced (removalGuard canonical identity issue session allowed) (fun _ => True)
      (removeWorktree canonical mode identity issue session allowed directory expected)
      (fun _ _ => True) fun _ _ => True := by
  unfold removeWorktree
  apply traced_bind (traced_spares (spares (performs_reverify _ _ _ _ _ _ _)))
  intro _
  rw [if_neg fires]
  apply traced_bind (M := fun _ h =>
    Cleared canonical identity issue session allowed directory h)
  · apply traced_bind (M := fun _ _ => True)
    · exact traced_renameFailure (fun _ _ failed => failed) (traced_spares (performs_clearCacheOnly _ _))
    · intro _
      apply traced_renameFailure (F := fun _ _ => True) fun _ _ _ => trivial
      have rechecked : Reads CleanupOp.Observes
          (recheckAfterCache canonical identity issue session allowed directory)
          fun _ part => Cleared canonical identity issue session allowed directory part :=
        reads_recheckAfterCache
      apply (rechecked.after (P := fun _ => True)
        fun h op looks => removalGuard_of_spares h looks.spares).weaken
      · rintro _ h ⟨before, part, rfl, _, cleared⟩
        exact cleared.newer
      · exact fun _ _ _ => trivial
  · intro _
    apply traced_renameFailure (F := fun _ _ => True) fun _ _ _ => trivial
    apply traced_bind (M := fun _ _ => True)
    · apply traced_requested
      intro h cleared target workdir same
      cases same
      exact cleared
    · intro output
      exact (traced_fromExcept (fun _ _ _ _ => trivial)).any

theorem along_spares {α : Type} {p : CleanupProg α} (calls : p.Calls CleanupOp.Spares)
    (h : CleanupHistory) :
    p.Along (removalGuard canonical identity issue session allowed) (fun _ _ => True) h :=
  Prog.Along.calls (P := fun _ => True) (fun h _ _ spares => removalGuard_of_spares h spares)
    (fun _ _ _ _ _ => trivial) calls trivial

theorem along_cleanRow (fires : mode ≠ .report) (context : CleanupContext) (row : LeaseRow)
    (memo : HostMemo) (h : CleanupHistory) :
    (cleanRow canonical guard mode identity issue session allowed context row memo).Along
      (removalGuard canonical identity issue session allowed) (fun _ _ => True) h := by
  refine ⟨removalGuard_of_spares h (by simp [CleanupOp.Spares]), fun present => ?_⟩
  simp only [Prog.bind_done]
  split
  · trivial
  · unfold cleanPresent
    apply Prog.Along.bind
    have assessed : (assessRow canonical identity issue session allowed context row).run.Calls
        CleanupOp.Spares :=
      (spares (performs_assessRow identity issue session allowed context row)).calls
    apply (along_spares assessed _).weaken
    intro result h' _
    cases result with
    | error reason => trivial
    | ok cache =>
        apply Prog.Along.bind
        have spares : ∀ op : HostOp, (CleanupOp.host op).Spares :=
          fun op target workdir impossible => nomatch impossible
        apply (along_spares (calls_keepReason canonical mode row.worktreePath _ session spares guard
          memo) h').weaken
        rintro ⟨blocked, memo⟩ h'' _
        cases blocked with
        | some reason => trivial
        | none =>
            apply Prog.Along.bind
            have traced : Traced (removalGuard canonical identity issue session allowed)
                (fun _ => True) (removeWorktree canonical mode identity issue session allowed
                  row.worktreePath cache) (fun _ _ => True) fun _ _ => True :=
              traced_removeWorktree fires row.worktreePath cache
            unfold Traced at traced
            exact (traced h'' trivial).weaken fun _ _ _ => trivial

theorem along_cleanRows (fires : mode ≠ .report) (context : CleanupContext) (rows : List LeaseRow)
    (memo : HostMemo) (h : CleanupHistory) :
    (cleanRows canonical guard mode identity issue session allowed context rows memo).Along
      (removalGuard canonical identity issue session allowed) (fun _ _ => True) h := by
  induction rows generalizing memo h with
  | nil => trivial
  | cons row rest ih =>
      apply Prog.Along.bind
      apply (along_cleanRow fires context row memo h).weaken
      rintro ⟨outcome, memo⟩ h' _
      apply Prog.Along.bind
      exact (ih memo h').weaken fun _ _ _ => trivial

/-- Whatever is answered and changed between the reads, a pass that may delete asks Git to remove a
directory only with its evidence at the end of the history. -/
theorem removals_rest_on_fresh_evidence (canonical : String → String) (guard : OccupancyGuard)
    (mode : CleanupMode) (issue : Nat) (session : Option String) (allowed : Option LeaseScope)
    (context : CleanupContext) (memo : HostMemo) (fires : mode ≠ .report) {h : CleanupHistory}
    {p : CleanupProg (AutoCleanupOutcome × HostMemo)}
    (reached : Reaches (cleanupClosedIssueWorktreesInContext canonical guard mode issue session
      allowed context memo) h p) :
    ∀ later target workdir answer before,
      h = later ++ ⟨.git ["worktree", "remove", target] workdir, answer⟩ :: before →
        Cleared canonical context.identity issue (namedSession session) allowed target before := by
  have along : (cleanupClosedIssueWorktreesInContext canonical guard mode issue session
      allowed context memo).Along
        (removalGuard canonical context.identity issue (namedSession session) allowed)
        (fun _ _ => True) [] := by
    unfold cleanupClosedIssueWorktreesInContext
    split
    · trivial
    · apply Prog.Along.bind
      exact (along_cleanRows fires context _ memo []).weaken fun _ _ _ => trivial
  rintro later target workdir answer before rfl
  exact (along.reaches reached).1.needs target workdir rfl

end Pass

section Runs

def retainedRow : LeaseRow :=
  ⟨"lease-7", "/repo/.git", 7, "ses_a", "/main", "/wt", "b7", .retained, 1, 1, none⟩

def leftBehind (_ : CleanupHistory) : (op : CleanupOp) → op.Ret
  | .host op => hostOf (fun _ => "/main") [] [] op
  | .git arguments _ =>
      .ok ⟨0, if arguments = ["rev-parse", "--git-dir"] then "/repo/.git/worktrees/wt" else ""⟩
  | .pathExists _ => true
  | .cacheMetadata _ => .notFound
  | .sameFilesystem _ => true
  | .inventory _ => .error "no cache"
  | .removeCache _ => .error "no cache"
  | .repoIdentity _ => .ok "/repo/.git"
  | .openStore => .ok ()
  | .ensureSchema => .ok ()
  | .verifiedRepoKey _ => none
  | .listAllForRepo _ => .ok [retainedRow]
  | .scopeMapForRepo .. => .ok []
  | .releaseActiveLeases .. => .ok 0
  | .refresh => ()
  | .confirmOthersClosed .. => .ok ()

theorem close_rests_on_fresh_evidence :
    ∃ before, Cleared id "/repo/.git" 7 (some "ses_a") none "/wt" before := by
  have reached := Prog.reaches_against leftBehind (cleanupClosedIssueWorktreesInContext id .direct
    .close 7 (some "ses_a") none ⟨"/repo/.git", [retainedRow], []⟩ ⟨[], [], false⟩)
  have last : (((cleanupClosedIssueWorktreesInContext id .direct .close 7 (some "ses_a") none
      ⟨"/repo/.git", [retainedRow], []⟩ ⟨[], [], false⟩).against leftBehind []).2.map
        (·.effect)).head? = some (.git ["worktree", "remove", "/wt"] "/wt") := by decide
  generalize (Prog.against _ _ _).2 = h at reached last
  obtain ⟨⟨effect, answer⟩, before, rfl⟩ := List.exists_cons_of_ne_nil (l := h) (by rintro rfl; nomatch last)
  cases Option.some.inj last
  exact ⟨before, removals_rest_on_fresh_evidence id .direct .close 7 (some "ses_a") none
    ⟨"/repo/.git", [retainedRow], []⟩ ⟨[], [], false⟩ (by decide) reached [] "/wt" "/wt" answer
    before rfl⟩

end Runs

end Phasegent.Cleanup
