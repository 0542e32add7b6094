import Phasegent.Prune.Removals

namespace Phasegent.Prune
open Fallible Interleaving Cleanup
open Lease (LeaseRow LeaseScope LeaseStatus ScopeMap GitOutput WorktreeError AbsentTarget
  ScopedRetentionProof directoryOwnershipProof)

section Preview
variable {setup : PruneSetup} {identity repoPath : String} {repoKey : Option String}
  {pinned : List String} {rows : List LeaseRow} {scopes : ScopeMap}

theorem calls_classify (group : DirectoryGroup) (memo : ScanHostCache) (resolve : String → String) :
    (classify setup identity pinned resolve rows scopes group memo).Calls PruneOp.Observes := by
  apply Prog.Calls.bind (performs_localVerdict group).calls
  intro result
  cases result with
  | error disposition => trivial
  | ok cache =>
      apply Prog.Calls.bind (Prog.Calls.serve calls_scanHost _ memo)
      intro answer
      exact (performs_verdict group answer.1 cache).calls.bind fun _ => trivial

theorem calls_scanGroups (groups : List DirectoryGroup) (memo : ScanHostCache)
    (resolve : String → String) :
    (scanGroups setup identity pinned resolve rows scopes groups memo).Calls PruneOp.Observes := by
  induction groups generalizing memo with
  | nil => trivial
  | cons group rest ih =>
      apply Prog.Calls.bind (calls_classify _ memo resolve)
      intro answer
      exact (ih answer.2).bind fun _ => trivial

variable (dry : setup.mode = .report)
include dry

theorem calls_applyCandidate (candidate : DirectoryCandidate) :
    (applyCandidate setup identity repoPath repoKey pinned rows candidate).Calls
      PruneOp.Observes := by
  unfold applyCandidate
  dsimp only
  split
  · trivial
  · trivial
  · trivial
  · trivial
  · simp [applyMissing, dry, Prog.Calls]
  · rw [applyRemovable, if_pos dry]
    exact calls_preview _

theorem calls_applyCandidates (candidates : List DirectoryCandidate) :
    (applyCandidates setup identity repoPath pinned rows repoKey candidates).Calls
      PruneOp.Observes := by
  induction candidates with
  | nil => trivial
  | cons candidate rest ih =>
      exact (calls_applyCandidate dry candidate).bind fun _ => ih.bind fun _ => trivial

theorem calls_prunePass (memo : ScanHostCache) :
    (prunePassWithPolicy setup identity repoPath pinned rows memo).Calls PruneOp.Observes := by
  refine ⟨trivial, fun repoKey => ⟨trivial, fun answer => ?_⟩⟩
  cases answer with
  | error error => exact ⟨trivial, fun _ => trivial⟩
  | ok scopes =>
      refine ⟨trivial, fun resolve => ?_⟩
      apply Prog.Calls.bind (calls_scanGroups _ memo resolve)
      intro answer
      exact (calls_applyCandidates dry answer.1).bind fun _ => trivial

theorem performs_pruneRepository (unrecovered : setup.recovery = none) (scope : RepoScope)
    (memo : ScanHostCache) : Performs PruneOp.Observes (pruneRepository setup scope memo) := by
  apply performs_bind (performs_request (by trivial))
  intro validated
  cases validated with
  | error error => exact performs_pure _
  | ok sidecars =>
      apply performs_bind (performs_request (by trivial))
      intro start
      apply performs_bind (performs_request (by trivial))
      intro pin
      apply performs_bind (performs_request (by trivial))
      intro stale
      apply performs_bind
      · rw [recoverStale, unrecovered]
        exact performs_pure _
      intro leases
      apply performs_bind
      · unfold refreshedRows
        split
        · exact performs_request (by trivial)
        · exact performs_pure _
      intro rows
      apply performs_bind
      · unfold Performs
        exact (calls_prunePass dry memo).bind fun _ => trivial
      · exact fun _ => performs_pure _

theorem performs_pruneRepositories (unrecovered : setup.recovery = none) (listed : List Scope)
    (memo : ScanHostCache) : Performs PruneOp.Observes (pruneRepositories setup listed memo) := by
  induction listed generalizing memo with
  | nil => exact performs_pure _
  | cons scope rest ih =>
      cases scope with
      | skipped identity reason => exact performs_bind (ih memo) fun _ => performs_pure _
      | resolved scope =>
          apply performs_bind (performs_pruneRepository dry unrecovered scope memo)
          exact fun answer => performs_bind (ih answer.2) fun _ => performs_pure _

end Preview

theorem performs_preview {setup : PruneSetup} (dry : setup.mode = .report) (releaseStale : Bool)
    (reason : Option String) (scopes : List Scope) :
    Performs PruneOp.Observes (executePrune setup releaseStale reason scopes) := by
  have never : (releaseStale && setup.mode == .remove) = false := by simp [dry]
  simp only [executePrune, never, Bool.false_eq_true, false_and, if_false]
  apply performs_bind (performs_fromExcept _)
  have previewing : ({ setup with recovery := none } : PruneSetup).mode = .report := dry
  exact fun _ => performs_pruneRepositories previewing rfl scopes _

section Flips

-- The two ways to mark a lease released: one by one, and all at once of an absent path.
def PruneOp.Keeps : PruneOp → Prop
  | .updateStatus .. | .releaseAbsentLeases .. => False
  | _ => True

theorem PruneOp.Observes.keeps {op : PruneOp} (observes : op.Observes) : op.Keeps := by
  cases op <;> trivial

/-- The directory has just been removed, and nothing has happened since but flips of its leases. -/
def Removed (target : String) (h : PruneHistory) : Prop :=
  ∃ flips workdir output before,
    h = flips ++ ⟨.cleanup (.git ["worktree", "remove", target] workdir), .ok output⟩ :: before ∧
      output.status = 0 ∧ ∀ act ∈ flips, ∃ leaseId, act = ⟨.updateStatus leaseId .released, .ok ()⟩

def ScannedAt (leaseId target : String) (h : PruneHistory) : Prop :=
  ∃ identity rows scan, ⟨.cleanup (.listAllForRepo identity), .ok rows⟩ ∈ h ∧
    ⟨.canonicalPaths, scan⟩ ∈ h ∧
    ∃ row ∈ rowsAt scan rows (scan target), row.leaseId = leaseId

/-- Nothing was found at the directory's path after the scan, the targets are its retained rows as they
were scanned, and the proof is of their ownership as it was scanned. -/
def Absent (identity : String) (repoKey : Option String) (targets : List AbsentTarget)
    (approved : ScopedRetentionProof) (h : PruneHistory) : Prop :=
  ∃ directory rows scopes scan after before,
    h = after ++ ⟨.canonicalPaths, scan⟩ ::
      ⟨.cleanup (.scopeMapForRepo identity repoKey), .ok scopes⟩ :: before ∧
    ⟨.cleanup (.listAllForRepo identity), .ok rows⟩ ∈ before ∧ ⟨.pathEntry directory, .missing⟩ ∈ after ∧
    (∀ row ∈ rowsAt scan rows directory, row.status = .retained ∨ row.status = .released) ∧
    (∀ target ∈ targets, ∃ row ∈ rowsAt scan rows directory, row.status = .retained ∧
      target = (row.leaseId, row.status, row.worktreePath)) ∧
    approved = directoryOwnershipProof (fun path => components (scan path)) (components directory) rows
      scopes

def flipGuard (mode : PruneMode) (h : PruneHistory) : PruneOp → Prop
  | .updateStatus leaseId status =>
      status = .released ∧ ∃ target, Removed target h ∧ ScannedAt leaseId target h
  | .releaseAbsentLeases identity repoKey targets approved =>
      mode = .remove ∧ targets ≠ [] ∧ Absent identity repoKey targets approved h
  | _ => True

theorem flipGuard_of_keeps {mode : PruneMode} (h : PruneHistory) {op : PruneOp} (keeps : op.Keeps) :
    flipGuard mode h op := by
  cases op <;> trivial

theorem ScannedAt.newer {leaseId target : String} {h : PruneHistory}
    (seen : ScannedAt leaseId target h) (part : PruneHistory) : ScannedAt leaseId target (part ++ h) := by
  obtain ⟨identity, rows, scan, listed, resolved, row, among, same⟩ := seen
  exact ⟨identity, rows, scan, List.mem_append_right _ listed, List.mem_append_right _ resolved, row,
    among, same⟩

theorem Absent.newer {identity : String} {repoKey : Option String} {targets : List AbsentTarget}
    {approved : ScopedRetentionProof} {h : PruneHistory} (absent : Absent identity repoKey targets approved h)
    (part : PruneHistory) : Absent identity repoKey targets approved (part ++ h) := by
  obtain ⟨directory, rows, scopes, scan, after, before, rfl, listed, missing, rest⟩ := absent
  exact ⟨directory, rows, scopes, scan, part ++ after, before, by simp, listed,
    List.mem_append_right _ missing, rest⟩

variable {setup : PruneSetup}

theorem along_flipLeases {target removed : String} {leaseIds : List String} {action : PruneAction}
    {h : PruneHistory} (gone : Removed target h)
    (seen : ∀ leaseId ∈ leaseIds, ScannedAt leaseId target h) :
    (flipLeases removed leaseIds action).Along (flipGuard setup.mode) (fun _ _ => True) h := by
  induction leaseIds generalizing h with
  | nil => trivial
  | cons leaseId rest ih =>
      obtain ⟨own, others⟩ := List.forall_mem_cons.mp seen
      refine ⟨⟨rfl, target, gone, own⟩, fun r => ?_⟩
      cases r with
      | error error => trivial
      | ok u =>
          obtain ⟨flips, workdir, output, before, rfl, done, only⟩ := gone
          apply ih
          · refine ⟨⟨.updateStatus leaseId .released, .ok ()⟩ :: flips, workdir, output, before, rfl,
              done, ?_⟩
            exact List.forall_mem_cons.mpr ⟨⟨leaseId, rfl⟩, only⟩
          · exact fun id later => (others id later).newer [⟨.updateStatus leaseId .released, .ok ()⟩]

structure Known (identity : String) (repoKey : Option String) (candidate : DirectoryCandidate)
    (h : PruneHistory) : Prop where
  scanned : ∀ leaseId ∈ candidate.leaseIds, ScannedAt leaseId candidate.worktreePath h
  absent : candidate.classification = .error .missingDirectory →
    Absent identity repoKey (absentTargets candidate) candidate.releaseProof h

variable {identity repoPath : String} {repoKey : Option String} {pinned : List String}
  {rows : List LeaseRow} {scopes : ScopeMap} {candidate : DirectoryCandidate}

theorem Known.newer {h : PruneHistory} (known : Known identity repoKey candidate h)
    (part : PruneHistory) : Known identity repoKey candidate (part ++ h) where
  scanned leaseId listed := (known.scanned leaseId listed).newer part
  absent missing := (known.absent missing).newer part

theorem along_kept {α : Type} {P : PruneHistory → Prop} {p : PruneProg α}
    (kept : ∀ part h, P h → P (part ++ h)) (calls : p.Calls PruneOp.Keeps) {h : PruneHistory}
    (holds : P h) : p.Along (flipGuard setup.mode) (fun _ => P) h :=
  Prog.Along.calls (fun h _ _ keeps => flipGuard_of_keeps h keeps)
    (fun h e r before _ => kept [⟨e, r⟩] h before) calls holds

theorem performs_clearAndRecheck :
    Performs PruneOp.Keeps (clearAndRecheck setup identity repoKey pinned candidate) := by
  have all : Performs (fun _ => True) (Cleanup.clearCacheOnly candidate.worktreePath candidate.cache) := by
    unfold Performs
    exact .of_forall (fun _ => trivial) _
  apply performs_bind
  · exact performs_renameFailure (performs_embed all fun op _ => trivial)
  · intro _
    exact performs_renameFailure ((performs_postMoveRecheck false).mono fun _ looks => looks.keeps)

theorem removalOutcome_ok {r : Except WorktreeError GitOutput} {u : Unit}
    (removed : removalOutcome r = .ok u) : ∃ output, r = .ok output ∧ output.status = 0 := by
  cases r with
  | error error => exact absurd removed (by simp [removalOutcome, Except.bind])
  | ok output => exact ⟨output, rfl, not_not.mp (refuse_eq_ok.mp removed)⟩

theorem flips_applyRemoval (action : PruneAction) {h : PruneHistory}
    (known : Known identity repoKey candidate h) :
    (applyRemoval setup identity repoPath repoKey pinned candidate action).Along (flipGuard setup.mode)
      (fun _ _ => True) h := by
  apply Prog.Along.bind
  apply (along_kept (P := Known identity repoKey candidate) (fun part _ before => before.newer part)
    performs_clearAndRecheck.calls known).weaken
  intro result h' still
  cases result with
  | error reason => trivial
  | ok u =>
      rw [embed_worktreeRemove]
      refine ⟨trivial, fun r => ?_⟩
      simp only [Prog.bind_done]
      split
      · rename_i removed
        obtain ⟨output, rfl, done⟩ := removalOutcome_ok removed
        apply along_flipLeases ⟨[], repoPath, output, h', rfl, done, by simp⟩
        · intro leaseId listed
          exact (still.scanned leaseId listed).newer
            [⟨.cleanup (.git ["worktree", "remove", candidate.worktreePath] repoPath), .ok output⟩]
      · trivial

theorem flips_applyMissing (action : PruneAction) {h : PruneHistory}
    (absent : Absent identity repoKey (absentTargets candidate) candidate.releaseProof h) :
    (applyMissing setup identity repoKey candidate action).Along (flipGuard setup.mode)
      (fun _ _ => True) h := by
  unfold applyMissing
  dsimp only
  split
  · rename_i fires
    refine ⟨⟨fires.1, fires.2, absent⟩, fun r => ?_⟩
    rcases r with error | flipped
    · trivial
    · cases flipped with
      | nil => trivial
      | cons first rest =>
          apply Prog.Along.map
          have looks : (reloadStatuses candidate.leaseIds
              (action.finish .absent absentMessage)).Calls PruneOp.Keeps :=
            (calls_reloadStatuses _ _).mono fun _ observes => observes.keeps
          exact along_kept (P := fun _ => True) (fun _ _ _ => trivial) looks trivial
  · trivial

theorem flips_applyCandidate {h : PruneHistory} (known : Known identity repoKey candidate h) :
    (applyCandidate setup identity repoPath repoKey pinned rows candidate).Along (flipGuard setup.mode)
      (fun _ _ => True) h := by
  unfold applyCandidate
  dsimp only
  split
  · trivial
  · trivial
  · trivial
  · trivial
  · rename_i missing
    exact flips_applyMissing _ (known.absent missing)
  · unfold applyRemovable
    split
    · have previewing : (preview rows candidate (.ofCandidate candidate)).Calls PruneOp.Keeps :=
        (calls_preview _).mono fun _ observes => observes.keeps
      exact along_kept (P := fun _ => True) (fun _ _ _ => trivial) previewing trivial
    · have relocating : Performs PruneOp.Keeps (relocate setup identity repoKey pinned candidate) :=
        performs_relocate (fun _ observes => observes.keeps) fun op => trivial
      apply Prog.Along.bind
      apply (along_kept (P := Known identity repoKey candidate) (fun part _ before => before.newer part)
        relocating.calls known).weaken
      intro result h' still
      cases result with
      | error reason => trivial
      | ok u => exact flips_applyRemoval _ still

def Read (identity : String) (rows : List LeaseRow) (h : PruneHistory) : Prop :=
  ⟨.cleanup (.listAllForRepo identity), .ok rows⟩ ∈ h

theorem Read.newer {h : PruneHistory} (listed : Read identity rows h) (part : PruneHistory) :
    Read identity rows (part ++ h) :=
  List.mem_append_right _ listed

variable {scan : String → String}

-- What stays true of a history while it grows: the rows, then the scopes, then the paths were read, and
-- what was seen since.
def Scanning (identity : String) (repoKey : Option String) (rows : List LeaseRow) (scopes : ScopeMap)
    (scan : String → String) (seen : PruneHistory → Prop) (h : PruneHistory) : Prop :=
  ∃ after before, h = after ++ ⟨.canonicalPaths, scan⟩ ::
    ⟨.cleanup (.scopeMapForRepo identity repoKey), .ok scopes⟩ :: before ∧
    Read identity rows before ∧ seen after

def Missing (directory : String) (after : PruneHistory) : Prop := ⟨.pathEntry directory, .missing⟩ ∈ after

theorem Scanning.newer {seen : PruneHistory → Prop} (kept : ∀ part after, seen after → seen (part ++ after))
    (part h : PruneHistory) (scanning : Scanning identity repoKey rows scopes scan seen h) :
    Scanning identity repoKey rows scopes scan seen (part ++ h) := by
  obtain ⟨after, before, rfl, listed, saw⟩ := scanning
  exact ⟨part ++ after, before, by simp, listed, kept part after saw⟩

theorem known_of_gathers {group : DirectoryGroup} {classification : Classification} {h : PruneHistory}
    (gathers : Gathers scan rows group)
    (scanning : Scanning identity repoKey rows scopes scan (fun _ => True) h)
    (absent : classification = .error .missingDirectory →
      (∀ row ∈ group.rows, row.status = .retained ∨ row.status = .released) ∧
        Scanning identity repoKey rows scopes scan (Missing group.canonicalPath) h) :
    Known identity repoKey (candidateOf scan rows scopes (attachScopeProof scopes group) classification)
      h where
  scanned leaseId among := by
    obtain ⟨after, before, rfl, listed, -⟩ := scanning
    have collected : leaseId ∈ group.leaseIds := among
    rw [gathers.leaseIds] at collected
    obtain ⟨row, here, same⟩ := List.mem_map.mp collected
    have there : row ∈ rowsAt scan rows (scan group.worktreePath) := by
      rw [gathers.resolves]
      exact (gathers.members row).mp here
    exact ⟨identity, rows, scan, by simp [show _ ∈ before from listed], by simp, row, there, same⟩
  absent missing := by
    obtain ⟨settled, after, before, rfl, listed, found⟩ := absent missing
    refine ⟨group.canonicalPath, rows, scopes, scan, after, before, rfl, listed, found,
      fun row there => settled row ((gathers.members row).mpr there), fun target among => ?_, rfl⟩
    obtain ⟨proven, unreleased⟩ := List.mem_filter.mp among
    obtain ⟨row, here, rfl⟩ := List.mem_map.mp proven
    refine ⟨row, (gathers.members row).mp here, (settled row here).resolve_right fun released => ?_, rfl⟩
    have listed' : row.leaseId ∈ (group.rows.filter (·.status = .released)).map (·.leaseId) :=
      List.mem_map_of_mem (List.mem_filter.mpr ⟨here, decide_eq_true released⟩)
    rw [Bool.not_eq_true', ← Bool.not_eq_true, List.contains_iff_mem] at unreleased
    exact unreleased listed'

theorem keeping {α : Type} {p : PruneProg α} (calls : p.Calls PruneOp.Observes) :
    p.Calls PruneOp.Keeps :=
  calls.mono fun _ observes => observes.keeps

theorem checkOwnership_kept {group : DirectoryGroup} {disposition : PruneDisposition}
    (refused : checkOwnership setup rows scopes group = .error disposition) :
    disposition ≠ .missingDirectory := by
  simp only [checkOwnership, bind_eq_error, refuse_eq_error] at refused
  rintro rfl
  rcases refused with ⟨-, impossible⟩ | ⟨_, -, ⟨-, impossible⟩ | ⟨_, -, -, impossible⟩⟩ <;> cases impossible

theorem checkStatuses_kept {group : DirectoryGroup} {disposition : PruneDisposition}
    (refused : checkStatuses pinned group = .error disposition) : disposition ≠ .missingDirectory := by
  simp only [checkStatuses, bind_eq_error, refuse_eq_error] at refused
  rintro rfl
  rcases refused with ⟨-, impossible⟩ | ⟨_, -, -, impossible⟩ <;> cases impossible

theorem snapshotBlocker_kept {group : DirectoryGroup} {sessions : List LocatedSession}
    {disposition : PruneDisposition} (refused : snapshotBlocker scan group sessions = .error disposition) :
    disposition ≠ .missingDirectory := by
  unfold snapshotBlocker at refused
  split at refused <;> cases refused
  exact PruneDisposition.noConfusion

theorem flips_kept {α : Type} {P : PruneHistory → Prop} {ε : Type} {p : Attempt PruneOp PruneOp.Ret ε α}
    (kept : ∀ part h, P h → P (part ++ h)) (performs : Performs PruneOp.Keeps p) :
    Traced (flipGuard setup.mode) P p (fun _ => P) fun _ => P :=
  traced_performs (fun h _ _ keeps => flipGuard_of_keeps h keeps)
    (fun h e r before _ => kept [⟨e, r⟩] h before) performs

theorem flips_fromExcept {α : Type} {P : PruneHistory → Prop} {x : Except PruneDisposition α}
    (kept : ∀ disposition, x = .error disposition → disposition ≠ .missingDirectory) :
    Traced (flipGuard setup.mode) P (fromExcept x) (fun a h => x = .ok a ∧ P h)
      fun disposition h => P h ∧ disposition ≠ .missingDirectory :=
  traced_fromExcept fun _ disposition refused holds => ⟨holds, kept disposition refused⟩

theorem flips_localVerdict (group : DirectoryGroup) :
    Traced (flipGuard setup.mode) (Scanning identity repoKey rows scopes scan fun _ => True)
      (localVerdict setup identity pinned scan rows scopes group)
      (fun _ => Scanning identity repoKey rows scopes scan fun _ => True)
      fun disposition h => Scanning identity repoKey rows scopes scan (fun _ => True) h ∧
        (disposition = .missingDirectory →
          (∀ row ∈ group.rows, row.status = .retained ∨ row.status = .released) ∧
            Scanning identity repoKey rows scopes scan (Missing group.canonicalPath) h) := by
  apply traced_bind ((flips_fromExcept fun _ => checkOwnership_kept).weaken (fun _ _ passed => passed)
    fun _ _ refused => ⟨refused.1, fun missing => absurd missing refused.2⟩)
  intro _
  apply traced_bind (M := fun _ h => (∀ row ∈ group.rows, row.status = .retained ∨ row.status = .released) ∧
    Scanning identity repoKey rows scopes scan (fun _ => True) h)
  · apply (flips_fromExcept fun _ => checkStatuses_kept).weaken
    · exact fun _ _ passed => ⟨(checkStatuses_ok passed.1).2, passed.2.2⟩
    · exact fun _ _ refused => ⟨refused.1.2, fun missing => absurd missing refused.2⟩
  intro _
  apply traced_bind (M := fun _ => Scanning identity repoKey rows scopes scan fun _ => True)
  · apply traced_request (fun _ _ => trivial)
    rintro h r ⟨settled, after, before, rfl, listed, -⟩
    have onward : Scanning identity repoKey rows scopes scan (fun _ => True)
        (⟨.pathEntry group.canonicalPath, r⟩ :: (after ++ ⟨.canonicalPaths, scan⟩ ::
          ⟨.cleanup (.scopeMapForRepo identity repoKey), .ok scopes⟩ :: before)) :=
      ⟨⟨.pathEntry group.canonicalPath, r⟩ :: after, before, rfl, listed, trivial⟩
    cases r with
    | present => exact onward
    | missing => exact ⟨onward, fun _ => ⟨settled, _ :: after, before, rfl, listed, List.mem_cons_self⟩⟩
    | unreadable error => exact ⟨onward, nofun⟩
  intro _
  have guarding : Performs PruneOp.Keeps (embed cleanupCalls
      (evaluateGuards scan identity rows none (representative group))) :=
    performs_embed (observes (performs_evaluateGuards _ _ _ _)) fun _ _ => trivial
  apply traced_renameFailure _ (flips_kept (Scanning.newer fun _ _ _ => trivial) guarding)
  exact fun _ _ scanning => ⟨scanning, nofun⟩

theorem flips_keepReasons {P : PruneHistory → Prop} (kept : ∀ part h, P h → P (part ++ h))
    (own : Option (Closure.TaskScopeRef × Nat)) (issues : List Nat) :
    Traced (flipGuard setup.mode) P (keepReasons own issues) (fun _ => P)
      fun disposition h => P h ∧ disposition ≠ .missingDirectory := by
  induction issues with
  | nil => exact traced_pure fun _ holds => holds
  | cons issue rest ih =>
      apply traced_bind (M := fun _ => P)
      · exact traced_request (fun _ _ => trivial) fun h r holds => kept [⟨_, r⟩] h holds
      intro answer
      apply traced_bind ih
      intro reasons
      cases answer with
      | closed => exact traced_pure fun _ holds => holds
      | keep reason => exact traced_pure fun _ holds => holds

theorem flips_verdict {P : PruneHistory → Prop} (kept : ∀ part h, P h → P (part ++ h))
    (group : DirectoryGroup) (running : Except String (List LocatedSession))
    (cache : Option CacheInventory) :
    Traced (flipGuard setup.mode) P (verdict scan group running cache) (fun _ => P)
      fun disposition h => P h ∧ disposition ≠ .missingDirectory := by
  have checked : ∀ {α : Type} {x : Except PruneDisposition α},
      (∀ disposition, x = .error disposition → disposition ≠ .missingDirectory) →
        Traced (flipGuard setup.mode) P (fromExcept x) (fun _ => P)
          fun disposition h => P h ∧ disposition ≠ .missingDirectory := fun kept =>
    (flips_fromExcept kept).weaken (fun _ _ passed => passed.2) fun _ _ failed => failed
  apply traced_bind (M := fun _ => P)
  · apply checked
    rintro _ refused rfl
    cases running <;> cases refused
  intro sessions
  apply traced_bind (M := fun _ => P) (checked fun _ => snapshotBlocker_kept)
  intro _
  apply traced_bind (M := fun _ => P)
  · apply traced_bind (flips_keepReasons kept _ _)
    intro reasons
    apply checked
    rintro _ refused rfl
    exact absurd (refuse_eq_error.mp refused).2 PruneDisposition.noConfusion
  · exact fun _ => traced_pure fun _ holds => holds

theorem classify_candidate {group : DirectoryGroup} (gathers : Gathers scan rows group)
    (memo : ScanHostCache) {h : PruneHistory}
    (scanning : Scanning identity repoKey rows scopes scan (fun _ => True) h) :
    (classify setup identity pinned scan rows scopes (attachScopeProof scopes group) memo).Along
      (flipGuard setup.mode) (fun answer h' => Known identity repoKey answer.1 h' ∧
        Scanning identity repoKey rows scopes scan (fun _ => True) h') h := by
  have kept : ∀ part h, Scanning identity repoKey rows scopes scan (fun _ => True) h →
      Scanning identity repoKey rows scopes scan (fun _ => True) (part ++ h) :=
    Scanning.newer fun _ _ _ => trivial
  apply Prog.Along.bind
  apply (flips_localVerdict (attachScopeProof scopes group) |>.along scanning).weaken
  intro result h₁ ended
  cases result with
  | error disposition =>
      exact ⟨known_of_gathers gathers ended.1 fun missing => ended.2 (Except.error.inj missing), ended.1⟩
  | ok cache =>
      apply Prog.Along.bind
      apply (along_kept kept (keeping (Prog.Calls.serve calls_scanHost _ memo)) ended).weaken
      intro answer h₂ still
      apply Prog.Along.bind
      apply ((flips_verdict kept (attachScopeProof scopes group) answer.1 cache).along still).weaken
      intro classification h₃ ended
      cases classification with
      | ok cache => exact ⟨known_of_gathers gathers ended nofun, ended⟩
      | error disposition =>
          exact ⟨known_of_gathers gathers ended.1 fun missing =>
            absurd (Except.error.inj missing) ended.2, ended.1⟩

theorem flips_scanGroups {groups : List DirectoryGroup}
    (gathers : ∀ group ∈ groups, Gathers scan rows group) (memo : ScanHostCache) {h : PruneHistory}
    (scanning : Scanning identity repoKey rows scopes scan (fun _ => True) h) :
    (scanGroups setup identity pinned scan rows scopes groups memo).Along (flipGuard setup.mode)
      (fun answer h' => ∀ candidate ∈ answer.1, Known identity repoKey candidate h') h := by
  suffices onward : (scanGroups setup identity pinned scan rows scopes groups memo).Along
      (flipGuard setup.mode) (fun answer h' => (∀ candidate ∈ answer.1, Known identity repoKey candidate h') ∧
        Scanning identity repoKey rows scopes scan (fun _ => True) h') h from
    onward.weaken fun _ _ ended => ended.1
  induction groups generalizing memo h with
  | nil => exact ⟨by simp, scanning⟩
  | cons group rest ih =>
      obtain ⟨own, others⟩ := List.forall_mem_cons.mp gathers
      apply Prog.Along.bind
      apply (classify_candidate own memo scanning).weaken
      rintro ⟨candidate, memo⟩ h' ⟨known, still⟩
      apply Prog.Along.bind
      apply (ih others memo still).appended.weaken
      rintro ⟨candidates, memo⟩ _ ⟨⟨later, still⟩, part, rfl⟩
      exact ⟨List.forall_mem_cons.mpr ⟨known.newer part, later⟩, still⟩

theorem flips_applyCandidates {candidates : List DirectoryCandidate} {h : PruneHistory}
    (known : ∀ candidate ∈ candidates, Known identity repoKey candidate h) :
    (applyCandidates setup identity repoPath pinned rows repoKey candidates).Along (flipGuard setup.mode)
      (fun _ _ => True) h := by
  induction candidates generalizing h with
  | nil => trivial
  | cons candidate rest ih =>
      obtain ⟨own, others⟩ := List.forall_mem_cons.mp known
      apply Prog.Along.bind
      apply (flips_applyCandidate own).appended.weaken
      rintro action _ ⟨_, part, rfl⟩
      apply Prog.Along.bind
      apply (ih fun candidate later => (others candidate later).newer part).weaken
      exact fun _ _ _ => trivial

theorem flips_prunePass (memo : ScanHostCache) {h : PruneHistory} (listed : Read identity rows h) :
    (prunePassWithPolicy setup identity repoPath pinned rows memo).Along (flipGuard setup.mode)
      (fun _ _ => True) h := by
  refine ⟨trivial, fun repoKey => ⟨trivial, fun answer => ?_⟩⟩
  cases answer with
  | error error => exact ⟨trivial, fun _ => trivial⟩
  | ok scopes =>
      refine ⟨trivial, fun scan => ?_⟩
      have scanning : Scanning identity repoKey rows scopes scan (fun _ => True) (⟨.canonicalPaths, scan⟩ ::
          ⟨.cleanup (.scopeMapForRepo identity repoKey), .ok scopes⟩ ::
            ⟨.cleanup (.verifiedRepoKey identity), repoKey⟩ :: h) :=
        ⟨[], _, rfl, listed.newer [⟨.cleanup (.verifiedRepoKey identity), repoKey⟩], trivial⟩
      apply Prog.Along.bind
      apply (flips_scanGroups
        (fun group among => gathers_groupRows among) memo scanning).weaken
      rintro ⟨candidates, memo⟩ h' known
      apply Prog.Along.bind
      exact (flips_applyCandidates known).weaken fun _ _ _ => trivial

theorem traced_kept {α : Type} {P : PruneHistory → Prop} {p : InvocationM α}
    (kept : ∀ part h, P h → P (part ++ h)) (performs : Performs PruneOp.Keeps p) :
    Traced (flipGuard setup.mode) P p (fun _ => P) fun _ _ => True := by
  have traced : Traced (flipGuard setup.mode) P p (fun _ => P) fun _ => P :=
    traced_performs (fun h _ _ keeps => flipGuard_of_keeps h keeps)
      (fun h e r before _ => kept [⟨e, r⟩] h before) performs
  exact traced.weaken (fun _ _ holds => holds) fun _ _ _ => trivial

theorem traced_listed (identity : String) :
    Traced (flipGuard setup.mode) (fun _ => True)
      (request (.cleanup (.listAllForRepo identity)) id : InvocationM (List LeaseRow))
      (fun rows => Read identity rows) fun _ _ => True := by
  apply traced_request
  · exact fun _ _ => trivial
  · intro h r _
    cases r with
    | ok rows => exact List.mem_cons_self
    | error error => trivial

theorem traced_refreshedRows (start : List LeaseRow) (summary : ReleaseStaleSummary) :
    Traced (flipGuard setup.mode) (Read identity start) (refreshedRows identity start summary)
      (fun rows => Read identity rows) fun _ _ => True := by
  unfold refreshedRows
  split
  · exact (traced_listed identity).pre fun _ _ => trivial
  · exact traced_pure fun _ listed => listed

theorem flips_pruneRepository (scope : RepoScope) (memo : ScanHostCache) :
    Traced (flipGuard setup.mode) (fun _ => True) (pruneRepository setup scope memo) (fun _ _ => True)
      fun _ _ => True := by
  apply traced_bind (traced_kept (P := fun _ => True) (fun _ _ _ => trivial)
    (performs_request (by trivial)))
  intro validated
  cases validated with
  | error error => exact traced_pure fun _ _ => trivial
  | ok sidecars =>
      apply traced_bind (traced_listed scope.identity)
      intro start
      have kept : ∀ part h, Read scope.identity start h → Read scope.identity start (part ++ h) :=
        fun part _ before => before.newer part
      apply traced_bind (traced_kept kept (performs_request (by trivial)))
      intro pin
      apply traced_bind (traced_kept kept (performs_request (by trivial)))
      intro stale
      have recovering : Performs PruneOp.Keeps (recoverStale setup scope
          (stale.filter fun row => setup.recoveryScope.allows (sidecars.lookup row.leaseId))) := by
        unfold recoverStale
        split
        · exact performs_pure _
        · apply performs_bind (performs_request (by trivial))
          exact fun _ => performs_pure _
      apply traced_bind (traced_kept kept recovering)
      intro leases
      apply traced_bind (traced_refreshedRows start leases)
      intro rows
      apply traced_bind (M := fun _ _ => True)
      · unfold Traced
        intro h listed
        apply Prog.Along.map
        exact (flips_prunePass memo listed).weaken fun _ _ _ => trivial
      · exact fun _ => traced_pure fun _ _ => trivial

theorem flips_pruneRepositories {mode : PruneMode} (runs : setup.mode = mode) (listed : List Scope)
    (memo : ScanHostCache) :
    Traced (flipGuard mode) (fun _ => True) (pruneRepositories setup listed memo) (fun _ _ => True)
      fun _ _ => True := by
  subst runs
  induction listed generalizing memo with
  | nil => exact traced_pure fun _ _ => trivial
  | cons scope rest ih =>
      cases scope with
      | skipped identity reason => exact traced_bind (ih memo) fun _ => traced_pure fun _ _ => trivial
      | resolved scope =>
          apply traced_bind (flips_pruneRepository scope memo)
          rintro ⟨outcome, memo⟩
          exact traced_bind (ih memo) fun _ => traced_pure fun _ _ => trivial

end Flips

/-- An invocation marks a lease released right after Git removed the directory that the lease was listed
at, or with the other retained rows of a directory that was gone when its path was looked at; and a
preview changes nothing, whether or not it is told to release stale leases. -/
theorem releases_follow_removals (setup : PruneSetup) (releaseStale : Bool) (reason : Option String)
    (scopes : List Scope) {h : PruneHistory}
    {p : PruneProg (Except WorktreeError (List PruneRepoOutcome))}
    (reached : Reaches (executePrune setup releaseStale reason scopes).run h p) :
    (∀ later leaseId status answer before,
      h = later ++ ⟨.updateStatus leaseId status, answer⟩ :: before →
        status = .released ∧ ∃ target, Removed target before ∧ ScannedAt leaseId target before) ∧
    (∀ later identity repoKey targets approved answer before,
      h = later ++ ⟨.releaseAbsentLeases identity repoKey targets approved, answer⟩ :: before →
        setup.mode = .remove ∧ targets ≠ [] ∧ Absent identity repoKey targets approved before) ∧
    (setup.mode = .report → ∀ act ∈ h, act.effect.Observes) := by
  have traced : Traced (flipGuard setup.mode) (· = []) (executePrune setup releaseStale reason scopes)
      (fun _ _ => True) fun _ _ => True := by
    unfold executePrune
    apply traced_bind (M := fun _ _ => True)
    · exact (traced_fromExcept (F := fun _ _ => True) fun _ _ _ _ => trivial).any
    · intro _
      apply flips_pruneRepositories
      rfl
  refine ⟨?_, ?_, ?_⟩
  · rintro later leaseId status answer before rfl
    exact (traced.reaches reached).1.needs
  · rintro later identity repoKey targets approved answer before rfl
    exact (traced.reaches reached).1.needs
  · intro dry act among
    have along : (executePrune setup releaseStale reason scopes).run.Along
        (fun _ op => op.Observes) (fun _ _ => True) [] :=
      Prog.Along.calls (P := fun _ => True) (fun _ _ _ observes => observes)
        (fun _ _ _ _ _ => trivial) (performs_preview dry releaseStale reason scopes).calls trivial
    obtain ⟨later, before, rfl⟩ := List.append_of_mem among
    exact (along.reaches reached).1.needs

section Runs

def goneRepository (h : PruneHistory) : (op : PruneOp) → op.Ret
  | .pathEntry _ => .missing
  | op => quietRepository h op

def lastEffect (respond : PruneHistory → (op : PruneOp) → op.Ret) : Option PruneOp :=
  ((executePrune removing false none recorded).run.against respond []).2.head?.map (·.effect)

theorem reaches_lastEffect {respond : PruneHistory → (op : PruneOp) → op.Ret} {op : PruneOp}
    (last : lastEffect respond = some op) : ∃ answer before p,
      Reaches (executePrune removing false none recorded).run (⟨op, answer⟩ :: before) p := by
  have reached := Prog.reaches_against respond (executePrune removing false none recorded).run
  unfold lastEffect at last
  cases ran : ((executePrune removing false none recorded).run.against respond []).2 with
  | nil => simp [ran] at last
  | cons act before =>
      rw [ran] at reached last
      cases last
      exact ⟨act.answer, before, _, reached⟩

theorem flip_follows_removal :
    (∃ before target, Removed target before ∧ ScannedAt "lease-7" target before) ∧
      ∃ before approved,
        Absent "/repo/.git" none [("lease-7", .retained, "/wt")] approved before := by
  constructor
  · have last : lastEffect quietRepository = some (.updateStatus "lease-7" .released) := by decide
    obtain ⟨answer, before, p, reached⟩ := reaches_lastEffect last
    have follows := (releases_follow_removals removing false none recorded reached).1
    exact ⟨before, (follows [] "lease-7" .released answer before rfl).2⟩
  · obtain ⟨approved, last⟩ : ∃ approved, lastEffect goneRepository =
        some (.releaseAbsentLeases "/repo/.git" none [("lease-7", .retained, "/wt")] approved) := ⟨_, rfl⟩
    obtain ⟨answer, before, p, reached⟩ := reaches_lastEffect last
    have follows := (releases_follow_removals removing false none recorded reached).2.1
    exact ⟨before, _, (follows [] _ _ _ _ answer before rfl).2.2⟩

end Runs

end Phasegent.Prune
