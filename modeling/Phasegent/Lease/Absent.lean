import Phasegent.Lease.Changes
import Phasegent.Lease.Commands

namespace Phasegent.Lease
open Fallible Sql

abbrev AbsentTarget := String × LeaseStatus × String

def releasedAbsent (clock : String → Int) (row : LeaseRow) : LeaseRow :=
  { row with
    status := .released, heartbeatAt := clock row.leaseId,
    releaseReason := some "worktree directory absent" }

def isTarget (targets : List AbsentTarget) (row : LeaseRow) : Bool :=
  targets.any (·.1 == row.leaseId)

def Scanned (identity : String) (rows : List LeaseRow) (target : AbsentTarget) (row : LeaseRow) :
    Prop :=
  row ∈ rows ∧ row.repoIdentity = identity ∧ row.leaseId = target.1 ∧ row.status = target.2.1 ∧
    row.worktreePath = target.2.2

section Release
variable {identity : String} {clock : String → Int}

theorem release_row {db db' : LeaseDb} {target : AbsentTarget}
    (run : updateLeases "release absent lease"
      (fun _ row => row.repoIdentity == identity && row.leaseId == target.1 &&
        row.status == target.2.1 && row.worktreePath == target.2.2)
      (fun row =>
        { row with
          status := .released, heartbeatAt := clock target.1,
          releaseReason := some "worktree directory absent" }) db = .ok (1, db')) :
    (∃ row, Scanned identity db.leases target row) ∧
      db'.toTables = { db.toTables with
        leases := update (·.leaseId == target.1) (releasedAbsent clock) db.leases } := by
  obtain ⟨tables, count⟩ := updateLeases_ok run
  obtain ⟨row, one⟩ := List.length_eq_one_iff.mp count.symm
  have found : row ∈ db.leases.filter fun row => row.repoIdentity == identity &&
      row.leaseId == target.1 && row.status == target.2.1 && row.worktreePath == target.2.2 := by
    rw [one]
    exact List.mem_singleton_self row
  obtain ⟨stored, matched⟩ := List.mem_filter.mp found
  simp only [Bool.and_eq_true, beq_iff_eq] at matched
  obtain ⟨⟨⟨owner, id⟩, status⟩, path⟩ := matched
  refine ⟨⟨row, stored, owner, id, status, path⟩, ?_⟩
  have only : ∀ other ∈ db.leases, (if (other.repoIdentity == identity &&
      other.leaseId == target.1 && other.status == target.2.1 &&
      other.worktreePath == target.2.2) = true then
        { other with
          status := .released, heartbeatAt := clock target.1,
          releaseReason := some "worktree directory absent" }
      else other) = if (other.leaseId == target.1) = true then releasedAbsent clock other else other := by
    intro other member
    by_cases same : other.leaseId = target.1
    · obtain rfl : other = row := row_unique member stored (same.trans id.symm)
      simp [owner, id, status, path, releasedAbsent]
    · simp [same]
  rw [tables, update_ext only]

theorem releaseAbsent_cons_ok {target : AbsentTarget} {rest : List AbsentTarget}
    {db db' : LeaseDb} {released : List String}
    (run : releaseAbsent identity clock (target :: rest) db = .ok (released, db')) :
    ∃ db₁ more, (∃ row, Scanned identity db.leases target row) ∧
      db₁.toTables = { db.toTables with
        leases := update (·.leaseId == target.1) (releasedAbsent clock) db.leases } ∧
      releaseAbsent identity clock rest db₁ = .ok (more, db') ∧ released = target.1 :: more := by
  obtain ⟨n, db₁, updated, rest₁⟩ := Tx.bind_ok run
  obtain ⟨_, db₂, once, rest₂⟩ := Tx.bind_ok rest₁
  obtain ⟨more, db₃, followed, last⟩ := Tx.bind_ok rest₂
  obtain ⟨one, same⟩ := readTables_ok once
  subst same
  cases last
  obtain rfl : n = 1 := of_not_not (refuse_eq_ok.mp one)
  obtain ⟨held, tables⟩ := release_row updated
  exact ⟨db₂, more, held, tables, followed, rfl⟩

theorem releaseAbsent_ok {targets : List AbsentTarget} {db db' : LeaseDb} {released : List String}
    (run : releaseAbsent identity clock targets db = .ok (released, db')) :
    released = targets.map (·.1) ∧ db'.toTables = { db.toTables with
      leases := update (isTarget targets) (releasedAbsent clock) db.leases } := by
  induction targets generalizing db released with
  | nil =>
      cases run
      simp [update, isTarget]
  | cons target rest ih =>
      obtain ⟨db₁, more, -, tables, followed, rfl⟩ := releaseAbsent_cons_ok run
      obtain ⟨answer, final⟩ := ih followed
      constructor
      · rw [answer, List.map_cons]
      · have both : ∀ row, (row.leaseId == target.1 || isTarget rest row) =
            isTarget (target :: rest) row := by
          intro row
          rw [isTarget, isTarget, List.any_cons, Bool.beq_comm]
        have again : ∀ row, releasedAbsent clock (releasedAbsent clock row) = releasedAbsent clock row :=
          fun _ => rfl
        have kept : ∀ row, isTarget rest (releasedAbsent clock row) = isTarget rest row := fun _ => rfl
        rw [final, tables, update_again again kept, funext both]

theorem releaseAbsent_held {targets : List AbsentTarget} {db db' : LeaseDb} {released : List String}
    (run : releaseAbsent identity clock targets db = .ok (released, db')) {target : AbsentTarget}
    (listed : target ∈ targets) :
    ∃ row ∈ db.leases, row.leaseId = target.1 ∧
      (row.status = target.2.1 ∨ target.2.1 = .released) := by
  induction targets generalizing db released with
  | nil => cases listed
  | cons first rest ih =>
      obtain ⟨db₁, more, ⟨row, held⟩, tables, followed, -⟩ := releaseAbsent_cons_ok run
      cases listed with
      | head => exact ⟨row, held.1, held.2.2.1, .inl held.2.2.2.1⟩
      | tail _ later =>
          obtain ⟨row', stored, id, status⟩ := ih followed later
          rw [tables] at stored
          obtain ⟨old, member, changed⟩ := mem_update.mp stored
          split at changed
          · subst changed
            exact ⟨old, member, id, .inr (status.elim Eq.symm (·))⟩
          · subst changed
            exact ⟨old, member, id, status⟩

theorem releaseAbsent_distinct {targets : List AbsentTarget} {db db' : LeaseDb}
    {released : List String}
    (run : releaseAbsent identity clock targets db = .ok (released, db')) :
    ((targets.filter fun target => target.2.1 ≠ .released).map (·.1)).Nodup := by
  induction targets generalizing db released with
  | nil => exact List.nodup_nil
  | cons first rest ih =>
      obtain ⟨db₁, more, ⟨row, held⟩, tables, followed, -⟩ := releaseAbsent_cons_ok run
      by_cases settled : first.2.1 = .released
      · rw [List.filter_cons_of_neg (by simpa using settled)]
        exact ih followed
      · rw [List.filter_cons_of_pos (by simpa using settled), List.map_cons, List.nodup_cons]
        refine ⟨?_, ih followed⟩
        intro again
        obtain ⟨target, listed, same⟩ := List.mem_map.mp again
        obtain ⟨listed, open'⟩ := List.mem_filter.mp listed
        obtain ⟨row', stored, id, status⟩ := releaseAbsent_held followed listed
        rw [tables] at stored
        obtain ⟨old, -, changed⟩ := mem_update.mp stored
        have unsettled : target.2.1 ≠ .released := of_decide_eq_true open'
        split at changed
        · subst changed
          exact status.elim (fun now => unsettled now.symm) unsettled
        · next other =>
            subst changed
            exact other (beq_iff_eq.mpr (id.trans same))

end Release

theorem checkAbsent_ok {probe : String → PathProbe} {rows : List LeaseRow}
    {targets : List AbsentTarget} (checked : checkAbsent probe rows targets = .ok ())
    {target : AbsentTarget} (listed : target ∈ targets) :
    ∃ row ∈ rows, row.leaseId = target.1 ∧ row.status = target.2.1 ∧
      row.worktreePath = target.2.2 ∧ probe row.worktreePath = .absent := by
  induction targets with
  | nil => cases listed
  | cons first rest ih =>
      obtain ⟨leaseId, status, path⟩ := first
      rw [checkAbsent] at checked
      cases found : rows.find? (·.leaseId == leaseId) with
      | none =>
          rw [found] at checked
          cases checked
      | some row =>
          simp only [found, bind_eq_ok, refuse_eq_ok, not_or, not_not] at checked
          obtain ⟨-, ⟨status', path'⟩, checked⟩ := checked
          cases probed : probe row.worktreePath with
          | absent =>
              rw [probed] at checked
              cases listed with
              | head =>
                  have id : (row.leaseId == leaseId) = true :=
                    List.find?_some (p := fun row : LeaseRow => row.leaseId == leaseId) found
                  exact ⟨row, List.mem_of_find?_eq_some found, beq_iff_eq.mp id, status', path',
                    probed⟩
              | tail _ later => exact ih checked later
          | present =>
              rw [probed] at checked
              cases checked
          | failed error =>
              rw [probed] at checked
              cases checked

/-- A release of absent leases that went through: the approved evidence still held, every target was
as it was scanned and had no directory, and the targets are the rows that changed. -/
structure ReleasesAbsent (urls : UrlLibrary) (resolve : String → Directory)
    (probe : String → PathProbe) (clock : String → Int) (identity : String)
    (repoKey : Option String) (targets : List AbsentTarget) (approved : ScopedRetentionProof)
    (before after : LeaseDb) (released : List String) : Prop where
  proof : ∃ canonical scopes, approved.directories.head? = some canonical ∧
    scopeMapForConnectionWithKey urls before.toTables identity repoKey = .ok scopes ∧
    directoryOwnershipProof resolve canonical (repoRows before.toTables identity) scopes = approved
  scanned : ∀ target ∈ targets, ∃ row, Scanned identity before.leases target row ∧
    probe row.worktreePath = .absent
  rows : after.toTables = { before.toTables with
    leases := update (isTarget targets) (releasedAbsent clock) before.leases }
  returned : released = targets.map (·.1)
  distinct : ((targets.filter fun target => target.2.1 ≠ .released).map (·.1)).Nodup

section Atomic
variable {urls : UrlLibrary} {resolve : String → Directory} {probe : String → PathProbe}
  {clock : String → Int} {identity : String} {repoKey : Option String}
  {targets : List AbsentTarget} {approved : ScopedRetentionProof}

theorem releaseAbsentLeasesProven_ok {db db' : LeaseDb} {released : List String}
    (run : releaseAbsentLeasesProven urls resolve probe clock identity repoKey targets approved db =
      .ok (released, db')) :
    ReleasesAbsent urls resolve probe clock identity repoKey targets approved db db' released := by
  obtain ⟨stored, db₁, got, rest₁⟩ := Tx.bind_ok run
  obtain ⟨scopes, db₂, mapped, rest₂⟩ := Tx.bind_ok rest₁
  obtain ⟨canonical, db₃, first, rest₃⟩ := Tx.bind_ok rest₂
  obtain ⟨_, db₄, proven, rest₄⟩ := Tx.bind_ok rest₃
  obtain ⟨_, db₅, checked, rest₅⟩ := Tx.bind_ok rest₄
  cases got
  obtain ⟨mapped, same₁⟩ := readTables_ok mapped
  obtain ⟨first, same₂⟩ := readTables_ok first
  obtain ⟨proven, same₃⟩ := readTables_ok proven
  obtain ⟨checked, same₄⟩ := readTables_ok checked
  subst same₁ same₂ same₃ same₄
  obtain ⟨answer, written⟩ := releaseAbsent_ok rest₅
  refine ⟨⟨canonical, scopes, ?_, mapped, of_not_not (refuse_eq_ok.mp proven)⟩, ?_, written, answer,
    releaseAbsent_distinct rest₅⟩
  · cases directory : approved.directories.head? with
    | none =>
        rw [directory] at first
        cases first
    | some found =>
        rw [directory] at first
        cases first
        rfl
  · intro target listed
    obtain ⟨row, member, id, status, path, absent⟩ := checkAbsent_ok checked listed
    rw [repoRows, mem_orderDesc, List.mem_filter] at member
    exact ⟨row, ⟨member.1, beq_iff_eq.mp member.2, id, status, path⟩, absent⟩

/-- The release of absent leases is all or nothing. -/
theorem absent_release_atomic {F : Type} {outside : F → (op : LeaseOp) → op.Ret → F → Prop}
    {s s' : LeaseDb × F} {answer : Except WorktreeError (List String)}
    (step : LeaseStep urls outside s
      (.sql (.releaseAbsent resolve probe clock identity repoKey targets approved)) answer s') :
    match answer with
    | .ok released =>
        ReleasesAbsent urls resolve probe clock identity repoKey targets approved s.1 s'.1 released
    | .error _ => s'.1 = s.1 := by
  cases answer with
  | ok released => exact releaseAbsentLeasesProven_ok (LeaseStep.sql_ok step)
  | error e => exact LeaseStep.failed step

end Atomic

section Sample

def heldTarget : AbsentTarget := ("lease-64-0", .active, "/repo")

def retainedTarget : AbsentTarget := ("lease-64-1", .retained, "/repo/../repo")

-- Two leases of one directory, of which one is retained, and a lease of another.
def sharedStore : LeaseDb where
  leases := [heldLease, { heldLease with
    leaseId := "lease-64-1", worktreePath := "/repo/../repo", status := .retained }, { heldLease with
    leaseId := "lease-64-2", issue := 8, worktreePath := "/wt/8" }]
  scopes := []
  bindings := []
  memberships := []
  valid := by constructor <;> decide

def collapse (path : String) : Directory := [if path = "/repo/../repo" then "/repo" else path]

def heldProof : ScopedRetentionProof where
  directories := [["/repo"]]
  members := [⟨"lease-64-0", 7, .active, ["/repo"], none⟩, ⟨"lease-64-1", 7, .retained, ["/repo"], none⟩]
  sameNumberConflicts := []

def absentStore : LeaseDb where
  leases := sharedStore.leases.map fun row =>
    if row.issue = 7 then releasedAbsent (fun _ => 500) row else row
  scopes := []
  bindings := []
  memberships := []
  valid := by constructor <;> decide

/-- The same target twice releases nothing; each once, they are released and the other lease is not. -/
theorem held_absent :
    (∃ e, LeaseStep forgejoTest (answered sandbox) (sharedStore, 0) (.sql (.releaseAbsent
      collapse (fun _ => .absent) (fun _ => 500) "/repo/.git" none
      [heldTarget, retainedTarget, heldTarget] heldProof)) (.error e) (sharedStore, 0)) ∧
    ReleasesAbsent forgejoTest collapse (fun _ => .absent) (fun _ => 500) "/repo/.git"
      none [heldTarget, retainedTarget] heldProof sharedStore absentStore ["lease-64-0", "lease-64-1"] := by
  have once : LeaseStep forgejoTest (answered sandbox) (sharedStore, 0) (.sql (.releaseAbsent
      collapse (fun _ => .absent) (fun _ => 500) "/repo/.git" none [heldTarget, retainedTarget]
      heldProof)) (.ok ["lease-64-0", "lease-64-1"]) (absentStore, 0) := LeaseStep.sql
  exact ⟨⟨storageError "absent-path lease changed during release", LeaseStep.sql⟩,
    absent_release_atomic once⟩

end Sample

end Phasegent.Lease
