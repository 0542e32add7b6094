import Phasegent.Lease.Scope
import Phasegent.Sql.Table

namespace Phasegent.Lease
open Fallible Sql Phasegent.Task

structure Tables where
  leases : List LeaseRow
  scopes : List ScopeRow
  bindings : List BindingRow
  memberships : List MembershipRow
  deriving DecidableEq, Repr

def bindingKey (row : BindingRow) : String × String × String × String :=
  (row.provider, row.inst, row.project, row.externalId)

-- The primary keys, the partial unique index on active paths and the checks of the schema.
structure Tables.Valid (tables : Tables) : Prop where
  leaseIds : (tables.leases.map (·.leaseId)).Nodup
  activePaths : ((tables.leases.filter (·.isActive)).map fun row =>
    (row.repoIdentity, row.worktreePath)).Nodup
  scopeIds : (tables.scopes.map (·.leaseId)).Nodup
  scopeChecks : ∀ row ∈ tables.scopes, row.provider ≠ "" ∧ row.project ≠ "" ∧ 0 < row.externalId
  bindingIds : (tables.bindings.map (·.taskId)).Nodup
  bindingKeys : (tables.bindings.map bindingKey).Nodup
  membershipKeys : (tables.memberships.map fun row => (row.repoKey, row.taskId)).Nodup

def Tables.check (tables : Tables) : Except String Unit := do
  refuse (¬(tables.leases.map (·.leaseId)).Nodup)
    "UNIQUE constraint failed: worktree_leases.lease_id"
  refuse (¬((tables.leases.filter (·.isActive)).map fun row =>
      (row.repoIdentity, row.worktreePath)).Nodup)
    "UNIQUE constraint failed: worktree_leases.repo_identity, worktree_leases.worktree_path"
  refuse (¬(tables.scopes.map (·.leaseId)).Nodup)
    "UNIQUE constraint failed: worktree_lease_scopes.lease_id"
  refuse (¬∀ row ∈ tables.scopes, row.provider ≠ "" ∧ row.project ≠ "" ∧ 0 < row.externalId)
    "CHECK constraint failed: worktree_lease_scopes"
  refuse (¬(tables.bindings.map (·.taskId)).Nodup)
    "UNIQUE constraint failed: task_bindings.task_id"
  refuse (¬(tables.bindings.map bindingKey).Nodup)
    "UNIQUE constraint failed: task_bindings.provider"
  refuse (¬(tables.memberships.map fun row => (row.repoKey, row.taskId)).Nodup)
    "UNIQUE constraint failed: task_repo_memberships.repo_key"

theorem Tables.valid_of_check {tables : Tables} (checked : tables.check = .ok ()) :
    tables.Valid := by
  simp only [Tables.check, bind_eq_ok, refuse_eq_ok, not_not] at checked
  obtain ⟨-, leaseIds, -, activePaths, -, scopeIds, -, scopeChecks, -, bindingIds, -, bindingKeys,
    membershipKeys⟩ := checked
  exact ⟨leaseIds, activePaths, scopeIds, scopeChecks, bindingIds, bindingKeys, membershipKeys⟩

structure LeaseDb extends Tables where
  valid : toTables.Valid

theorem row_unique {db : LeaseDb} {a b : LeaseRow} (first : a ∈ db.leases) (second : b ∈ db.leases)
    (same : a.leaseId = b.leaseId) : a = b :=
  List.inj_on_of_nodup_map db.valid.leaseIds first second same

def LeaseDb.store (tables : Tables) : Except String LeaseDb :=
  match checked : tables.check with
  | .ok () => .ok ⟨tables, Tables.valid_of_check checked⟩
  | .error text => .error text

end Phasegent.Lease
