import Phasegent.Lease.Compensation
import Phasegent.Ordered.Nearest

namespace Phasegent.Lease
open Fallible Interleaving

section Ownership
variable {F D : Type} {urls : UrlLibrary} {outside : F → (op : LeaseOp) → op.Ret → F → Prop}
  (checkout : F → String → D)

def LeaseOp.movesTrees : LeaseOp → Bool
  | .worktreeAdd .. | .worktreeRemove .. => true
  | _ => false

/-- What git documents of worktrees: adding one takes directories of one checkout apart, removing
one touches no other checkout, and nothing else changes which checkout a directory lies in. -/
structure Worktrees (outside : F → (op : LeaseOp) → op.Ret → F → Prop)
    (checkout : F → String → D) : Prop where
  add : ∀ {f f' repoPath target branch base answer p q},
    outside f (.worktreeAdd repoPath target branch base) answer f' →
    checkout f' p = checkout f' q → checkout f p = checkout f q
  remove : ∀ {f f' repoPath target answer p}, outside f (.worktreeRemove repoPath target) answer f' →
    checkout f p ≠ checkout f target → checkout f' p = checkout f p
  still : ∀ {f f' op answer}, outside f op answer f' → op.movesTrees = false →
    checkout f' = checkout f

-- An active lease keeps its checkout from every other issue and session of the repository.
def Owned (s : LeaseDb × F) : Prop :=
  ∀ a ∈ s.1.leases, ∀ b ∈ s.1.leases, a.status = .active → b.status = .active →
    a.repoIdentity = b.repoIdentity →
    checkout s.2 a.worktreePath = checkout s.2 b.worktreePath →
    (a.issue, a.session) = (b.issue, b.session)

def removed : LeaseOp → Option String
  | .worktreeRemove _ target => some target
  | _ => none

/-- A checkout with an active lease in it is recorded under one spelling of its path and is not
removed. -/
def Respects (s : LeaseDb × F) (op : LeaseOp) (answer : op.Ret) : Prop :=
  (∀ new ∈ stored op answer, ∀ row ∈ s.1.leases, row.status = .active →
    row.repoIdentity = new.repoIdentity → row.worktreePath ≠ new.worktreePath →
    checkout s.2 row.worktreePath ≠ checkout s.2 new.worktreePath) ∧
  ∀ target ∈ removed op, ∀ row ∈ s.1.leases, row.status = .active →
    checkout s.2 row.worktreePath ≠ checkout s.2 target

instance [DecidableEq D] (s : LeaseDb × F) (op : LeaseOp) (answer : op.Ret) :
    Decidable (Respects checkout s op answer) :=
  inferInstanceAs (Decidable ((∀ new ∈ stored op answer, _) ∧ ∀ target ∈ removed op, _))

variable {checkout}

theorem path_unique {db : LeaseDb} {a b : LeaseRow} (first : a ∈ db.leases) (second : b ∈ db.leases)
    (activeA : a.status = .active) (activeB : b.status = .active)
    (sameRepo : a.repoIdentity = b.repoIdentity) (samePath : a.worktreePath = b.worktreePath) :
    a = b := by
  apply List.inj_on_of_nodup_map db.valid.activePaths
  · exact List.mem_filter.mpr ⟨first, LeaseRow.isActive_iff.mpr activeA⟩
  · exact List.mem_filter.mpr ⟨second, LeaseRow.isActive_iff.mpr activeB⟩
  · exact Prod.ext sameRepo samePath

theorem Owned.write {db db' : LeaseDb} {f : F} {op : SqlOp} {a : op.Ret}
    (owned : Owned checkout (db, f)) (run : op.tx urls db = .ok (a, db'))
    (respects : Respects checkout (db, f) (.sql op) (.ok a)) : Owned checkout (db', f) := by
  have writes := tx_writes run
  have apart : ∀ row new, row ∈ db'.leases → new ∈ db'.leases → row.status = .active →
      new.status = .active → new ∈ op.inserted →
      (∃ old ∈ db.leases, old.status = .active ∧ old.SameLease row) →
      row.repoIdentity = new.repoIdentity →
      checkout f row.worktreePath = checkout f new.worktreePath →
      (row.issue, row.session) = (new.issue, new.session) := by
    intro row new member member' active active' fresh ⟨old, was, wasActive, same⟩ sameRepo samePlace
    by_cases samePath : row.worktreePath = new.worktreePath
    · rw [path_unique member member' active active' sameRepo samePath]
    · exact absurd (same.worktreePath ▸ samePlace) (respects.1 new fresh old was wasActive
        (same.repoIdentity ▸ sameRepo) (same.worktreePath ▸ samePath))
  intro a memberA b memberB activeA activeB sameRepo samePlace
  have fromA := active_rows writes memberA activeA
  have fromB := active_rows writes memberB activeB
  rcases fromA with oldA | newA <;> rcases fromB with oldB | newB
  · obtain ⟨a₀, wasA, wasActiveA, sameA⟩ := oldA
    obtain ⟨b₀, wasB, wasActiveB, sameB⟩ := oldB
    have before := owned a₀ wasA b₀ wasB wasActiveA wasActiveB
      (sameA.repoIdentity ▸ sameB.repoIdentity ▸ sameRepo)
      (sameA.worktreePath ▸ sameB.worktreePath ▸ samePlace)
    rw [sameA.issue, sameA.session, sameB.issue, sameB.session, before]
  · exact apart a b memberA memberB activeA activeB newB oldA sameRepo samePlace
  · exact (apart b a memberB memberA activeB activeA newA oldB sameRepo.symm samePlace.symm).symm
  · rw [inserted_unique newA newB]

theorem Owned.step (laws : Worktrees outside checkout) {s s' : LeaseDb × F} {op : LeaseOp}
    {answer : op.Ret} (owned : Owned checkout s) (step : LeaseStep urls outside s op answer s')
    (respects : Respects checkout s op answer) : Owned checkout s' := by
  cases step with
  | @sql db f op =>
      cases run : op.tx urls db with
      | error e => simpa only [Sql.Tx.commit, run] using owned
      | ok result =>
          simp only [Sql.Tx.commit, run] at respects ⊢
          exact owned.write run respects
  | fault => exact owned
  | @outside db f f' op answer external effect =>
      intro a memberA b memberB activeA activeB sameRepo samePlace
      apply owned a memberA b memberB activeA activeB sameRepo
      by_cases moves : op.movesTrees = false
      · rwa [laws.still effect moves] at samePlace
      · cases op with
        | worktreeAdd repoPath target branch base => exact laws.add effect samePlace
        | worktreeRemove repoPath target =>
            have keptA := laws.remove effect (respects.2 target rfl a memberA activeA)
            have keptB := laws.remove effect (respects.2 target rfl b memberB activeB)
            rwa [keptA, keptB] at samePlace
        | _ => exact absurd rfl moves

end Ownership

section Occupied
variable {F : Type} {urls : UrlLibrary} {outside : F → (op : LeaseOp) → op.Ret → F → Prop}
  {commands : Pid → Option Command} {start : LeaseDb × F}
  {c : Config ((LeaseDb × F) × List (Event (LeaseDb × F) LeaseOp LeaseOp.Ret)) LeaseOp LeaseOp.Ret
    (Except WorktreeError (Option AcquireOutcome))} {i : Pid} {outcome : AcquireOutcome}

end Occupied

section Forest

def topLevel (trees : Trees) (path : String) : Option (List (List Char)) :=
  Ordered.nearest trees.roots (place path)

def plainly : AcquireOptions := ⟨none, false, none, false⟩

def sessions (path : String) : Pid → Option Command
  | 0 => some (.acquire "/repo/.git" "/repo" 7 "main" plainly)
  | 1 => some (.acquire "/repo/.git" path 8 "other" plainly)
  | _ => none

def working (path : String) (schedule : List Pid) : Config (LeaseDb × Trees) LeaseOp LeaseOp.Ret
    (Except WorktreeError (Option AcquireOutcome)) :=
  (fleet (sessions path) (emptyStore, ⟨[place "/repo"], 100⟩)).replay (perform forgejoTest forest)
    schedule

end Forest

end Phasegent.Lease
