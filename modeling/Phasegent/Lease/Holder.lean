import Phasegent.Lease.Changes
import Phasegent.Lease.Commands
import Phasegent.Interleaving.History

namespace Phasegent.Lease
open Fallible Interleaving

def LeaseRow.triple (row : LeaseRow) : String × Int × String :=
  (row.repoIdentity, row.issue, row.session)

theorem LeaseRow.SameLease.triple {row row' : LeaseRow} (same : row.SameLease row') :
    row'.triple = row.triple := by
  rw [LeaseRow.triple, same.repoIdentity, same.issue, same.session, LeaseRow.triple]

-- An active lease that no sidecar gives a scope.
structure LeaseDb.Holds (db : LeaseDb) (row : LeaseRow) : Prop where
  member : row ∈ db.leases
  active : row.status = .active
  unscoped : hasSidecar db.toTables row.leaseId = false

def SingleHolder (db : LeaseDb) : Prop :=
  ∀ a b, db.Holds a → db.Holds b → a.triple = b.triple → a = b

structure Evolves (news : Option NewLease) (db db' : LeaseDb) : Prop where
  scopes : db'.scopes = db.scopes
  kept : ∀ row ∈ db.leases, ∃ row' ∈ db'.leases, row.SameLease row'
  came : ∀ row' ∈ db'.leases, row'.status = .active →
    (∃ row ∈ db.leases, row.status = .active ∧ row.SameLease row') ∨
      ∃ lease ∈ news, row' = lease.row

namespace Evolves
variable {news : Option NewLease} {db db' : LeaseDb}

theorem refl (news : Option NewLease) (db : LeaseDb) : Evolves news db db where
  scopes := rfl
  kept row member := ⟨row, member, .refl row⟩
  came row member active := Or.inl ⟨row, member, active, .refl row⟩

theorem hasSidecar (evolves : Evolves news db db') (leaseId : String) :
    Lease.hasSidecar db'.toTables leaseId = Lease.hasSidecar db.toTables leaseId := by
  rw [Lease.hasSidecar, Lease.hasSidecar, evolves.scopes]

theorem holds (evolves : Evolves news db db') {row' : LeaseRow} (holds : db'.Holds row') :
    (∃ row, db.Holds row ∧ row.SameLease row') ∨ ∃ lease ∈ news, row' = lease.row := by
  have unscoped := holds.unscoped
  rw [evolves.hasSidecar] at unscoped
  rcases evolves.came row' holds.member holds.active with ⟨row, member, active, same⟩ | fresh
  · rw [same.leaseId] at unscoped
    exact Or.inl ⟨row, ⟨member, active, unscoped⟩, same⟩
  · exact Or.inr fresh

theorem singleHolder (evolves : Evolves news db db') (single : SingleHolder db)
    (vacant : ∀ lease ∈ news, ∀ row, db.Holds row → row.triple ≠ lease.row.triple) :
    SingleHolder db' := by
  intro a b holdsA holdsB same
  apply row_unique holdsA.member holdsB.member
  rcases evolves.holds holdsA with ⟨a₀, oldA, sameA⟩ | ⟨lease, inserted, newA⟩ <;>
    rcases evolves.holds holdsB with ⟨b₀, oldB, sameB⟩ | ⟨lease', inserted', newB⟩
  · have equal := single a₀ b₀ oldA oldB (by rw [← sameA.triple, ← sameB.triple, same])
    rw [sameA.leaseId, sameB.leaseId, equal]
  · refine absurd ?_ (vacant lease' inserted' a₀ oldA)
    rw [← sameA.triple, same, newB]
  · refine absurd ?_ (vacant lease inserted b₀ oldB)
    rw [← sameB.triple, ← same, newA]
  · rw [newA, newB, Option.some.inj (inserted.symm.trans inserted')]

end Evolves

def inserted : (op : LeaseOp) → op.Ret → Option NewLease
  | .sql (.insertLease lease), .ok _ => some lease
  | _, _ => none

def LeaseOp.plain : LeaseOp → Bool
  | .sql op => !op.isScopedInsert
  | _ => true

theorem mem_inserted {op : SqlOp} {a : op.Ret} {row : LeaseRow} (plain : !op.isScopedInsert)
    (member : row ∈ op.inserted) : ∃ lease ∈ inserted (.sql op) (.ok a), row = lease.row := by
  cases op with
  | insertLease lease => exact ⟨lease, rfl, List.mem_singleton.mp member⟩
  | insertLeaseScoped lease scope repoKey => cases plain
  | _ => cases member

section World
variable {F : Type} {urls : UrlLibrary} {outside : F → (op : LeaseOp) → op.Ret → F → Prop}

theorem LeaseStep.evolves {s s' : LeaseDb × F} {op : LeaseOp} {answer : op.Ret}
    (step : LeaseStep urls outside s op answer s') (plain : op.plain) :
    Evolves (inserted op answer) s.1 s'.1 := by
  refine step.related
    (fun op' answer' => op'.plain ∧ inserted op' answer' = inserted op answer)
    (Evolves (inserted op answer)) (.refl _ _) ?_ ⟨plain, rfl⟩
  rintro op' a db' run ⟨plain', same⟩
  have writes := tx_writes run
  rw [← same]
  refine ⟨writes.scopes plain', fun row member => ?_, fun row' member active => ?_⟩
  · obtain ⟨edit, rows, moved⟩ := writes.leases
    refine ⟨edit row, ?_, (moved row member).1⟩
    rw [rows]
    exact List.mem_append_left _ (List.mem_map_of_mem member)
  · rcases active_rows writes member active with old | fresh
    · exact Or.inl old
    · exact Or.inr (mem_inserted plain' fresh)

abbrev Past (F : Type) := List (Event (LeaseDb × F) LeaseOp LeaseOp.Ret)

def LeaseOp.looksUp : LeaseOp → Bool
  | .sql (.findActiveLease ..) => true
  | _ => false

-- What has been inserted, by whomever, since process `i` last looked for its lease.
def sinceLookup (i : Pid) (past : Past F) : List NewLease :=
  (past.takeWhile fun event => !(event.pid == i && event.effect.looksUp)).filterMap
    fun event => inserted event.effect event.answer

theorem mem_sinceLookup_cons {i : Pid} {event : Event (LeaseDb × F) LeaseOp LeaseOp.Ret} {past : Past F}
    (away : event.pid ≠ i ∨ event.effect.looksUp = false) {lease : NewLease} :
    lease ∈ sinceLookup i (event :: past) ↔
      lease ∈ inserted event.effect event.answer ∨ lease ∈ sinceLookup i past := by
  have goes : (!(event.pid == i && event.effect.looksUp)) = true := by
    rcases away with other | quiet
    · simp [other]
    · simp [quiet]
  rw [sinceLookup, List.takeWhile_cons, if_pos goes, List.filterMap_cons]
  cases inserted event.effect event.answer with
  | none => simp [sinceLookup]
  | some lease' => simp [sinceLookup, eq_comm]

/-- No lease that was inserted for the triple since the lookup of this acquire is still active. -/
def NotOvertaken (i : Pid) (s : (LeaseDb × F) × Past F) (op : LeaseOp) (answer : op.Ret) : Prop :=
  ∀ lease ∈ inserted op answer, ∀ other ∈ sinceLookup i s.2, other.row.triple = lease.row.triple →
    ∀ row ∈ s.1.1.leases, row.leaseId = other.leaseId → row.status ≠ .active

instance (i : Pid) (s : (LeaseDb × F) × Past F) (op : LeaseOp) (answer : op.Ret) :
    Decidable (NotOvertaken i s op answer) :=
  inferInstanceAs (Decidable (∀ lease ∈ inserted op answer, _))

def Watched (i : Pid) (triple : String × Int × String) (s : (LeaseDb × F) × Past F) : Prop :=
  ∀ row, s.1.1.Holds row → row.triple = triple →
    ∃ lease ∈ sinceLookup i s.2, lease.row.triple = triple ∧ lease.leaseId = row.leaseId

def Named (triple : String × Int × String) (leaseId : String) (s : (LeaseDb × F) × Past F) : Prop :=
  ∃ row ∈ s.1.1.leases, row.leaseId = leaseId ∧ row.triple = triple

section Stability
variable {s s' : (LeaseDb × F) × Past F} {news : Option NewLease} {triple : String × Int × String}

theorem Named.evolves {leaseId : String} (named : Named triple leaseId s)
    (evolves : Evolves news s.1.1 s'.1.1) : Named triple leaseId s' := by
  obtain ⟨row, member, sameId, sameTriple⟩ := named
  obtain ⟨row', member', same⟩ := evolves.kept row member
  exact ⟨row', member', same.leaseId.trans sameId, same.triple.trans sameTriple⟩

theorem Watched.evolves {i : Pid} {event : Event (LeaseDb × F) LeaseOp LeaseOp.Ret} (watched : Watched i triple s)
    (away : event.pid ≠ i ∨ event.effect.looksUp = false) (past : s'.2 = event :: s.2)
    (evolves : Evolves (inserted event.effect event.answer) s.1.1 s'.1.1) :
    Watched i triple s' := by
  intro row' holds sameTriple
  rw [past]
  rcases evolves.holds holds with ⟨row, old, same⟩ | ⟨lease, fresh, rfl⟩
  · obtain ⟨lease, since, ofTriple, named⟩ := watched row old (same.triple ▸ sameTriple)
    exact ⟨lease, (mem_sinceLookup_cons away).mpr (Or.inr since), ofTriple,
      named.trans same.leaseId.symm⟩
  · exact ⟨lease, (mem_sinceLookup_cons away).mpr (Or.inl fresh), sameTriple, rfl⟩

end Stability

section Contract
variable {i : Pid} {triple : String × Int × String} {P : (LeaseDb × F) × Past F → Prop}

def holderContract (scopes : List ScopeRow) : Contract ((LeaseDb × F) × Past F) where
  Inv s := SingleHolder s.1.1 ∧ s.1.1.scopes = scopes
  guarantee j s s' := s' = s ∨ ∃ event : Event (LeaseDb × F) LeaseOp LeaseOp.Ret, event.pid = j ∧
    s'.2 = event :: s.2 ∧ Evolves (inserted event.effect event.answer) s.1.1 s'.1.1

def holderWorld (urls : UrlLibrary) (outside : F → (op : LeaseOp) → op.Ret → F → Prop) :
    World ((LeaseDb × F) × Past F) LeaseOp LeaseOp.Ret :=
  (leaseWorld urls outside).record.guard NotOvertaken

def Lasting (i : Pid) (P : (LeaseDb × F) × Past F → Prop) : Prop :=
  ∀ s s' (event : Event (LeaseDb × F) LeaseOp LeaseOp.Ret), event.pid ≠ i ∨ event.effect.looksUp = false →
    s'.2 = event :: s.2 → Evolves (inserted event.effect event.answer) s.1.1 s'.1.1 → P s → P s'

theorem lasting_watched : Lasting (F := F) i (Watched i triple) :=
  fun _ _ _ away past evolves watched => watched.evolves away past evolves

theorem lasting_named (leaseId : String) : Lasting (F := F) i (Named triple leaseId) :=
  fun _ _ _ _ _ evolves named => named.evolves evolves

variable {scopes : List ScopeRow}

theorem Lasting.stable (lasting : Lasting i P) : (holderContract (F := F) scopes).Stable i P := by
  rintro s s' - - ⟨j, other, same | ⟨event, actor, past, evolves⟩⟩ holds
  · rwa [same]
  · exact lasting s s' event (Or.inl (actor ▸ other)) past evolves holds

theorem holder_step {s s' : (LeaseDb × F) × Past F} {op : LeaseOp} {answer : op.Ret}
    (inv : (holderContract (F := F) scopes).Inv s)
    (step : (holderWorld urls outside).step i s op answer s') (plain : op.plain)
    (vacant : ∀ lease ∈ inserted op answer, ∀ row, s.1.1.Holds row →
      row.triple ≠ lease.row.triple) :
    (holderContract (F := F) scopes).Inv s' ∧ (holderContract (F := F) scopes).guarantee i s s' ∧
      Evolves (inserted op answer) s.1.1 s'.1.1 := by
  have evolves := step.1.1.evolves plain
  exact ⟨⟨evolves.singleHolder inv.1 vacant, evolves.scopes.trans inv.2⟩,
    Or.inr ⟨⟨i, op, answer, s.1, s'.1⟩, rfl, step.1.2, evolves⟩, evolves⟩

structure Quiet (op : LeaseOp) : Prop where
  plain : op.plain
  idle : ∀ answer, inserted op answer = none
  blind : op.looksUp = false

theorem hoare_quiet {α : Type} {p : LeaseM α} (lasting : Lasting i P) (performs : Performs Quiet p) :
    Hoare (holderWorld urls outside) (holderContract scopes) i P p fun _ => P := by
  apply hoare_performs lasting.stable _ performs
  intro s op answer s' inv holds quiet step
  obtain ⟨inv', given, evolves⟩ := holder_step inv step quiet.plain fun lease fresh => by
    rw [quiet.idle answer] at fresh
    cases fresh
  exact ⟨inv', given, lasting s s' ⟨i, op, answer, s.1, s'.1⟩ (Or.inr quiet.blind) step.1.2 evolves holds⟩

/-- The step of the argument: whoever inserts for a triple it has watched finds it free. -/
theorem hoare_insert {lease : NewLease} (ofTriple : lease.row.triple = triple) :
    Hoare (holderWorld urls outside) (holderContract scopes) i (Watched i triple)
      (sql (.insertLease lease)) fun _ => Named triple lease.leaseId := by
  refine hoare_sql lasting_watched.stable (fun _ => (lasting_named _).stable) ?_
  intro s answer s' inv watched step
  have vacant : ∀ other ∈ inserted (.sql (.insertLease lease)) answer, ∀ row, s.1.1.Holds row →
      row.triple ≠ other.row.triple := by
    intro other fresh row holds same
    have own : other = lease := by
      cases answer with
      | ok u => exact (Option.some.inj fresh).symm
      | error e => cases fresh
    subst own
    obtain ⟨earlier, since, itsTriple, named⟩ := watched row holds (same.trans ofTriple)
    exact step.2 other fresh earlier since (itsTriple.trans ofTriple.symm) row holds.member
      named.symm holds.active
  obtain ⟨inv', given, evolves⟩ := holder_step inv step rfl vacant
  refine ⟨inv', given, ?_⟩
  cases answer with
  | error e => trivial
  | ok u =>
      have stored := insertLeaseOn_writes step.1.1.sql_ok
      refine ⟨lease.row, ?_, rfl, ofTriple⟩
      rw [stored]
      exact List.mem_append_right _ (List.mem_singleton_self _)

theorem findActiveLease_some {db : LeaseDb} {identity session : String} {issue : Nat}
    {row : LeaseRow} (found : findActiveLease db.toTables identity issue session = some row) :
    row ∈ db.leases ∧ row.triple = (identity, asI64 issue, session) := by
  obtain ⟨member, chosen⟩ := newest_some found
  simp only [Bool.and_eq_true, beq_iff_eq] at chosen
  obtain ⟨⟨⟨⟨sameIdentity, sameIssue⟩, sameSession⟩, -⟩, -⟩ := chosen
  exact ⟨member, by rw [LeaseRow.triple, sameIdentity, sameIssue, sameSession]⟩

theorem findActiveLease_none {db : LeaseDb} {identity session : String} {issue : Nat}
    (nothing : findActiveLease db.toTables identity issue session = none) {row : LeaseRow}
    (holds : db.Holds row) : row.triple ≠ (identity, asI64 issue, session) := by
  intro same
  apply newest_none nothing holds.member
  simp only [LeaseRow.triple, Prod.mk.injEq] at same
  simp [same, holds.active, holds.unscoped, LeaseRow.isActive]

def Looked (i : Pid) (triple : String × Int × String) :
    Option LeaseRow → (LeaseDb × F) × Past F → Prop
  | some existing => Named triple existing.leaseId
  | none => Watched i triple

theorem lasting_looked : (found : Option LeaseRow) → Lasting (F := F) i (Looked i triple found)
  | some existing => lasting_named existing.leaseId
  | none => lasting_watched

theorem hoare_lookup {identity session : String} {issue : Nat} :
    Hoare (holderWorld (F := F) urls outside) (holderContract scopes) i (fun _ => True)
      (sql (.findActiveLease identity issue session))
      (Looked i (identity, asI64 issue, session)) := by
  refine hoare_sql (Contract.stable_const i True) (fun found => (lasting_looked found).stable) ?_
  intro s answer s' inv _ step
  obtain ⟨inv', given, -⟩ := holder_step inv step rfl fun lease fresh => by
    cases answer <;> cases fresh
  refine ⟨inv', given, ?_⟩
  cases answer with
  | error e => trivial
  | ok found =>
      have run := step.1.1.sql_ok
      rw [SqlOp.tx] at run
      obtain ⟨looked, same⟩ := readTables_ok run
      have answered := Except.ok.inj looked
      cases found with
      | some existing =>
          obtain ⟨member, ofTriple⟩ := findActiveLease_some answered
          refine ⟨existing, ?_, rfl, ofTriple⟩
          rw [same]
          exact member
      | none =>
          intro row holds ofTriple
          rw [same] at holds
          exact absurd ofTriple (findActiveLease_none answered holds)

theorem lasting_true : Lasting (F := F) i fun _ => True := fun _ _ _ _ _ _ _ => trivial

theorem External.quiet (op : LeaseOp) (external : External op) : Quiet op := by
  cases op with
  | sql op => cases external
  | _ => exact ⟨rfl, fun _ => rfl, rfl⟩

theorem hoare_external {α : Type} {p : LeaseM α} (lasting : Lasting i P)
    (performs : Performs External p) :
    Hoare (holderWorld urls outside) (holderContract scopes) i P p fun _ => P :=
  hoare_quiet lasting (performs.mono External.quiet)

section Acquire
variable {request : AcquireRequest}

theorem hoare_insertSelected (plain : request.scope = none) {lease : NewLease}
    (ofTriple : lease.row.triple = triple) :
    Hoare (holderWorld urls outside) (holderContract scopes) i (Watched i triple)
      (insertSelectedLease request lease) fun _ => Named triple lease.leaseId := by
  rw [insertSelectedLease, plain]
  exact hoare_insert ofTriple

theorem hoare_insertOrRemove (plain : request.scope = none) {lease : NewLease}
    (ofTriple : lease.row.triple = triple) :
    Hoare (holderWorld urls outside) (holderContract scopes) i (Watched i triple)
      (insertOrRemove request lease) fun _ => Named triple lease.leaseId := by
  apply hoare_tryCatch (fun _ => (lasting_named _).stable) (hoare_insertSelected plain ofTriple)
  intro error
  exact hoare_bind (hoare_external lasting_true (external_ask rfl)) fun _ => hoare_throw

theorem hoare_withWarnings {result : LeaseM AcquireOutcome} (warnings : List String)
    (hoare : Hoare (holderWorld urls outside) (holderContract scopes) i P result
      fun outcome => Named triple outcome.leaseId) :
    Hoare (holderWorld urls outside) (holderContract scopes) i P (withWarnings result warnings)
      fun outcome => Named triple outcome.leaseId := by
  refine hoare_bind hoare fun outcome => ?_
  refine hoare_bind (hoare_external (lasting_named _) (external_ask rfl)) fun finalized => ?_
  exact hoare_pure (lasting_named _).stable fun _ _ named => named

theorem hoare_reuseCurrent (plain : request.scope = none)
    (ofTriple : (request.identity, asI64 request.issue, request.session) = triple) :
    Hoare (holderWorld urls outside) (holderContract scopes) i (Watched i triple)
      (acquireReuseCurrent request) fun outcome => Named triple outcome.leaseId := by
  refine hoare_bind (hoare_external lasting_watched (performs_attempt (external_ask rfl)))
    fun branch => ?_
  refine hoare_bind (hoare_external lasting_watched (external_ask rfl)) fun leaseId => ?_
  refine hoare_bind (hoare_external lasting_watched (external_ask rfl)) fun now => ?_
  refine hoare_bind (hoare_insertSelected plain ofTriple) fun _ => ?_
  exact hoare_pure (lasting_named _).stable fun _ _ named => named

theorem hoare_newWorktree (plain : request.scope = none)
    (ofTriple : (request.identity, asI64 request.issue, request.session) = triple)
    (base : Option String) :
    Hoare (holderWorld urls outside) (holderContract scopes) i (Watched i triple)
      (acquireNewWorktree request base) fun outcome => Named triple outcome.leaseId := by
  refine hoare_bind (hoare_external lasting_watched (probing_validateBase _ _).external) fun _ => ?_
  refine hoare_bind (hoare_external lasting_watched (probing_nameWorktree _).external) fun tree => ?_
  refine hoare_bind (hoare_external lasting_watched (external_ask rfl)) fun present => ?_
  refine hoare_bind (hoare_external lasting_watched (performs_fromExcept _)) fun _ => ?_
  refine hoare_bind (hoare_external lasting_watched (performs_attempt (external_ask rfl)))
    fun _ => ?_
  refine hoare_bind (hoare_external lasting_watched (external_ask rfl)) fun leaseId => ?_
  refine hoare_bind (hoare_external lasting_watched (external_ask rfl)) fun now => ?_
  refine hoare_bind (hoare_insertOrRemove plain ofTriple) fun _ => ?_
  exact hoare_pure (lasting_named _).stable fun _ _ named => named

theorem hoare_occupied (plain : request.scope = none)
    (ofTriple : (request.identity, asI64 request.issue, request.session) = triple)
    (occupant : LeaseRow) (warnings : List String) :
    Hoare (holderWorld urls outside) (holderContract scopes) i (Watched i triple)
      (acquireOccupied request occupant warnings) fun outcome => Named triple outcome.leaseId := by
  unfold acquireOccupied
  extract_lets trigger
  split
  · exact hoare_throw
  · exact hoare_withWarnings _ (hoare_newWorktree plain ofTriple _)

theorem hoare_free (plain : request.scope = none)
    (ofTriple : (request.identity, asI64 request.issue, request.session) = triple)
    (warnings : List String) :
    Hoare (holderWorld urls outside) (holderContract scopes) i (Watched i triple)
      (acquireFree request warnings) fun outcome => Named triple outcome.leaseId := by
  unfold acquireFree
  split
  · exact hoare_withWarnings _ (hoare_newWorktree plain ofTriple _)
  · exact hoare_withWarnings _ (hoare_reuseCurrent plain ofTriple)

theorem hoare_fresh (plain : request.scope = none)
    (ofTriple : (request.identity, asI64 request.issue, request.session) = triple) :
    Hoare (holderWorld urls outside) (holderContract scopes) i (Watched i triple)
      (acquireFresh request) fun outcome => Named triple outcome.leaseId := by
  unfold acquireFresh
  split
  · exact hoare_withWarnings _ (hoare_newWorktree plain ofTriple _)
  · refine hoare_bind (hoare_external lasting_watched (probing_probeDirtyState _).external) fun probed => ?_
    dsimp only
    split
    · exact hoare_withWarnings _ (hoare_newWorktree plain ofTriple _)
    · refine hoare_bind (hoare_quiet lasting_watched
        (performs_sql ⟨rfl, fun _ => rfl, rfl⟩)) fun found => ?_
      cases found with
      | some occupant => exact hoare_occupied plain ofTriple occupant _
      | none => exact hoare_free plain ofTriple _

theorem hoare_comeHome {existing : LeaseRow} :
    Hoare (holderWorld urls outside) (holderContract scopes) i (Named triple existing.leaseId)
      (comeHome existing) fun outcome => Named triple outcome.leaseId := by
  refine hoare_bind (hoare_external (lasting_named _) (external_ask rfl)) fun now => ?_
  refine hoare_bind (hoare_quiet (lasting_named _) (performs_sql ⟨rfl, fun _ => rfl, rfl⟩))
    fun _ => ?_
  exact hoare_withWarnings _ (hoare_pure (lasting_named _).stable fun _ _ named => named)

theorem hoare_acquire (identity repoPath : String) (issue : Nat) (session : String)
    (options : AcquireOptions) :
    Hoare (holderWorld urls outside) (holderContract scopes) i (fun _ => True)
      (acquireLeaseSeeded identity repoPath issue session options)
      fun outcome => Named (identity, asI64 issue, session) outcome.leaseId := by
  refine hoare_bind (hoare_external lasting_true (performs_fromExcept _)) fun _ => ?_
  refine hoare_bind hoare_lookup fun found => ?_
  cases found with
  | some existing => exact hoare_comeHome
  | none => exact hoare_fresh rfl rfl

end Acquire

end Contract

def Command.unscoped : Command → Bool
  | .acquireScoped .. => false
  | _ => true

section Commands

theorem performs_silent {α : Type} {ok : LeaseOp → Prop} {p : LeaseM α} (performs : Performs ok p) :
    Performs ok (silent p) :=
  performs_bind performs fun _ => performs_pure none

theorem quiet_heartbeat (leaseId session : String) (now : Int) :
    Performs Quiet (heartbeatLease leaseId session now) := by
  refine performs_bind (performs_fromExcept _) fun _ => ?_
  refine performs_bind (performs_sql ⟨rfl, fun _ => rfl, rfl⟩) fun beaten => ?_
  split
  · refine performs_bind (performs_sql ⟨rfl, fun _ => rfl, rfl⟩) fun found => ?_
    cases found with
    | some row => exact performs_pure row
    | none => exact performs_throw _
  · refine performs_bind (performs_sql ⟨rfl, fun _ => rfl, rfl⟩) fun found => ?_
    cases found with
    | none => exact performs_throw _
    | some row =>
        dsimp only
        split <;> exact performs_throw _

theorem quiet_release (leaseId : String) (retain : Bool) (reason : Option String) :
    Performs Quiet (releaseLeaseInner leaseId retain reason) := by
  refine performs_bind (performs_sql ⟨rfl, fun _ => rfl, rfl⟩) fun found => ?_
  cases found with
  | none => exact performs_throw _
  | some existing =>
      dsimp only
      split
      · exact performs_pure _
      · refine performs_bind (performs_ask (External.quiet _ rfl)) fun now => ?_
        refine performs_bind (performs_sql ⟨rfl, fun _ => rfl, rfl⟩) fun _ => ?_
        apply performs_bind
        · cases reason with
          | none => exact performs_pure ()
          | some reason =>
              exact performs_bind (performs_sql ⟨rfl, fun _ => rfl, rfl⟩) fun _ => performs_pure ()
        · exact fun _ => performs_pure _

theorem quiet_retainScope (identity : String) (repoKey : Option String) (scope : LeaseScope)
    (reason : String) (now : Int) :
    Performs Quiet (retainActiveLeasesForScope identity repoKey scope reason now) := by
  refine performs_bind (performs_sql ⟨rfl, fun _ => rfl, rfl⟩) fun rows => ?_
  refine performs_bind (performs_sql ⟨rfl, fun _ => rfl, rfl⟩) fun found => ?_
  refine performs_bind (performs_ask (External.quiet _ rfl)) fun resolve => ?_
  refine performs_bind (performs_ask (External.quiet _ rfl)) fun again => ?_
  exact performs_sql ⟨rfl, fun _ => rfl, rfl⟩

theorem quiet_run {command : Command} (unscoped : command.unscoped)
    (other : ∀ identity repoPath issue session options,
      command ≠ .acquire identity repoPath issue session options) :
    Performs Quiet command.run := by
  cases command with
  | acquire identity repoPath issue session options => exact absurd rfl (other _ _ _ _ _)
  | acquireScoped => cases unscoped
  | heartbeat leaseId session now => exact performs_silent (quiet_heartbeat leaseId session now)
  | release leaseId retain reason => exact performs_silent (quiet_release leaseId retain reason)
  | retainIssue identity issue reason =>
      apply performs_silent
      refine performs_bind (performs_fromExcept _) fun _ => ?_
      refine performs_bind (performs_ask (External.quiet _ rfl)) fun now => ?_
      exact performs_sql ⟨rfl, fun _ => rfl, rfl⟩
  | retainScope identity repoKey scope reason now =>
      exact performs_silent (quiet_retainScope identity repoKey scope reason now)
  | recoverStale => exact performs_silent (performs_sql ⟨rfl, fun _ => rfl, rfl⟩)
  | releaseAbsent => exact performs_silent (performs_sql ⟨rfl, fun _ => rfl, rfl⟩)
  | releaseRemoved leaseId =>
      refine performs_bind (performs_ask (External.quiet _ rfl)) fun now => ?_
      exact performs_silent (performs_sql ⟨rfl, fun _ => rfl, rfl⟩)
  | bindTask => exact performs_silent (performs_sql ⟨rfl, fun _ => rfl, rfl⟩)

end Commands

def Reports (commands : Pid → Option Command) (i : Pid)
    (result : Except WorktreeError (Option AcquireOutcome)) (s : (LeaseDb × F) × Past F) : Prop :=
  ∀ identity repoPath issue session options outcome,
    commands i = some (.acquire identity repoPath issue session options) →
    result = .ok (some outcome) → Named (identity, asI64 issue, session) outcome.leaseId s

theorem acquire_safe {commands : Pid → Option Command} {scopes : List ScopeRow} {i : Pid}
    {identity repoPath session : String} {issue : Nat} {options : AcquireOptions}
    (asked : commands i = some (.acquire identity repoPath issue session options)) :
    Triple (holderWorld (F := F) urls outside) (holderContract scopes) i (fun _ => True)
      (Command.acquire identity repoPath issue session options).run.run (Reports commands i) := by
  have named : Hoare (holderWorld (F := F) urls outside) (holderContract scopes) i (fun _ => True)
      (Command.acquire identity repoPath issue session options).run fun reported s =>
        ∀ outcome ∈ reported, Named (identity, asI64 issue, session) outcome.leaseId s := by
    refine hoare_bind (hoare_acquire _ _ _ _ _) fun outcome => hoare_pure ?_ ?_
    · intro s s' inv inv' step holds outcome' own
      exact (lasting_named _).stable s s' inv inv' step (holds outcome' own)
    · rintro s - holds outcome' own
      rwa [← Option.some.inj own]
  apply named.triple.weaken
  rintro result s holds _ _ _ _ _ outcome asked' rfl
  rw [asked] at asked'
  cases asked'
  exact holds outcome rfl

theorem command_safe {commands : Pid → Option Command} {scopes : List ScopeRow} {i : Pid}
    {command : Command} (asked : commands i = some command) (unscoped : command.unscoped) :
    Triple (holderWorld (F := F) urls outside) (holderContract scopes) i (fun _ => True)
      command.run.run (Reports commands i) := by
  by_cases acquires : ∃ identity repoPath issue session options,
      command = .acquire identity repoPath issue session options
  · obtain ⟨_, _, _, _, _, rfl⟩ := acquires
    exact acquire_safe asked
  · have other : ∀ identity repoPath issue session options,
        command ≠ .acquire identity repoPath issue session options :=
      fun _ _ _ _ _ same => acquires ⟨_, _, _, _, _, same⟩
    have quiet : Hoare (holderWorld (F := F) urls outside) (holderContract scopes) i
        (fun _ => True) command.run fun _ _ => True :=
      hoare_quiet lasting_true (quiet_run unscoped other)
    apply quiet.triple.weaken
    intro result s _ identity repoPath issue session options outcome asked'
    exact absurd (Option.some.inj (asked.symm.trans asked')) (other _ _ _ _ _)

theorem fleet_safe {commands : Pid → Option Command} {start : LeaseDb × F}
    (unscoped : ∀ i command, commands i = some command → command.unscoped)
    (single : SingleHolder start.1) :
    (fleet commands start).record.Safe (holderWorld urls outside) (holderContract start.1.scopes)
      (Reports commands) := by
  refine ⟨⟨single, rfl⟩, fun i p running => ?_⟩
  obtain ⟨command, asked, rfl⟩ := Option.map_eq_some_iff.mp running
  exact command_safe asked (unscoped i command asked) _ ⟨single, rfl⟩ trivial

/-- At most one active lease row for each triple. -/
def OneActive (db : LeaseDb) : Prop :=
  ∀ a ∈ db.leases, ∀ b ∈ db.leases, a.status = .active → b.status = .active →
    a.triple = b.triple → a = b

theorem SingleHolder.oneActive {db : LeaseDb} (single : SingleHolder db) (bare : db.scopes = []) :
    OneActive db := by
  have plain : ∀ leaseId, hasSidecar db.toTables leaseId = false := by
    intro leaseId
    rw [hasSidecar, bare]
    rfl
  intro a memberA b memberB activeA activeB same
  exact single a b ⟨memberA, activeA, plain _⟩ ⟨memberB, activeB, plain _⟩ same

theorem acquires_share_one_lease {commands : Pid → Option Command} {start : LeaseDb × F}
    {c : Config ((LeaseDb × F) × Past F) LeaseOp LeaseOp.Ret
      (Except WorktreeError (Option AcquireOutcome))}
    (unscoped : ∀ i command, commands i = some command → command.unscoped)
    (single : SingleHolder start.1)
    (run : Run (holderWorld urls outside) (fleet commands start).record c) :
    SingleHolder c.shared.1.1 ∧
      (start.1.scopes = [] → OneActive c.shared.1.1 ∧
        ∀ i j identity repoPath repoPath' issue session options options' outcome outcome',
          commands i = some (.acquire identity repoPath issue session options) →
          commands j = some (.acquire identity repoPath' issue session options') →
          c.result i = some (.ok (some outcome)) → c.result j = some (.ok (some outcome')) →
          (∀ row ∈ c.shared.1.1.leases, row.leaseId = outcome.leaseId → row.status = .active) →
          (∀ row ∈ c.shared.1.1.leases, row.leaseId = outcome'.leaseId → row.status = .active) →
          outcome.leaseId = outcome'.leaseId) := by
  have safe : c.Safe (holderWorld urls outside) (holderContract start.1.scopes)
      (Reports commands) := by
    refine run.safe (fun i s s' inv crashed => ?_) (fleet_safe unscoped single)
    have same : s' = s := Prod.ext crashed.1 crashed.2
    rw [same]
    exact ⟨inv, Or.inl rfl⟩
  refine ⟨safe.1.1, fun bare => ?_⟩
  have one := safe.1.1.oneActive (safe.1.2.trans bare)
  refine ⟨one, ?_⟩
  intro i j identity repoPath repoPath' issue session options options' outcome outcome' asked asked'
    finished finished' active active'
  obtain ⟨row, member, named, ofTriple⟩ :=
    safe.result finished identity repoPath issue session options outcome asked rfl
  obtain ⟨row', member', named', ofTriple'⟩ :=
    safe.result finished' identity repoPath' issue session options' outcome' asked' rfl
  have same := one row member row' member' (active row member named) (active' row' member' named')
    (ofTriple.trans ofTriple'.symm)
  rw [← named, ← named', same]

end World

section Race

def isolating : AcquireOptions := ⟨none, true, none, false⟩

def acquires : Pid → Option Command
  | 0 => some (.acquire "/repo/.git" "/repo" 7 "main" isolating)
  | 1 => some (.acquire "/repo/.git" "/repo" 7 "main" isolating)
  | _ => none

def acquiring (schedule : List Pid) : Config ((LeaseDb × Nat) × Past Nat) LeaseOp LeaseOp.Ret
    (Except WorktreeError (Option AcquireOutcome)) :=
  (fleet acquires (emptyStore, 100)).record.replay (recording (perform forgejoTest sandbox)) schedule

theorem acquires_unscoped (i : Pid) (command : Command) (asked : acquires i = some command) :
    command.unscoped := by
  unfold acquires at asked
  split at asked <;> cases asked <;> rfl

def acquiringInTurn : List Pid := List.replicate 12 0 ++ List.replicate 4 1

theorem acquires_in_turn_share_one_lease :
    SingleHolder (acquiring acquiringInTurn).shared.1.1 := by
  have run : Run (holderWorld forgejoTest (answered sandbox))
      (fleet acquires (emptyStore, 100)).record (acquiring acquiringInTurn) := by
    unfold acquiring
    apply Run.replay_guard (recording_sound (perform_sound forgejoTest sandbox))
    decide +kernel
  have single : SingleHolder emptyStore := by
    rintro a b ⟨member, -, -⟩
    cases member
  exact (acquires_share_one_lease acquires_unscoped single run).1

-- Both acquires look for the lease before either inserts one.
def acquiringTogether : List Pid := [0, 1] ++ List.replicate 11 0 ++ List.replicate 11 1

theorem racing_acquires_hold_two_leases :
    Run (leaseWorld forgejoTest (answered sandbox)) (fleet acquires (emptyStore, 100))
        (acquiring acquiringTogether).forget ∧
      (acquiring acquiringTogether).shared.1.1.leases.map (fun row => (row.status, row.triple)) =
        [(.active, "/repo/.git", 7, "main"), (.active, "/repo/.git", 7, "main")] ∧
      ¬OneActive (acquiring acquiringTogether).shared.1.1 := by
  have rows : (acquiring acquiringTogether).shared.1.1.leases.map
      (fun row => (row.status, row.triple)) =
        [(.active, "/repo/.git", 7, "main"), (.active, "/repo/.git", 7, "main")] := by
    decide +kernel
  have run : Run (leaseWorld forgejoTest (answered sandbox)).record
      (fleet acquires (emptyStore, 100)).record (acquiring acquiringTogether) := by
    unfold acquiring
    exact .replay (recording_sound (perform_sound forgejoTest sandbox)) _ _
  refine ⟨run.forget, rows, fun one => ?_⟩
  have distinct := (acquiring acquiringTogether).shared.1.1.valid.leaseIds
  generalize (acquiring acquiringTogether).shared.1.1 = db at rows one distinct
  obtain ⟨a, rest, leases, first, others⟩ := List.map_eq_cons_iff.mp rows
  obtain ⟨b, none, rfl, second, -⟩ := List.map_eq_cons_iff.mp others
  simp only [Prod.mk.injEq] at first second
  have same := one a (by simp [leases]) b (by simp [leases]) first.1 second.1
    (first.2.trans second.2.symm)
  simp [leases, same] at distinct

end Race

end Phasegent.Lease
