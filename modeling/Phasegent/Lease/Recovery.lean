import Mathlib
import Phasegent.Lease.Changes
import Phasegent.Lease.Commands

namespace Phasegent.Lease
open Fallible Sql

theorem Tables.check_of_valid {tables : Tables} (valid : tables.Valid) : tables.check = .ok () := by
  simp only [Tables.check, bind_eq_ok, refuse_eq_ok, not_not]
  exact ⟨(), valid.leaseIds, (), valid.activePaths, (), valid.scopeIds, (), valid.scopeChecks, (),
    valid.bindingIds, (), valid.bindingKeys, valid.membershipKeys⟩

theorem LeaseDb.store_of_valid {tables : Tables} (valid : tables.Valid) :
    LeaseDb.store tables = .ok ⟨tables, valid⟩ := by
  unfold LeaseDb.store
  split
  · rfl
  · next failed =>
      rw [Tables.check_of_valid valid] at failed
      cases failed

theorem active_retain (now : Int) (reason : String) (row : LeaseRow) :
    (retain now reason row).isActive = false := rfl

theorem Tables.Valid.update_retain {tables : Tables} (valid : tables.Valid) (sel : LeaseRow → Bool)
    (now : Int) (reason : String) :
    Tables.Valid { tables with leases := update sel (retain now reason) tables.leases } where
  leaseIds := by
    have ids : (update sel (retain now reason) tables.leases).map (·.leaseId) =
        tables.leases.map (·.leaseId) := map_update (fun row => by cases row; rfl) tables.leases
    exact ids ▸ valid.leaseIds
  activePaths := by
    have fewer : ((update sel (retain now reason) tables.leases).filter (·.isActive)).Sublist
        (tables.leases.filter (·.isActive)) := by
      induction tables.leases with
      | nil => exact .slnil
      | cons row rest ih =>
          rw [update, List.map_cons, ← update]
          cases chosen : sel row with
          | true =>
              rw [if_pos rfl, List.filter_cons_of_neg (by simp [active_retain])]
              exact ih.trans ((List.sublist_cons_self row rest).filter _)
          | false =>
              rw [if_neg Bool.false_ne_true]
              cases active : row.isActive <;> simpa [List.filter_cons, active] using ih
    exact valid.activePaths.sublist (fewer.map _)
  scopeIds := valid.scopeIds
  scopeChecks := valid.scopeChecks
  bindingIds := valid.bindingIds
  bindingKeys := valid.bindingKeys
  membershipKeys := valid.membershipKeys

theorem retains_total (label : String) (sel : Tables → LeaseRow → Bool) (now : Int) (reason : String)
    (db : LeaseDb) : ∃ n db', updateLeases label sel (retain now reason) db = .ok (n, db') := by
  have valid := db.valid.update_retain (sel db.toTables) now reason
  have written : statement (labelled label) (fun tables => { tables with
      leases := update (sel tables) (retain now reason) tables.leases }) db =
        .ok ((), ⟨_, valid⟩) := by
    rw [statement, LeaseDb.store_of_valid valid]
  refine ⟨(db.leases.filter (sel db.toTables)).length, ⟨_, valid⟩, ?_⟩
  have got : (get : LeaseTx LeaseDb) db = .ok (db, db) := rfl
  rw [updateLeases, Tx.bind_eq got, Tx.bind_eq written]
  rfl

theorem flipStale_total (staleBefore : Int) (reason : String) (now : Int)
    (recoveryScope : StaleRecoveryScope) (scopes : ScopeMap) (rows : List LeaseRow) (db : LeaseDb) :
    ∃ flipped db', flipStale staleBefore reason now recoveryScope scopes rows db =
      .ok (flipped, db') := by
  induction rows generalizing db with
  | nil => exact ⟨[], db, rfl⟩
  | cons row rest ih =>
      rw [flipStale]
      split
      · obtain ⟨n, db₁, updated⟩ := retains_total "flip stale lease" (fun _ stored =>
          stored.leaseId == row.leaseId && stored.isActive && stored.heartbeatAt < staleBefore)
          now reason db
        obtain ⟨flipped, db₂, rest'⟩ := ih db₁
        refine ⟨if n == 1 then retain now reason row :: flipped else flipped, db₂, ?_⟩
        rw [Tx.bind_eq updated, Tx.bind_eq rest']
        rfl
      · exact ih db

def StaleRecoveryScope.owns (recoveryScope : StaleRecoveryScope) (scopes : ScopeMap)
    (row : LeaseRow) : Bool :=
  recoveryScope.allows (scopes.lookup row.leaseId)

section Flips
variable {staleBefore now : Int} {reason : String} {recoveryScope : StaleRecoveryScope}
  {scopes : ScopeMap}

def LeaseRow.staleActive (staleBefore : Int) (row : LeaseRow) : Bool :=
  row.isActive && row.heartbeatAt < staleBefore

theorem flip_row {db db' : LeaseDb} {row : LeaseRow} {n : Nat} (stored : row ∈ db.leases)
    (stale : row.staleActive staleBefore)
    (run : updateLeases "flip stale lease" (fun _ stored =>
      stored.leaseId == row.leaseId && stored.isActive && stored.heartbeatAt < staleBefore)
      (retain now reason) db = .ok (n, db')) :
    db'.toTables =
        { db.toTables with leases := update (· == row) (retain now reason) db.leases } ∧ n = 1 := by
  obtain ⟨tables, count⟩ := updateLeases_ok run
  have only : ∀ other ∈ db.leases, (other.leaseId == row.leaseId && other.isActive &&
      other.heartbeatAt < staleBefore) = (other == row) := by
    intro other member
    by_cases same : other = row
    · have stale : (other.isActive && decide (other.heartbeatAt < staleBefore)) = true := same ▸ stale
      rw [Bool.and_assoc, stale, same]
      simp
    · have differ : other.leaseId ≠ row.leaseId := fun ids => same (row_unique member stored ids)
      rw [beq_false_of_ne differ, beq_false_of_ne same, Bool.false_and, Bool.false_and]
  constructor
  · have same : update (fun stored => stored.leaseId == row.leaseId && stored.isActive &&
        stored.heartbeatAt < staleBefore) (retain now reason) db.leases =
          update (· == row) (retain now reason) db.leases :=
      update_congr only
    rw [tables, same]
  · rw [count, List.filter_congr only, ← List.count_eq_length_filter]
    exact List.count_eq_one_of_mem db.valid.leaseIds.of_map stored

theorem flipStale_ok {rows : List LeaseRow} {db db' : LeaseDb} {flipped : List LeaseRow}
    (nodup : rows.Nodup) (stored : ∀ row ∈ rows, row ∈ db.leases)
    (stale : ∀ row ∈ rows, row.staleActive staleBefore)
    (run : flipStale staleBefore reason now recoveryScope scopes rows db = .ok (flipped, db')) :
    flipped = (rows.filter (recoveryScope.owns scopes)).map (retain now reason) ∧
      db'.toTables = { db.toTables with
        leases := update (fun row => decide (row ∈ rows.filter (recoveryScope.owns scopes)))
          (retain now reason) db.leases } := by
  induction rows generalizing db flipped with
  | nil =>
      cases run
      simp [update]
  | cons row rest ih =>
      rw [flipStale] at run
      obtain ⟨fresh, nodup⟩ := List.nodup_cons.mp nodup
      obtain ⟨here, stored⟩ := List.forall_mem_cons.mp stored
      obtain ⟨old, stale⟩ := List.forall_mem_cons.mp stale
      cases allows : recoveryScope.allows (scopes.lookup row.leaseId) with
      | false =>
          have allowed : recoveryScope.owns scopes row = false := allows
          rw [allows, if_neg Bool.false_ne_true] at run
          simpa only [List.filter_cons, allowed, Bool.false_eq_true, if_false] using
            ih nodup stored stale run
      | true =>
          have allowed : recoveryScope.owns scopes row = true := allows
          rw [allows, if_pos rfl] at run
          obtain ⟨n, db₁, written, later⟩ := Tx.bind_ok run
          obtain ⟨more, db₂, followed, last⟩ := Tx.bind_ok later
          obtain ⟨tables, rfl⟩ := flip_row here old written
          cases last
          have left : ∀ row' ∈ rest, row' ∈ db₁.leases := by
            intro row' member
            rw [tables]
            have other : row' ≠ row := fun same => fresh (same ▸ member)
            exact mem_update.mpr ⟨row', stored row' member, by simp [other]⟩
          obtain ⟨answer, final⟩ := ih nodup left stale followed
          have done : ∀ row', decide (retain now reason row' ∈
              rest.filter (recoveryScope.owns scopes)) = false := by
            intro row'
            rw [decide_eq_false_iff_not, List.mem_filter]
            rintro ⟨member, -⟩
            have active := stale _ member
            simp [LeaseRow.staleActive, active_retain] at active
          constructor
          · simp [allowed, answer]
          · rw [final, tables, update_update done]
            have both : ∀ row' ∈ db.leases, (row' == row || decide (row' ∈ rest.filter (recoveryScope.owns scopes))) =
                decide (row' ∈ (row :: rest).filter (recoveryScope.owns scopes)) := by
              intro row' _
              simp [allowed, Bool.beq_eq_decide_eq]
            rw [update_congr both]

end Flips

section Recovery
variable {urls : UrlLibrary} {identity reason : String} {repoKey : Option String}
  {staleBefore now : Int} {recoveryScope : StaleRecoveryScope}

-- The stale active leases of the repository without the limit of the query.
def staleRows (tables : Tables) (identity : String) (staleBefore : Int) : List LeaseRow :=
  orderAsc (·.heartbeatAt) (tables.leases.filter fun row =>
    row.repoIdentity == identity && row.isActive && row.heartbeatAt < staleBefore)

def recoverable (identity : String) (staleBefore : Int) (recoveryScope : StaleRecoveryScope)
    (scopes : ScopeMap) (row : LeaseRow) : Bool :=
  row.repoIdentity == identity && row.staleActive staleBefore && recoveryScope.owns scopes row

/-- What a stale recovery promises: every recoverable lease is retained and reported, and no other
row is touched. -/
structure Recovers (identity : String) (staleBefore : Int) (reason : String) (now : Int)
    (recoveryScope : StaleRecoveryScope) (scopes : ScopeMap) (before after : LeaseDb)
    (flipped : List LeaseRow) : Prop where
  rows : after.toTables = { before.toTables with
    leases := update (recoverable identity staleBefore recoveryScope scopes)
      (retain now (trimText reason)) before.leases }
  returned : flipped.Perm ((before.leases.filter
    (recoverable identity staleBefore recoveryScope scopes)).map (retain now (trimText reason)))

theorem mem_staleRows {tables : Tables} {row : LeaseRow} :
    row ∈ staleRows tables identity staleBefore ↔
      row ∈ tables.leases ∧ row.repoIdentity = identity ∧ row.staleActive staleBefore := by
  simp [staleRows, LeaseRow.staleActive, and_assoc]

theorem nodup_staleRows (db : LeaseDb) (identity : String) (staleBefore : Int) :
    (staleRows db.toTables identity staleBefore).Nodup := by
  have listed : (db.leases.filter fun row => row.repoIdentity == identity && row.isActive &&
      row.heartbeatAt < staleBefore).Nodup := db.valid.leaseIds.of_map.filter _
  exact (List.perm_insertionSort _ _).nodup_iff.mpr listed

theorem recoverable_iff {db : LeaseDb} {scopes : ScopeMap} {row : LeaseRow} (stored : row ∈ db.leases) :
    recoverable identity staleBefore recoveryScope scopes row ↔
      row ∈ staleRows db.toTables identity staleBefore ∧ recoveryScope.owns scopes row := by
  simp [recoverable, mem_staleRows, stored, and_assoc]

theorem recoverStale_ok {db db' : LeaseDb} {flipped : List LeaseRow}
    (run : recoverStaleActiveLeasesForScope urls identity repoKey staleBefore reason now recoveryScope
      db = .ok (flipped, db')) :
    ∃ scopes, scopeMapForConnectionWithKey urls db.toTables identity repoKey = .ok scopes ∧
      let chosen := ((staleRows db.toTables identity staleBefore).take maxLeasesPerQuery).filter
        (recoveryScope.owns scopes)
      flipped = chosen.map (retain now (trimText reason)) ∧
        db'.toTables = { db.toTables with
          leases := update (fun row => decide (row ∈ chosen)) (retain now (trimText reason))
            db.leases } := by
  obtain ⟨_, db₁, attributed, rest₁⟩ := Tx.bind_ok run
  obtain ⟨stored, db₂, got, rest₂⟩ := Tx.bind_ok rest₁
  obtain ⟨scopes, db₃, read, rest₃⟩ := Tx.bind_ok rest₂
  cases got
  obtain ⟨-, same⟩ := readTables_ok attributed
  obtain ⟨mapped, same'⟩ := readTables_ok read
  subst same
  subst same'
  have candidate : ∀ row ∈ staleActiveLeases db₃.toTables identity staleBefore,
      row ∈ db₃.leases ∧ row.repoIdentity = identity ∧ row.staleActive staleBefore :=
    fun row listed => mem_staleRows.mp (List.mem_of_mem_take listed)
  refine ⟨scopes, mapped, flipStale_ok ?_ ?_ ?_ rest₃⟩
  · exact (nodup_staleRows db₃ identity staleBefore).sublist (List.take_sublist _ _)
  · exact fun row listed => (candidate row listed).1
  · exact fun row listed => (candidate row listed).2.2

theorem recoverStale_total (reason : String) (urls : UrlLibrary) (repoKey : Option String) (staleBefore now : Int)
    (recoveryScope : StaleRecoveryScope) {db : LeaseDb} {scopes : ScopeMap}
    (attributed : trimText reason ≠ "")
    (mapped : scopeMapForConnectionWithKey urls db.toTables identity repoKey = .ok scopes) :
    ∃ flipped db', recoverStaleActiveLeasesForScope urls identity repoKey staleBefore reason now
      recoveryScope db = .ok (flipped, db') := by
  obtain ⟨flipped, db', ran⟩ := flipStale_total staleBefore (trimText reason) now recoveryScope scopes
    (staleActiveLeases db.toTables identity staleBefore) db
  have named : (readTables fun _ => refuse (trimText reason = "")
      (.new "argument" "stale recovery requires a non-empty reason") : LeaseTx Unit) db =
        .ok ((), db) := by
    rw [readTables, Tx.read, refuse_of_not attributed]
    rfl
  have read : readTables (fun now => scopeMapForConnectionWithKey urls now identity repoKey) db =
      .ok (scopes, db) := by
    rw [readTables, Tx.read, mapped]
    rfl
  have whole : (tables : LeaseTx Tables) db = .ok (db.toTables, db) := rfl
  refine ⟨flipped, db', ?_⟩
  rw [recoverStaleActiveLeasesForScope, Tx.bind_eq named, Tx.bind_eq whole, Tx.bind_eq read, ran]

/-- A recovery keeps its promise exactly when every stale lease that it owns is among the first ones
that its query returns. -/
theorem recovers_iff {db db' : LeaseDb} {flipped : List LeaseRow}
    (run : recoverStaleActiveLeasesForScope urls identity repoKey staleBefore reason now recoveryScope
      db = .ok (flipped, db')) :
    ∃ scopes, scopeMapForConnectionWithKey urls db.toTables identity repoKey = .ok scopes ∧
      (Recovers identity staleBefore reason now recoveryScope scopes db db' flipped ↔
        ∀ row ∈ (staleRows db.toTables identity staleBefore).drop maxLeasesPerQuery,
          recoveryScope.allows (scopes.lookup row.leaseId) = false) := by
  obtain ⟨scopes, mapped, answer, written⟩ := recoverStale_ok run
  refine ⟨scopes, mapped, ?_, ?_⟩
  · intro recovers row behind
    have listed := mem_staleRows.mp (List.mem_of_mem_drop behind)
    by_contra allowed
    have owned : recoverable identity staleBefore recoveryScope scopes row :=
      (recoverable_iff listed.1).mpr
        ⟨List.mem_of_mem_drop behind, Bool.eq_true_of_not_eq_false allowed⟩
    have rows := congrArg (·.leases) (recovers.rows.symm.trans written)
    have same := List.map_inj_left.mp rows row listed.1
    rw [if_pos owned] at same
    split at same
    · next chosen =>
        have early := (List.mem_filter.mp (of_decide_eq_true chosen)).1
        exact List.disjoint_take_drop (nodup_staleRows db identity staleBefore) le_rfl early behind
    · have active : row.isActive = true := (Bool.and_eq_true_iff.mp listed.2.2).1
      rw [← same, active_retain] at active
      cases active
  · intro reached
    have chosen : ∀ row ∈ db.leases, (row ∈ ((staleRows db.toTables identity staleBefore).take
        maxLeasesPerQuery).filter (recoveryScope.owns scopes)) ↔
          recoverable identity staleBefore recoveryScope scopes row := by
      intro row stored
      rw [recoverable_iff stored, List.mem_filter]
      constructor
      · exact fun taken => ⟨List.mem_of_mem_take taken.1, taken.2⟩
      · intro owned
        have split := owned.1
        rw [← List.take_append_drop maxLeasesPerQuery (staleRows _ _ _), List.mem_append] at split
        have behind := fun late => (Bool.eq_false_iff.mp (reached row late)) owned.2
        exact ⟨split.resolve_right behind, owned.2⟩
    have members : ∀ row ∈ db.leases, decide (row ∈ ((staleRows db.toTables identity staleBefore).take
        maxLeasesPerQuery).filter (recoveryScope.owns scopes)) =
          recoverable identity staleBefore recoveryScope scopes row := by
      intro row stored
      rw [Bool.eq_iff_iff, decide_eq_true_iff, chosen row stored]
    constructor
    · rw [written, update_congr members]
    · rw [answer]
      apply List.Perm.map
      apply (List.perm_ext_iff_of_nodup _ _).mpr
      · intro row
        rw [List.mem_filter (p := recoverable identity staleBefore recoveryScope scopes)]
        constructor
        · intro taken
          have stored := (mem_staleRows.mp (List.mem_of_mem_take (List.mem_filter.mp taken).1)).1
          exact ⟨stored, (chosen row stored).mp taken⟩
        · exact fun owned => (chosen row owned.1).mpr owned.2
      · exact ((nodup_staleRows db identity staleBefore).sublist (List.take_sublist _ _)).filter _
      · exact db.valid.leaseIds.of_map.filter _

def laterLease (leaseId worktreePath : String) (heartbeatAt : Int) (status : LeaseStatus) : LeaseRow :=
  { heldLease with
    leaseId := leaseId
    session := worktreePath
    worktreePath := worktreePath
    heartbeatAt := heartbeatAt
    status := status }

-- Two stale leases, a stale one that is another task's, one that is not stale and one that is retained.
def agedStore : LeaseDb where
  leases := [heldLease, laterLease "lease-64-1" "/wt/8" 150 .active, laterLease "lease-64-2" "/wt/9" 50 .active,
    laterLease "lease-64-3" "/wt/10" 250 .active, laterLease "lease-64-4" "/wt/8" 20 .retained]
  scopes := [⟨"lease-64-2", "redmine", "web", 7, none, 100⟩]
  bindings := []
  memberships := []
  valid := by constructor <;> decide

theorem held_recovered : ∃ scopes flipped db', recoverStaleActiveLeasesForScope forgejoTest "/repo/.git" none
    200 "abandoned" 300 .legacyOnly agedStore = .ok (flipped, db') ∧
      Recovers "/repo/.git" 200 "abandoned" 300 .legacyOnly scopes agedStore db' flipped ∧
      db'.leases.map (·.status) = [.retained, .retained, .active, .active, .retained] := by
  have known : scopeMapForConnectionWithKey forgejoTest agedStore.toTables "/repo/.git" none =
      .ok [("lease-64-2", redmineScope)] := rfl
  obtain ⟨flipped, db', run⟩ := recoverStale_total "abandoned" forgejoTest none 200 300
    .legacyOnly (by decide) known
  obtain ⟨scopes, mapped, iff⟩ := recovers_iff run
  obtain rfl := Except.ok.inj (known.symm.trans mapped)
  have recovers := iff.mpr (by intro row behind; cases behind)
  refine ⟨_, flipped, db', run, recovers, ?_⟩
  have rows := congrArg Tables.leases recovers.rows
  rw [rows]
  decide

end Recovery

section Hidden

def tally (i : Nat) : String := String.ofList (List.replicate i 'x')

theorem tally_injective : Function.Injective tally := by
  intro i j same
  have lengths := congrArg (·.toList.length) same
  simpa [tally] using lengths

def queued (i : Nat) : LeaseRow :=
  { heldLease with leaseId := tally i, worktreePath := tally i, heartbeatAt := i }

def crowded (n : Nat) : LeaseDb where
  leases := (List.range (n + 1)).map queued
  scopes := [⟨tally n, "redmine", "6", 7, none, 100⟩]
  bindings := []
  memberships := []
  valid :=
    { leaseIds := by
        rw [List.map_map]
        apply List.nodup_range.map
        intro i j same
        exact tally_injective same
      activePaths := by
        apply ((List.filter_sublist).map _).nodup
        rw [List.map_map]
        apply List.nodup_range.map
        intro i j same
        exact tally_injective (congrArg Prod.snd same)
      scopeIds := List.nodup_singleton _
      scopeChecks := by simp
      bindingIds := List.nodup_nil
      bindingKeys := List.nodup_nil
      membershipKeys := List.nodup_nil }

theorem staleRows_crowded (n : Nat) :
    staleRows (crowded n).toTables "/repo/.git" (n + 1) = (List.range (n + 1)).map queued := by
  have stale : (crowded n).leases.filter (fun row => row.repoIdentity == "/repo/.git" &&
      row.isActive && row.heartbeatAt < (n + 1 : Int)) = (List.range (n + 1)).map queued := by
    apply List.filter_eq_self.mpr
    intro row member
    obtain ⟨i, early, rfl⟩ := List.mem_map.mp member
    have before : (i : Int) < n + 1 := by
      have := List.mem_range.mp early
      omega
    simp [queued, heldLease, LeaseRow.isActive, before]
  rw [staleRows, stale]
  apply List.Pairwise.insertionSort_eq
  rw [List.pairwise_map]
  exact List.pairwise_lt_range.imp fun older => by simpa [queued] using older.le

theorem seven_in_range : 0 < 7 ∧ 7 ≤ Task.i64Max := by decide

theorem seven_untasked : (none : Option Int).isSome = (none : Option String).isSome := rfl

def lateScope : LeaseScope := ⟨"redmine", "6", 7, none, none, seven_in_range, seven_untasked⟩

theorem scopes_crowded (n : Nat) :
    scopeMapForConnectionWithKey forgejoTest (crowded n).toTables "/repo/.git" none =
      .ok [(tally n, lateScope)] := by
  have last : queued n ∈ (crowded n).leases := List.mem_map_of_mem (List.mem_range.mpr n.lt_succ_self)
  have only : ∀ row ∈ (crowded n).leases,
      (row.leaseId == tally n && row.repoIdentity == "/repo/.git") = (row == queued n) := by
    intro row member
    obtain ⟨i, -, rfl⟩ := List.mem_map.mp member
    by_cases same : i = n
    · simp [same, queued, heldLease]
    · have other : tally i ≠ tally n := fun ids => same (tally_injective ids)
      have differ : queued i ≠ queued n := fun rows => other (congrArg (·.leaseId) rows)
      rw [beq_false_of_ne differ]
      exact Bool.and_eq_false_iff.mpr (.inl (beq_false_of_ne other))
  have joined : joinedSidecars (crowded n).toTables "/repo/.git" =
      [(⟨tally n, "redmine", "6", 7, none, 100⟩, queued n)] := by
    have one : (crowded n).leases.filter (· == queued n) = [queued n] := by
      rw [List.filter_beq, List.count_eq_one_of_mem (crowded n).valid.leaseIds.of_map last]
      rfl
    have found := (List.filter_congr only).trans one
    unfold joinedSidecars
    rw [show (crowded n).scopes = [⟨tally n, "redmine", "6", 7, none, 100⟩] from rfl,
      List.flatMap_singleton, found]
    rfl
  rw [scopeMapForConnectionWithKey, joined, decodeSidecars, scopeOfSidecar, refuse_of_not]
  · simp only [bind, Except.bind, decodeSidecars, pure, Except.pure]
    rfl
  · simp [queued, heldLease]

theorem early_unowned {n i : Nat} (before : i < n) :
    StaleRecoveryScope.owns (.exact "redmine" "6" none none) [(tally n, lateScope)] (queued i) =
      false := by
  have other : tally i ≠ tally n := fun ids => before.ne (tally_injective ids)
  have unscoped : List.lookup (queued i).leaseId [(tally n, lateScope)] = none := by
    simp [List.lookup, queued, beq_false_of_ne other]
  rw [StaleRecoveryScope.owns, unscoped]
  rfl

theorem late_recoverable (n : Nat) : recoverable "/repo/.git" (n + 1)
    (.exact "redmine" "6" none none) [(tally n, lateScope)] (queued n) := by
  simp [recoverable, StaleRecoveryScope.owns, StaleRecoveryScope.allows, lateScope,
    LeaseRow.staleActive, LeaseRow.isActive, queued, heldLease]

/-- Older leases that the recovery does not own keep the one it owns behind the limit. -/
theorem stale_lease_hidden : ¬∀ (urls : UrlLibrary) (identity : String) (repoKey : Option String)
    (staleBefore : Int) (reason : String) (now : Int) (recoveryScope : StaleRecoveryScope)
    (db db' : LeaseDb) (flipped : List LeaseRow),
    recoverStaleActiveLeasesForScope urls identity repoKey staleBefore reason now recoveryScope db =
      .ok (flipped, db') →
    ∃ scopes, scopeMapForConnectionWithKey urls db.toTables identity repoKey = .ok scopes ∧
      Recovers identity staleBefore reason now recoveryScope scopes db db' flipped := by
  intro claim
  obtain ⟨flipped, db', run⟩ := recoverStale_total "abandoned" forgejoTest none
    (maxLeasesPerQuery + 1) 1000 (.exact "redmine" "6" none none) (by decide)
    (scopes_crowded maxLeasesPerQuery)
  obtain ⟨scopes, mapped, recovers⟩ := claim _ _ _ _ _ _ _ _ _ _ run
  obtain ⟨scopes', mapped', answer, -⟩ := recoverStale_ok run
  cases (scopes_crowded maxLeasesPerQuery).symm.trans mapped
  cases (scopes_crowded maxLeasesPerQuery).symm.trans mapped'
  have nothing : flipped = [] := by
    rw [answer, staleRows_crowded, ← List.map_take, List.map_eq_nil_iff, List.filter_eq_nil_iff]
    intro row member
    obtain ⟨i, early, rfl⟩ := List.mem_map.mp member
    have before : i < maxLeasesPerQuery := by
      rw [List.take_range] at early
      have := List.mem_range.mp early
      omega
    rw [early_unowned before]
    exact Bool.false_ne_true
  have owned : retain 1000 (trimText "abandoned") (queued maxLeasesPerQuery) ∈ flipped := by
    apply recovers.returned.mem_iff.mpr
    apply List.mem_map_of_mem
    apply List.mem_filter.mpr
    refine ⟨List.mem_map_of_mem (List.mem_range.mpr (Nat.lt_succ_self _)), late_recoverable _⟩
  rw [nothing] at owned
  cases owned

end Hidden

end Phasegent.Lease
