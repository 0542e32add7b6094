import Phasegent.Lease.Transactions

namespace Phasegent.Lease
open Sql

-- The columns that no statement writes after the insert.
structure LeaseRow.SameLease (row row' : LeaseRow) : Prop where
  leaseId : row'.leaseId = row.leaseId
  repoIdentity : row'.repoIdentity = row.repoIdentity
  issue : row'.issue = row.issue
  session : row'.session = row.session
  checkoutPath : row'.checkoutPath = row.checkoutPath
  worktreePath : row'.worktreePath = row.worktreePath
  branch : row'.branch = row.branch
  createdAt : row'.createdAt = row.createdAt

theorem LeaseRow.SameLease.refl (row : LeaseRow) : row.SameLease row :=
  ⟨rfl, rfl, rfl, rfl, rfl, rfl, rfl, rfl⟩

theorem LeaseRow.SameLease.trans {a b c : LeaseRow} (first : a.SameLease b)
    (second : b.SameLease c) : a.SameLease c where
  leaseId := second.leaseId.trans first.leaseId
  repoIdentity := second.repoIdentity.trans first.repoIdentity
  issue := second.issue.trans first.issue
  session := second.session.trans first.session
  checkoutPath := second.checkoutPath.trans first.checkoutPath
  worktreePath := second.worktreePath.trans first.worktreePath
  branch := second.branch.trans first.branch
  createdAt := second.createdAt.trans first.createdAt

def Settles (before after : LeaseStatus) : Prop :=
  after = before ∨ before = .active ∧ after = .retained ∨ after = .released

theorem Settles.trans {a b c : LeaseStatus} (first : Settles a b) (second : Settles b c) :
    Settles a c := by
  unfold Settles at *
  grind

/-- Every row is edited in place, its status along `moves`, and nothing else changes. -/
def Edits (moves : LeaseStatus → LeaseStatus → Prop) (db db' : LeaseDb) : Prop :=
  db'.scopes = db.scopes ∧ db'.bindings = db.bindings ∧ db'.memberships = db.memberships ∧
    ∃ edit : LeaseRow → LeaseRow, db'.leases = db.leases.map edit ∧
      ∀ row ∈ db.leases, row.SameLease (edit row) ∧ moves row.status (edit row).status

theorem Edits.refl {moves : LeaseStatus → LeaseStatus → Prop} (stay : ∀ a, moves a a)
    (db : LeaseDb) : Edits moves db db :=
  ⟨rfl, rfl, rfl, id, by simp, fun row _ => ⟨.refl row, stay row.status⟩⟩

theorem Edits.trans {moves : LeaseStatus → LeaseStatus → Prop} {db db' db'' : LeaseDb}
    (first : Edits moves db db') (second : Edits moves db' db'')
    (compose : ∀ a b c, moves a b → moves b c → moves a c) : Edits moves db db'' := by
  obtain ⟨scopes, bindings, memberships, edit, rows, moved⟩ := first
  obtain ⟨scopes', bindings', memberships', edit', rows', moved'⟩ := second
  refine ⟨scopes'.trans scopes, bindings'.trans bindings, memberships'.trans memberships,
    edit' ∘ edit, by rw [rows', rows, List.map_map], fun row member => ?_⟩
  have inside : edit row ∈ db'.leases := rows ▸ List.mem_map_of_mem member
  obtain ⟨same, move⟩ := moved row member
  obtain ⟨same', move'⟩ := moved' (edit row) inside
  exact ⟨same.trans same', compose _ _ _ move move'⟩

theorem store_ok {tables : Tables} {db : LeaseDb} (stored : LeaseDb.store tables = .ok db) :
    db.toTables = tables := by
  unfold LeaseDb.store at stored
  split at stored
  · cases stored
    rfl
  · cases stored

theorem statement_ok {fail : String → WorktreeError} {change : Tables → Tables} {db db' : LeaseDb}
    {u : Unit} (run : statement fail change db = .ok (u, db')) :
    db'.toTables = change db.toTables := by
  unfold statement at run
  split at run
  · next stored =>
      cases run
      exact store_ok stored
  · cases run

theorem updateLeases_ok {label : String} {sel : Tables → LeaseRow → Bool}
    {set : LeaseRow → LeaseRow} {db db' : LeaseDb} {n : Nat}
    (run : updateLeases label sel set db = .ok (n, db')) :
    db'.toTables = { db.toTables with leases := update (sel db.toTables) set db.leases } ∧
      n = (db.leases.filter (sel db.toTables)).length := by
  obtain ⟨now, db₁, got, rest⟩ := Tx.bind_ok run
  cases got
  obtain ⟨u, db₂, written, last⟩ := Tx.bind_ok rest
  cases last
  exact ⟨statement_ok written, rfl⟩

theorem updateLeases_edits {moves : LeaseStatus → LeaseStatus → Prop} (stay : ∀ a, moves a a)
    {label : String} {sel : Tables → LeaseRow → Bool} {set : LeaseRow → LeaseRow} {db db' : LeaseDb}
    {n : Nat}
    (writes : ∀ row ∈ db.leases, sel db.toTables row →
      row.SameLease (set row) ∧ moves row.status (set row).status)
    (run : updateLeases label sel set db = .ok (n, db')) : Edits moves db db' := by
  obtain ⟨stored, -⟩ := updateLeases_ok run
  refine ⟨by rw [stored], by rw [stored], by rw [stored],
    fun row => if sel db.toTables row then set row else row, by rw [stored, update], ?_⟩
  intro row member
  by_cases chosen : sel db.toTables row
  · simpa only [chosen, if_true] using writes row member chosen
  · simpa only [chosen] using ⟨.refl row, stay row.status⟩

theorem settles_stay (a : LeaseStatus) : Settles a a := Or.inl rfl

theorem keeps_bind {α β : Type} {tx : LeaseTx α} {f : α → LeaseTx β}
    (first : tx.Keeps (Edits Settles)) (rest : ∀ a, (f a).Keeps (Edits Settles)) :
    (tx >>= f).Keeps (Edits Settles) :=
  Tx.Keeps.bind first rest fun _ _ _ before after =>
    before.trans after fun _ _ _ => Settles.trans

theorem keeps_pure {α : Type} (a : α) : (pure a : LeaseTx α).Keeps (Edits Settles) :=
  Tx.Keeps.pure (Edits.refl settles_stay) a

theorem keeps_read {α : Type} (query : Tables → Except WorktreeError α) :
    (readTables query).Keeps (Edits Settles) :=
  Tx.Keeps.read (Edits.refl settles_stay) _

theorem keeps_tables : tables.Keeps (Edits Settles) := by
  intro db a db' run
  cases run
  exact Edits.refl settles_stay db

theorem keeps_update {label : String} {sel : Tables → LeaseRow → Bool} {set : LeaseRow → LeaseRow}
    (writes : ∀ tables row, sel tables row →
      row.SameLease (set row) ∧ Settles row.status (set row).status) :
    (updateLeases label sel set).Keeps (Edits Settles) :=
  fun _ _ _ run => updateLeases_edits settles_stay (fun row _ => writes _ row) run

theorem keeps_retain {label : String} {sel : Tables → LeaseRow → Bool} {reason : String} {now : Int}
    (active : ∀ tables row, sel tables row → row.isActive) :
    (updateLeases label sel (retain now reason)).Keeps (Edits Settles) := by
  apply keeps_update
  intro tables row chosen
  exact ⟨⟨rfl, rfl, rfl, rfl, rfl, rfl, rfl, rfl⟩,
    Or.inr (Or.inl ⟨LeaseRow.isActive_iff.mp (active tables row chosen), rfl⟩)⟩

theorem keeps_mark {label : String} {sel : Tables → LeaseRow → Bool} {set : LeaseRow → LeaseRow}
    (same : ∀ row : LeaseRow, row.SameLease (set row)) (kept : ∀ row, (set row).status = row.status) :
    (updateLeases label sel set).Keeps (Edits Settles) :=
  keeps_update fun _ row _ => ⟨same row, Or.inl (kept row)⟩

theorem keeps_refreshHeartbeat (leaseId : String) (now : Int) :
    (refreshHeartbeat leaseId now).Keeps (Edits Settles) :=
  keeps_mark (fun _ => ⟨rfl, rfl, rfl, rfl, rfl, rfl, rfl, rfl⟩) fun _ => rfl

theorem keeps_recordReleaseReason (leaseId reason : String) :
    (recordReleaseReason leaseId reason).Keeps (Edits Settles) :=
  keeps_mark (fun _ => ⟨rfl, rfl, rfl, rfl, rfl, rfl, rfl, rfl⟩) fun _ => rfl

theorem keeps_heartbeatActiveLease (leaseId session : String) (now : Int) :
    (heartbeatActiveLease leaseId session now).Keeps (Edits Settles) := by
  unfold heartbeatActiveLease
  apply keeps_bind
  · exact keeps_mark (fun _ => ⟨rfl, rfl, rfl, rfl, rfl, rfl, rfl, rfl⟩) fun _ => rfl
  · exact fun _ => keeps_pure _

theorem keeps_retainActiveLeasesForIssue (identity : String) (issue : Nat) (reason : String)
    (now : Int) : (retainActiveLeasesForIssue identity issue reason now).Keeps (Edits Settles) := by
  apply keeps_retain
  intro tables row chosen
  simp only [Bool.and_eq_true] at chosen
  exact chosen.1.2

theorem keeps_flipStale (staleBefore : Int) (reason : String) (now : Int)
    (recoveryScope : StaleRecoveryScope) (scopes : ScopeMap) (rows : List LeaseRow) :
    (flipStale staleBefore reason now recoveryScope scopes rows).Keeps (Edits Settles) := by
  induction rows with
  | nil => exact keeps_pure []
  | cons row rest ih =>
      rw [flipStale]
      split
      · apply keeps_bind
        · apply keeps_retain
          intro tables row chosen
          simp only [Bool.and_eq_true] at chosen
          exact chosen.1.2
        · exact fun _ => keeps_bind ih fun _ => keeps_pure _
      · exact ih

theorem keeps_retainVerified (identity : String) (scope : LeaseScope) (reason : String) (now : Int)
    (leaseIds : List String) :
    (retainVerified identity scope reason now leaseIds).Keeps (Edits Settles) := by
  induction leaseIds with
  | nil => exact keeps_pure 0
  | cons leaseId rest ih =>
      rw [retainVerified]
      apply keeps_bind
      · apply keeps_retain
        intro tables row chosen
        simp only [Bool.and_eq_true] at chosen
        exact chosen.2
      · exact fun _ => keeps_bind ih fun _ => keeps_pure _

theorem keeps_verifySidecars (scope : LeaseScope) (leaseIds : List String) :
    (verifySidecars scope leaseIds).Keeps (Edits Settles) := by
  induction leaseIds with
  | nil => exact keeps_pure ()
  | cons leaseId rest ih =>
      rw [verifySidecars]
      exact keeps_bind keeps_tables fun _ => keeps_bind (keeps_read _) fun _ => ih

theorem keeps_releaseAbsent (identity : String) (clock : String → Int)
    (targets : List (String × LeaseStatus × String)) :
    (releaseAbsent identity clock targets).Keeps (Edits Settles) := by
  induction targets with
  | nil => exact keeps_pure []
  | cons target rest ih =>
      obtain ⟨leaseId, status, worktreePath⟩ := target
      rw [releaseAbsent]
      apply keeps_bind
      · apply keeps_update
        intro tables row _
        exact ⟨⟨rfl, rfl, rfl, rfl, rfl, rfl, rfl, rfl⟩, Or.inr (Or.inr rfl)⟩
      · exact fun _ => keeps_bind (keeps_read _) fun _ => keeps_bind ih fun _ => keeps_pure _

def SqlOp.inserted : SqlOp → List LeaseRow
  | .insertLease lease | .insertLeaseScoped lease _ _ => [lease.row]
  | _ => []

def SqlOp.isScopedInsert : SqlOp → Bool
  | .insertLeaseScoped .. => true
  | _ => false

def SqlOp.Moves (op : SqlOp) (row : LeaseRow) (after : LeaseStatus) : Prop :=
  match op with
  | .updateStatus leaseId target _ =>
      after = row.status ∨ row.leaseId = leaseId ∧ after = target.status
  | _ => Settles row.status after

theorem Settles.settled {before after : LeaseStatus} (settles : Settles before after)
    (left : before ≠ .active) : after ≠ .active := by
  rcases settles with same | ⟨active, -⟩ | released
  · rwa [same]
  · exact absurd active left
  · rw [released]
    exact fun active => by cases active

theorem SqlOp.Moves.settled {op : SqlOp} {row : LeaseRow} {after : LeaseStatus}
    (moves : op.Moves row after) (left : row.status ≠ .active) : after ≠ .active := by
  cases op with
  | updateStatus leaseId target now =>
      rcases moves with same | ⟨-, written⟩
      · rwa [same]
      · rw [written]
        cases target <;> exact fun active => by cases active
  | _ => exact Settles.settled moves left

/-- What a successful statement or transaction does to the leases: it edits the rows in place,
never their identity, and appends what it inserts. -/
structure SqlOp.Writes (op : SqlOp) (db db' : LeaseDb) : Prop where
  leases : ∃ edit : LeaseRow → LeaseRow, db'.leases = db.leases.map edit ++ op.inserted ∧
    ∀ row ∈ db.leases, row.SameLease (edit row) ∧ op.Moves row (edit row).status
  scopes : !op.isScopedInsert → db'.scopes = db.scopes

theorem active_rows {op : SqlOp} {db db' : LeaseDb} (writes : op.Writes db db') {row' : LeaseRow}
    (member : row' ∈ db'.leases) (active : row'.status = .active) :
    (∃ row ∈ db.leases, row.status = .active ∧ row.SameLease row') ∨ row' ∈ op.inserted := by
  obtain ⟨edit, rows, moved⟩ := writes.leases
  rw [rows, List.mem_append] at member
  rcases member with edited | fresh
  · obtain ⟨row, old, rfl⟩ := List.mem_map.mp edited
    obtain ⟨same, moves⟩ := moved row old
    have active' : row.status = .active := by
      by_contra left
      exact moves.settled left active
    exact Or.inl ⟨row, old, active', same⟩
  · exact Or.inr fresh

theorem inserted_unique {op : SqlOp} {row row' : LeaseRow} (member : row ∈ op.inserted)
    (member' : row' ∈ op.inserted) : row = row' := by
  cases op with
  | insertLease lease =>
      exact (List.mem_singleton.mp member).trans (List.mem_singleton.mp member').symm
  | insertLeaseScoped lease scope repoKey =>
      exact (List.mem_singleton.mp member).trans (List.mem_singleton.mp member').symm
  | _ => cases member

theorem Edits.writes {op : SqlOp} {db db' : LeaseDb} (edits : Edits Settles db db')
    (nothing : op.inserted = []) (guarded : ∀ row after, Settles row.status after → op.Moves row after) :
    op.Writes db db' := by
  obtain ⟨scopes, -, -, edit, rows, moved⟩ := edits
  refine ⟨⟨edit, by rw [rows, nothing, List.append_nil], fun row member => ?_⟩, fun _ => scopes⟩
  obtain ⟨same, move⟩ := moved row member
  exact ⟨same, guarded row _ move⟩

theorem insertLeaseOn_writes {lease : NewLease} {db db' : LeaseDb} {u : Unit}
    (run : insertLeaseOn lease db = .ok (u, db')) :
    db'.toTables = { db.toTables with leases := db.leases ++ [lease.row] } :=
  statement_ok run

theorem readTables_ok {α : Type} {query : Tables → Except WorktreeError α} {db db' : LeaseDb}
    {a : α} (run : readTables query db = .ok (a, db')) :
    query db.toTables = .ok a ∧ db' = db := by
  unfold readTables Tx.read at run
  obtain ⟨b, answer, same⟩ := Fallible.map_eq_ok.mp run
  cases same
  exact ⟨answer, rfl⟩

section Ops
variable {urls : UrlLibrary}

theorem keeps_recoverStale (identity : String) (repoKey : Option String) (staleBefore : Int)
    (reason : String) (now : Int) (recoveryScope : StaleRecoveryScope) :
    (recoverStaleActiveLeasesForScope urls identity repoKey staleBefore reason now
      recoveryScope).Keeps (Edits Settles) :=
  keeps_bind (keeps_read _) fun _ => keeps_bind keeps_tables fun _ =>
    keeps_bind (keeps_read _) fun _ => keeps_flipStale _ _ _ _ _ _

theorem keeps_retainForScopeIds (resolve : String → Directory) (identity : String)
    (repoKey : Option String) (scope : LeaseScope) (leaseIds : List String)
    (approved : ScopedRetentionProof) (reason : String) (now : Int) :
    (retainActiveLeasesForScopeIds urls resolve identity repoKey scope leaseIds approved reason
      now).Keeps (Edits Settles) :=
  keeps_bind keeps_tables fun _ => keeps_bind (keeps_read _) fun _ =>
    keeps_bind (keeps_read _) fun _ => keeps_bind (keeps_verifySidecars scope leaseIds)
      fun _ => keeps_retainVerified identity scope reason now leaseIds

theorem keeps_releaseAbsentLeasesProven (resolve : String → Directory) (probe : String → PathProbe)
    (clock : String → Int) (identity : String) (repoKey : Option String)
    (targets : List (String × LeaseStatus × String)) (approved : ScopedRetentionProof) :
    (releaseAbsentLeasesProven urls resolve probe clock identity repoKey targets approved).Keeps
      (Edits Settles) :=
  keeps_bind keeps_tables fun _ => keeps_bind (keeps_read _) fun _ =>
    keeps_bind (keeps_read _) fun _ => keeps_bind (keeps_read _) fun _ =>
      keeps_bind (keeps_read _) fun _ => keeps_releaseAbsent identity clock targets

theorem insertLeaseScoped_writes {lease : NewLease} {scope : LeaseScope} {repoKey : Option String}
    {db db' : LeaseDb} {u : Unit}
    (run : insertLeaseScoped urls lease scope repoKey db = .ok (u, db')) :
    db'.leases = db.leases ++ [lease.row] := by
  obtain ⟨_, db₁, matched, rest₁⟩ := Tx.bind_ok run
  obtain ⟨_, db₂, free, rest₂⟩ := Tx.bind_ok rest₁
  obtain ⟨_, db₃, proven, rest₃⟩ := Tx.bind_ok rest₂
  obtain ⟨_, db₄, inserted, sidecar⟩ := Tx.bind_ok rest₃
  have same : db₃ = db :=
    (readTables_ok proven).2.trans ((readTables_ok free).2.trans (readTables_ok matched).2)
  rw [statement_ok sidecar, insertLeaseOn_writes inserted, same]

theorem tx_writes {op : SqlOp} {db db' : LeaseDb} {answer : op.Ret}
    (run : op.tx urls db = .ok (answer, db')) : op.Writes db db' := by
  have unchanged : db' = db → op.inserted = [] →
      (∀ row after, Settles row.status after → op.Moves row after) → op.Writes db db' := by
    rintro rfl nothing guarded
    exact (Edits.refl settles_stay _).writes nothing guarded
  cases op with
  | findActiveLease identity issue session =>
      rw [SqlOp.tx] at run
      exact unchanged (readTables_ok run).2 rfl fun _ _ => id
  | findActiveLeaseForScope identity session scope =>
      rw [SqlOp.tx] at run
      exact unchanged (readTables_ok run).2 rfl fun _ _ => id
  | findActiveLeaseForPath identity path =>
      rw [SqlOp.tx] at run
      exact unchanged (readTables_ok run).2 rfl fun _ _ => id
  | ensureNoUnscopedCollision identity issue =>
      rw [SqlOp.tx] at run
      exact unchanged (readTables_ok run).2 rfl fun _ _ => id
  | loadLease leaseId =>
      rw [SqlOp.tx] at run
      exact unchanged (readTables_ok run).2 rfl fun _ _ => id
  | listAllForRepo identity =>
      rw [SqlOp.tx] at run
      exact unchanged (readTables_ok run).2 rfl fun _ _ => id
  | scopeMap identity repoKey =>
      rw [SqlOp.tx] at run
      exact unchanged (readTables_ok run).2 rfl fun _ _ => id
  | insertLease lease =>
      rw [SqlOp.tx] at run
      have tables := insertLeaseOn_writes run
      refine ⟨⟨id, by rw [tables, List.map_id]; rfl, fun row _ => ⟨.refl row, settles_stay _⟩⟩, ?_⟩
      intro _
      rw [tables]
  | insertLeaseScoped lease scope repoKey =>
      rw [SqlOp.tx] at run
      refine ⟨⟨id, ?_, fun row _ => ⟨.refl row, settles_stay _⟩⟩, fun plain => by cases plain⟩
      rw [insertLeaseScoped_writes run, List.map_id]
      rfl
  | refreshHeartbeat leaseId now =>
      exact (keeps_refreshHeartbeat leaseId now _ _ _ run).writes rfl fun _ _ => id
  | heartbeatActiveLease leaseId session now =>
      exact (keeps_heartbeatActiveLease leaseId session now _ _ _ run).writes rfl fun _ _ => id
  | updateStatus leaseId target now =>
      rw [SqlOp.tx] at run
      obtain ⟨tables, -⟩ := updateLeases_ok run
      refine ⟨⟨fun row => if row.leaseId == leaseId then
          { row with status := target.status, heartbeatAt := now } else row, ?_, ?_⟩, ?_⟩
      · rw [tables]
        simp [SqlOp.inserted, update]
      · intro row _
        beta_reduce
        by_cases chosen : row.leaseId = leaseId
        · rw [if_pos (beq_iff_eq.mpr chosen)]
          exact ⟨⟨rfl, rfl, rfl, rfl, rfl, rfl, rfl, rfl⟩, Or.inr ⟨chosen, rfl⟩⟩
        · rw [if_neg (by simpa using chosen)]
          exact ⟨.refl row, Or.inl rfl⟩
      · intro _
        rw [tables]
  | recordReleaseReason leaseId reason =>
      exact (keeps_recordReleaseReason leaseId reason _ _ _ run).writes rfl fun _ _ => id
  | recoverStale identity repoKey staleBefore reason now recoveryScope =>
      exact (keeps_recoverStale _ _ _ _ _ _ _ _ _ run).writes rfl fun _ _ => id
  | retainForIssue identity issue reason now =>
      exact (keeps_retainActiveLeasesForIssue identity issue reason now _ _ _ run).writes rfl
        fun _ _ => id
  | retainForScopeIds resolve identity repoKey scope leaseIds approved reason now =>
      exact (keeps_retainForScopeIds _ _ _ _ _ _ _ _ _ _ _ run).writes rfl fun _ _ => id
  | releaseAbsent resolve probe clock identity repoKey targets approved =>
      exact (keeps_releaseAbsentLeasesProven _ _ _ _ _ _ _ _ _ _ run).writes rfl fun _ _ => id
  | bindTask binding membership =>
      rw [SqlOp.tx] at run
      have tables := statement_ok run
      refine ⟨⟨id, by rw [tables, List.map_id]; exact (List.append_nil _).symm,
        fun row _ => ⟨.refl row, settles_stay _⟩⟩, ?_⟩
      intro _
      rw [tables]

end Ops

end Phasegent.Lease
