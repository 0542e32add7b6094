import Mathlib
import Phasegent.Interleaving.Traces
import Phasegent.Lease.Commands
import Phasegent.Lease.Sidecars

namespace Phasegent.Lease
open Fallible Sql Interleaving

section Retention
variable {urls : UrlLibrary} {resolve : String → Directory} {identity : String}
  {repoKey : Option String} {scope : LeaseScope} {leaseIds : List String}
  {approved : ScopedRetentionProof} {reason : String} {now : Int} {db db' : LeaseDb} {n : Nat}

def verified (identity : String) (scope : LeaseScope) (leaseIds : List String) (row : LeaseRow) :
    Bool :=
  row.repoIdentity == identity && leaseIds.contains row.leaseId &&
    row.issue == asI64 scope.externalId && row.isActive

theorem verified_iff {row : LeaseRow} :
    verified identity scope leaseIds row ↔ row.repoIdentity = identity ∧ row.leaseId ∈ leaseIds ∧
      row.issue = scope.externalId ∧ row.status = .active := by
  rw [verified, scope.asI64_externalId]
  simp [and_assoc]

theorem retainVerified_ok (run : retainVerified identity scope reason now leaseIds db = .ok (n, db')) :
    db'.toTables = { db.toTables with
      leases := update (verified identity scope leaseIds) (retain now reason) db.leases } ∧
      n = (db.leases.filter (verified identity scope leaseIds)).length := by
  induction leaseIds generalizing db n with
  | nil =>
      cases run
      have idle : verified identity scope [] = fun _ => false := by
        funext row
        simp [verified]
      simp [update, idle]
  | cons leaseId rest ih =>
      rw [retainVerified] at run
      obtain ⟨k, db₁, first, run⟩ := Tx.bind_ok run
      obtain ⟨m, db₂, others, last⟩ := Tx.bind_ok run
      cases last
      obtain ⟨written, hit⟩ := updateLeases_ok first
      obtain ⟨written', hit'⟩ := ih others
      have done : ∀ row, verified identity scope rest (retain now reason row) = false := by
        intro row
        simp [verified, retain, LeaseRow.isActive]
      have either : verified identity scope (leaseId :: rest) = fun row =>
          (row.repoIdentity == identity && row.leaseId == leaseId &&
            row.issue == asI64 scope.externalId && row.isActive) ||
            verified identity scope rest row := by
        funext row
        simp only [verified, List.contains_cons]
        cases row.repoIdentity == identity <;> cases row.leaseId == leaseId <;>
          cases row.issue == asI64 scope.externalId <;> cases row.isActive <;> simp
      rw [either]
      constructor
      · rw [written', written, update_update done]
      · rw [hit, hit', written]
        exact length_filter_update done db.leases

theorem verifySidecars_ok {u : Unit} (run : verifySidecars scope leaseIds db = .ok (u, db')) :
    db' = db ∧ ∀ leaseId ∈ leaseIds, ∃ sidecar ∈ db.scopes, sidecar.leaseId = leaseId := by
  induction leaseIds generalizing u with
  | nil =>
      cases run
      simp
  | cons leaseId rest ih =>
      rw [verifySidecars] at run
      obtain ⟨stored, db₁, read, run⟩ := Tx.bind_ok run
      cases read
      obtain ⟨_, db₂, proven, run⟩ := Tx.bind_ok run
      obtain ⟨single, same⟩ := readTables_ok proven
      rw [same] at run
      obtain ⟨kept, others⟩ := ih run
      refine ⟨kept, fun other member => ?_⟩
      rcases List.mem_cons.mp member with rfl | later
      · rw [refuse_eq_ok, not_not] at single
        obtain ⟨sidecar, filtered⟩ := List.exists_mem_of_length_pos (single ▸ Nat.one_pos)
        obtain ⟨beside, names⟩ := List.mem_filter.mp filtered
        simp only [Bool.and_eq_true, beq_iff_eq] at names
        exact ⟨sidecar, beside, names.1.1.1⟩
      · exact others other later

def pickedIds (scope : LeaseScope) (rows : List LeaseRow) (scopes : ScopeMap) : List String :=
  (rows.filter fun row => row.isActive && scopes.lookup row.leaseId == some scope).map (·.leaseId)

theorem mem_pickedIds {rows : List LeaseRow} {scopes : ScopeMap} {leaseId : String} :
    leaseId ∈ pickedIds scope rows scopes ↔ ∃ row ∈ rows, row.leaseId = leaseId ∧
      row.status = .active ∧ scopes.lookup row.leaseId = some scope := by
  simp only [pickedIds, List.mem_map, List.mem_filter, Bool.and_eq_true, beq_iff_eq,
    LeaseRow.isActive_iff]
  constructor
  · rintro ⟨row, ⟨member, active, found⟩, named⟩
    exact ⟨row, member, named, active, found⟩
  · rintro ⟨row, member, named, active, found⟩
    exact ⟨row, ⟨member, active, found⟩, named⟩

variable {resolve₁ resolve₂ : String → Directory} {rows₁ : List LeaseRow} {scopes₁ scopes : ScopeMap}

theorem picked_iff_carries
    (mapped : scopeMapForConnectionWithKey urls db.toTables identity repoKey = .ok scopes)
    (agreed : scopedRetentionProof resolve₂ scope.externalId (repoRows db.toTables identity) scopes =
      scopedRetentionProof resolve₁ scope.externalId rows₁ scopes₁)
    (sidecars : ∀ leaseId ∈ pickedIds scope rows₁ scopes₁,
      ∃ sidecar ∈ db.scopes, sidecar.leaseId = leaseId)
    {row : LeaseRow} (member : row ∈ db.leases) (ours : row.repoIdentity = identity)
    (active : row.status = .active) :
    row.leaseId ∈ pickedIds scope rows₁ scopes₁ ∧ row.issue = scope.externalId ↔
      Carries urls db.toTables repoKey row scope := by
  have listed : row ∈ repoRows db.toTables identity := by
    rw [repoRows, mem_orderDesc]
    exact List.mem_filter.mpr ⟨member, beq_iff_eq.mpr ours⟩
  -- A row of the issue with a scope is in the proof, hence in the approved one.
  have before : row.issue = scope.externalId → (scopes.lookup row.leaseId).isSome →
      ∃ row₁ ∈ rows₁, row₁.leaseId = row.leaseId ∧ row₁.status = row.status ∧
        (scopes₁.lookup row₁.leaseId).map ScopedScopeProjection.of =
          (scopes.lookup row.leaseId).map ScopedScopeProjection.of := by
    intro sameIssue hasScope
    have number : row.issueNumber = scope.externalId := by
      rw [LeaseRow.issueNumber, sameIssue, Int.toNat_natCast]
    have inside : memberOf resolve₂ scopes row ∈ _ :=
      scopedRetentionProof_mem listed number hasScope
    rw [agreed] at inside
    obtain ⟨row₁, member₁, same⟩ := scopedRetentionProof_members inside
    simp only [memberOf, ScopedRetentionMember.mk.injEq] at same
    exact ⟨row₁, member₁, same.1, same.2.2.1, same.2.2.2.2⟩
  rw [← lookup_iff_carries mapped member ours]
  constructor
  · rintro ⟨picked, sameIssue⟩
    obtain ⟨sidecar, beside, names⟩ := sidecars row.leaseId picked
    obtain ⟨row', -, named, -, found⟩ := mem_pickedIds.mp picked
    obtain ⟨row₁, -, named₁, -, sameScope⟩ :=
      before sameIssue (lookup_of_sidecar mapped member ours beside names)
    rw [named₁, ← named, found, named] at sameScope
    obtain ⟨scope', answer, same⟩ := Option.map_eq_some_iff.mp sameScope.symm
    rw [answer, ScopedScopeProjection.of_inj same]
  · intro answer
    obtain ⟨sidecar, -, -, decoded⟩ := (lookup_iff_carries mapped member ours).mp answer
    have sameIssue := scopeOfSidecar_ok decoded
    obtain ⟨row₁, member₁, named₁, sameStatus, sameScope⟩ :=
      before sameIssue (Option.isSome_iff_exists.mpr ⟨scope, answer⟩)
    rw [answer] at sameScope
    obtain ⟨scope', answer₁, same⟩ := Option.map_eq_some_iff.mp sameScope
    rw [ScopedScopeProjection.of_inj same] at answer₁
    exact ⟨mem_pickedIds.mpr ⟨row₁, member₁, named₁, sameStatus.trans active, answer₁⟩, sameIssue⟩

def carrying (urls : UrlLibrary) (identity : String) (repoKey : Option String) (scope : LeaseScope)
    (db : LeaseDb) (row : LeaseRow) : Bool :=
  decide (row.repoIdentity = identity ∧ row.status = .active ∧
    Carries urls db.toTables repoKey row scope)

/-- Exactly the active rows of the repository that carry the scope are retained, `n` of them. -/
structure RetainsScope (urls : UrlLibrary) (identity : String) (repoKey : Option String)
    (scope : LeaseScope) (reason : String) (now : Int) (n : Nat) (db db' : LeaseDb) : Prop where
  rows : db'.leases = update (carrying urls identity repoKey scope db) (retain now reason) db.leases
  count : n = (db.leases.filter (carrying urls identity repoKey scope db)).length
  others : db'.scopes = db.scopes ∧ db'.bindings = db.bindings ∧ db'.memberships = db.memberships
  none : ∀ row ∈ db'.leases, carrying urls identity repoKey scope db' row = false

theorem retainActiveLeasesForScopeIds_ok
    (run : retainActiveLeasesForScopeIds urls resolve₂ identity repoKey scope
      (pickedIds scope rows₁ scopes₁) (scopedRetentionProof resolve₁ scope.externalId rows₁ scopes₁)
      reason now db = .ok (n, db')) :
    RetainsScope urls identity repoKey scope reason now n db db' := by
  obtain ⟨stored, db₀, read, run₁⟩ := Tx.bind_ok run
  cases read
  obtain ⟨scopes, db₁, mapping, run₂⟩ := Tx.bind_ok run₁
  obtain ⟨mapped, rfl⟩ := readTables_ok mapping
  obtain ⟨_, db₂, agreeing, run₃⟩ := Tx.bind_ok run₂
  obtain ⟨agreed, rfl⟩ := readTables_ok agreeing
  rw [refuse_eq_ok, not_not] at agreed
  obtain ⟨_, db₃, checking, run₄⟩ := Tx.bind_ok run₃
  obtain ⟨rfl, sidecars⟩ := verifySidecars_ok checking
  obtain ⟨written, count⟩ := retainVerified_ok run₄
  have chosen : ∀ row ∈ db₃.leases, verified identity scope (pickedIds scope rows₁ scopes₁) row =
      carrying urls identity repoKey scope db₃ row := by
    intro row member
    rw [carrying, ← Bool.decide_coe (verified identity scope _ row), decide_eq_decide, verified_iff]
    constructor
    · rintro ⟨ours, picked, sameIssue, active⟩
      exact ⟨ours, active,
        (picked_iff_carries mapped agreed sidecars member ours active).mp ⟨picked, sameIssue⟩⟩
    · rintro ⟨ours, active, carries⟩
      obtain ⟨picked, sameIssue⟩ :=
        (picked_iff_carries mapped agreed sidecars member ours active).mpr carries
      exact ⟨ours, picked, sameIssue, active⟩
  have rows : db'.leases =
      update (carrying urls identity repoKey scope db₃) (retain now reason) db₃.leases := by
    rw [written]
    exact List.map_congr_left fun row member => by rw [chosen row member]
  have others : db'.scopes = db₃.scopes ∧ db'.bindings = db₃.bindings ∧
      db'.memberships = db₃.memberships := by
    rw [written]
    exact ⟨rfl, rfl, rfl⟩
  refine ⟨rows, ?_, others, ?_⟩
  · rw [count, List.filter_congr chosen]
  · intro row' member
    rw [rows] at member
    obtain ⟨row, listed, same⟩ := mem_update.mp member
    rw [carrying, decide_eq_false_iff_not]
    rintro ⟨ours, active, carries⟩
    split at same
    · rw [← same] at active
      cases active
    · next left =>
        rw [same] at left
        rw [carries_congr others.1 others.2.1 others.2.2] at carries
        exact left (decide_eq_true ⟨ours, active, carries⟩)

end Retention

section Runs
variable {F : Type} {urls : UrlLibrary} {outside : F → (op : LeaseOp) → op.Ret → F → Prop}
  {identity : String} {repoKey : Option String} {scope : LeaseScope} {reason : String} {now : Int}

def Still (events : List (Event (LeaseDb × F) LeaseOp LeaseOp.Ret)) : Prop :=
  ∀ event ∈ events, event.after.1 = event.before.1

def Retained (urls : UrlLibrary) (identity : String) (repoKey : Option String) (scope : LeaseScope)
    (reason : String) (now : Int) (acts : List (Event (LeaseDb × F) LeaseOp LeaseOp.Ret)) :
    Except WorktreeError Nat → Prop
  | .ok n => ∃ reads write, acts = reads ++ [write] ∧ Still reads ∧
      RetainsScope urls identity repoKey scope reason now n write.before.1 write.after.1
  | .error _ => Still acts

theorem Retained.cons {event : Event (LeaseDb × F) LeaseOp LeaseOp.Ret}
    {acts : List (Event (LeaseDb × F) LeaseOp LeaseOp.Ret)} {result : Except WorktreeError Nat}
    (still : event.after.1 = event.before.1)
    (rest : Retained urls identity repoKey scope reason now acts result) :
    Retained urls identity repoKey scope reason now (event :: acts) result := by
  cases result with
  | ok n =>
      obtain ⟨reads, write, rfl, stills, retains⟩ := rest
      exact ⟨event :: reads, write, rfl, List.forall_mem_cons.mpr ⟨still, stills⟩, retains⟩
  | error e => exact List.forall_mem_cons.mpr ⟨still, rest⟩

theorem retained_failed {event : Event (LeaseDb × F) LeaseOp LeaseOp.Ret} {e : WorktreeError}
    (still : event.after.1 = event.before.1) :
    Retained urls identity repoKey scope reason now [event] (.error e) :=
  List.forall_mem_cons.mpr ⟨still, fun _ member => by cases member⟩

section Peel
variable {acts : List (Event (LeaseDb × F) LeaseOp LeaseOp.Ret)} {result : Except WorktreeError Nat}

theorem Retained.read {op : SqlOp} {f : op.Ret → LeaseM Nat}
    (genuine : Genuine (leaseWorld urls outside) acts)
    (reads : ∀ a db db', op.tx urls db = .ok (a, db') → db' = db)
    (follows : Follows (sql op >>= f).run acts (.done result))
    (rest : ∀ a acts', Genuine (leaseWorld urls outside) acts' →
      Follows (f a).run acts' (.done result) →
      Retained urls identity repoKey scope reason now acts' result) :
    Retained urls identity repoKey scope reason now acts result := by
  rcases follows_sql follows with ⟨i, a, s, s', acts', rfl, following⟩ | ⟨i, e, s, s', rfl, rfl⟩
  · obtain ⟨step, genuine'⟩ := List.forall_mem_cons.mp genuine
    exact Retained.cons (reads a _ _ (LeaseStep.sql_ok step)) (rest a acts' genuine' following)
  · exact retained_failed (LeaseStep.failed (genuine _ (List.mem_singleton_self _)))

theorem Retained.ask {op : LeaseOp} {f : op.Ret → LeaseM Nat}
    (genuine : Genuine (leaseWorld urls outside) acts)
    (follows : Follows (ask op >>= f).run acts (.done result)) (external : External op)
    (rest : ∀ a acts', Genuine (leaseWorld urls outside) acts' →
      Follows (f a).run acts' (.done result) →
      Retained urls identity repoKey scope reason now acts' result) :
    Retained urls identity repoKey scope reason now acts result := by
  obtain ⟨i, a, s, s', acts', rfl, following⟩ := follows_ask follows
  obtain ⟨step, genuine'⟩ := List.forall_mem_cons.mp genuine
  have still : s'.1 = s.1 := by
    apply LeaseStep.unchanged step
    rintro query _ _ rfl
    cases external
  exact Retained.cons still (rest a acts' genuine' following)

end Peel

theorem retention_trace {acts : List (Event (LeaseDb × F) LeaseOp LeaseOp.Ret)}
    {result : Except WorktreeError Nat} (genuine : Genuine (leaseWorld urls outside) acts)
    (follows : Follows (retainActiveLeasesForScope identity repoKey scope reason now).run acts
      (.done result)) : Retained urls identity repoKey scope reason now acts result := by
  apply Retained.read genuine _ follows
  · intro rows acts₁ genuine₁ follows₁
    apply Retained.read genuine₁ _ follows₁
    · intro scopes acts₂ genuine₂ follows₂
      apply Retained.ask genuine₂ follows₂ rfl
      intro resolve acts₃ genuine₃ follows₃
      apply Retained.ask genuine₃ follows₃ rfl
      intro again acts₄ genuine₄ follows₄
      cases follows₄ with
      | @cons _ _ i answer s s' _ _ following =>
          obtain ⟨rfl, rfl⟩ := follows_done following
          have step := genuine₄ _ List.mem_cons_self
          cases answer with
          | error e => exact retained_failed step.failed
          | ok n =>
              refine ⟨[], _, rfl, fun _ member => (by cases member), ?_⟩
              exact retainActiveLeasesForScopeIds_ok step.sql_ok
    · intro a db db' run
      rw [SqlOp.tx] at run
      exact (readTables_ok run).2
  · intro a db db' run
    rw [SqlOp.tx] at run
    exact (readTables_ok run).2

theorem retention_exact {c₀ : Config (LeaseDb × F) LeaseOp LeaseOp.Ret (Except WorktreeError Nat)}
    {c : Config ((LeaseDb × F) × List (Event (LeaseDb × F) LeaseOp LeaseOp.Ret)) LeaseOp LeaseOp.Ret
      (Except WorktreeError Nat)}
    {i : Pid}
    (asked : c₀.procs i =
      some (retainActiveLeasesForScope identity repoKey scope reason now).run)
    (run : Run (leaseWorld urls outside).record c₀.record c) {result : Except WorktreeError Nat}
    (finished : c.result i = some result) :
    Retained urls identity repoKey scope reason now (actsOf i c.shared.2) result := by
  obtain ⟨p₀, started, follows⟩ := run.follows (Config.result_eq_some.mp finished)
  obtain rfl : _ = p₀ := Option.some.inj (asked.symm.trans started)
  exact retention_trace (run.genuine.actsOf i) follows

end Runs

section Close

def scopedStore : LeaseDb where
  leases := [heldLease, { heldLease with
    leaseId := "lease-64-1", session := "other", worktreePath := "/cache/worktrees/1" }]
  scopes := [⟨"lease-64-1", "redmine", "web", 7, none, 100⟩]
  bindings := []
  memberships := []
  valid := by constructor <;> decide

-- A heartbeat arrives between the reads of the retention and its transaction.
def closing : Config (LeaseDb × Nat) LeaseOp LeaseOp.Ret (Except WorktreeError Nat) where
  shared := (scopedStore, 100)
  procs
    | 0 => some (retainActiveLeasesForScope "/repo/.git" none redmineScope "issue closed" 300).run
    | 1 => some (sql (.refreshHeartbeat "lease-64-1" 200)).run
    | _ => none

def closed : Config ((LeaseDb × Nat) × List (Event (LeaseDb × Nat) LeaseOp LeaseOp.Ret)) LeaseOp
    LeaseOp.Ret (Except WorktreeError Nat) :=
  closing.record.replay (recording (perform forgejoTest sandbox)) [0, 0, 0, 1, 0, 0]

theorem close_retains_scope :
    closed.result 0 = some (.ok 1) ∧
      Retained forgejoTest "/repo/.git" none redmineScope "issue closed" 300
        (actsOf 0 closed.shared.2) (.ok 1) := by
  have finished : closed.result 0 = some (.ok 1) := by
    decide
  have run : Run (leaseWorld forgejoTest (answered sandbox)).record closing.record closed := by
    unfold closed
    exact .replay (recording_sound (perform_sound forgejoTest sandbox)) _ _
  exact ⟨finished, retention_exact rfl run finished⟩

end Close

end Phasegent.Lease
