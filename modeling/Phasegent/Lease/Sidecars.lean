import Phasegent.Lease.Changes
import Phasegent.Lease.Evidence

namespace Phasegent.Lease
open Fallible Sql Phasegent.Task

section Carries
variable (urls : UrlLibrary) (tables : Tables) (repoKey : Option String)

def Carries (row : LeaseRow) (scope : LeaseScope) : Prop :=
  ∃ sidecar ∈ tables.scopes, sidecar.leaseId = row.leaseId ∧
    scopeOfSidecar urls tables repoKey sidecar row.issue = .ok scope

instance (row : LeaseRow) (scope : LeaseScope) :
    Decidable (Carries urls tables repoKey row scope) :=
  inferInstanceAs (Decidable (∃ sidecar ∈ tables.scopes, _ ∧ _))

variable {urls tables repoKey}

theorem carries_congr {tables' : Tables} (scopes : tables'.scopes = tables.scopes)
    (bindings : tables'.bindings = tables.bindings)
    (memberships : tables'.memberships = tables.memberships) {row : LeaseRow} {scope : LeaseScope} :
    Carries urls tables' repoKey row scope ↔ Carries urls tables repoKey row scope := by
  have same : tables' = { tables with leases := tables'.leases } := by
    cases tables
    cases tables'
    simp_all
  rw [same]
  exact Iff.rfl

theorem LeaseScope.validated_ok {provider project : String} {externalId : Nat} {scope : LeaseScope}
    (valid : LeaseScope.validated urls provider project externalId = .ok scope) :
    scope.externalId = externalId := by
  unfold LeaseScope.validated at valid
  extract_lets refused at valid
  split at valid
  · simp only [bind_eq_ok] at valid
    obtain ⟨-, -, -, -, -, -, built⟩ := valid
    cases built
    rfl
  · cases valid

theorem LeaseScope.forTask_ok {provider project inst : String} {externalId : Nat} {taskId : Int}
    {scope : LeaseScope}
    (valid : LeaseScope.forTask urls provider project externalId taskId inst = .ok scope) :
    scope.externalId = externalId := by
  simp only [LeaseScope.forTask, bind_eq_ok] at valid
  obtain ⟨plain, validated, -, -, -, -, built⟩ := valid
  have kept := LeaseScope.validated_ok validated
  cases built
  exact kept

theorem scopeOfSidecar_ok {sidecar : ScopeRow} {issue : Int} {scope : LeaseScope}
    (decoded : scopeOfSidecar urls tables repoKey sidecar issue = .ok scope) :
    issue = scope.externalId := by
  simp only [scopeOfSidecar, bind_eq_ok, refuse_eq_ok, not_not] at decoded
  obtain ⟨-, sameIssue, decoded⟩ := decoded
  have number : scope.externalId = sidecar.externalId.toNat := by
    split at decoded
    · simp only [bind_eq_ok] at decoded
      obtain ⟨key, -, built⟩ := decoded
      exact LeaseScope.forTask_ok built
    · exact LeaseScope.validated_ok decoded
  have positive := scope.range.1
  omega

def Decodes (urls : UrlLibrary) (tables : Tables) (repoKey : Option String)
    (pair : ScopeRow × LeaseRow) (entry : String × LeaseScope) : Prop :=
  pair.1.leaseId = entry.1 ∧
    scopeOfSidecar urls tables repoKey pair.1 pair.2.issue = .ok entry.2

theorem decodeSidecars_ok {pairs : List (ScopeRow × LeaseRow)} {scopes : ScopeMap}
    (decoded : decodeSidecars urls tables repoKey pairs = .ok scopes) :
    (∀ pair ∈ pairs, ∃ entry ∈ scopes, Decodes urls tables repoKey pair entry) ∧
      ∀ entry ∈ scopes, ∃ pair ∈ pairs, Decodes urls tables repoKey pair entry := by
  induction pairs generalizing scopes with
  | nil =>
      cases decoded
      simp
  | cons pair rest ih =>
      simp only [decodeSidecars, bind_eq_ok] at decoded
      obtain ⟨scope, first, others, decodedRest, built⟩ := decoded
      cases built
      obtain ⟨forth, back⟩ := ih decodedRest
      constructor
      · intro other member
        rcases List.mem_cons.mp member with rfl | later
        · exact ⟨_, List.mem_cons_self, rfl, first⟩
        · obtain ⟨entry, listed, decodes⟩ := forth other later
          exact ⟨entry, List.mem_cons_of_mem _ listed, decodes⟩
      · intro entry member
        rcases List.mem_cons.mp member with rfl | later
        · exact ⟨pair, List.mem_cons_self, rfl, first⟩
        · obtain ⟨other, listed, decodes⟩ := back entry later
          exact ⟨other, List.mem_cons_of_mem _ listed, decodes⟩

theorem mem_joinedSidecars {identity : String} {sidecar : ScopeRow} {row : LeaseRow} :
    (sidecar, row) ∈ joinedSidecars tables identity ↔ sidecar ∈ tables.scopes ∧
      row ∈ tables.leases ∧ row.leaseId = sidecar.leaseId ∧ row.repoIdentity = identity := by
  simp only [joinedSidecars, List.mem_flatMap, List.mem_map, List.mem_filter, Bool.and_eq_true,
    beq_iff_eq, Prod.mk.injEq]
  constructor
  · rintro ⟨_, member, _, ⟨listed, same⟩, rfl, rfl⟩
    exact ⟨member, listed, same⟩
  · rintro ⟨member, listed, same⟩
    exact ⟨sidecar, member, row, ⟨listed, same⟩, rfl, rfl⟩

theorem lookup_mem {scopes : ScopeMap} {leaseId : String} {scope : LeaseScope}
    (found : scopes.lookup leaseId = some scope) : (leaseId, scope) ∈ scopes := by
  obtain ⟨before, after, split, -⟩ := List.lookup_eq_some_iff.mp found
  rw [split]
  exact List.mem_append_right _ List.mem_cons_self

theorem lookup_isSome {scopes : ScopeMap} {leaseId : String} {scope : LeaseScope}
    (listed : (leaseId, scope) ∈ scopes) : (scopes.lookup leaseId).isSome := by
  by_contra missing
  rw [Option.not_isSome_iff_eq_none, List.lookup_eq_none_iff] at missing
  simpa using missing _ listed

section Map
variable {db : LeaseDb} {identity : String} {scopes : ScopeMap} {row : LeaseRow}

theorem sidecar_unique {a b : ScopeRow} (first : a ∈ db.scopes) (second : b ∈ db.scopes)
    (same : a.leaseId = b.leaseId) : a = b :=
  List.inj_on_of_nodup_map db.valid.scopeIds first second same

theorem lookup_of_sidecar
    (mapped : scopeMapForConnectionWithKey urls db.toTables identity repoKey = .ok scopes)
    (member : row ∈ db.leases) (ours : row.repoIdentity = identity) {sidecar : ScopeRow}
    (beside : sidecar ∈ db.scopes) (names : sidecar.leaseId = row.leaseId) :
    (scopes.lookup row.leaseId).isSome := by
  obtain ⟨⟨leaseId, scope⟩, listed, same, -⟩ := (decodeSidecars_ok mapped).1 (sidecar, row)
    (mem_joinedSidecars.mpr ⟨beside, member, names.symm, ours⟩)
  have inside : (row.leaseId, scope) ∈ scopes := by
    rwa [← names, same]
  exact lookup_isSome inside

theorem lookup_iff_carries
    (mapped : scopeMapForConnectionWithKey urls db.toTables identity repoKey = .ok scopes)
    (member : row ∈ db.leases) (ours : row.repoIdentity = identity) {scope : LeaseScope} :
    scopes.lookup row.leaseId = some scope ↔ Carries urls db.toTables repoKey row scope := by
  have read : ∀ {found : LeaseScope}, scopes.lookup row.leaseId = some found →
      Carries urls db.toTables repoKey row found := by
    intro found answer
    obtain ⟨⟨sidecar, other⟩, joined, names, decoded⟩ :=
      (decodeSidecars_ok mapped).2 _ (lookup_mem answer)
    obtain ⟨beside, listed, named, -⟩ := mem_joinedSidecars.mp joined
    rw [row_unique listed member (named.trans names)] at decoded
    exact ⟨sidecar, beside, names, decoded⟩
  refine ⟨read, ?_⟩
  rintro ⟨sidecar, beside, names, decoded⟩
  obtain ⟨found, answer⟩ := Option.isSome_iff_exists.mp
    (lookup_of_sidecar mapped member ours beside names)
  obtain ⟨other, beside', names', decoded'⟩ := read answer
  rw [sidecar_unique beside' beside (names'.trans names.symm), decoded] at decoded'
  rw [answer, Except.ok.inj decoded']

end Map

end Carries

-- Edits of the lease rows that no reader of rows and scopes can tell from the old ones.
section Edited
variable {edit : LeaseRow → LeaseRow} (tables : Tables) (identity : String)

def Tables.editLeases (tables : Tables) (edit : LeaseRow → LeaseRow) : Tables :=
  { tables with leases := tables.leases.map edit }

variable (identities : ∀ row, (edit row).repoIdentity = row.repoIdentity)
include identities

theorem repoRows_edit (ages : ∀ row, (edit row).createdAt = row.createdAt) :
    repoRows (tables.editLeases edit) identity = (repoRows tables identity).map edit := by
  have chosen : (tables.leases.map edit).filter (·.repoIdentity == identity) =
      (tables.leases.filter (·.repoIdentity == identity)).map edit := by
    rw [List.filter_map]
    simp only [Function.comp_def, identities]
  rw [repoRows, Tables.editLeases, chosen, repoRows, Sql.orderDesc, Sql.orderDesc]
  symm
  apply List.map_insertionSort
  intro a _ b _
  rw [ages, ages]

theorem joinedSidecars_edit (ids : ∀ row, (edit row).leaseId = row.leaseId) :
    joinedSidecars (tables.editLeases edit) identity =
      (joinedSidecars tables identity).map fun pair => (pair.1, edit pair.2) := by
  simp only [joinedSidecars, Tables.editLeases, List.map_flatMap, List.map_map, List.filter_map,
    Function.comp_def, ids, identities]

omit identities in
theorem decodeSidecars_edit (urls : UrlLibrary) (repoKey : Option String)
    (issues : ∀ row, (edit row).issue = row.issue) (pairs : List (ScopeRow × LeaseRow)) :
    decodeSidecars urls (tables.editLeases edit) repoKey (pairs.map fun pair => (pair.1, edit pair.2)) =
      decodeSidecars urls tables repoKey pairs := by
  induction pairs with
  | nil => rfl
  | cons pair rest ih =>
      rw [List.map_cons, decodeSidecars, decodeSidecars, ih, issues]
      rfl

theorem scopeMap_edit (urls : UrlLibrary) (repoKey : Option String)
    (ids : ∀ row, (edit row).leaseId = row.leaseId) (issues : ∀ row, (edit row).issue = row.issue) :
    scopeMapForConnectionWithKey urls (tables.editLeases edit) identity repoKey =
      scopeMapForConnectionWithKey urls tables identity repoKey := by
  rw [scopeMapForConnectionWithKey, joinedSidecars_edit tables identity identities ids,
    decodeSidecars_edit tables urls repoKey issues, scopeMapForConnectionWithKey]

end Edited

end Phasegent.Lease
