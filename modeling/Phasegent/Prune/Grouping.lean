import Mathlib.Data.List.Sort
import Phasegent.Prune.Worktrees

namespace Phasegent.Prune
open Lease (LeaseRow LeaseScope LeaseStatus ScopeMap)

def rowsAt (resolve : String → String) (rows : List LeaseRow) (directory : String) : List LeaseRow :=
  rows.filter fun row => resolve row.worktreePath = directory

section Groups
variable {resolve : String → String} {rows : List LeaseRow}

theorem mem_rowsAt {row : LeaseRow} {directory : String} : row ∈ rowsAt resolve rows directory ↔
    row ∈ rows ∧ resolve row.worktreePath = directory := by
  simp [rowsAt]

structure Gathers (resolve : String → String) (rows : List LeaseRow) (group : DirectoryGroup) : Prop where
  members : ∀ row, row ∈ group.rows ↔ row ∈ rowsAt resolve rows group.canonicalPath
  leaseIds : group.leaseIds = group.rows.map (·.leaseId)
  issues : ∀ issue, issue ∈ group.issues ↔ ∃ row ∈ group.rows, row.issueNumber = issue
  inhabited : group.rows ≠ []
  resolves : resolve group.worktreePath = group.canonicalPath

theorem gathers_start (row : LeaseRow) (nobody : rowsAt resolve rows (resolve row.worktreePath) = []) :
    Gathers resolve (rows ++ [row]) (.start (resolve row.worktreePath) row) where
  members other := by
    have split : rowsAt resolve (rows ++ [row]) (resolve row.worktreePath) = [row] := by
      rw [rowsAt, List.filter_append, ← rowsAt, nobody]
      simp
    rw [DirectoryGroup.start, split]
  leaseIds := rfl
  issues issue := by simp [DirectoryGroup.start, eq_comm]
  inhabited := List.cons_ne_nil _ _
  resolves := rfl

theorem Gathers.join {group : DirectoryGroup} {row : LeaseRow} (gathers : Gathers resolve rows group)
    (here : group.canonicalPath = resolve row.worktreePath) :
    Gathers resolve (rows ++ [row]) (group.join row) where
  members other := by
    have before := gathers.members other
    simp only [mem_rowsAt] at before
    simp only [DirectoryGroup.join, List.mem_append, List.mem_singleton, mem_rowsAt, before]
    constructor
    · rintro (⟨listed, there⟩ | rfl)
      · exact ⟨.inl listed, there⟩
      · exact ⟨.inr rfl, here.symm⟩
    · rintro ⟨listed | rfl, there⟩
      · exact .inl ⟨listed, there⟩
      · exact .inr rfl
  leaseIds := by simp [DirectoryGroup.join, gathers.leaseIds]
  issues issue := by
    have before := gathers.issues issue
    by_cases known : row.issueNumber ∈ group.issues
    · simp only [DirectoryGroup.join, if_pos known, before, List.mem_append, List.mem_singleton]
      constructor
      · rintro ⟨other, among, same⟩
        exact ⟨other, .inl among, same⟩
      · rintro ⟨other, among | rfl, same⟩
        · exact ⟨other, among, same⟩
        · exact before.mp (same ▸ known)
    · simp only [DirectoryGroup.join, if_neg known, List.mem_append, List.mem_singleton, before]
      constructor
      · rintro (⟨other, among, same⟩ | rfl)
        · exact ⟨other, .inl among, same⟩
        · exact ⟨row, .inr rfl, rfl⟩
      · rintro ⟨other, among | rfl, same⟩
        · exact .inl ⟨other, among, same⟩
        · exact .inr same.symm
  inhabited := by simp [DirectoryGroup.join]
  resolves := gathers.resolves

theorem Gathers.elsewhere {group : DirectoryGroup} {row : LeaseRow}
    (gathers : Gathers resolve rows group) (apart : group.canonicalPath ≠ resolve row.worktreePath) :
    Gathers resolve (rows ++ [row]) group where
  members other := by
    have before := gathers.members other
    rw [before]
    simp only [mem_rowsAt, List.mem_append, List.mem_singleton]
    constructor
    · rintro ⟨listed, there⟩
      exact ⟨.inl listed, there⟩
    · rintro ⟨listed | rfl, there⟩
      · exact ⟨listed, there⟩
      · exact (apart there.symm).elim
  leaseIds := gathers.leaseIds
  issues := gathers.issues
  inhabited := gathers.inhabited
  resolves := gathers.resolves

structure Grouped (resolve : String → String) (rows : List LeaseRow) (groups : List DirectoryGroup) :
    Prop where
  gathers : ∀ group ∈ groups, Gathers resolve rows group
  distinct : (groups.map (·.canonicalPath)).Nodup
  covered : ∀ row ∈ rows, resolve row.worktreePath ∈ groups.map (·.canonicalPath)

theorem addRow_directories (row : LeaseRow) (canonical : String) (groups : List DirectoryGroup) :
    (addRow canonical row groups).map (·.canonicalPath) =
      if canonical ∈ groups.map (·.canonicalPath) then groups.map (·.canonicalPath)
      else groups.map (·.canonicalPath) ++ [canonical] := by
  induction groups with
  | nil => rfl
  | cons group rest ih =>
      by_cases here : group.canonicalPath = canonical
      · simp [addRow, here, DirectoryGroup.join]
      · by_cases later : canonical ∈ rest.map (·.canonicalPath)
        · simp only [addRow, if_neg here, List.map_cons, ih, List.mem_cons, later, or_true, if_true]
        · simp only [addRow, if_neg here, List.map_cons, ih, List.mem_cons, later, or_false,
            Ne.symm here, if_false, List.cons_append]

theorem gathers_addRow {row : LeaseRow} {groups : List DirectoryGroup}
    (gathers : ∀ group ∈ groups, Gathers resolve rows group)
    (distinct : (groups.map (·.canonicalPath)).Nodup)
    (nobody : resolve row.worktreePath ∉ groups.map (·.canonicalPath) →
      rowsAt resolve rows (resolve row.worktreePath) = []) :
    ∀ group ∈ addRow (resolve row.worktreePath) row groups, Gathers resolve (rows ++ [row]) group := by
  induction groups with
  | nil =>
      intro group among
      obtain rfl := List.mem_singleton.mp among
      exact gathers_start row (nobody (List.not_mem_nil))
  | cons first rest ih =>
      obtain ⟨own, others⟩ := List.forall_mem_cons.mp gathers
      rw [List.map_cons, List.nodup_cons] at distinct
      by_cases here : first.canonicalPath = resolve row.worktreePath
      · simp only [addRow, if_pos here, List.forall_mem_cons]
        refine ⟨own.join here, fun group among => (others group among).elsewhere ?_⟩
        rintro same
        exact distinct.1 (here ▸ same ▸ List.mem_map_of_mem among)
      · simp only [addRow, if_neg here, List.forall_mem_cons]
        refine ⟨own.elsewhere here, ih others distinct.2 fun absent => nobody ?_⟩
        rw [List.map_cons, List.mem_cons, not_or]
        exact ⟨Ne.symm here, absent⟩

theorem Grouped.add {groups : List DirectoryGroup} (grouped : Grouped resolve rows groups)
    (row : LeaseRow) :
    Grouped resolve (rows ++ [row]) (addRow (resolve row.worktreePath) row groups) where
  gathers := by
    apply gathers_addRow grouped.gathers grouped.distinct
    intro absent
    rw [rowsAt, List.filter_eq_nil_iff]
    intro other listed there
    exact absent (of_decide_eq_true there ▸ grouped.covered other listed)
  distinct := by
    rw [addRow_directories]
    split
    · exact grouped.distinct
    · rename_i absent
      exact List.nodup_append.mpr ⟨grouped.distinct, List.nodup_singleton _, by
        rintro _ listed _ last rfl
        exact absent (List.mem_singleton.mp last ▸ listed)⟩
  covered other listed := by
    rw [addRow_directories]
    obtain before | last := List.mem_append.mp listed
    · have found := grouped.covered other before
      split
      · exact found
      · exact List.mem_append_left _ found
    · obtain rfl := List.mem_singleton.mp last
      split
      · rename_i found
        exact found
      · exact List.mem_append_right _ (List.mem_singleton_self _)

theorem grouped_ordered (resolve : String → String) (rows : List LeaseRow) :
    Grouped resolve rows (groupOrdered resolve rows) := by
  suffices onward : ∀ (later seen : List LeaseRow) (groups : List DirectoryGroup),
      Grouped resolve seen groups → Grouped resolve (seen ++ later) (later.foldl
        (fun groups row => addRow (resolve row.worktreePath) row groups) groups) by
    apply onward rows [] []
    constructor <;> simp
  intro later
  induction later with
  | nil => exact fun seen groups grouped => by simpa using grouped
  | cons row rest ih =>
      intro seen groups grouped
      have added := ih (seen ++ [row]) _ (grouped.add row)
      rwa [List.append_assoc] at added

theorem Gathers.perm {rows' : List LeaseRow} {group : DirectoryGroup}
    (gathers : Gathers resolve rows group) (same : ∀ row, row ∈ rows ↔ row ∈ rows') :
    Gathers resolve rows' group :=
  { gathers with
    members := fun row => by rw [gathers.members, mem_rowsAt, mem_rowsAt, same] }

theorem gathers_groupRows {group : DirectoryGroup} (among : group ∈ groupRows resolve rows) :
    Gathers resolve rows group := by
  simp only [groupRows, List.mem_insertionSort, List.mem_map] at among
  obtain ⟨group, listed, rfl⟩ := among
  have gathers := (grouped_ordered resolve _).gathers group listed
  have all : Gathers resolve rows group := gathers.perm fun row => List.mem_insertionSort _
  exact { all with issues := fun issue => by rw [List.mem_insertionSort]; exact all.issues issue }

/-- The grouping loses no row and lists no directory twice. -/
theorem groupRows_partition (resolve : String → String) (rows : List LeaseRow) :
    ((groupRows resolve rows).map (·.canonicalPath)).Nodup ∧
      ∀ row ∈ rows, resolve row.worktreePath ∈ (groupRows resolve rows).map (·.canonicalPath) := by
  have grouped := grouped_ordered resolve (rows.insertionSort fun left right =>
    left.leaseId ≤ right.leaseId)
  have perm := (List.perm_insertionSort (fun left right : DirectoryGroup =>
    components left.canonicalPath ≤ components right.canonicalPath)
    ((groupOrdered resolve (rows.insertionSort fun left right => left.leaseId ≤ right.leaseId)).map
      fun group => { group with issues := group.issues.insertionSort (· ≤ ·) })).map (·.canonicalPath)
  rw [List.map_map] at perm
  constructor
  · exact perm.nodup_iff.mpr grouped.distinct
  · intro row listed
    exact perm.mem_iff.mpr (grouped.covered row ((List.mem_insertionSort _).mpr listed))

end Groups

section Scopes
variable {scopes : ScopeMap} {group : DirectoryGroup}

theorem groupScope_some {key : ScopedLeaseKey} (named : groupScope group = some key) :
    ∀ other ∈ group.scopedLeaseKeys, other = key := by
  unfold groupScope at named
  split at named
  · exact absurd named (by simp)
  · rename_i first rest listed
    split at named
    · exact absurd named (by simp)
    · rename_i agree
      obtain rfl := Option.some.inj named
      rw [listed]
      intro other among
      obtain rfl | later := List.mem_cons.mp among
      · rfl
      · by_contra differs
        exact agree (List.any_eq_true.mpr ⟨other, later, decide_eq_true differs⟩)

theorem scopedGroupMatches_spec {providerScope : Option (String × String)}
    (fits : scopedGroupMatches providerScope (attachScopeProof scopes group) = true) :
    ∃ key, (∀ id ∈ group.leaseIds, (scopes.lookup id).map keyOf = some key) ∧
      (key.taskId.isSome ∨ providerScope = some (key.provider, key.project)) := by
  unfold scopedGroupMatches at fits
  split at fits
  · exact absurd fits (by simp)
  · rename_i complete
    simp only [not_or, not_not] at complete
    split at fits
    · exact absurd fits (by simp)
    · rename_i key named
      refine ⟨key, fun id among => ?_, ?_⟩
      · have all : (attachScopeProof scopes group).scopedLeaseIds = group.leaseIds :=
          List.filter_sublist.eq_of_length complete.2
        have owned : id ∈ (attachScopeProof scopes group).scopedLeaseIds := all ▸ among
        obtain ⟨scope, found⟩ := Option.isSome_iff_exists.mp (List.mem_filter.mp owned).2
        rw [found, Option.map_some]
        apply congrArg some
        apply groupScope_some named
        exact List.mem_filterMap.mpr ⟨id, among, by rw [found, Option.map_some]⟩
      · split at fits
        · rename_i taskId tasked
          exact .inl (by rw [tasked]; rfl)
        · exact .inr (eq_of_beq fits)

theorem isScoped_false (bare : (attachScopeProof scopes group).isScoped = false) :
    ∀ id ∈ group.leaseIds, scopes.lookup id = none := by
  intro id among
  simp only [DirectoryGroup.isScoped, attachScopeProof, ne_eq, decide_not, Bool.not_eq_false',
    decide_eq_true_eq, List.filter_eq_nil_iff, Option.not_isSome_iff_eq_none] at bare
  exact bare id among

theorem sameNumberAmbiguous_false {issue : Nat} {rows : List LeaseRow}
    (clear : sameNumberAmbiguous issue rows scopes = false) :
    ∀ row ∈ rows, ∀ other ∈ rows, row.issueNumber = issue → other.issueNumber = issue →
      ((scopes.lookup row.leaseId).isSome ↔ (scopes.lookup other.leaseId).isSome) := by
  intro row listed other listed' here there
  simp only [sameNumberAmbiguous, Bool.and_eq_false_iff, List.any_eq_false, Bool.and_eq_true, beq_iff_eq,
    not_and, Option.isNone_iff_eq_none] at clear
  obtain bare | owned := clear
  · simp [bare row listed here, bare other listed' there]
  · have found := owned row listed here
    have found' := owned other listed' there
    rw [← ne_eq, Option.ne_none_iff_isSome] at found found'
    simp [found, found']

end Scopes

end Phasegent.Prune
