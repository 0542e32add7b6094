import Phasegent.Lease.Scope
import Phasegent.Ordered.Search
import Mathlib.Data.String.Basic
import Mathlib.Data.List.Lex
import Mathlib.Data.Prod.Lex

namespace Phasegent.Lease
open Ordered

-- A canonical directory, as its path components.
abbrev Directory := List String

abbrev ScopeMap := List (String × LeaseScope)

structure ScopedScopeProjection where
  provider : String
  project : String
  externalId : Nat
  taskId : Option Int
  inst : Option String
  deriving DecidableEq

def ScopedScopeProjection.of (scope : LeaseScope) : ScopedScopeProjection where
  provider := scope.provider
  project := scope.project
  externalId := scope.externalId
  taskId := scope.taskId
  inst := scope.inst

structure ScopedRetentionMember where
  leaseId : String
  issue : Nat
  status : LeaseStatus
  directory : Directory
  scope : Option ScopedScopeProjection
  deriving DecidableEq

structure ScopedRetentionProof where
  directories : List Directory
  members : List ScopedRetentionMember
  sameNumberConflicts : List ScopedRetentionMember
  deriving DecidableEq

def memberOf (resolve : String → Directory) (scopes : ScopeMap) (row : LeaseRow) :
    ScopedRetentionMember where
  leaseId := row.leaseId
  issue := row.issueNumber
  status := row.status
  directory := resolve row.worktreePath
  scope := (scopes.lookup row.leaseId).map .of

def byDirectory (members : List ScopedRetentionMember) : List ScopedRetentionMember :=
  members.insertionSort fun left right =>
    toLex (left.directory, left.leaseId) ≤ toLex (right.directory, right.leaseId)

def scopedRetentionProof (resolve : String → Directory) (issue : Nat) (all : List LeaseRow)
    (scopes : ScopeMap) : ScopedRetentionProof :=
  let directories := dedup <| List.insertionSort (· ≤ ·) <|
    (all.filter fun row => row.issueNumber == issue && (scopes.lookup row.leaseId).isSome).map
      fun row => resolve row.worktreePath
  let members := byDirectory <|
    (all.filter fun row => contains directories (resolve row.worktreePath)).map
      (memberOf resolve scopes)
  let memberIds := members.map (·.leaseId)
  let sameNumberConflicts := byDirectory <|
    (all.filter fun row => row.issueNumber == issue && !memberIds.contains row.leaseId).map
      (memberOf resolve scopes)
  ⟨directories, members, sameNumberConflicts⟩

def directoryOwnershipProof (resolve : String → Directory) (canonical : Directory)
    (all : List LeaseRow) (scopes : ScopeMap) : ScopedRetentionProof :=
  let member := fun row : LeaseRow => resolve row.worktreePath == canonical
  let members := List.insertionSort (fun left right => left.leaseId ≤ right.leaseId) <|
    (all.filter member).map (memberOf resolve scopes)
  let issues := members.map (·.issue)
  let sameNumberConflicts := byDirectory <|
    (all.filter fun row => issues.contains row.issueNumber && !member row).map
      (memberOf resolve scopes)
  ⟨[canonical], members, sameNumberConflicts⟩

inductive StaleRecoveryScope where
  | all
  | legacyOnly
  | exact (provider project : String) (taskId : Option Int) (inst : Option String)
  | nothing
  deriving DecidableEq, Repr

def StaleRecoveryScope.allows : StaleRecoveryScope → Option LeaseScope → Bool
  | .all, _ => true
  | .legacyOnly, none => true
  | .legacyOnly, some _ => false
  | .exact provider project taskId inst, some scope =>
      if scope.provider ≠ provider ∨ scope.project ≠ project then false
      else
        match taskId with
        | some taskId =>
            scope.taskId == some taskId && inst.all fun inst => scope.inst == some inst
        | none => scope.taskId.isNone
  | .exact .., none => false
  | .nothing, _ => false

theorem mem_byDirectory {members : List ScopedRetentionMember} {member : ScopedRetentionMember} :
    member ∈ byDirectory members ↔ member ∈ members :=
  List.mem_insertionSort _

theorem scopedRetentionProof_mem {resolve : String → Directory} {issue : Nat}
    {all : List LeaseRow} {scopes : ScopeMap} {row : LeaseRow} (listed : row ∈ all)
    (sameIssue : row.issueNumber = issue) (hasScope : (scopes.lookup row.leaseId).isSome) :
    memberOf resolve scopes row ∈ (scopedRetentionProof resolve issue all scopes).members := by
  unfold scopedRetentionProof
  rw [mem_byDirectory]
  apply List.mem_map_of_mem
  rw [List.mem_filter, contains_iff]
  · refine ⟨listed, ?_⟩
    rw [mem_dedup, List.mem_insertionSort]
    exact List.mem_map.mpr ⟨row, by simp [listed, sameIssue, hasScope], rfl⟩
  · exact pairwise_dedup (List.pairwise_insertionSort _ _)

theorem scopedRetentionProof_members {resolve : String → Directory} {issue : Nat}
    {all : List LeaseRow} {scopes : ScopeMap} {member : ScopedRetentionMember}
    (inside : member ∈ (scopedRetentionProof resolve issue all scopes).members) :
    ∃ row ∈ all, memberOf resolve scopes row = member := by
  rw [scopedRetentionProof, mem_byDirectory] at inside
  obtain ⟨row, listed, same⟩ := List.mem_map.mp inside
  exact ⟨row, (List.mem_filter.mp listed).1, same⟩

theorem ScopedScopeProjection.of_inj {scope scope' : LeaseScope} (same : of scope = of scope') :
    scope = scope' := by
  cases scope
  cases scope'
  simpa [of] using same

end Phasegent.Lease
