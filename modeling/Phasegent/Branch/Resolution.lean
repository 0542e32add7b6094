import Mathlib.Data.List.Dedup
import Mathlib.Data.List.DropRight
import Phasegent.Task.Store

namespace Phasegent.Branch
open Phasegent.Task (LinkStatus)

section Names

def slashTails : List Char → List (List Char)
  | [] => []
  | c :: rest => if c = '/' then rest :: slashTails rest else slashTails rest

def positive (digits : List Char) : Option Nat := (Text.parseU64 digits).filter (0 < ·)

def wholeNumber (text : List Char) : Option Nat :=
  if text ≠ [] ∧ text.all Char.isDigit then positive text else none

def isJoin (c : Char) : Bool := c == '-' || c == '_'

def lastPart (branch : List Char) : Option (List Char) :=
  if branch.any isJoin then some (branch.rtakeWhile fun c => !isJoin c) else none

/-- `<type>/<id>…`, then `…-<id>` or `…_<id>`, then a name that is all number. -/
def parseIssueIdFromBranchName (branch : String) : Option Nat :=
  ((slashTails branch.toList).findSome? fun rest => positive (rest.takeWhile Char.isDigit)).or <|
    ((lastPart branch.toList).bind wholeNumber).or (wholeNumber branch.toList)

def conventionalDefaultBranches : List String := ["main", "master"]

def isProtectedBranch (branch : String) (defaultBranch : Option String) : Bool :=
  match (defaultBranch.map trimText).filter (· ≠ "") with
  | some default => branch = default
  | none => branch ∈ conventionalDefaultBranches

end Names

section Resolution

structure CompatIssue where
  issueNumber : Option Nat
  ambiguous : Bool
  suppressedDefault : Bool
  deriving DecidableEq, Repr

structure ScopedIssueRef where
  provider : String
  project : String
  issueNumber : Nat
  deriving DecidableEq, Repr

structure LinkedIssue where
  provider : String
  project : String
  issueNumber : Nat
  status : LinkStatus
  deriving DecidableEq, Repr

def LinkedIssue.ref (row : LinkedIssue) : ScopedIssueRef := ⟨row.provider, row.project, row.issueNumber⟩

def resolveCore (linkedIds : List ScopedIssueRef) (branch : String) (defaultBranch : Option String) :
    CompatIssue :=
  let distinct := (linkedIds.map (·.issueNumber)).dedup
  if defaultBranch = some branch then ⟨none, decide (1 < distinct.length ∨ 1 < linkedIds.length), true⟩
  else if 1 < linkedIds.length then ⟨none, true, false⟩
  else
    match distinct with
    | [number] => ⟨some number, false, false⟩
    | [] => ⟨none, false, false⟩
    | _ => ⟨none, true, false⟩

def resolveScopedCompatIssue (linked : List ScopedIssueRef) (branch : String)
    (defaultBranch : Option String) : CompatIssue :=
  resolveCore linked.dedup branch defaultBranch

def namedBranchIssue (branch : String) (defaultBranch : Option String) : Option Nat :=
  if isProtectedBranch branch defaultBranch then none else parseIssueIdFromBranchName branch

def resolveBranchIssue (linked : List ScopedIssueRef) (branch : String) (defaultBranch : Option String) :
    Option Nat :=
  let compat := resolveScopedCompatIssue linked branch defaultBranch
  if compat.ambiguous || compat.suppressedDefault then none
  else compat.issueNumber.or (namedBranchIssue branch defaultBranch)

def resolveProtectedBranchIssue (linked : List ScopedIssueRef) (branch : String)
    (defaultBranch : Option String) : Option Nat :=
  if isProtectedBranch branch defaultBranch then none else resolveBranchIssue linked branch defaultBranch

def linkedRefs (rows : List LinkedIssue) : List ScopedIssueRef :=
  (rows.filter (·.status = .linked)).map LinkedIssue.ref

-- Without rows, which is a store that cannot answer, the name of the branch decides.
def resolveBranchRows (rows : Option (List LinkedIssue)) (branch : String)
    (defaultBranch : Option String) : Option Nat :=
  match rows with
  | some rows => resolveProtectedBranchIssue (linkedRefs rows) branch defaultBranch
  | none => namedBranchIssue branch defaultBranch

end Resolution

section Soundness
variable (rows : List LinkedIssue) (branch : String) (defaultBranch : Option String)

def Linked (ref : ScopedIssueRef) : Prop := ∃ row ∈ rows, row.status = .linked ∧ row.ref = ref

def Unbound (number : Nat) : Prop :=
  (∃ row ∈ rows, row.status = .detached ∧ row.issueNumber = number) ∧
    ¬∃ ref, Linked rows ref ∧ ref.issueNumber = number

/-- An answer is never a guess, and never an issue that was unbound. -/
structure Sound : Prop where
  unprotected : ∀ n, resolveBranchRows (some rows) branch defaultBranch = some n →
    isProtectedBranch branch defaultBranch = false
  unique : ∀ n, resolveBranchRows (some rows) branch defaultBranch = some n →
    ∀ ref ref', Linked rows ref → Linked rows ref' → ref = ref'
  evident : ∀ n, resolveBranchRows (some rows) branch defaultBranch = some n →
    (∃ ref, Linked rows ref ∧ ref.issueNumber = n) ∨
      (∀ ref, ¬Linked rows ref) ∧ parseIssueIdFromBranchName branch = some n
  bound : ∀ n, resolveBranchRows (some rows) branch defaultBranch = some n → ¬Unbound rows n
  ambiguous : ∀ ref ref', Linked rows ref → Linked rows ref' → ref ≠ ref' →
    resolveBranchRows (some rows) branch defaultBranch = none

variable {rows branch defaultBranch}

theorem linked_iff {ref : ScopedIssueRef} : Linked rows ref ↔ ref ∈ (linkedRefs rows).dedup := by
  simp [Linked, linkedRefs, and_assoc]

variable (rows) in
theorem resolve_of_open (unprotected : isProtectedBranch branch defaultBranch = false)
    (other : defaultBranch ≠ some branch) : resolveBranchRows (some rows) branch defaultBranch =
      match (linkedRefs rows).dedup with
      | [] => parseIssueIdFromBranchName branch
      | [ref] => some ref.issueNumber
      | _ => none := by
  simp only [resolveBranchRows, resolveProtectedBranchIssue, resolveBranchIssue, resolveScopedCompatIssue,
    resolveCore, namedBranchIssue, unprotected, if_neg other, Bool.false_eq_true, if_false]
  match (linkedRefs rows).dedup with
  | [] => simp
  | [ref] => simp
  | first :: second :: rest => simp

theorem resolve_of_closed (closed : isProtectedBranch branch defaultBranch = true ∨ defaultBranch = some branch) :
    resolveBranchRows (some rows) branch defaultBranch = none := by
  simp only [resolveBranchRows, resolveProtectedBranchIssue, resolveBranchIssue, resolveScopedCompatIssue,
    resolveCore]
  obtain guarded | same := closed
  · simp [guarded]
  · simp [same]

/-- The condition under which a name cannot bring back an issue that was unbound. -/
def NameHarmless (rows : List LinkedIssue) (branch : String) (defaultBranch : Option String) : Prop :=
  isProtectedBranch branch defaultBranch = true ∨ defaultBranch = some branch ∨
    (∃ row ∈ rows, row.status = .linked) ∨
      ∀ row ∈ rows, row.status = .detached → parseIssueIdFromBranchName branch ≠ some row.issueNumber

theorem sound_of_none (silent : resolveBranchRows (some rows) branch defaultBranch = none) :
    Sound rows branch defaultBranch := by
  constructor <;> simp [silent]

theorem sound_of_single {ref : ScopedIssueRef} (single : ∀ other, Linked rows other ↔ other = ref)
    (unprotected : isProtectedBranch branch defaultBranch = false)
    (answer : resolveBranchRows (some rows) branch defaultBranch = some ref.issueNumber) :
    Sound rows branch defaultBranch := by
  have linked : Linked rows ref := (single ref).mpr rfl
  constructor
  · intro n _
    exact unprotected
  · intro n _ first second among among'
    rw [(single first).mp among, (single second).mp among']
  · intro n resolved
    exact .inl ⟨ref, linked, Option.some.inj (answer.symm.trans resolved)⟩
  · intro n resolved unbound
    exact unbound.2 ⟨ref, linked, Option.some.inj (answer.symm.trans resolved)⟩
  · intro first second among among' differ
    exact absurd ((single first).mp among |>.trans ((single second).mp among').symm) differ

theorem sound_of_named (unlinked : ∀ ref, ¬Linked rows ref)
    (unprotected : isProtectedBranch branch defaultBranch = false)
    (answer : resolveBranchRows (some rows) branch defaultBranch = parseIssueIdFromBranchName branch)
    (kept : ∀ row ∈ rows, row.status = .detached → parseIssueIdFromBranchName branch ≠ some row.issueNumber) :
    Sound rows branch defaultBranch := by
  constructor
  · intro n _
    exact unprotected
  · intro n _ first second among
    exact absurd among (unlinked first)
  · intro n resolved
    exact .inr ⟨unlinked, answer.symm.trans resolved⟩
  · intro n resolved unbound
    obtain ⟨⟨row, among, detached, rfl⟩, -⟩ := unbound
    exact kept row among detached (answer.symm.trans resolved)
  · intro first second among
    exact absurd among (unlinked first)

/-- Resolution is sound exactly where the name of the branch brings no unbound issue back. -/
theorem sound_iff : Sound rows branch defaultBranch ↔ NameHarmless rows branch defaultBranch := by
  constructor
  · intro sound
    by_cases guarded : isProtectedBranch branch defaultBranch = true
    · exact .inl guarded
    by_cases same : defaultBranch = some branch
    · exact .inr (.inl same)
    by_cases linked : ∃ row ∈ rows, row.status = .linked
    · exact .inr (.inr (.inl linked))
    have unlinked : ∀ ref, ¬Linked rows ref := fun ref ⟨row, among, status, _⟩ => linked ⟨row, among, status⟩
    have empty : (linkedRefs rows).dedup = [] :=
      List.eq_nil_iff_forall_not_mem.mpr fun ref among => unlinked ref (linked_iff.mpr among)
    have answer := resolve_of_open rows (by simpa using guarded) same
    rw [empty] at answer
    right; right; right
    intro row among detached named
    exact sound.bound row.issueNumber (answer.trans named)
      ⟨⟨row, among, detached, rfl⟩, fun ⟨ref, linked, _⟩ => unlinked ref linked⟩
  · intro harmless
    by_cases closed : isProtectedBranch branch defaultBranch = true ∨ defaultBranch = some branch
    · exact sound_of_none (resolve_of_closed closed)
    rw [not_or, Bool.not_eq_true] at closed
    have answer := resolve_of_open rows closed.1 closed.2
    cases linked : (linkedRefs rows).dedup with
    | nil =>
        have unlinked : ∀ ref, ¬Linked rows ref := by simp [linked_iff, linked]
        rw [linked] at answer
        apply sound_of_named unlinked closed.1 answer
        obtain guarded | same | ⟨row, among, status⟩ | kept := harmless
        · simp [closed.1] at guarded
        · exact absurd same closed.2
        · exact absurd ⟨row, among, status, rfl⟩ (unlinked row.ref)
        · exact kept
    | cons ref rest =>
        rw [linked] at answer
        cases rest with
        | nil => exact sound_of_single (by simp [linked_iff, linked]) closed.1 answer
        | cons second rest => exact sound_of_none answer

/-- The issue of the name, unbound from the branch, is the answer again. -/
theorem unbound_again : ¬Sound [⟨"forgejo", "o/r", 12, .detached⟩] "feature/12" (some "main") := by
  intro sound
  have answer : resolveBranchRows (some [⟨"forgejo", "o/r", 12, .detached⟩]) "feature/12" (some "main") =
      some 12 := by decide
  apply sound.bound 12 answer
  simp [Unbound, Linked]

end Soundness

end Phasegent.Branch
