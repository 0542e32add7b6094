import Phasegent.Cleanup.Removal
import Phasegent.Restore.Capture
import Phasegent.Task.Adoption
import Mathlib.Data.List.Dedup

namespace Phasegent.Switch
open Fallible Sql
open Lease (GitOutput LeaseRow)
open Restore (isBlank stripPrefix localKeyPrefix)
open Phasegent.Task (LinkRow asU64)

structure IssueSwitchParams where
  repoPath : String
  issueId : Nat
  branch : String
  base : Option String
  scopeProvider : String
  scopeProject : Option String
  explicitRepository : Option String
  session : Option String
  deriving DecidableEq, Repr

inductive CreateSwitchOutcome where
  | switched (branch : String) (issueId : Nat)
  | linkedOnly (branch : String) (issueId : Nat) (reason : String)
  | skipped (reason : String)
  | warning (reason : String)
  | blocked (reason : String)
  deriving DecidableEq, Repr

structure GitError where
  kind : String
  message : String
  deriving DecidableEq, Repr

abbrev GitAnswer := Except GitError GitOutput

def nonBlank (value : Option String) : Option String := (value.map trimText).filter (· ≠ "")

namespace IssueSwitchParams
variable (params : IssueSwitchParams)

def target : String := trimText params.branch

def issueText : String := toString params.issueId

def byHand : String := "run \x60git switch " ++ params.target ++ "\x60 by hand"

def bindByHand : String := "\x60phasegent issue bind " ++ params.issueText ++ "\x60"

def isolate : String := "\x60phasegent worktree acquire --issue " ++ params.issueText ++ " --isolate\x60"

def linkedOnly (reason : String) : CreateSwitchOutcome :=
  .linkedOnly params.target params.issueId reason

-- The checks before anything is run; the project that remains is a named one.
def admission : Except CreateSwitchOutcome String := do
  refuse (params.issueId = 0) (.warning "cannot link or switch: issue id must be greater than zero")
  refuse (params.target = "")
    (.warning ("cannot link or switch issue " ++ params.issueText ++ ": branch name is empty"))
  refuse (isBlank params.scopeProvider)
    (.warning ("cannot link or switch issue " ++ params.issueText ++ ": provider scope is empty"))
  match nonBlank params.scopeProject with
  | some project => return project
  | none => throw (.blocked ("cannot link or switch issue " ++ params.issueText ++
      ": project scope is unknown; re-run create with an explicit project scope, or link by hand with " ++
      params.bindByHand))

end IssueSwitchParams

section Git
variable (params : IssueSwitchParams)

def originUrl : GitAnswer → Option String
  | .ok output =>
      if output.status ≠ 0 ∨ isBlank output.stdout then none else some (trimText output.stdout)
  | .error _ => none

def originIdentity (parseRemote : String → Option String) : GitAnswer → Option String
  | .ok output => if output.status ≠ 0 then none else parseRemote (trimText output.stdout)
  | .error _ => none

def currentCheckoutMatches (origin : Option String) (explicit : Option String) :
    Except String Unit :=
  match origin with
  | none => .error "current directory has no git origin; skipping branch binding"
  | some origin =>
      match explicit with
      | none => .ok ()
      | some repository => refuse (origin ≠ repository) ("git origin '" ++ origin ++
          "' does not match explicit repository '" ++ repository ++ "'; skipping branch binding")

def currentBranch : GitAnswer → Except GitError String
  | .error error => .error error
  | .ok output =>
      if output.status = 0 ∧ isBlank output.stdout = false then .ok (trimText output.stdout)
      else if output.status = 1 then .error ⟨"branch", "HEAD is detached; switch to a named branch " ++
        "before working with its Redmine issue binding"⟩
      else .error ⟨"git", "git symbolic-ref failed with exit status " ++ toString output.status⟩

def noBranch (error : GitError) : CreateSwitchOutcome :=
  if error.kind = "branch" then .warning ("issue " ++ params.issueText ++
    " linked nowhere: HEAD is detached; switch to a named branch and run " ++ params.bindByHand ++
    " by hand")
  else .warning ("cannot resolve current branch: " ++ error.message)

def topLevel : GitAnswer → Option String
  | .ok output =>
      if output.status = 0 ∧ isBlank output.stdout = false then some (trimText output.stdout) else none
  | .error _ => none

def parseSymbolicRef (stdout : String) : Option String :=
  match stripPrefix "refs/remotes/origin/" (trimText stdout) with
  | none => none
  | some suffix =>
      let branch := trimText suffix
      if branch = "" ∨ branch = "HEAD" ∨ branch.toList.any Text.isWhitespace then none else some branch

def headLine (line : List Char) : Option String :=
  match stripPrefix "HEAD branch:" (trimText (String.ofList line)) with
  | none => none
  | some rest =>
      let branch := (trimText rest).toList.takeWhile fun c => !Text.isWhitespace c
      if branch = [] ∨ branch.head? = some '(' then none else some (String.ofList branch)

def parseRemoteShow (stdout : String) : Option String :=
  (stdout.toList.splitOn '\n').findSome? headLine

def readDefault (parse : String → Option String) : GitAnswer → Option String
  | .ok output => if output.status = 0 then parse output.stdout else none
  | .error _ => none

def branchExists : GitAnswer → Except CreateSwitchOutcome Bool
  | .ok output =>
      if output.status = 0 then .ok true
      else if output.status = 1 then .ok false
      else .error (.warning ("issue " ++ params.issueText ++ " created; could not check branch '" ++
        params.target ++ "' (exit status " ++ toString output.status ++ "); run " ++
        params.bindByHand ++ " by hand"))
  | .error error => .error (.warning ("local branch check failed: " ++ error.message))

def branchCreated (base : String) : GitAnswer → Except CreateSwitchOutcome Unit
  | .ok output => refuse (output.status ≠ 0) (.warning ("issue " ++ params.issueText ++
      " created; git branch '" ++ params.target ++ "' from '" ++ base ++ "' failed with exit status " ++
      toString output.status ++ "; run " ++ params.bindByHand ++ " by hand"))
  | .error error => .error (.warning ("local branch creation failed: " ++ error.message))

def checkedOut : GitAnswer → CreateSwitchOutcome
  | .ok output =>
      if output.status = 0 then .switched params.target params.issueId
      else .warning ("linked '" ++ params.target ++ "' but checkout failed with exit status " ++
        toString output.status ++ "; " ++ params.byHand)
  | .error error =>
      .warning ("linked '" ++ params.target ++ "' but checkout failed: " ++ error.message)

end Git

section Gates
variable (params : IssueSwitchParams)

def otherScopes (project : String) (rows : List LinkRow) : List (String × String × Nat) :=
  (orderAsc (fun other => toLex (other.1, toLex (other.2.1, other.2.2)))
    ((rows.filter fun row => row.provider ≠ params.scopeProvider ∨ row.project ≠ project).map fun row =>
      (row.provider, row.project, asU64 row.issueNumber))).dedup

def collisionNote (project : String) (rows : List LinkRow) : Option String :=
  let others := otherScopes params project rows
  if others = [] then none
  else
    let listed := (others.take 3).map fun other =>
      other.1 ++ " " ++ other.2.1 ++ " issue " ++ toString other.2.2
    let shown := if listed.length < others.length then listed ++ ["…"] else listed
    some ("branch '" ++ params.target ++ "' is already linked to " ++ ", ".intercalate shown ++ " (" ++
      toString others.length ++ " other scope" ++ (if others.length = 1 then "" else "s") ++ "); issue " ++
      params.issueText ++ " added as another link — shared branches carry every linked issue")

def refuseShared (note : Option String) : Except CreateSwitchOutcome Unit :=
  match note with
  | none => .ok ()
  | some note => .error (params.linkedOnly (note ++ " — leaving the checkout untouched; " ++
      params.byHand ++ " once verified"))

def isClean : Except Lease.WorktreeError GitOutput → Except Lease.WorktreeError Bool
  | .error error => .error error
  | .ok output => do
      refuse (output.status ≠ 0) (Restore.statusFailed output)
      return isBlank output.stdout

def refuseDirty : Except Lease.WorktreeError Bool → Except CreateSwitchOutcome Unit
  | .ok true => .ok ()
  | .ok false => .error (params.linkedOnly ("checkout is dirty; linked '" ++ params.target ++
      "' but left the checkout untouched — clean the tree (or stash by hand, never automatically) and run " ++
      "\x60git switch " ++ params.target ++ "\x60, or isolate with " ++ params.isolate))
  | .error error => .error (params.linkedOnly ("checkout cleanliness is unknown (" ++ error.message ++
      "); linked '" ++ params.target ++ "' but left the checkout untouched — " ++ params.byHand ++
      " once verified"))

def onBase (current : String) : Bool := nonBlank params.base == some current

def refuseElsewhere (current : String) (default : Option String) : Except CreateSwitchOutcome Unit :=
  if default = some current ∨ onBase params current then .ok ()
  else match default with
    | some default => .error (params.linkedOnly ("current branch '" ++ current ++
        "' is not the detected default branch '" ++ default ++ "'; linked '" ++ params.target ++
        "' but left the checkout untouched — " ++ params.byHand))
    | none => .error (params.linkedOnly ("default branch is unknown and '" ++ current ++
        "' is not the explicit base; linked '" ++ params.target ++
        "' but left the checkout untouched — " ++ params.byHand ++ " once verified"))

def isOurs (row : LeaseRow) : Bool :=
  row.issueNumber == params.issueId && params.session.any (· == row.session)

def isForeign (row : LeaseRow) : Bool := row.isActive && !isOurs params row

-- A lease of this checkout is named first, then any other one of the repository.
def leaseConflict (current : String) (rows : List LeaseRow) : Except CreateSwitchOutcome Unit :=
  match rows.find? fun row => isForeign params row && row.worktreePath == params.repoPath with
  | some row => .error (params.linkedOnly ("linked '" ++ params.target ++ "' but session '" ++
      row.session ++ "' holds this checkout for issue " ++ toString row.issueNumber ++ " (lease " ++
      row.leaseId ++ "); leaving '" ++ current ++ "' untouched — isolate with " ++ params.isolate))
  | none =>
      match rows.find? (isForeign params) with
      | some row => .error (params.linkedOnly ("linked '" ++ params.target ++ "' but session '" ++
          row.session ++ "' holds an active lease for issue " ++ toString row.issueNumber ++ " on '" ++
          row.worktreePath ++ "' (lease " ++ row.leaseId ++ ") in this repository; leaving '" ++ current ++
          "' untouched — coordinate with that session, or isolate with " ++ params.isolate))
      | none => .ok ()

def unverifiedLeases (what current : String) (error : Lease.WorktreeError) : CreateSwitchOutcome :=
  params.linkedOnly ("linked '" ++ params.target ++ "' but could not " ++ what ++ " active leases (" ++
    error.message ++ "); leaving '" ++ current ++ "' untouched")

end Gates

section Facts
variable {params : IssueSwitchParams}

-- The status of a worktree is read alike by a switch, a removal and a restoration.
theorem isClean_eq_readStatus (answer : Except Lease.WorktreeError GitOutput) :
    isClean answer = answer >>= Cleanup.readStatus := by
  cases answer <;> rfl

theorem readClean_eq_isClean (output : GitOutput) :
    Restore.readClean output = match isClean (.ok output) with
      | .ok true => .ok ()
      | .ok false => .error "main checkout has uncommitted or untracked files"
      | .error error => .error (Restore.cleanlinessUnknown error) := by
  by_cases failed : output.status ≠ 0
  · simp [Restore.readClean, isClean, refuse, failed]
  · cases blank : isBlank output.stdout <;> simp [Restore.readClean, isClean, refuse, failed, blank]

/-- A switch and a restoration find the same branch, which a restoration names within its bound. -/
theorem readBranch_eq_ok {output : GitOutput} {name : String} :
    Restore.readBranch output = .ok name ↔
      ∃ branch, currentBranch (.ok output) = .ok branch ∧ Lease.bounded branch = name := by
  by_cases zero : output.status = 0
  · cases blank : isBlank output.stdout <;> simp [Restore.readBranch, currentBranch, refuse, zero, blank]
  · by_cases one : output.status = 1 <;> simp [Restore.readBranch, currentBranch, refuse, zero, one]

theorem IssueSwitchParams.admission_ok {project : String} (admitted : params.admission = .ok project) :
    nonBlank params.scopeProject = some project := by
  simp only [IssueSwitchParams.admission, bind_eq_ok] at admitted
  obtain ⟨_, _, _, _, _, _, chosen⟩ := admitted
  cases named : nonBlank params.scopeProject with
  | none => simp [named] at chosen
  | some text => simpa [named] using chosen

theorem collisionNote_none {project : String} {rows : List LinkRow}
    (quiet : collisionNote params project rows = none) :
    ∀ row ∈ rows, row.provider = params.scopeProvider ∧ row.project = project := by
  intro row among
  have alone : otherScopes params project rows = [] := by
    by_contra others
    simp [collisionNote, others] at quiet
  by_contra foreign
  have other : (row.provider, row.project, asU64 row.issueNumber) ∈ otherScopes params project rows := by
    simp only [otherScopes, List.mem_dedup, mem_orderAsc, List.mem_map, List.mem_filter,
      decide_eq_true_eq]
    exact ⟨row, ⟨among, by tauto⟩, rfl⟩
  rw [alone] at other
  cases other

theorem refuseShared_ok {note : Option String} {u : Unit} (passed : refuseShared params note = .ok u) :
    note = none := by
  cases note with
  | none => rfl
  | some note => cases passed

theorem refuseDirty_ok {answer : Except Lease.WorktreeError GitOutput} {u : Unit}
    (passed : refuseDirty params (isClean answer) = .ok u) :
    ∃ output, answer = .ok output ∧ output.status = 0 ∧ isBlank output.stdout = true := by
  cases answer with
  | error error => cases passed
  | ok output =>
      refine ⟨output, rfl, ?_⟩
      by_cases zero : output.status = 0
      · cases blank : isBlank output.stdout with
        | false => simp [isClean, refuse, zero, blank, refuseDirty] at passed
        | true => exact ⟨zero, rfl⟩
      · simp [isClean, refuse, zero, refuseDirty] at passed

theorem refuseElsewhere_ok {current : String} {default : Option String} {u : Unit}
    (passed : refuseElsewhere params current default = .ok u) :
    default = some current ∨ nonBlank params.base = some current := by
  by_cases detected : default = some current
  · exact .inl detected
  · right
    cases default with
    | none => simpa [refuseElsewhere, onBase] using passed
    | some name =>
        rw [Option.some.injEq] at detected
        simpa [refuseElsewhere, onBase, detected] using passed

theorem leaseConflict_ok {current : String} {rows : List LeaseRow} {u : Unit}
    (passed : leaseConflict params current rows = .ok u) :
    ∀ row ∈ rows, row.isActive → row.issueNumber = params.issueId ∧ params.session = some row.session := by
  intro row among active
  unfold leaseConflict at passed
  split at passed
  · cases passed
  · split at passed
    · cases passed
    · rename_i absent
      have native := List.find?_eq_none.mp absent row among
      have ours : isOurs params row = true := by simpa [isForeign, active] using native
      simpa [isOurs, Option.any_eq_true] using ours

theorem currentBranch_ok {answer : GitAnswer} {current : String}
    (read : currentBranch answer = .ok current) :
    ∃ output, answer = .ok output ∧ output.status = 0 ∧ trimText output.stdout = current ∧
      current ≠ "" := by
  cases answer with
  | error error => cases read
  | ok output =>
      by_cases named : output.status = 0 ∧ isBlank output.stdout = false
      · simp only [currentBranch, if_pos named, Except.ok.injEq] at read
        refine ⟨output, rfl, named.1, read, ?_⟩
        simpa [isBlank, read] using named.2
      · simp only [currentBranch, if_neg named] at read
        split at read <;> cases read

end Facts

end Phasegent.Switch
