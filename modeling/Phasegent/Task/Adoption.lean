import Phasegent.Task.Links

namespace Phasegent.Task
open Fallible Interleaving Sql Phasegent.Lease

abbrev StoreM (ε : Type) := Attempt Statement Statement.Ret ε

def validateNow (now : Int) : Except String Unit :=
  refuse (now ≤ 0) "task timestamp must be greater than zero"

def ensureBindingWith (key : TaskKey) (now : Int) : StoreM String TaskBinding := do
  fromExcept (validateNow now)
  request (.insertBinding key now) (·.mapError ("could not insert task binding: " ++ ·))
  match ← request (.selectBinding key) id with
  | some binding => return binding
  | none => throw "task binding disappeared during insert"

def addRepoMembershipWith (repoKey : String) (taskId now : Int) : StoreM String Unit := do
  let repoKey ← fromExcept (validateRepoKey repoKey)
  fromExcept (validateNow now)
  fromExcept (refuse (taskId ≤ 0) "task id must be greater than zero")
  let found ← request (.countBindings taskId) (·.mapError ("could not verify task binding: " ++ ·))
  fromExcept (refuse (found ≠ 1) ("task binding " ++ toString taskId ++ " does not exist"))
  request (.insertMembership repoKey taskId now)
    (·.mapError ("could not insert task membership: " ++ ·))

def validateText (value field : String) : Except String Unit := do
  refuse (trimText value = "") (field ++ " must be non-empty")
  refuse (value.toList.any Text.isControl) (field ++ " must not contain control characters")

def validateLink (params : LinkParams) : Except String Unit := do
  validateText params.repoKey "repo_key"
  validateText params.branch "branch"
  validateText params.source "source"
  refuse (params.issueNumber = 0) "issue_number must be greater than zero"
  refuse (params.now ≤ 0) "now must be greater than zero"

def link (params : LinkParams) : StoreM String LinkOutcome := do
  fromExcept (validateLink params)
  match ← request (.linkStatus params.slot) (·.mapError ("could not read branch link: " ++ ·)) with
  | some .linked => return .alreadyLinked
  | some .detached => do
      request (.relink params.slot params.issueNumber params.source params.now)
        (·.mapError ("could not relink branch: " ++ ·))
      return .relinked
  | none => do
      request (.insertLink params.slot params.issueNumber params.source params.now)
        (·.mapError ("could not link branch: " ++ ·))
      return .created

def attachReference (slot : Slot) (taskId : Int) : StoreM String Unit := do
  match ← request (.linkTask slot) (·.mapError ("could not read branch task reference: " ++ ·)) with
  | some (some current) =>
      fromExcept (refuse (current ≠ taskId)
        "branch link already references another immutable task; refusing to overwrite it")
  | some none =>
      request (.attachTask slot taskId) (·.mapError ("could not attach branch task reference: " ++ ·))
  | none => throw "branch link disappeared during task attachment"

def linkWithTask (params : LinkParams) (taskId : Option Int) : StoreM String LinkOutcome := do
  let outcome ← link params
  match taskId with
  | none => return outcome
  | some taskId => do
      attachReference params.slot taskId
      return outcome

def detach (repoKey branch : String) (issue : IssueKey) (reason : String) (now : Int) :
    StoreM String DetachOutcome := do
  fromExcept (refuse (now ≤ 0) "now must be greater than zero")
  let slot := issue.slot repoKey branch
  match ← request (.linkStatus slot) (·.mapError ("could not read branch link: " ++ ·)) with
  | none => return .notFound
  | some .detached => return .alreadyDetached
  | some .linked => do
      request (.detachLink slot reason now) (·.mapError ("could not detach branch: " ++ ·))
      return .detached

def validateDetach (repoKey branch reason : String) (issueNumber : Nat) (now : Int) :
    Except String Unit := do
  validateText repoKey "repo_key"
  validateText branch "branch"
  validateText reason "reason"
  refuse (issueNumber = 0) "issue_number must be greater than zero"
  refuse (now ≤ 0) "now must be greater than zero"

def sameLink (key : TaskKey) (candidate : TaskBinding) : Bool :=
  candidate.key.provider == key.provider && candidate.key.project == key.project &&
    candidate.key.externalId == key.externalId && candidate.key != key

def adoptKey (repoKey branch : String) (now : Int) (key : TaskKey) :
    StoreM PhasegentError TaskBinding := do
  let number ← fromExcept (key.externalNumber.elim
    (.error (.config "adopted task key has a non-numeric external id")) .ok)
  let binding ← renameFailure .config (ensureBindingWith key now)
  let existing ← request (.bindingsForRepoNumber repoKey number) (·.mapError .config)
  fromExcept (refuse (existing.any (sameLink key)) (.config
    ("the same branch link already belongs to another immutable task instance; " ++
      "refusing to overwrite it")))
  renameFailure .config (addRepoMembershipWith repoKey binding.taskId now)
  let issue ← fromExcept ((IssueKey.fromNumber key.provider key.project number).mapError .config)
  let _ ← renameFailure .config
    (linkWithTask ⟨repoKey, branch, issue, number, "cli-bind", now⟩ (some binding.taskId))
  return binding

def linkEntry (entry : LinkParams × Option Int) : StoreM String (Nat × LinkOutcome) := do
  let outcome ← linkWithTask entry.1 entry.2
  return (entry.1.issueNumber, outcome)

def detachEntry (repoKey branch reason : String) (now : Int) (entry : IssueKey × Nat) :
    StoreM String (Nat × DetachOutcome) := do
  let outcome ← detach repoKey branch entry.1 reason now
  return (entry.2, outcome)

-- One statement of its own, or a whole transaction.
inductive TaskOp where
  | statement (s : Statement)
  | ensure (key : TaskKey) (now : Int)
  | addMembership (repoKey : String) (taskId now : Int)
  | adoptAll (repoKey branch : String) (keys : List TaskKey) (now : Int)
  | linkAll (entries : List (LinkParams × Option Int))
  | detachAll (repoKey branch : String) (issues : List (IssueKey × Nat)) (reason : String) (now : Int)

abbrev TaskOp.Ret : TaskOp → Type
  | .statement s => s.Ret
  | .ensure .. => Except String TaskBinding
  | .addMembership .. => Except String Unit
  | .adoptAll .. => Except PhasegentError (List TaskBinding)
  | .linkAll _ => Except String (List (Nat × LinkOutcome))
  | .detachAll .. => Except String (List (Nat × DetachOutcome))

def TaskOp.perform (urls : UrlLibrary) (tables : TaskTables) : (op : TaskOp) → op.Ret × TaskTables
  | .statement s => s.perform urls tables
  | .ensure key now => transaction (Statement.perform urls) (ensureBindingWith key now) tables
  | .addMembership repoKey taskId now =>
      transaction (Statement.perform urls) (addRepoMembershipWith repoKey taskId now) tables
  | .adoptAll repoKey branch keys now =>
      transaction (Statement.perform urls) (forEach (adoptKey repoKey branch now) keys) tables
  | .linkAll entries => transaction (Statement.perform urls) (forEach linkEntry entries) tables
  | .detachAll repoKey branch issues reason now =>
      transaction (Statement.perform urls)
        (forEach (detachEntry repoKey branch reason now) issues) tables

abbrev TaskM (ε : Type) := Attempt TaskOp TaskOp.Ret ε

def autocommit : Embedding Statement Statement.Ret TaskOp TaskOp.Ret := ⟨.statement, fun _ r => r⟩

def ensureBinding (key : TaskKey) (now : Int) : TaskM String TaskBinding := do
  fromExcept (validateNow now)
  request (.ensure key now) id

def addRepoMembership (repoKey : String) (taskId now : Int) : TaskM String Unit :=
  request (.addMembership repoKey taskId now) id

def commitAdoptionSet (repoKey branch : String) (keys : List TaskKey) (now : Int) :
    TaskM PhasegentError (List TaskBinding) :=
  request (.adoptAll repoKey branch keys now) id

def validateEntries : List (LinkParams × Option Int) → Except String Unit
  | [] => return ()
  | (params, taskId) :: entries => do
      validateLink params
      refuse (taskId.any (· ≤ 0)) "task id must be greater than zero"
      validateEntries entries

def linkManyWithTask (entries : List (LinkParams × Option Int)) :
    TaskM String (List (Nat × LinkOutcome)) := do
  fromExcept (validateEntries entries)
  request (.linkAll entries) id

def validateIssues (repoKey branch reason : String) (now : Int) :
    List (IssueKey × Nat) → Except String Unit
  | [] => return ()
  | (_, issueNumber) :: issues => do
      validateDetach repoKey branch reason issueNumber now
      validateIssues repoKey branch reason now issues

def detachMany (repoKey branch : String) (issues : List (IssueKey × Nat)) (reason : String)
    (now : Int) : TaskM String (List (Nat × DetachOutcome)) := do
  fromExcept (validateIssues repoKey branch reason now issues)
  request (.detachAll repoKey branch issues reason now) id

-- The repository and branch of the checkout and the key of the created issue are the caller's.
def attachCreatedTaskToBranch (repo : Option (String × String))
    (key : Except PhasegentError TaskKey) (number : Nat) (taskId now : Int) : TaskM String Unit :=
  match repo with
  | none => throw "no physical repository or branch"
  | some (repoKey, branch) => do
      let key ← fromExcept (key.mapError PhasegentError.message)
      let rows ← request (.statement (.issuesForBranch repoKey branch)) id
      match rows.find? fun row => row.provider == key.provider && row.project == key.project &&
          asU64 row.issueNumber == number with
      | none => return ()
      | some row => do
          let _ ← embed autocommit
            (linkWithTask ⟨repoKey, branch, row.issue, number, "issue-create", now⟩ (some taskId))
          return ()

section World
variable (urls : UrlLibrary)

def TaskOp.Fails : (op : TaskOp) → op.Ret → Prop
  | .statement s, answer =>
      match s with
      | .insertBinding .. | .insertMembership .. | .insertLink .. | .relink .. | .attachTask ..
      | .detachLink .. => answer.toBool = false
      | .selectBinding _ => answer.toBool = false
      | .bindingsForRepoNumber .. => answer.toBool = false
      | .countBindings _ => answer.toBool = false
      | .linkStatus _ => answer.toBool = false
      | .linkTask _ => answer.toBool = false
      | .issuesForBranch .. => answer.toBool = false
  | .ensure .., answer => answer.toBool = false
  | .addMembership .., answer => answer.toBool = false
  | .adoptAll .., answer => answer.toBool = false
  | .linkAll _, answer => answer.toBool = false
  | .detachAll .., answer => answer.toBool = false

inductive TaskStep (tables : TaskTables) : (op : TaskOp) → op.Ret → TaskTables → Prop
  | perform {op : TaskOp} : TaskStep tables op (op.perform urls tables).1 (op.perform urls tables).2
  | fault {op : TaskOp} {answer : op.Ret} (fails : op.Fails answer) : TaskStep tables op answer tables

-- SQLite lets one writer at a time commit, so a transaction is one step of the store.
def taskWorld : World TaskTables TaskOp TaskOp.Ret where
  step _ := TaskStep urls
  crash _ tables tables' := tables' = tables

end World

inductive TaskCommand where
  | ensureBinding (key : TaskKey) (now : Int)
  | addRepoMembership (repoKey : String) (taskId now : Int)
  | commitAdoptionSet (repoKey branch : String) (keys : List TaskKey) (now : Int)
  | linkManyWithTask (entries : List (LinkParams × Option Int))
  | detachMany (repoKey branch : String) (issues : List (IssueKey × Nat)) (reason : String) (now : Int)
  | link (params : LinkParams)
  | attachCreatedTask (repo : Option (String × String)) (key : Except PhasegentError TaskKey)
      (number : Nat) (taskId now : Int)

def reported {α : Type} (p : TaskM String α) : TaskM PhasegentError Unit := do
  let _ ← renameFailure .config p
  return ()

def TaskCommand.run : TaskCommand → TaskM PhasegentError Unit
  | .ensureBinding key now => reported (Task.ensureBinding key now)
  | .addRepoMembership repoKey taskId now => reported (Task.addRepoMembership repoKey taskId now)
  | .commitAdoptionSet repoKey branch keys now => do
      let _ ← Task.commitAdoptionSet repoKey branch keys now
      return ()
  | .linkManyWithTask entries => reported (Task.linkManyWithTask entries)
  | .detachMany repoKey branch issues reason now =>
      reported (Task.detachMany repoKey branch issues reason now)
  | .link params => reported (embed autocommit (Task.link params))
  | .attachCreatedTask repo key number taskId now =>
      reported (attachCreatedTaskToBranch repo key number taskId now)

def taskFleet (commands : Pid → Option TaskCommand) (tables : TaskTables) :
    Config TaskTables TaskOp TaskOp.Ret (Except PhasegentError Unit) :=
  ⟨tables, fun i => (commands i).map (·.run.run)⟩

end Phasegent.Task
