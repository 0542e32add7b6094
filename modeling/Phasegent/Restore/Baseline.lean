import Phasegent.Provider.Endpoint

namespace Phasegent.Restore
open Fallible

def cleanEvidence : String := "git status --porcelain empty"

def isBlank (text : String) : Bool := trimText text == ""

def hasControl (text : String) : Bool := text.toList.any Text.isControl

def validateText (value field : String) : Except String Unit := do
  refuse (isBlank value) (field ++ " must be non-empty")
  refuse (hasControl value) (field ++ " must not contain control characters")

def validateTexts : List (String × String) → Except String Unit
  | [] => .ok ()
  | (value, field) :: rest => do
      validateText value field
      validateTexts rest

structure BaselineScope where
  repoKey : String
  provider : String
  project : String
  issueNumber : Nat
  checkoutPath : String
  deriving DecidableEq, Repr

def BaselineScope.new (repoKey provider project : String) (issueNumber : Nat) (checkoutPath : String) :
    Except String BaselineScope := do
  validateTexts [(repoKey, "repo_key"), (provider, "provider"), (project, "project"),
    (checkoutPath, "checkout_path")]
  refuse (issueNumber = 0) "issue_number must be greater than zero"
  return ⟨repoKey, provider, project, issueNumber, checkoutPath⟩

inductive CheckoutState where
  | pending | active | aborted
  deriving DecidableEq, Repr

inductive UpdateState where
  | none | pending | updated | skipped | failed
  deriving DecidableEq, Repr

structure BaselineRecord where
  scope : BaselineScope
  issueBranch : String
  baselineBranch : String
  baselineHead : String
  cleanEvidence : String
  defaultBranch : Option String
  recordedAt : Int
  state : CheckoutState
  updateState : UpdateState
  restoredAt : Option Int
  deriving DecidableEq, Repr

structure NewBaseline where
  scope : BaselineScope
  issueBranch : String
  baselineBranch : String
  baselineHead : String
  cleanEvidence : String
  defaultBranch : Option String
  recordedAt : Int
  deriving DecidableEq, Repr

def NewBaseline.record (new : NewBaseline) : BaselineRecord where
  scope := new.scope
  issueBranch := new.issueBranch
  baselineBranch := new.baselineBranch
  baselineHead := new.baselineHead
  cleanEvidence := new.cleanEvidence
  defaultBranch := new.defaultBranch
  recordedAt := new.recordedAt
  state := .pending
  updateState := .none
  restoredAt := none

inductive InsertOutcome where
  | created (record : BaselineRecord)
  | preserved (record : BaselineRecord)
  deriving DecidableEq, Repr

def validateDefault : Option String → Except String Unit
  | none => .ok ()
  | some branch => do
      refuse (isBlank branch) "default_branch must not be empty when present"
      refuse (hasControl branch) "default_branch must not contain control characters"

def validateNew (new : NewBaseline) : Except String Unit := do
  validateTexts [(new.issueBranch, "issue_branch"), (new.baselineBranch, "baseline_branch"),
    (new.baselineHead, "baseline_head"), (new.cleanEvidence, "clean_evidence")]
  validateDefault new.defaultBranch
  refuse (new.recordedAt ≤ 0) "recorded_at must be greater than zero"

-- The table, whose primary key is the scope.
abbrev BaselineTable := BaselineScope → Option BaselineRecord

namespace BaselineTable

def put (table : BaselineTable) (record : BaselineRecord) : BaselineTable :=
  Function.update table record.scope (some record)

def revise (table : BaselineTable) (scope : BaselineScope) (change : BaselineRecord → BaselineRecord) :
    BaselineTable :=
  Function.update table scope ((table scope).map change)

end BaselineTable

inductive BaselineOp where
  | read (scope : BaselineScope)
  | insertPending (new : NewBaseline)
  | transitionPending (scope : BaselineScope) (state : CheckoutState)
  | markRestored (scope : BaselineScope) (update : UpdateState) (now : Int)
  | setUpdateState (scope : BaselineScope) (update : UpdateState)
  deriving DecidableEq, Repr

namespace BaselineOp

def scope : BaselineOp → BaselineScope
  | .read scope => scope
  | .insertPending new => new.scope
  | .transitionPending scope _ => scope
  | .markRestored scope .. => scope
  | .setUpdateState scope _ => scope

-- A read answers with the row, a write with whether it changed one.
abbrev Ret : BaselineOp → Type
  | .read _ => Option BaselineRecord
  | _ => Bool

def change : BaselineOp → BaselineRecord → BaselineRecord
  | .transitionPending _ state, record =>
      if record.state = .pending then { record with state } else record
  | .markRestored _ update now, record =>
      { record with restoredAt := record.restoredAt <|> some now, updateState := update }
  | .setUpdateState _ update, record => { record with updateState := update }
  | _, record => record

def perform (table : BaselineTable) : (op : BaselineOp) → op.Ret × BaselineTable
  | .read scope => (table scope, table)
  | .insertPending new =>
      if (table new.scope).isSome then (false, table) else (true, table.put new.record)
  | .transitionPending scope state =>
      ((table scope).any (·.state == .pending),
        table.revise scope (change (.transitionPending scope state)))
  | .markRestored scope update now =>
      ((table scope).isSome, table.revise scope (change (.markRestored scope update now)))
  | .setUpdateState scope update =>
      ((table scope).isSome, table.revise scope (change (.setUpdateState scope update)))

end BaselineOp

end Phasegent.Restore
