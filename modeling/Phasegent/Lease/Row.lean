import Phasegent.Task.Key

namespace Phasegent.Lease
open Fallible

def maxEchoChars : Nat := 200

def bounded (text : String) : String := String.ofList (text.toList.take maxEchoChars)

structure WorktreeError where
  kind : String
  message : String
  deriving DecidableEq, Repr

def WorktreeError.new (kind message : String) : WorktreeError := ⟨kind, bounded message⟩

-- The status column is free text; every writer of the repository stores one of the three names.
inductive LeaseStatus where
  | active | retained | released
  | other (text : String)
  deriving DecidableEq, Repr

def LeaseStatus.text : LeaseStatus → String
  | .active => "active"
  | .retained => "retained"
  | .released => "released"
  | .other text => text

inductive TerminalStatus where
  | retained | released
  deriving DecidableEq, Repr

def TerminalStatus.status : TerminalStatus → LeaseStatus
  | .retained => .retained
  | .released => .released

structure LeaseRow where
  leaseId : String
  repoIdentity : String
  issue : Int
  session : String
  checkoutPath : String
  worktreePath : String
  branch : String
  status : LeaseStatus
  createdAt : Int
  heartbeatAt : Int
  releaseReason : Option String
  deriving DecidableEq, Repr

namespace LeaseRow

-- How the decoder reads the issue column back into an unsigned number.
def issueNumber (row : LeaseRow) : Nat := row.issue.toNat

def isActive (row : LeaseRow) : Bool := row.status == .active

@[simp] theorem isActive_iff {row : LeaseRow} : row.isActive ↔ row.status = .active := beq_iff_eq

end LeaseRow

def asI64 (number : Nat) : Int := if number < 2 ^ 63 then number else number - 2 ^ 64

structure NewLease where
  leaseId : String
  identity : String
  issue : Nat
  session : String
  checkoutPath : String
  worktreePath : String
  branch : String
  status : LeaseStatus
  createdAt : Int
  heartbeatAt : Int
  deriving DecidableEq, Repr

def NewLease.row (lease : NewLease) : LeaseRow where
  leaseId := lease.leaseId
  repoIdentity := lease.identity
  issue := asI64 lease.issue
  session := lease.session
  checkoutPath := lease.checkoutPath
  worktreePath := lease.worktreePath
  branch := lease.branch
  status := lease.status
  createdAt := lease.createdAt
  heartbeatAt := lease.heartbeatAt
  releaseReason := none

structure ScopeRow where
  leaseId : String
  provider : String
  project : String
  externalId : Int
  taskId : Option Int
  createdAt : Int
  deriving DecidableEq, Repr

structure MembershipRow where
  repoKey : String
  taskId : Int
  createdAt : Int
  deriving DecidableEq, Repr

structure AcquireOutcome where
  leaseId : String
  path : String
  branch : String
  repoIdentity : String
  created : Bool
  reason : String
  warnings : List String
  deriving DecidableEq, Repr

structure ReleaseOutcome where
  leaseId : String
  status : LeaseStatus
  forced : Bool
  reason : Option String
  deriving DecidableEq, Repr

end Phasegent.Lease
