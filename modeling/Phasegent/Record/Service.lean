import Phasegent.Record.Store
import Phasegent.Interleaving.RelyGuarantee

namespace Phasegent.Record
open Interleaving

inductive CommentOp where
  | listComments (issue : Nat)
  | createComment (issue : Nat) (body marker : String)

abbrev CommentOp.Ret : CommentOp → Type
  | .listComments _ => Except PhasegentError (List CommentOutput)
  | .createComment .. => Except PhasegentError CommentOutput

abbrev CommentM := Prog CommentOp CommentOp.Ret

def ask (op : CommentOp) : CommentM op.Ret := .call op .done

def operation : String := "record create"

def recoveryAttempts : Nat := 3

inductive Lookup where
  | absent
  | found (output : RecordOutput)
  | conflict (error : PhasegentError)

def classify (issue : Nat) (spec : RecordSpec) (body : String) : List StoredRecord → Lookup
  | [] => .absent
  | [record] =>
      if sameRequest record spec body then .found record.output
      else .conflict (.request operation ("request key '" ++ spec.key ++
        "' already identifies a different record on issue " ++ issue.repr ++
        "; reuse the key only to retry the identical request"))
  | many => .conflict (.request operation ("request key '" ++ spec.key ++ "' matches " ++
      many.length.repr ++ " records on issue " ++ issue.repr ++
      "; resolve the duplicate before retrying"))

def ownedByKey (json : HeaderJson) (issue : Nat) (key : String) :
    CommentM (Except PhasegentError (List StoredRecord)) := do
  match ← ask (.listComments issue) with
  | .error error => return .error error
  | .ok comments =>
      return (decodeAll json issue comments).map (·.filter fun stored => stored.spec.key == key)

inductive ConfirmFailure where
  | unconfirmed
  | conflict (error : PhasegentError)
  | unreadable

def confirm (json : HeaderJson) (issue : Nat) (spec : RecordSpec) (body : String) :
    Nat → CommentM (Except ConfirmFailure RecordOutput)
  | 0 => return .error .unconfirmed
  | attempts + 1 => do
      match ← ownedByKey json issue spec.key with
      -- A read that failed stays uncertainty; it is never a negative answer.
      | .error _ => return .error .unreadable
      | .ok records =>
          match classify issue spec body records with
          | .found output => return .ok output
          | .conflict error => return .error (.conflict error)
          | .absent => confirm json issue spec body attempts

def unconfirmed (spec : RecordSpec) (issue : Nat) : PhasegentError :=
  .request operation ("the write for request key '" ++ spec.key ++ "' on issue " ++ issue.repr ++
    " was not confirmed by an exact record read; no equal record was found")

def isUncertain : PhasegentError → Bool
  | .request .. | .decode .. | .notFound .. | .pagination .. => true
  | .http _ status _ => 500 ≤ status
  | .config _ | .auth _ | .notSupported .. => false

def settle (fallback : PhasegentError) :
    Except ConfirmFailure RecordOutput → Except PhasegentError RecordOutput
  | .ok record => .ok record
  | .error (.conflict error) => .error error
  | .error .unconfirmed | .error .unreadable => .error fallback

def write (json : HeaderJson) (issue : Nat) (spec : RecordSpec) (body stored : String) :
    CommentM (Except PhasegentError RecordOutput) := do
  let marker := String.ofList (Text.firstLine stored.toList)
  match ← ask (.createComment issue stored marker) with
  | .ok _ =>
      return settle (unconfirmed spec issue) (← confirm json issue spec body recoveryAttempts)
  | .error error =>
      if isUncertain error then
        return settle error (← confirm json issue spec body recoveryAttempts)
      else return .error error

def create (json : HeaderJson) (issue : Nat) (spec : RecordSpec) (body : String) :
    CommentM (Except PhasegentError RecordOutput) := do
  match spec.encodeBody json body with
  | .error message => return .error (.config message)
  | .ok stored =>
      match ← ownedByKey json issue spec.key with
      | .error error => return .error error
      | .ok records =>
          match classify issue spec body records with
          | .found output => return .ok output
          | .conflict error => return .error error
          | .absent => write json issue spec body stored

end Phasegent.Record
