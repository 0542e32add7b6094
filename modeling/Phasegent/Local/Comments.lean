import Phasegent.Local.Issues
import Phasegent.Record.Service

namespace Phasegent.Local
open Fallible Interleaving Record

def localCommentUrl (issue comment : Nat) : String :=
  "local:///issues/" ++ issue.repr ++ "#note-" ++ comment.repr

def CommentRow.toCreateOutput (row : CommentRow) : CommentOutput where
  id := row.id
  htmlUrl := some (localCommentUrl row.issueId row.id)
  marker := some row.marker
  body := none

def CommentRow.toGetOutput (row : CommentRow) : CommentOutput where
  id := row.id
  htmlUrl := some (localCommentUrl row.issueId row.id)
  marker := some row.marker
  body := some row.body

structure Bindings where
  role : String
  phase : String
  attempt : Nat

/-- The columns of a comment: a record's own fields, or the fixed ones of an ordinary comment. -/
def derivedBindings (json : HeaderJson) (body : String) : Bindings :=
  match decodeBody json body with
  | .ok (some decoded) =>
      ⟨decoded.spec.actor.asStr, decoded.spec.phase.getD "", (decoded.spec.attempt.getD 1).toNat⟩
  | _ => ⟨"executor", "", 1⟩

def insertOf (json : HeaderJson) (issue : Nat) (body marker : String) (now : Int) : Statement :=
  let bound := derivedBindings json body
  .insertComment issue bound.role bound.phase bound.attempt marker body now

def isUniqueViolation (text : String) : Bool := Text.contains "UNIQUE".toList text.toList

def insertFailure (issue : Nat) (marker text : String) : PhasegentError :=
  if isUniqueViolation text then
    .request "comment create" ("marker '" ++ marker ++ "' already exists; markers must be unique")
  else
    let error := .request "comment create" (String.ofList (text.toList.take 400))
    if mentions "FOREIGN KEY" error then notFound "comment create" issue else error

def createComment (json : HeaderJson) (issue : Nat) (body marker : String) :
    LocalM PhasegentError CommentOutput := do
  fromExcept (refuse (issue = 0) issueNumberError)
  fromExcept (refuse (marker = "") (.config "marker cannot be empty"))
  let _ ← renameFailure (renamedMissing "comment create" issue) (getIssue issue)
  let now ← nowEpochSeconds
  let id ← Interleaving.request (.sql (insertOf json issue body marker now)) fun result =>
    result.mapError (insertFailure issue marker)
  let bound := derivedBindings json body
  let row : CommentRow := ⟨id, issue, bound.role, bound.phase, bound.attempt, marker, body⟩
  return row.toCreateOutput

def listComments (issue : Nat) : LocalM PhasegentError (List CommentOutput) := do
  fromExcept (refuse (issue = 0) issueNumberError)
  let rows ← request "comment list" (.listComments issue)
  return rows.map CommentRow.toGetOutput

def providerAct {D : Type} (act : D → (op : LocalOp) → op.Ret × D) (json : HeaderJson) (d : D) :
    (op : CommentOp) → op.Ret × D
  | .listComments issue => Sql.execute act (listComments issue).run d
  | .createComment issue body marker => Sql.execute act (createComment json issue body marker).run d

def createRecord {D : Type} (act : D → (op : LocalOp) → op.Ret × D) (json : HeaderJson) (issue : Nat)
    (spec : RecordSpec) (body : String) (d : D) : Except PhasegentError RecordOutput × D :=
  Sql.execute (providerAct act json) (Record.create json issue spec body) d

/-- `comment create` on the local store, with the checks of the command line. -/
def createOrdinary {D : Type} (act : D → (op : LocalOp) → op.Ret × D) (json : HeaderJson)
    (issue : Nat) (body marker : String) (d : D) : D :=
  if marker = "" ∨ !Text.contains marker.toList body.toList then d
  else (Sql.execute act (createComment json issue body marker).run d).2

section Histories

inductive Request where
  | createIssue (title body : String)
  | createRecord (issue : Nat) (spec : RecordSpec) (body : String)
  | createComment (issue : Nat) (body marker : String)

structure Call where
  request : Request
  clock : Int
  faults : Nat → Bool

-- Counts the statements, of which some fail without having written anything.
def faulty (clock : Int) (faults : Nat → Bool) (s : Nat × LocalDb) :
    (op : LocalOp) → op.Ret × (Nat × LocalDb)
  | .now => (clock, s)
  | .sql statement =>
      if faults s.1 then (.error "disk I/O error", (s.1 + 1, s.2))
      else ((answer clock s.2 (.sql statement)).1, (s.1 + 1, (answer clock s.2 (.sql statement)).2))

def perform (json : HeaderJson) (db : LocalDb) (call : Call) : LocalDb :=
  let act := faulty call.clock call.faults
  match call.request with
  | .createIssue title body => (Sql.execute act (createIssue title body).run (0, db)).2.2
  | .createRecord issue spec body => (createRecord act json issue spec body (0, db)).2.2
  | .createComment issue body marker => (createOrdinary act json issue body marker (0, db)).2

def LocalDb.empty : LocalDb := ⟨[], 0, [], 0⟩

def LocalDb.after (json : HeaderJson) (history : List Call) : LocalDb :=
  history.foldl (perform json) .empty

end Histories

end Phasegent.Local
