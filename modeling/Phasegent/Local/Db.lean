import Mathlib
import Phasegent.Interleaving.Effects
import Phasegent.Sql.Table
import Phasegent.Sql.Transaction
import Phasegent.Record.Store

namespace Phasegent.Local
open Fallible Interleaving

structure IssueRow where
  id : Nat
  title : String
  body : String
  status : String
  closedAt : Option Int
  deriving DecidableEq, Repr

structure CommentRow where
  id : Nat
  issueId : Nat
  role : String
  phase : String
  attempt : Nat
  marker : String
  body : String
  deriving DecidableEq, Repr

structure LocalDb where
  issues : List IssueRow
  lastIssue : Nat
  comments : List CommentRow
  lastComment : Nat
  deriving DecidableEq, Repr

def i64Max : Nat := 2 ^ 63 - 1

section Statements

/-- The named statements of `queries.sql` that the issue and comment operations use. -/
inductive Statement where
  | getIssueById (id : Nat)
  | getIssueStatus (id : Nat)
  | insertIssue (title body status : String) (now : Int)
  | updateIssueBody (body : String) (now : Int) (id : Nat)
  | closeIssue (now closedAt : Int) (id : Nat)
  | updateIssueStatus (status : String) (now : Int) (closedAt : Option Int) (id : Nat)
  | insertComment (issue : Nat) (role phase : String) (attempt : Nat) (marker body : String) (now : Int)
  | listComments (issue : Nat)
  deriving DecidableEq

namespace Statement

abbrev Value : Statement → Type
  | .getIssueById _ => IssueRow
  | .getIssueStatus _ => String
  | .insertIssue .. | .insertComment .. => Nat
  | .updateIssueBody .. | .closeIssue .. | .updateIssueStatus .. => Nat
  | .listComments _ => List CommentRow

def queryReturnedNoRows : String := "Query returned no rows"

def constraint (kind column : String) : String := kind ++ " constraint failed: " ++ column

def issueChecks (status : String) (now : Int) (closedAt : Option Int) : Except String Unit := do
  refuse (status = "" ∨ 64 < status.length) (constraint "CHECK" "status")
  refuse (now ≤ 0) (constraint "CHECK" "updated_at")
  refuse (closedAt.any (· ≤ 0)) (constraint "CHECK" "closed_at")

def whenChanged (rows : Nat) (checks : Except String Unit) : Except String Unit :=
  if rows = 0 then .ok () else checks

def find (db : LocalDb) (id : Nat) : Except String IssueRow :=
  match db.issues.find? fun row => row.id = id with
  | some row => .ok row
  | none => .error queryReturnedNoRows

def changed (db : LocalDb) (id : Nat) : Nat := (db.issues.filter fun row => row.id = id).length

def editIssue (db : LocalDb) (id : Nat) (set : IssueRow → IssueRow) : LocalDb :=
  { db with issues := Sql.update (fun row => row.id = id) set db.issues }

def run : (statement : Statement) → LocalDb → Except String (statement.Value × LocalDb)
  | .getIssueById id, db => return (← find db id, db)
  | .getIssueStatus id, db => return ((← find db id).status, db)
  | .insertIssue title body status now, db => do
      refuse (title = "" ∨ 1024 < title.length) (constraint "CHECK" "title")
      issueChecks status now none
      refuse (i64Max ≤ db.lastIssue) "database or disk is full"
      let id := db.lastIssue + 1
      return (id, { db with issues := db.issues ++ [⟨id, title, body, status, none⟩], lastIssue := id })
  | .updateIssueBody body now id, db => do
      whenChanged (changed db id) (refuse (now ≤ 0) (constraint "CHECK" "updated_at"))
      return (changed db id, editIssue db id fun row => { row with body := body })
  | .closeIssue now closedAt id, db => do
      whenChanged (changed db id) (issueChecks "Closed" now (some closedAt))
      return (changed db id,
        editIssue db id fun row => { row with status := "Closed", closedAt := some closedAt })
  | .updateIssueStatus status now closedAt id, db => do
      whenChanged (changed db id) (issueChecks status now closedAt)
      return (changed db id, editIssue db id fun row => { row with status := status, closedAt := closedAt })
  | .insertComment issue role phase attempt marker body now, db => do
      refuse (role = "" ∨ attempt = 0 ∨ marker = "" ∨ now ≤ 0) (constraint "CHECK" "local_comments")
      refuse (db.comments.any fun row => row.marker = marker)
        (constraint "UNIQUE" "local_comments.marker")
      refuse (!db.issues.any fun row => row.id = issue) (constraint "FOREIGN KEY" "local_comments")
      refuse (i64Max ≤ db.lastComment) "database or disk is full"
      let id := db.lastComment + 1
      return (id, { db with
        comments := db.comments ++ [⟨id, issue, role, phase, attempt, marker, body⟩]
        lastComment := id })
  | .listComments issue, db => return (db.comments.filter fun row => row.issueId = issue, db)

end Statement

end Statements

inductive LocalOp where
  | now
  | sql (statement : Statement)

abbrev LocalOp.Ret : LocalOp → Type
  | .now => Int
  | .sql statement => Except String statement.Value

abbrev LocalM := Attempt LocalOp LocalOp.Ret

/-- A statement runs or fails for a reason of its own; a failed one writes nothing. -/
inductive LocalStep : LocalDb → (op : LocalOp) → op.Ret → LocalDb → Prop
  | now {db : LocalDb} (clock : Int) : LocalStep db .now clock db
  | done {db db' : LocalDb} {statement : Statement} {value : statement.Value}
      (ran : statement.run db = .ok (value, db')) : LocalStep db (.sql statement) (.ok value) db'
  | failed {db : LocalDb} {statement : Statement} (text : String) :
      LocalStep db (.sql statement) (.error text) db

def localWorld : World LocalDb LocalOp LocalOp.Ret where
  step _ := LocalStep
  crash _ db db' := db' = db

def answer (clock : Int) (db : LocalDb) : (op : LocalOp) → op.Ret × LocalDb
  | .now => (clock, db)
  | .sql statement =>
      match statement.run db with
      | .ok (value, db') => (.ok value, db')
      | .error text => (.error text, db)

theorem answer_sound (clock : Int) (db : LocalDb) (op : LocalOp) :
    LocalStep db op (answer clock db op).1 (answer clock db op).2 := by
  cases op with
  | now => exact .now clock
  | sql statement =>
      cases ran : statement.run db with
      | ok done =>
          simp only [answer, ran]
          exact .done ran
      | error text =>
          simp only [answer, ran]
          exact .failed text

section Provider

def request (operation : String) (statement : Statement) : LocalM PhasegentError statement.Value :=
  Interleaving.request (.sql statement) fun result =>
    result.mapError fun text => .request operation (String.ofList (text.toList.take 400))

def nowEpochSeconds : LocalM PhasegentError Int :=
  Interleaving.request .now fun clock => .ok clock

def mentions (phrase : String) (error : PhasegentError) : Bool :=
  Text.contains phrase.toList error.message.toList

def isNoRows (error : PhasegentError) : Bool :=
  mentions "QueryReturnedNoRows" error || mentions "no rows" error

def notFound (operation : String) (number : Nat) : PhasegentError :=
  .notFound operation ("issue " ++ number.repr ++ " was not found")

def matchNotFound (operation : String) (number : Nat) (error : PhasegentError) : PhasegentError :=
  if isNoRows error then notFound operation number else error

def expectChange (operation : String) (changed : Nat) : Except PhasegentError Unit :=
  refuse (changed = 0) (.request operation Statement.queryReturnedNoRows)

def issueNumberError : PhasegentError := .config "issue number must be greater than zero"

end Provider

end Phasegent.Local
