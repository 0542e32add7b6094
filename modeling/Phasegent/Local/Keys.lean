import Phasegent.Local.Comments
import Phasegent.Local.Transitions
import Phasegent.Record.Codec
import Phasegent.Record.Ownership

namespace Phasegent.Local
open Fallible Interleaving Record

variable {json : HeaderJson} {db db' : LocalDb} {clock : Int} {issue : Nat} {key : String}
  {spec : RecordSpec} {body stored marker : String} {recs : List StoredRecord}

section Database

def LocalDb.commentsOf (db : LocalDb) (issue : Nat) : List CommentOutput :=
  (db.comments.filter fun row => row.issueId = issue).map CommentRow.toGetOutput

def LocalDb.Positive (db : LocalDb) : Prop := ∀ row ∈ db.issues, 0 < row.id

theorem positive_run {statement : Statement} {value : statement.Value} (positive : db.Positive)
    (ran : statement.run db = .ok (value, db')) : db'.Positive := by
  intro row' member
  obtain rows | ⟨_, _, _, _, _, rows⟩ | ⟨target, set, edits, rows⟩ := run_cases ran
  · exact positive row' (rows ▸ member)
  · rw [rows] at member
    obtain old | new := List.mem_append.mp member
    · exact positive row' old
    · rw [List.mem_singleton.mp new]
      exact Nat.succ_pos _
  · rw [rows] at member
    obtain ⟨row, among, rfl⟩ := List.mem_map.mp member
    split
    · rw [edits.ids row]
      exact positive row among
    · exact positive row among

theorem positive_faulty (clock : Int) (faults : Nat → Bool) (s : Nat × LocalDb) (op : LocalOp)
    (positive : s.2.Positive) : (faulty clock faults s op).2.2.Positive := by
  cases op with
  | now => exact positive
  | sql statement =>
      simp only [faulty]
      split
      · exact positive
      · simp only [answer]
        split
        · next ran => exact positive_run positive ran
        · exact positive

theorem positive_after (history : List Call) : (LocalDb.after json history).Positive := by
  suffices onward : ∀ (calls : List Call) (db : LocalDb), db.Positive →
      (calls.foldl (perform json) db).Positive from
    onward history .empty fun _ impossible => nomatch impossible
  intro calls
  induction calls with
  | nil => exact fun _ positive => positive
  | cons call rest ih =>
      intro db positive
      apply ih
      have keeps := positive_faulty call.clock call.faults
      have comments : ∀ (s : Nat × LocalDb) (op : CommentOp), s.2.Positive →
          (providerAct (faulty call.clock call.faults) json s op).2.2.Positive := by
        intro s op holds
        cases op with
        | listComments issue => exact Sql.execute_invariant keeps _ holds
        | createComment issue body marker => exact Sql.execute_invariant keeps _ holds
      unfold perform
      cases call.request with
      | createIssue title body => exact Sql.execute_invariant (I := fun s : Nat × LocalDb => s.2.Positive) keeps _ positive
      | createRecord issue spec body =>
          exact Sql.execute_invariant (I := fun s : Nat × LocalDb => s.2.Positive) comments _ positive
      | createComment issue body marker =>
          simp only [createOrdinary]
          split
          · exact positive
          · exact Sql.execute_invariant (I := fun s : Nat × LocalDb => s.2.Positive) keeps _ positive

end Database

section Executions

theorem execute_listComments (known : issue ≠ 0) :
    Sql.execute (answer clock) (listComments issue).run db = (.ok (db.commentsOf issue), db) := by
  simp [listComments, refuse, known, fromExcept, request, Interleaving.request, Sql.execute,
    answer, Statement.run, LocalDb.commentsOf, Except.mapError]

theorem find_ok (present : ∃ row ∈ db.issues, row.id = issue) :
    ∃ row, Statement.find db issue = .ok row := by
  obtain ⟨row, among, named⟩ := present
  unfold Statement.find
  cases found : db.issues.find? fun row => row.id = issue with
  | some row => exact ⟨row, rfl⟩
  | none => exact absurd named (by simpa using List.find?_eq_none.mp found row among)

theorem execute_getIssue (clock : Int) (known : issue ≠ 0) (present : ∃ row ∈ db.issues, row.id = issue) :
    ∃ summary, Sql.execute (answer clock) (getIssue issue).run db = (.ok summary, db) := by
  obtain ⟨row, found⟩ := find_ok present
  have admitted : refuse (issue = 0) issueNumberError = .ok () := by simpa using known
  have ran : (Statement.getIssueById issue).run db = .ok (row, db) := by simp [Statement.run, found]
  refine ⟨row.intoSummary, ?_⟩
  rw [getIssue, Sql.execute_bind_ok (Sql.execute_fromExcept _ |>.trans (by rw [admitted]))]
  have read : Sql.execute (answer clock) (renameFailure (matchNotFound "issue get" issue)
      (request "issue get" (.getIssueById issue))).run db = (.ok row, db) := by
    rw [Sql.execute_renameFailure, request, Sql.execute_request, answer, ran]
    rfl
  rw [Sql.execute_bind_ok read]
  rfl

theorem execute_createComment (json : HeaderJson) (clock : Int) (body : String) (known : issue ≠ 0)
    (present : ∃ row ∈ db.issues, row.id = issue)
    (named : marker ≠ "") :
    (∃ output id db', (insertOf json issue body marker clock).run db = .ok (id, db') ∧
      Sql.execute (answer clock) (createComment json issue body marker).run db = (.ok output, db')) ∨
    ∃ text, (insertOf json issue body marker clock).run db = .error text ∧
      Sql.execute (answer clock) (createComment json issue body marker).run db =
        (.error (insertFailure issue marker text), db) := by
  obtain ⟨summary, found⟩ := execute_getIssue clock known present
  have admitted : refuse (issue = 0) issueNumberError = .ok () := by simpa using known
  have marked : refuse (marker = "") (PhasegentError.config "marker cannot be empty") = .ok () := by
    simpa using named
  have exists' : Sql.execute (answer clock) (renameFailure (renamedMissing "comment create" issue)
      (getIssue issue)).run db = (.ok summary, db) := by
    rw [Sql.execute_renameFailure, found]
    rfl
  have time : Sql.execute (answer clock) nowEpochSeconds.run db = (.ok clock, db) := rfl
  rw [createComment, Sql.execute_bind_ok (Sql.execute_fromExcept _ |>.trans (by rw [admitted])),
    Sql.execute_bind_ok (Sql.execute_fromExcept _ |>.trans (by rw [marked])),
    Sql.execute_bind_ok exists', Sql.execute_bind_ok time]
  cases ran : (insertOf json issue body marker clock).run db with
  | ok done =>
      obtain ⟨id, db'⟩ := done
      have inserted : answer clock db (.sql (insertOf json issue body marker clock)) =
          (.ok id, db') := by
        simp only [answer, ran]
      have stored : Sql.execute (answer clock) (Interleaving.request
          (.sql (insertOf json issue body marker clock)) fun result =>
            result.mapError (insertFailure issue marker)).run db = (.ok id, db') := by
        rw [Sql.execute_request, inserted]
        rfl
      exact .inl ⟨_, id, db', rfl, (Sql.execute_bind_ok stored).trans rfl⟩
  | error text =>
      have failed : answer clock db (.sql (insertOf json issue body marker clock)) =
          (.error text, db) := by
        simp only [answer, ran]
      refine .inr ⟨text, rfl, ?_⟩
      apply Sql.execute_bind_error
      rw [Sql.execute_request, failed]
      rfl

def newComment (json : HeaderJson) (db : LocalDb) (issue : Nat) (body marker : String) :
    CommentRow :=
  let bound := derivedBindings json body
  ⟨db.lastComment + 1, issue, bound.role, bound.phase, bound.attempt, marker, body⟩

def LocalDb.insert (db : LocalDb) (row : CommentRow) : LocalDb :=
  { db with comments := db.comments ++ [row], lastComment := row.id }

structure Insertable (json : HeaderJson) (db : LocalDb) (issue : Nat) (body marker : String)
    (clock : Int) : Prop where
  columns : (derivedBindings json body).role ≠ "" ∧ (derivedBindings json body).attempt ≠ 0 ∧ marker ≠ ""
  started : 0 < clock
  unique : ∀ row ∈ db.comments, row.marker ≠ marker
  present : ∃ row ∈ db.issues, row.id = issue
  free : db.lastComment < i64Max

theorem insert_ok_iff {id : Nat} :
    (insertOf json issue body marker clock).run db = .ok (id, db') ↔
      Insertable json db issue body marker clock ∧ id = db.lastComment + 1 ∧
        db' = db.insert (newComment json db issue body marker) := by
  simp only [insertOf, Statement.run, bind_eq_ok, refuse_eq_ok, pure_eq, Except.ok.injEq,
    Prod.mk.injEq, exists_and_left, exists_const]
  constructor
  · rintro ⟨columns, unique, present, free, rfl, rfl⟩
    simp only [not_or, not_le] at columns free
    simp at unique present
    exact ⟨⟨⟨columns.1, columns.2.1, columns.2.2.1⟩, columns.2.2.2, unique, present, free⟩, rfl, rfl⟩
  · rintro ⟨⟨⟨role, attempt, named⟩, started, unique, present, free⟩, rfl, rfl⟩
    refine ⟨?_, ?_, ?_, ?_, rfl, rfl⟩
    · simp [role, attempt, named, started]
    · simpa using unique
    · simpa using present
    · simpa using free

end Executions

section Records

def keyedRecord (json : HeaderJson) (key : String) (row : CommentRow) : Option DecodedRecord :=
  match decodeBody json row.body with
  | .ok (some record) => if record.spec.key = key then some record else none
  | _ => none

def LocalDb.recordsOf (json : HeaderJson) (db : LocalDb) (issue : Nat) (key : String) :
    List DecodedRecord :=
  (db.comments.filter fun row => row.issueId = issue).filterMap (keyedRecord json key)

theorem decodeAll_keyed {rows : List CommentRow} (key : String)
    (decoded : decodeAll json issue (rows.map CommentRow.toGetOutput) = .ok recs) :
    (recs.filter fun record => record.spec.key == key).map
      (fun record => (⟨record.spec, record.output.body⟩ : DecodedRecord)) =
        rows.filterMap (keyedRecord json key) := by
  induction rows generalizing recs with
  | nil =>
      obtain rfl : [] = recs := by simpa [decodeAll] using decoded
      rfl
  | cons row rest ih =>
      obtain ⟨head, tail, one, later, rfl⟩ := decodeAll_cons.mp decoded
      rw [List.filter_append, List.map_append, ih later, List.filterMap_cons]
      cases read : decodeBody json row.body with
      | error text => simp [decodeOne, CommentRow.toGetOutput, read, Except.mapError] at one
      | ok found =>
          cases found with
          | none =>
              obtain rfl : none = head := by
                simpa [decodeOne, CommentRow.toGetOutput, read, Except.mapError] using one
              simp [keyedRecord, read]
          | some record =>
              obtain rfl : some ⟨record.spec, record.output issue row.toGetOutput⟩ = head := by
                simpa [decodeOne, CommentRow.toGetOutput, read, Except.mapError] using one
              by_cases own : record.spec.key = key <;>
                simp [keyedRecord, read, own, DecodedRecord.output]

end Records

section Service

theorem execute_ownedByKey (json : HeaderJson) (clock : Int) (db : LocalDb) (key : String)
    (known : issue ≠ 0) :
    Sql.execute (providerAct (answer clock) json) (ownedByKey json issue key) db =
      ((decodeAll json issue (db.commentsOf issue)).map
        (·.filter fun record => record.spec.key == key), db) := by
  simp [ownedByKey, ask, bind, Prog.bind, Sql.execute, providerAct, execute_listComments known, pure]

theorem execute_confirm_found (known : issue ≠ 0) {output : RecordOutput} {attempts : Nat}
    (decoded : decodeAll json issue (db.commentsOf issue) = .ok recs)
    (found : classify issue spec body (recs.filter fun record => record.spec.key == spec.key) =
      .found output) :
    Sql.execute (providerAct (answer clock) json) (confirm json issue spec body (attempts + 1)) db =
      (.ok output, db) := by
  have read := execute_ownedByKey json clock db spec.key known
  rw [confirm]
  change Sql.execute _ (Prog.bind _ _) db = _
  rw [Sql.execute_bind, read, decoded]
  simp only [Except.map, found]
  rfl

theorem execute_confirm_absent (known : issue ≠ 0) (attempts : Nat)
    (decoded : decodeAll json issue (db.commentsOf issue) = .ok recs)
    (absent : classify issue spec body (recs.filter fun record => record.spec.key == spec.key) =
      .absent) :
    Sql.execute (providerAct (answer clock) json) (confirm json issue spec body attempts) db =
      (.error .unconfirmed, db) := by
  induction attempts with
  | zero => rfl
  | succ attempts ih =>
      have read := execute_ownedByKey json clock db spec.key known
      rw [confirm]
      change Sql.execute _ (Prog.bind _ _) db = _
      rw [Sql.execute_bind, read, decoded]
      simp only [Except.map, absent]
      exact ih

theorem isUncertain_insertFailure (issue : Nat) (marker text : String) :
    isUncertain (insertFailure issue marker text) := by
  unfold insertFailure notFound
  split
  · rfl
  · dsimp only
    split <;> rfl

def markerOf (stored : String) : String := String.ofList (Text.firstLine stored.toList)

section Requests
variable (encoded : spec.encodeBody json body = .ok stored) (known : issue ≠ 0)
include encoded known

theorem create_unreadable {error : PhasegentError}
    (undecoded : decodeAll json issue (db.commentsOf issue) = .error error) :
    createRecord (answer clock) json issue spec body db = (.error error, db) := by
  have read := execute_ownedByKey json clock db spec.key known
  rw [createRecord, Record.create, encoded]
  change Sql.execute _ (Prog.bind _ _) db = _
  rw [Sql.execute_bind, read, undecoded]
  rfl

theorem create_kept {output : RecordOutput}
    (decoded : decodeAll json issue (db.commentsOf issue) = .ok recs)
    (found : classify issue spec body (recs.filter fun record => record.spec.key == spec.key) =
      .found output) :
    createRecord (answer clock) json issue spec body db = (.ok output, db) := by
  have read := execute_ownedByKey json clock db spec.key known
  rw [createRecord, Record.create, encoded]
  change Sql.execute _ (Prog.bind _ _) db = _
  rw [Sql.execute_bind, read, decoded]
  simp only [Except.map, found]
  rfl

theorem create_written (decoded : decodeAll json issue (db.commentsOf issue) = .ok recs)
    (absent : recs.filter (fun record => record.spec.key == spec.key) = []) :
    createRecord (answer clock) json issue spec body db =
      Sql.execute (providerAct (answer clock) json) (Record.write json issue spec body stored) db := by
  have read := execute_ownedByKey json clock db spec.key known
  rw [createRecord, Record.create, encoded]
  change Sql.execute _ (Prog.bind _ _) db = _
  rw [Sql.execute_bind, read, decoded]
  simp only [Except.map, absent, classify]

end Requests

@[simp] theorem commentsOf_insert_own (db : LocalDb) (row : CommentRow) :
    (db.insert row).commentsOf row.issueId = db.commentsOf row.issueId ++ [row.toGetOutput] := by
  simp [LocalDb.commentsOf, LocalDb.insert]

theorem commentsOf_insert_other {row : CommentRow} {other : Nat} (apart : other ≠ row.issueId) :
    (db.insert row).commentsOf other = db.commentsOf other := by
  simp [LocalDb.commentsOf, LocalDb.insert, Ne.symm apart]

def recordOutput (json : HeaderJson) (db : LocalDb) (issue : Nat) (spec : RecordSpec)
    (body stored : String) : RecordOutput :=
  DecodedRecord.output ⟨spec, body⟩ issue (newComment json db issue stored (markerOf stored)).toGetOutput

theorem classify_inserted
    (read : decodeBody json stored = .ok (some ⟨spec, body⟩))
    (decoded : decodeAll json issue (db.commentsOf issue) = .ok recs)
    (absent : recs.filter (fun record => record.spec.key == spec.key) = []) :
    ∃ recs', decodeAll json issue ((db.insert (newComment json db issue stored
        (markerOf stored))).commentsOf issue) = .ok recs' ∧
      classify issue spec body (recs'.filter fun record => record.spec.key == spec.key) =
        .found (recordOutput json db issue spec body stored) := by
  have last : decodeAll json issue
      [(newComment json db issue stored (markerOf stored)).toGetOutput] =
        .ok [⟨spec, recordOutput json db issue spec body stored⟩] := by
    simp [decodeAll, decodeOne, CommentRow.toGetOutput, newComment, read, Except.mapError, recordOutput]
  have same := commentsOf_insert_own db (newComment json db issue stored (markerOf stored))
  refine ⟨_, (congrArg _ same).trans (decodeAll_append decoded last), ?_⟩
  simp [absent, classify, sameRequest, recordOutput, DecodedRecord.output]

/-- After the insert the service reads until it finds the record, whatever the insert answered. -/
theorem execute_write {db' : LocalDb} {answered : Except PhasegentError CommentOutput}
    (asked : Sql.execute (answer clock) (createComment json issue stored (markerOf stored)).run db =
      (answered, db')) :
    Sql.execute (providerAct (answer clock) json) (Record.write json issue spec body stored) db =
      match answered with
      | .ok _ => (settle (unconfirmed spec issue) (Sql.execute (providerAct (answer clock) json)
          (confirm json issue spec body recoveryAttempts) db').1,
          (Sql.execute (providerAct (answer clock) json)
            (confirm json issue spec body recoveryAttempts) db').2)
      | .error error =>
          if isUncertain error then
            (settle error (Sql.execute (providerAct (answer clock) json)
              (confirm json issue spec body recoveryAttempts) db').1,
              (Sql.execute (providerAct (answer clock) json)
                (confirm json issue spec body recoveryAttempts) db').2)
          else (.error error, db') := by
  have call : providerAct (answer clock) json db
      (.createComment issue stored (String.ofList (Text.firstLine stored.toList))) =
        (answered, db') := asked
  rw [Record.write]
  change Sql.execute _ (Prog.bind _ _) db = _
  rw [Sql.execute_bind, ask, Sql.execute, call]
  cases answered with
  | ok comment =>
      change Sql.execute _ (Prog.bind _ _) db' = _
      rw [Sql.execute_bind]
      rfl
  | error error =>
      by_cases uncertain : isUncertain error
      · simp only [Sql.execute, uncertain, if_true]
        change Sql.execute _ (Prog.bind _ _) db' = _
        rw [Sql.execute_bind]
        rfl
      · simp only [Sql.execute, uncertain]
        rfl

section Writes
variable (encoded : spec.encodeBody json body = .ok stored) (known : issue ≠ 0)
  (present : ∃ row ∈ db.issues, row.id = issue) (named : markerOf stored ≠ "")
  (decoded : decodeAll json issue (db.commentsOf issue) = .ok recs)
  (absent : recs.filter (fun record => record.spec.key == spec.key) = [])
include encoded known present named decoded absent

theorem create_stored (read : decodeBody json stored = .ok (some ⟨spec, body⟩))
    (admitted : Insertable json db issue stored (markerOf stored) clock) :
    createRecord (answer clock) json issue spec body db =
      (.ok (recordOutput json db issue spec body stored),
        db.insert (newComment json db issue stored (markerOf stored))) := by
  have ran := insert_ok_iff.mpr ⟨admitted, rfl, rfl⟩
  obtain ⟨recs', decoded', found⟩ := classify_inserted read decoded absent
  rw [create_written encoded known decoded absent]
  obtain ⟨output, id, db', inserted, answered⟩ | ⟨text, failed, -⟩ :=
    execute_createComment json clock stored known present named
  · obtain ⟨-, -, rfl⟩ := insert_ok_iff.mp inserted
    rw [execute_write answered, recoveryAttempts, execute_confirm_found known decoded' found]
    rfl
  · rw [ran] at failed
    cases failed

theorem create_refused (refused : ¬Insertable json db issue stored (markerOf stored) clock) :
    ∃ error, createRecord (answer clock) json issue spec body db = (.error error, db) := by
  have empty : classify issue spec body (recs.filter fun record => record.spec.key == spec.key) =
      .absent := by
    rw [absent]
    rfl
  rw [create_written encoded known decoded absent]
  obtain ⟨output, id, db', inserted, -⟩ | ⟨text, -, answered⟩ :=
    execute_createComment json clock stored known present named
  · exact absurd (insert_ok_iff.mp inserted).1 refused
  · rw [execute_write answered, execute_confirm_absent known _ decoded empty]
    simp only [isUncertain_insertFailure, if_true]
    exact ⟨_, rfl⟩

end Writes

end Service

section Scope

def LocalDb.only (db : LocalDb) (issue : Nat) : LocalDb :=
  { db with comments := db.comments.filter fun row => row.issueId = issue }

/-- The record is made, once, on its own issue and regardless of any other, and making it again
answers it again. -/
def Scoped (json : HeaderJson) (clock : Int) (db : LocalDb) (issue : Nat) (spec : RecordSpec)
    (body : String) : Prop :=
  let made := createRecord (answer clock) json issue spec body db
  ∃ output, made.1 = .ok output ∧
    made.2.recordsOf json issue spec.key = [⟨spec, body⟩] ∧
    made.2.issues = db.issues ∧
    (∀ other, other ≠ issue → made.2.commentsOf other = db.commentsOf other) ∧
    (createRecord (answer clock) json issue spec body (db.only issue)).1 = .ok output ∧
    ∀ later, createRecord (answer later) json issue spec body made.2 = (.ok output, made.2)

/-- The comments of the issue can all be read, and no comment of any issue has the marker. -/
structure Room (json : HeaderJson) (clock : Int) (db : LocalDb) (issue : Nat) (spec : RecordSpec) :
    Prop where
  readable : ∃ records, decodeAll json issue (db.commentsOf issue) = .ok records
  unmarked : ∀ text, json.toString spec.header = .ok text →
    ∀ row ∈ db.comments, row.marker ≠ String.ofList (headerLine text)
  started : 0 < clock
  free : db.lastComment < i64Max

theorem recordsOf_insert (json : HeaderJson) (db : LocalDb) (key : String) (row : CommentRow) :
    (db.insert row).recordsOf json row.issueId key =
      db.recordsOf json row.issueId key ++ (keyedRecord json key row).toList := by
  cases own : keyedRecord json key row <;> simp [LocalDb.recordsOf, LocalDb.insert, own]

theorem unkeyed (decoded : decodeAll json issue (db.commentsOf issue) = .ok recs)
    (fresh : db.recordsOf json issue key = []) :
    recs.filter (fun record => record.spec.key == key) = [] := by
  have same := decodeAll_keyed key decoded
  rw [LocalDb.recordsOf] at fresh
  rw [fresh] at same
  exact List.map_eq_nil_iff.mp same

theorem attempt_positive (valid : spec.validateFields = .ok ()) : (spec.attempt.getD 1).toNat ≠ 0 := by
  simp only [RecordSpec.validateFields, bind_eq_ok] at valid
  obtain ⟨_, -, _, -, _, -, _, kind, -⟩ := valid
  cases tried : spec.attempt with
  | none => decide
  | some attempt => exact (RecordSpec.attempt_of_validateKind kind tried).ne'

theorem markerOf_stored (body : String) (faithful : json.Faithful) (valid : spec.validateFields = .ok ())
    {text : String} (written : json.toString spec.header = .ok text) :
    markerOf (headerPrefix ++ text ++ headerSuffix ++ "\n" ++ body) =
      String.ofList (headerLine text) := by
  have payload : (headerPrefix ++ text ++ headerSuffix ++ "\n" ++ body).toList =
      headerLine text ++ '\n' :: body.toList := by
    simp [headerLine]
  rw [markerOf, payload, firstLine_stored faithful valid written]

theorem insertable_of_room (valid : spec.validateFields = .ok ())
    (read : decodeBody json stored = .ok (some ⟨spec, body⟩)) (named : markerOf stored ≠ "")
    (present : ∃ row ∈ db.issues, row.id = issue) (started : 0 < clock)
    (unmarked : ∀ row ∈ db.comments, row.marker ≠ markerOf stored) (free : db.lastComment < i64Max) :
    Insertable json db issue stored (markerOf stored) clock where
  columns := by
    have actor : spec.actor.asStr ≠ "" := by cases spec.actor <;> decide
    simp only [derivedBindings, read]
    exact ⟨actor, attempt_positive valid, named⟩
  started := started
  unique := unmarked
  present := present
  free := free

theorem scoped_iff (valid : spec.validateFields = .ok ())
    (encoded : spec.encodeBody json body = .ok stored)
    (read : decodeBody json stored = .ok (some ⟨spec, body⟩)) (named : markerOf stored ≠ "")
    (known : issue ≠ 0) (present : ∃ row ∈ db.issues, row.id = issue)
    (fresh : db.recordsOf json issue spec.key = []) :
    Scoped json clock db issue spec body ↔
      (∃ recs, decodeAll json issue (db.commentsOf issue) = .ok recs) ∧
        (∀ row ∈ db.comments, row.marker ≠ markerOf stored) ∧ 0 < clock ∧ db.lastComment < i64Max := by
  constructor
  · rintro ⟨output, succeeded, -⟩
    cases decoded : decodeAll json issue (db.commentsOf issue) with
    | error e =>
        rw [create_unreadable encoded known decoded] at succeeded
        cases succeeded
    | ok recs =>
        by_cases admitted : Insertable json db issue stored (markerOf stored) clock
        · exact ⟨⟨recs, rfl⟩, admitted.unique, admitted.started, admitted.free⟩
        · obtain ⟨error, failed⟩ := create_refused encoded known present named decoded
            (unkeyed decoded fresh) admitted
          rw [failed] at succeeded
          cases succeeded
  · rintro ⟨⟨recs, decoded⟩, unmarked, started, free⟩
    have absent := unkeyed decoded fresh
    have admitted := insertable_of_room valid read named present started unmarked free
    have made := create_stored encoded known present named decoded absent read admitted
    have alone : Insertable json (db.only issue) issue stored (markerOf stored) clock :=
      insertable_of_room valid read named present started
        (fun row among => unmarked row (List.mem_filter.mp among).1) free
    have decoded' : decodeAll json issue ((db.only issue).commentsOf issue) = .ok recs := by
      simpa [LocalDb.commentsOf, LocalDb.only, List.filter_filter] using decoded
    have present' : ∃ row ∈ (db.only issue).issues, row.id = issue := present
    have made' := create_stored encoded known present' named decoded' absent read alone
    obtain ⟨recs', again, found⟩ := classify_inserted read decoded absent
    refine ⟨recordOutput json db issue spec body stored, ?_, ?_, ?_, ?_, ?_, ?_⟩
    · rw [made]
    · have rows := recordsOf_insert json db spec.key
        (newComment json db issue stored (markerOf stored))
      rw [made]
      refine rows.trans ?_
      simp [newComment, fresh, keyedRecord, read]
    · rw [made]
      rfl
    · intro other apart
      rw [made]
      exact commentsOf_insert_other apart
    · rw [made']
      rfl
    · intro later
      rw [made]
      exact create_kept encoded known again found

/-- In every state of a local database, a record with a fresh key is scoped to its issue exactly
when its header line is no comment's marker yet. -/
theorem record_key_scoped_iff (faithful : json.Faithful) (history : List Call)
    (valid : spec.validateFields = .ok ()) (plain : hasReservedPrefix body = false)
    (present : ∃ row ∈ (LocalDb.after json history).issues, row.id = issue)
    (fresh : (LocalDb.after json history).recordsOf json issue spec.key = []) :
    Scoped json clock (LocalDb.after json history) issue spec body ↔
      Room json clock (LocalDb.after json history) issue spec := by
  obtain ⟨text, written⟩ := faithful.writes spec.header (header_tokens valid)
  have encoded := encodeBody_plain valid plain written
  have line := markerOf_stored body faithful valid written
  have known : issue ≠ 0 := by
    obtain ⟨row, among, rfl⟩ := present
    exact (positive_after history row among).ne'
  have named : markerOf (headerPrefix ++ text ++ headerSuffix ++ "\n" ++ body) ≠ "" := by
    rw [line]
    intro empty
    have nothing := congrArg String.toList empty
    simp [headerLine, headerPrefix] at nothing
  have read := decodeBody_encodeBody faithful valid plain encoded
  rw [scoped_iff valid encoded read named known present fresh, line]
  constructor
  · rintro ⟨readable, unmarked, started, free⟩
    refine ⟨readable, ?_, started, free⟩
    intro text' written'
    obtain rfl : text = text' := by simpa [written] using written'
    exact unmarked
  · exact fun room => ⟨room.readable, room.unmarked text written, room.started, room.free⟩

end Scope

section Collision

def textOf (value : Option String) : List Char := (value.map String.toList).getD []

def tallyOf (value : Option UInt32) : List Char :=
  (value.map fun n => List.replicate (n.toNat + 1) '1').getD []

def fieldsOf (header : RecordHeader) : List (List Char) :=
  [List.replicate header.v.toNat '1', header.kind.asStr.toList, header.actor.toList, header.key.toList,
    textOf header.phase, tallyOf header.attempt, textOf header.review, textOf header.recon]

def ofText (text : List Char) : Option String := if text = [] then none else some (String.ofList text)

def headerOf : List (List Char) → Except String RecordHeader
  | [v, kind, actor, key, phase, attempt, review, recon] => .ok
      { v := .ofNat v.length
        kind := if kind = "executor".toList then .executor
          else if kind = "reviewer".toList then .reviewer else .recon
        actor := String.ofList actor
        key := String.ofList key
        phase := ofText phase
        attempt := if attempt = [] then none else some (.ofNat (attempt.length - 1))
        review := ofText review
        recon := ofText recon }
  | _ => .error "unsupported"

def sampleJson : HeaderJson where
  toString header :=
    if header = raceSpec.header then .ok raceText
    else .ok (String.ofList ([','].intercalate (fieldsOf header)))
  fromStr text :=
    if text = raceText then .ok raceSpec.header else headerOf (text.toList.splitOn ',')

theorem mem_intercalate {c mark : Char} {parts : List (List Char)}
    (among : c ∈ [mark].intercalate parts) : c = mark ∨ ∃ part ∈ parts, c ∈ part := by
  induction parts with
  | nil => simp at among
  | cons part rest ih =>
      cases rest with
      | nil => exact .inr ⟨part, List.mem_cons_self, by simpa using among⟩
      | cons next rest =>
          rw [List.intercalate_cons_cons, List.append_assoc] at among
          obtain own | sep := List.mem_append.mp among
          · exact .inr ⟨part, List.mem_cons_self, own⟩
          · obtain mark' | later := List.mem_append.mp sep
            · exact .inl (List.mem_singleton.mp mark')
            · obtain same | ⟨own, inside, own'⟩ := ih later
              · exact .inl same
              · exact .inr ⟨own, List.mem_cons_of_mem _ inside, own'⟩

theorem token_plain {text : String} (token : isToken text) {c : Char} (own : c ∈ text.toList) :
    isTokenChar c := by
  simp only [isToken, Bool.and_eq_true, List.all_eq_true] at token
  exact token.2 c own

theorem textOf_plain {value : Option String} (tokens : ∀ text ∈ value, isToken text) {c : Char}
    (own : c ∈ textOf value) : isTokenChar c := by
  cases value with
  | none => cases own
  | some text => exact token_plain (tokens text rfl) own

theorem tally_plain {c : Char} {n : Nat} (own : c ∈ List.replicate n '1') : isTokenChar c := by
  obtain rfl := List.eq_of_mem_replicate own
  decide

theorem fields_plain {header : RecordHeader} (tokens : header.Tokens) {field : List Char}
    (among : field ∈ fieldsOf header) {c : Char} (own : c ∈ field) : isTokenChar c := by
  obtain ⟨actor, key, phase, review, recon⟩ := tokens
  have kinds : ∀ kind : RecordKind, isToken kind.asStr := by
    intro kind
    cases kind <;> decide +kernel
  simp only [fieldsOf, List.mem_cons, List.not_mem_nil, or_false] at among
  obtain rfl | rfl | rfl | rfl | rfl | rfl | rfl | rfl := among
  · exact tally_plain own
  · exact token_plain (kinds header.kind) own
  · exact token_plain actor own
  · exact token_plain key own
  · exact textOf_plain phase own
  · cases tried : header.attempt with
    | none => simp [tallyOf, tried] at own
    | some n =>
        have written : tallyOf header.attempt = List.replicate (n.toNat + 1) '1' := by
          simp [tallyOf, tried]
        exact tally_plain (written ▸ own)
  · exact textOf_plain review own
  · exact textOf_plain recon own

theorem ofText_textOf {value : Option String} (tokens : ∀ text ∈ value, isToken text) :
    ofText (textOf value) = value := by
  cases value with
  | none => rfl
  | some text =>
      have nonempty : text.toList ≠ [] := by
        have token := tokens text rfl
        simp only [isToken, Bool.and_eq_true] at token
        simpa using token.1.1
      simp [ofText, textOf, nonempty]

theorem headerOf_fieldsOf {header : RecordHeader} (tokens : header.Tokens) :
    headerOf (fieldsOf header) = .ok header := by
  obtain ⟨v, kind, actor, key, phase, attempt, review, recon⟩ := header
  obtain ⟨-, -, phased, reviewed, reconned⟩ := tokens
  have kinds : (if kind.asStr.toList = "executor".toList then RecordKind.executor
      else if kind.asStr.toList = "reviewer".toList then .reviewer else .recon) = kind := by
    cases kind <;> decide
  have tried : (if tallyOf attempt = [] then none
      else some (UInt32.ofNat ((tallyOf attempt).length - 1))) = attempt := by
    cases attempt <;> simp [tallyOf]
  simp only [headerOf, fieldsOf, kinds, tried, ofText_textOf phased, ofText_textOf reviewed,
    ofText_textOf reconned, String.ofList_toList, List.length_replicate, UInt32.ofNat_toNat]

theorem sampleJson_faithful : sampleJson.Faithful where
  writes header _ := by
    by_cases sample : header = raceSpec.header <;> simp [sampleJson, sample]
  reads header text tokens written := by
    by_cases sample : header = raceSpec.header
    · obtain rfl : raceText = text := by simpa [sampleJson, sample] using written
      simp [sampleJson, sample]
    · obtain rfl : String.ofList ([','].intercalate (fieldsOf header)) = text := by
        simpa [sampleJson, sample] using written
      have apart : String.ofList ([','].intercalate (fieldsOf header)) ≠ raceText := by
        intro same
        have brace : '\x7b' ∈ [','].intercalate (fieldsOf header) := by
          have chars := congrArg String.toList same
          rw [String.toList_ofList] at chars
          rw [chars]
          decide
        obtain mark | ⟨field, among, own⟩ := mem_intercalate brace
        · exact absurd mark (by decide)
        · exact absurd (fields_plain tokens among own) (by decide)
      have split : ([','].intercalate (fieldsOf header)).splitOn ',' = fieldsOf header := by
        apply List.splitOn_intercalate
        · intro field among own
          exact absurd (fields_plain tokens among own) (by decide)
        · simp [fieldsOf]
      simp [sampleJson, apart, split, headerOf_fieldsOf tokens]
  plain header text tokens written c own := by
    by_cases sample : header = raceSpec.header
    · obtain rfl : raceText = text := by simpa [sampleJson, sample] using written
      have every : raceText.toList.all (fun c => decide (isTokenChar c ∨ isJsonMark c)) := by decide
      simpa using List.all_eq_true.mp every c own
    · obtain rfl : String.ofList ([','].intercalate (fieldsOf header)) = text := by
        simpa [sampleJson, sample] using written
      rw [String.toList_ofList] at own
      obtain mark | ⟨field, among, own⟩ := mem_intercalate own
      · exact .inr (by rw [mark]; decide)
      · exact .inl (fields_plain tokens among own)

def openIssue : Call := ⟨.createIssue "Search" "", 1000, fun _ => false⟩

theorem first_key_scoped :
    Scoped sampleJson 1000 (LocalDb.after sampleJson [openIssue]) 1 raceSpec "first" := by
  obtain ⟨empty, valid, plain, present, free⟩ : (LocalDb.after sampleJson [openIssue]).comments = [] ∧
      raceSpec.validateFields = .ok () ∧ hasReservedPrefix "first" = false ∧
      (∃ row ∈ (LocalDb.after sampleJson [openIssue]).issues, row.id = 1) ∧
      (LocalDb.after sampleJson [openIssue]).lastComment < i64Max := by decide +kernel
  have room : Room sampleJson 1000 (LocalDb.after sampleJson [openIssue]) 1 raceSpec :=
    { readable := ⟨[], by decide +kernel⟩
      unmarked := by simp [empty]
      started := by decide
      free := free }
  exact (record_key_scoped_iff sampleJson_faithful [openIssue] valid plain present
    (by decide +kernel)).mpr room

/-- A second issue has no record with the key, and cannot have one. -/
theorem second_issue_refused :
    let db := LocalDb.after sampleJson
      [openIssue, openIssue, ⟨.createRecord 1 raceSpec "first", 1000, fun _ => false⟩]
    sampleJson.Faithful ∧ raceSpec.validateFields = .ok () ∧ hasReservedPrefix "second" = false ∧
      (∃ row ∈ db.issues, row.id = 2) ∧ db.recordsOf sampleJson 2 raceSpec.key = [] ∧
      (createRecord (answer 1000) sampleJson 2 raceSpec "second" db).1.isOk = false :=
  ⟨sampleJson_faithful, by decide +kernel⟩

end Collision

end Phasegent.Local
