import Phasegent.Record.Envelope
import Phasegent.Provider.Api
import Phasegent.Text.Fallible

namespace Phasegent.Record
open Fallible

structure CommentOutput where
  id : Nat
  htmlUrl : Option String
  marker : Option String
  body : Option String
  deriving DecidableEq, Repr

structure RecordOutput where
  id : Nat
  htmlUrl : Option String
  issue : Nat
  kind : String
  actor : String
  key : String
  phase : Option String
  attempt : Option UInt32
  review : Option String
  recon : Option String
  body : String
  deriving DecidableEq, Repr

structure StoredRecord where
  spec : RecordSpec
  output : RecordOutput
  deriving DecidableEq, Repr

def DecodedRecord.output (record : DecodedRecord) (issue : Nat) (comment : CommentOutput) :
    RecordOutput where
  id := comment.id
  htmlUrl := comment.htmlUrl
  issue := issue
  kind := record.spec.kind.asStr
  actor := record.spec.actor.asStr
  key := record.spec.key
  phase := record.spec.phase
  attempt := record.spec.attempt
  review := record.spec.review
  recon := record.spec.recon
  body := record.body

def decodeOne (json : HeaderJson) (issue : Nat) (comment : CommentOutput) :
    Except PhasegentError (Option StoredRecord) := do
  match comment.body with
  | none => return none
  | some stored =>
      match ← (decodeBody json stored).mapError (PhasegentError.decode "record read") with
      | none => return none
      | some decoded => return some ⟨decoded.spec, decoded.output issue comment⟩

def decodeAll (json : HeaderJson) (issue : Nat) :
    List CommentOutput → Except PhasegentError (List StoredRecord)
  | [] => .ok []
  | comment :: rest => do
      match ← decodeOne json issue comment with
      | none => decodeAll json issue rest
      | some record => return record :: (← decodeAll json issue rest)

def sameRequest (record : StoredRecord) (spec : RecordSpec) (body : String) : Bool :=
  record.spec == spec && record.output.body == body

theorem decodeOne_some {json : HeaderJson} {issue : Nat} {comment : CommentOutput}
    {record : StoredRecord} (decoded : decodeOne json issue comment = .ok (some record)) :
    ∃ stored body, comment.body = some stored ∧
      decodeBody json stored = .ok (some ⟨record.spec, body⟩) ∧
      record.output = DecodedRecord.output ⟨record.spec, body⟩ issue comment := by
  unfold decodeOne at decoded
  cases text : comment.body with
  | none => simp [text, pure, Except.pure] at decoded
  | some stored =>
      cases parsed : decodeBody json stored with
      | error message =>
          simp [text, parsed, Except.mapError, bind, Except.bind] at decoded
      | ok found =>
          cases found with
          | none => simp [text, parsed, Except.mapError, bind, Except.bind, pure, Except.pure] at decoded
          | some inner =>
              obtain ⟨spec, body⟩ := inner
              simp only [text, parsed, Except.mapError, bind, Except.bind, pure, Except.pure,
                Except.ok.injEq, Option.some.injEq] at decoded
              subst decoded
              exact ⟨stored, body, rfl, parsed, rfl⟩

theorem decodeAll_cons {json : HeaderJson} {issue : Nat} {comment : CommentOutput}
    {rest : List CommentOutput} {records : List StoredRecord} :
    decodeAll json issue (comment :: rest) = .ok records ↔
      ∃ head tail, decodeOne json issue comment = .ok head ∧
        decodeAll json issue rest = .ok tail ∧ records = head.toList ++ tail := by
  cases one : decodeOne json issue comment with
  | error e => simp [decodeAll, one]
  | ok head =>
      cases head with
      | none => simp [decodeAll, one]
      | some record =>
          cases tail : decodeAll json issue rest <;> simp [decodeAll, one, tail, eq_comm]

theorem decodeAll_mem {json : HeaderJson} {issue : Nat} {comments : List CommentOutput}
    {records : List StoredRecord} (decoded : decodeAll json issue comments = .ok records)
    {record : StoredRecord} (member : record ∈ records) :
    ∃ comment ∈ comments, decodeOne json issue comment = .ok (some record) := by
  induction comments generalizing records with
  | nil =>
      obtain rfl : [] = records := by simpa [decodeAll] using decoded
      simp at member
  | cons comment rest ih =>
      obtain ⟨head, tail, one, later, rfl⟩ := decodeAll_cons.mp decoded
      obtain own | among := List.mem_append.mp member
      · obtain rfl : head = some record := by simpa using own
        exact ⟨comment, List.mem_cons_self, one⟩
      · obtain ⟨c, inside, same⟩ := ih later among
        exact ⟨c, List.mem_cons_of_mem _ inside, same⟩

theorem decodeAll_grows {json : HeaderJson} {issue : Nat} {log later : List CommentOutput}
    (grown : log <+: later) {records records' : List StoredRecord}
    (decoded : decodeAll json issue log = .ok records)
    (decoded' : decodeAll json issue later = .ok records') : records <+: records' := by
  induction log generalizing later records records' with
  | nil =>
      obtain rfl : [] = records := by simpa [decodeAll] using decoded
      exact List.nil_prefix
  | cons comment rest ih =>
      obtain ⟨extra, rfl⟩ := grown
      obtain ⟨head, tail, one, rest, rfl⟩ := decodeAll_cons.mp decoded
      obtain ⟨head', tail', one', rest', rfl⟩ := decodeAll_cons.mp decoded'
      obtain rfl : head = head' := by simpa [one] using one'
      exact List.prefix_append_right_inj _ |>.mpr (ih ⟨extra, rfl⟩ rest rest')

theorem decodeAll_append {json : HeaderJson} {issue : Nat} {first last : List CommentOutput}
    {records more : List StoredRecord} (decoded : decodeAll json issue first = .ok records)
    (decoded' : decodeAll json issue last = .ok more) :
    decodeAll json issue (first ++ last) = .ok (records ++ more) := by
  induction first generalizing records with
  | nil =>
      obtain rfl : [] = records := by simpa [decodeAll] using decoded
      exact decoded'
  | cons comment rest ih =>
      obtain ⟨head, tail, one, rest, rfl⟩ := decodeAll_cons.mp decoded
      rw [List.append_assoc]
      exact decodeAll_cons.mpr ⟨head, tail ++ more, one, ih rest, rfl⟩

end Phasegent.Record
