import Phasegent.Record.Service
import Phasegent.Interleaving.Replay

namespace Phasegent.Record
open Interleaving

abbrev CommentLog := List CommentOutput

-- A read answers the whole log or fails. A write appends its text or nothing, and what it
-- reports says nothing about which of the two happened.
inductive CommentStep : CommentLog → (op : CommentOp) → op.Ret → CommentLog → Prop
  | read {log : CommentLog} {issue : Nat} : CommentStep log (.listComments issue) (.ok log) log
  | readFailed {log : CommentLog} {issue : Nat} {error : PhasegentError} :
      CommentStep log (.listComments issue) (.error error) log
  | append {log : CommentLog} {issue : Nat} {body marker : String} {comment : CommentOutput}
      {answer : Except PhasegentError CommentOutput} (text : comment.body = some body) :
      CommentStep log (.createComment issue body marker) answer (log ++ [comment])
  | refused {log : CommentLog} {issue : Nat} {body marker : String}
      {answer : Except PhasegentError CommentOutput} :
      CommentStep log (.createComment issue body marker) answer log

def commentWorld : World CommentLog CommentOp CommentOp.Ret where
  step _ := CommentStep
  crash _ log log' := log' = log

def commentContract : Contract CommentLog where
  Inv _ := True
  guarantee _ log log' := log <+: log'

theorem CommentStep.grows {log log' : CommentLog} {op : CommentOp} {answer : op.Ret}
    (step : CommentStep log op answer log') : log <+: log' := by
  cases step with
  | read => exact List.prefix_rfl
  | readFailed => exact List.prefix_rfl
  | append text => exact List.prefix_append _ _
  | refused => exact List.prefix_rfl

def OwnedAt (json : HeaderJson) (issue : Nat) (key : String) (records : List StoredRecord)
    (log : CommentLog) : Prop :=
  ∃ seen all, seen <+: log ∧ decodeAll json issue seen = .ok all ∧
    records = all.filter fun stored => stored.spec.key == key

def Confirmed (json : HeaderJson) (issue : Nat) (spec : RecordSpec) (body : String)
    (output : RecordOutput) (log : CommentLog) : Prop :=
  ∃ record, OwnedAt json issue spec.key [record] log ∧ record.spec = spec ∧
    record.output.body = body ∧ record.output = output

theorem OwnedAt.grow {json : HeaderJson} {issue : Nat} {key : String}
    {records : List StoredRecord} {log log' : CommentLog} (grown : log <+: log')
    (owned : OwnedAt json issue key records log) : OwnedAt json issue key records log' := by
  obtain ⟨seen, all, before, decoded, same⟩ := owned
  exact ⟨seen, all, before.trans grown, decoded, same⟩

theorem ownedAt_stable (json : HeaderJson) (issue : Nat) (key : String)
    (records : List StoredRecord) (i : Pid) :
    commentContract.Stable i (OwnedAt json issue key records) := by
  rintro log log' - - ⟨j, -, grown⟩ owned
  exact owned.grow grown

theorem classify_found {issue : Nat} {spec : RecordSpec} {body : String}
    {records : List StoredRecord} {output : RecordOutput}
    (found : classify issue spec body records = .found output) :
    ∃ record, records = [record] ∧ record.spec = spec ∧ record.output.body = body ∧
      record.output = output := by
  match records with
  | [] => cases found
  | [record] =>
      rw [classify] at found
      split at found
      · rename_i same
        simp only [sameRequest, Bool.and_eq_true, beq_iff_eq] at same
        cases found
        exact ⟨record, rfl, same.1, same.2, rfl⟩
      · cases found
  | _ :: _ :: _ => cases found

section Triples
variable (json : HeaderJson) (issue : Nat) (spec : RecordSpec) (body : String) (i : Pid)

theorem confirmed_stable (output : RecordOutput) :
    commentContract.Stable i (Confirmed json issue spec body output) := by
  rintro log log' - - ⟨j, -, grown⟩ ⟨record, owned, rest⟩
  exact ⟨record, owned.grow grown, rest⟩

theorem confirmed_found {records : List StoredRecord} {output : RecordOutput} {log : CommentLog}
    (owned : OwnedAt json issue spec.key records log)
    (found : classify issue spec body records = .found output) :
    Confirmed json issue spec body output log := by
  obtain ⟨record, rfl, same⟩ := classify_found found
  exact ⟨record, owned, same⟩

theorem list_triple (P : CommentLog → Prop) (stable : commentContract.Stable i P) :
    Triple commentWorld commentContract i P (ask (.listComments issue))
      (OnOk fun comments log => comments <+: log) := by
  refine Triple.call stable
    (M := fun answer : CommentOp.Ret (.listComments issue) => OnOk (· <+: ·) answer) ?_ ?_
  · intro log answer log' _ _ step
    refine ⟨trivial, step.grows, ?_⟩
    cases step with
    | read => exact List.prefix_rfl
    | readFailed => trivial
  · intro answer
    refine Triple.done (Contract.stable_onOk ?_ _) fun _ _ holds => holds
    rintro comments log log' - - ⟨j, -, grown⟩ before
    exact before.trans grown

theorem ownedByKey_triple (key : String) (P : CommentLog → Prop)
    (stable : commentContract.Stable i P) :
    Triple commentWorld commentContract i P (ownedByKey json issue key)
      (OnOk (OwnedAt json issue key)) := by
  refine Triple.bind (list_triple issue i P stable) ?_
  intro answer
  cases answer with
  | error error => exact Triple.failed
  | ok comments =>
      refine Triple.done (Contract.stable_onOk (ownedAt_stable json issue key · i) _) ?_
      intro log _ before
      cases decoded : decodeAll json issue comments with
      | error e => trivial
      | ok all => exact ⟨comments, all, before, decoded, rfl⟩

theorem confirm_triple (attempts : Nat) :
    Triple commentWorld commentContract i (fun _ => True) (confirm json issue spec body attempts)
      (OnOk (Confirmed json issue spec body)) := by
  induction attempts with
  | zero => exact Triple.failed
  | succ attempts ih =>
      refine Triple.bind (ownedByKey_triple json issue i spec.key _ (Contract.stable_const i True)) ?_
      intro answer
      cases answer with
      | error error => exact Triple.failed
      | ok records =>
          cases verdict : classify issue spec body records with
          | absent => simpa only [verdict] using ih.pre fun _ _ _ => trivial
          | found output =>
              simp only [verdict]
              exact Triple.done (confirmed_stable json issue spec body i output)
                fun _ _ owned => confirmed_found json issue spec body owned verdict
          | conflict error =>
              simp only [verdict]
              exact Triple.failed

theorem settle_triple (fallback : PhasegentError) (attempts : Nat) :
    Triple commentWorld commentContract i (fun _ => True)
      ((confirm json issue spec body attempts).bind fun result => .done (settle fallback result))
      (OnOk (Confirmed json issue spec body)) := by
  refine Triple.bind (confirm_triple json issue spec body i attempts) ?_
  intro result
  match result with
  | .ok output =>
      exact Triple.done (confirmed_stable json issue spec body i output) fun _ _ holds => holds
  | .error (.conflict error) => exact Triple.failed
  | .error .unconfirmed => exact Triple.failed
  | .error .unreadable => exact Triple.failed

theorem write_triple (stored : String) :
    Triple commentWorld commentContract i (fun _ => True) (write json issue spec body stored)
      (OnOk (Confirmed json issue spec body)) := by
  refine Triple.call (Contract.stable_const i True) (M := fun _ _ => True)
    (fun log answer log' _ _ step => ⟨trivial, CommentStep.grows step, trivial⟩) ?_
  intro answer
  cases answer with
  | ok comment => exact settle_triple json issue spec body i _ recoveryAttempts
  | error error =>
      by_cases uncertain : isUncertain error
      · simpa [uncertain] using settle_triple json issue spec body i error recoveryAttempts
      · simp only [Prog.bind_done, uncertain]
        exact Triple.failed

theorem create_triple :
    Triple commentWorld commentContract i (fun _ => True) (create json issue spec body)
      (OnOk (Confirmed json issue spec body)) := by
  unfold create
  cases encoded : spec.encodeBody json body with
  | error message => exact Triple.failed
  | ok stored =>
      refine Triple.bind (ownedByKey_triple json issue i spec.key _ (Contract.stable_const i True)) ?_
      intro answer
      cases answer with
      | error error => exact Triple.failed
      | ok records =>
          cases verdict : classify issue spec body records with
          | absent =>
              simpa only [verdict] using
                (write_triple json issue spec body i stored).pre fun _ _ _ => trivial
          | found output =>
              simp only [verdict]
              exact Triple.done (confirmed_stable json issue spec body i output)
                fun _ _ owned => confirmed_found json issue spec body owned verdict
          | conflict error =>
              simp only [verdict]
              exact Triple.failed

end Triples

section Agreement
variable (json : HeaderJson) (issue : Nat) (request : Pid → Option (RecordSpec × String))

def callers (log : CommentLog) :
    Config CommentLog CommentOp CommentOp.Ret (Except PhasegentError RecordOutput) where
  shared := log
  procs i := (request i).map fun (spec, body) => create json issue spec body

def ReadsBack (log : CommentLog) (output : RecordOutput) (spec : RecordSpec) (body : String) :
    Prop :=
  ∃ comment ∈ log, ∃ stored, comment.body = some stored ∧
    decodeBody json stored = .ok (some ⟨spec, body⟩) ∧
    output = DecodedRecord.output ⟨spec, body⟩ issue comment

theorem confirmed_readsBack {spec : RecordSpec} {body : String} {output : RecordOutput}
    {log : CommentLog} (confirmed : Confirmed json issue spec body output log) :
    ReadsBack json issue log output spec body := by
  obtain ⟨record, ⟨seen, all, before, decoded, owned⟩, rfl, sameBody, rfl⟩ := confirmed
  have member : record ∈ all := by
    have : record ∈ all.filter fun stored => stored.spec.key == record.spec.key :=
      owned ▸ List.mem_singleton_self record
    exact (List.mem_filter.mp this).1
  obtain ⟨comment, inside, one⟩ := decodeAll_mem decoded member
  obtain ⟨stored, text, hasText, parsed, output⟩ := decodeOne_some one
  obtain rfl : text = body := by rw [← sameBody, output]; rfl
  exact ⟨comment, before.subset inside, stored, hasText, parsed, output⟩

theorem confirmed_agree {spec spec' : RecordSpec} {body body' : String}
    {output output' : RecordOutput} {log : CommentLog} (sameKey : spec.key = spec'.key)
    (confirmed : Confirmed json issue spec body output log)
    (confirmed' : Confirmed json issue spec' body' output' log) : spec = spec' ∧ body = body' := by
  obtain ⟨record, ⟨seen, all, before, decoded, owned⟩, rfl, rfl, -⟩ := confirmed
  obtain ⟨record', ⟨seen', all', before', decoded', owned'⟩, rfl, rfl, -⟩ := confirmed'
  have same : record = record' := by
    rw [← sameKey] at owned'
    -- Both reads saw a prefix of the log, so one saw a prefix of what the other saw.
    rcases List.prefix_or_prefix_of_prefix before before' with le | le
    · have grown := (decodeAll_grows le decoded decoded').filter
        fun stored => stored.spec.key == record.spec.key
      rw [← owned, ← owned'] at grown
      simpa using grown
    · have grown := (decodeAll_grows le decoded' decoded).filter
        fun stored => stored.spec.key == record.spec.key
      rw [← owned, ← owned'] at grown
      have flipped : record' = record := by simpa using grown
      exact flipped.symm
  subst same
  exact ⟨rfl, rfl⟩

theorem callers_safe (log : CommentLog) :
    (callers json issue request log).Safe commentWorld commentContract fun i result log =>
      ∀ spec body, request i = some (spec, body) →
        OnOk (Confirmed json issue spec body) result log := by
  refine ⟨trivial, fun i p started => ?_⟩
  obtain ⟨⟨spec, body⟩, asked, rfl⟩ := Option.map_eq_some_iff.mp started
  refine Triple.weaken (create_triple json issue spec body i) ?_ _ trivial trivial
  rintro result log holds _ _ same
  cases asked.symm.trans same
  exact holds

theorem create_confirms_one_content {log : CommentLog}
    {c : Config CommentLog CommentOp CommentOp.Ret (Except PhasegentError RecordOutput)}
    (run : Run commentWorld (callers json issue request log) c) :
    (∀ i spec body output, request i = some (spec, body) →
      c.result i = some (.ok output) → ReadsBack json issue c.shared output spec body) ∧
    ∀ i j spec spec' body body' output output', request i = some (spec, body) →
      request j = some (spec', body') → spec.key = spec'.key →
      c.result i = some (.ok output) → c.result j = some (.ok output') →
      spec = spec' ∧ body = body' := by
  have safe := run.safe (fun _ log log' _ same => ⟨trivial, same ▸ List.prefix_rfl⟩)
    (callers_safe json issue request log)
  constructor
  · intro i spec body output asked finished
    exact confirmed_readsBack json issue (safe.result finished spec body asked)
  · intro i j spec spec' body body' output output' asked asked' sameKey finished finished'
    exact confirmed_agree json issue sameKey (safe.result finished spec body asked)
      (safe.result finished' spec' body' asked')

end Agreement

section Race

def raceSpec : RecordSpec where
  kind := .executor
  actor := .executor
  key := "k1"
  phase := some "build"
  attempt := some 1
  review := none
  recon := none

def raceText : String :=
  "\x7b\"v\":1,\"kind\":\"executor\",\"actor\":\"executor\",\"key\":\"k1\"," ++
    "\"phase\":\"build\",\"attempt\":1\x7d"

def raceJson : HeaderJson where
  toString header := if header = raceSpec.header then .ok raceText else .error "unsupported"
  fromStr text := if text = raceText then .ok raceSpec.header else .error "unsupported"

def raceRequest : Pid → Option (RecordSpec × String)
  | 0 => some (raceSpec, "first")
  | 1 => some (raceSpec, "second")
  | _ => none

def answerComment (_ : Pid) (log : CommentLog) : (op : CommentOp) → op.Ret × CommentLog
  | .listComments _ => (.ok log, log)
  | .createComment _ body marker =>
      let comment := ⟨log.length + 1, none, some marker, some body⟩
      (.ok comment, log ++ [comment])

theorem answerComment_sound (i : Pid) (log : CommentLog) (op : CommentOp) :
    commentWorld.step i log op (answerComment i log op).1 (answerComment i log op).2 := by
  cases op with
  | listComments issue => exact .read
  | createComment issue body marker => exact .append rfl

-- Both lookups find nothing; the first caller writes and confirms before the second writes.
def race : Config CommentLog CommentOp CommentOp.Ret (Except PhasegentError RecordOutput) :=
  (callers raceJson 7 raceRequest []).replay answerComment [0, 1, 0, 0, 1, 1]

def raceOutput : RecordOutput :=
  DecodedRecord.output ⟨raceSpec, "first"⟩ 7
    ⟨1, none, some (headerPrefix ++ raceText ++ headerSuffix),
      some (headerPrefix ++ raceText ++ headerSuffix ++ "\nfirst")⟩

theorem race_confirms_one_content :
    race.result 0 = some (.ok raceOutput) ∧
      (race.result 1).any (fun result => !result.isOk) ∧
      ReadsBack raceJson 7 race.shared raceOutput raceSpec "first" := by
  have first : race.result 0 = some (.ok raceOutput) := by decide +kernel
  have second : (race.result 1).any (fun result => !result.isOk) := by decide +kernel
  have run := Run.replay answerComment_sound (callers raceJson 7 raceRequest []) [0, 1, 0, 0, 1, 1]
  exact ⟨first, second,
    (create_confirms_one_content raceJson 7 raceRequest run).1 0 _ _ _ rfl first⟩

end Race

end Phasegent.Record
