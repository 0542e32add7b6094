import Phasegent.Record.Service
import Phasegent.Text.Fallible

namespace Phasegent.Record
open Fallible

def RecordHeader.Tokens (header : RecordHeader) : Prop :=
  isToken header.actor ∧ isToken header.key ∧ (∀ phase ∈ header.phase, isToken phase) ∧
    (∀ review ∈ header.review, isToken review) ∧ ∀ recon ∈ header.recon, isToken recon

def isJsonMark (c : Char) : Bool := c == '\x7b' || c == '\x7d' || c == '"' || c == ','

/-- What the JSON library promises of a header whose fields are tokens: it can be written, reads
back as it was, and its compact text holds only the fields' own characters and JSON's marks. -/
structure HeaderJson.Faithful (json : HeaderJson) : Prop where
  writes : ∀ header : RecordHeader, header.Tokens → ∃ text, json.toString header = .ok text
  reads : ∀ header text, header.Tokens → json.toString header = .ok text →
    json.fromStr text = .ok header
  plain : ∀ header text, header.Tokens → json.toString header = .ok text →
    ∀ c ∈ text.toList, isTokenChar c ∨ isJsonMark c

variable {json : HeaderJson} {spec : RecordSpec} {body stored text : String}

def headerLine (text : String) : List Char :=
  headerPrefix.toList ++ (text.toList ++ headerSuffix.toList)

theorem isToken_of_validateToken {label value : String} {u : Unit}
    (valid : validateToken label value = .ok u) : isToken value := by
  unfold validateToken at valid
  split at valid
  · assumption
  · cases valid

theorem tokens_of_validateOptional {label : String} {value : Option String} {u : Unit}
    (valid : RecordSpec.validateOptional label value = .ok u) : ∀ text ∈ value, isToken text := by
  cases value with
  | none => simp
  | some own =>
      rintro text ⟨⟩
      exact isToken_of_validateToken valid

theorem header_tokens (valid : spec.validateFields = .ok ()) : spec.header.Tokens := by
  simp only [RecordSpec.validateFields, bind_eq_ok] at valid
  obtain ⟨_, key, _, phase, _, recon, _, -, review⟩ := valid
  have actor : isToken spec.header.actor := by
    have listed : ∀ role : Role, isToken role.asStr := by
      intro role
      cases role <;> decide
    exact listed spec.actor
  refine ⟨actor, isToken_of_validateToken key, tokens_of_validateOptional phase, ?_,
    tokens_of_validateOptional recon⟩
  intro text own
  have known : ∀ kind ∈ reviewKinds, isToken kind := by decide
  simp only [RecordSpec.header, Option.mem_def] at own
  simp only [RecordSpec.validateReview, own] at review
  split at review
  · cases review
  · split at review
    · cases review
    · next listed => exact known text (not_not.mp listed)

theorem encodeBody_plain (valid : spec.validateFields = .ok ()) (plain : hasReservedPrefix body = false)
    (written : json.toString spec.header = .ok text) :
    spec.encodeBody json body = .ok (headerPrefix ++ text ++ headerSuffix ++ "\n" ++ body) := by
  simp [RecordSpec.encodeBody, valid, plain, written, Except.mapError]

theorem text_plain (faithful : json.Faithful) (valid : spec.validateFields = .ok ())
    (written : json.toString spec.header = .ok text) {c : Char} (among : c ∈ text.toList) :
    c ≠ '>' ∧ c ≠ '\n' ∧ c ≠ '\r' ∧ c ≠ ' ' := by
  have kinds := faithful.plain _ _ (header_tokens valid) written c among
  refine ⟨?_, ?_, ?_, ?_⟩
  all_goals
    rintro rfl
    revert kinds
    decide

theorem firstLine_stored (faithful : json.Faithful) (valid : spec.validateFields = .ok ())
    (written : json.toString spec.header = .ok text) (rest : List Char) :
    Text.firstLine (headerLine text ++ '\n' :: rest) = headerLine text := by
  have unbroken : '\n' ∉ headerLine text := by
    rw [headerLine, List.mem_append, List.mem_append]
    rintro (front | among | back)
    · exact absurd front (by decide)
    · exact (text_plain faithful valid written among).2.1 rfl
    · exact absurd back (by decide)
  have last : (headerLine text).getLast? = some '>' := by
    rw [headerLine, ← List.append_assoc, List.getLast?_append]
    rfl
  rw [Text.firstLine, Text.splitOnce_char rest unbroken]
  simp [last]

theorem split_stored (faithful : json.Faithful) (valid : spec.validateFields = .ok ())
    (written : json.toString spec.header = .ok text) (rest : List Char) :
    Text.splitOnce "-->".toList (text.toList ++ (headerSuffix.toList ++ rest)) =
      some (text.toList ++ [' '], rest) := by
  have shape : text.toList ++ (headerSuffix.toList ++ rest) =
      (text.toList ++ [' ']) ++ ("-->".toList ++ rest) := by
    have parts : headerSuffix.toList = ' ' :: "-->".toList := by decide
    simp [parts]
  rw [shape]
  apply Text.splitOnce_append rest
  intro k bound found
  -- The separator's third character would stand in the text, its space or the separator's dashes.
  have third : ((text.toList ++ [' ']) ++ ("-->".toList ++ rest))[k + 2]? = some '>' := by
    obtain ⟨after, same⟩ := found
    have own := congrArg (·[2]?) same
    simpa [List.getElem?_drop] using own.symm
  have front : ((text.toList ++ [' ']) ++ ("-->".toList ++ rest)) =
      (text.toList ++ [' ', '-', '-']) ++ '>' :: rest := by
    simp
  have short : k + 2 < (text.toList ++ [' ', '-', '-']).length := by
    simp only [List.length_append, List.length_cons, List.length_nil] at bound ⊢
    omega
  rw [front, List.getElem?_append_left short] at third
  obtain among | mark := List.mem_append.mp (List.mem_of_getElem? third)
  · exact (text_plain faithful valid written among).1 rfl
  · exact absurd mark (by decide)

theorem header_spec (valid : spec.validateFields = .ok ()) : spec.header.spec = .ok spec := by
  have actor : Role.fromStr spec.actor.asStr = .ok spec.actor := by cases spec.actor <;> rfl
  simp [RecordHeader.spec, RecordSpec.header, actor, valid, Except.mapError]

theorem decodeBody_encodeBody (faithful : json.Faithful) (valid : spec.validateFields = .ok ())
    (plain : hasReservedPrefix body = false) (encoded : spec.encodeBody json body = .ok stored) :
    decodeBody json stored = .ok (some ⟨spec, body⟩) := by
  obtain ⟨text, written⟩ := faithful.writes spec.header (header_tokens valid)
  rw [encodeBody_plain valid plain written] at encoded
  cases encoded
  have trimmed : Text.trimEndMatches (· == ' ') (text.toList ++ [' ']) = text.toList := by
    rw [Text.trimEndMatches, List.rdropWhile_concat_pos _ _ _ (by decide), List.rdropWhile_eq_self_iff]
    intro nonempty
    have other := (text_plain faithful valid written (List.getLast_mem nonempty)).2.2.2
    simpa using other
  have payload : (headerPrefix ++ text ++ headerSuffix ++ "\n" ++ body).toList =
      headerPrefix.toList ++ (text.toList ++ (headerSuffix.toList ++ '\n' :: body.toList)) := by
    simp
  have version : spec.header.v = headerVersion := rfl
  have rest : Text.stripPrefix ['\n'] ('\n' :: body.toList) = some body.toList :=
    Text.stripPrefix_append ['\n'] body.toList
  simp only [decodeBody, payload, Text.stripPrefix_append, split_stored faithful valid written, trimmed,
    String.ofList_toList, faithful.reads _ _ (header_tokens valid) written, Except.mapError, ok_bind,
    version, ne_eq, not_true_eq_false, if_false, header_spec valid, rest, Option.getD_some]
  rfl

end Phasegent.Record
