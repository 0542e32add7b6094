import Phasegent.Record.Codec
import Phasegent.Text.Chars
import Phasegent.Text.Json

namespace Phasegent.Record
open Fallible Text

section Text
variable {α : Type}

def member (name : String) (value : Json) : List (String × Json) := [(name, value)]

def optional (name : String) (write : α → Json) : Option α → List (String × Json)
  | none => []
  | some value => member name (write value)

def text (value : String) : Json := .string value.toList

def number (value : UInt32) : Json := .number value.toNat

-- The fields in the order of their declaration, an absent one left out.
def RecordHeader.json (header : RecordHeader) : Json :=
  .object (member "v" (number header.v) ++ member "kind" (text header.kind.asStr) ++
    member "actor" (text header.actor) ++ member "key" (text header.key) ++
    optional "phase" text header.phase ++ optional "attempt" number header.attempt ++
    optional "review" text header.review ++ optional "recon" text header.recon)

def RecordHeader.compact (header : RecordHeader) : String := String.ofList header.json.write

structure HeaderJson.Serde (json : HeaderJson) : Prop where
  writes : ∀ header : RecordHeader, header.Tokens → json.toString header = .ok header.compact
  reads : ∀ header : RecordHeader, header.Tokens → json.fromStr header.compact = .ok header

end Text

section Plain

def PlainText (text : List Char) : Prop := ∀ c ∈ text, isTokenChar c ∨ isJsonMark c

theorem PlainText.append {a b : List Char} (first : PlainText a) (second : PlainText b) : PlainText (a ++ b) :=
  fun c among => (List.mem_append.mp among).elim (first c) (second c)

theorem escape_token {c : Char} (token : isTokenChar c) : Json.escape c = [c] := by
  have other : ∀ d : Char, isTokenChar d = false → c ≠ d := by
    rintro d plain rfl
    rw [token] at plain
    cases plain
  have visible : 32 ≤ c.toNat := by
    simp only [isTokenChar, Char.isAlphanum, Char.isAlpha, Bool.or_eq_true, beq_iff_eq, isUpper_iff, isLower_iff,
      isDigit_iff] at token
    rcases token with (((((upper | lower) | digit) | rfl) | rfl) | rfl) | rfl
    · omega
    · omega
    · omega
    all_goals decide
  have control : c.toNat ≠ 8 ∧ c.toNat ≠ 12 ∧ ¬c.toNat < 32 := by omega
  simp [Json.escape, other '"' (by decide), other '\\' (by decide), other '\n' (by decide), other '\r' (by decide),
    other '\t' (by decide), control]

theorem quote_tokens {value : List Char} (tokens : ∀ c ∈ value, isTokenChar c) :
    Json.quote value = '"' :: value ++ ['"'] := by
  have same : value.flatMap Json.escape = value := by
    induction value with
    | nil => rfl
    | cons c rest ih =>
        obtain ⟨first, later⟩ := List.forall_mem_cons.mp tokens
        rw [List.flatMap_cons, escape_token first, ih later]
        rfl
  rw [Json.quote, same]

def Json.more (members : List (String × Json)) : List Char :=
  members.flatMap fun (name, value) => ',' :: Json.quote name.toList ++ ':' :: value.write

theorem writeMembers_cons (name : String) (value : Json) (rest : List (String × Json)) :
    Json.writeMembers ((name, value) :: rest) = Json.quote name.toList ++ ':' :: value.write ++ Json.more rest := by
  induction rest generalizing name value with
  | nil => simp [Json.writeMembers, Json.more]
  | cons next rest ih =>
      obtain ⟨name', value'⟩ := next
      rw [Json.writeMembers, ih]
      · simp [Json.more]
      · simp

theorem more_append (front back : List (String × Json)) :
    Json.more (front ++ back) = Json.more front ++ Json.more back := List.flatMap_append

end Plain

section Reader
variable {α : Type}

abbrev Reader (α : Type) := List Char → Option (α × List Char)

def readText : Reader String := fun input =>
  (stripPrefix ['"'] input).map fun rest =>
    (String.ofList (rest.takeWhile (· ≠ '"')), (rest.dropWhile (· ≠ '"')).drop 1)

def readNumber : Reader UInt32 := fun input =>
  some (.ofNat (decimalValue (input.takeWhile Char.isDigit)), input.dropWhile Char.isDigit)

def label (name : String) : List Char := ',' :: '"' :: name.toList ++ ['"', ':']

def readMember (name : String) (read : Reader α) : Reader α := fun input =>
  stripPrefix (label name) input >>= read

def readOptional (name : String) (read : Reader α) : Reader (Option α) := fun input =>
  match readMember name read input with
  | some (value, rest) => some (some value, rest)
  | none => some (none, input)

def kindOf (name : String) : Option RecordKind :=
  [RecordKind.executor, .reviewer, .recon].find? (·.asStr == name)

def readHeader (input : List Char) : Option RecordHeader := do
  let input ← stripPrefix ['\x7b', '"', 'v', '"', ':'] input
  let (v, input) ← readNumber input
  let (kind, input) ← readMember "kind" readText input
  let kind ← kindOf kind
  let (actor, input) ← readMember "actor" readText input
  let (key, input) ← readMember "key" readText input
  let (phase, input) ← readOptional "phase" readText input
  let (attempt, input) ← readOptional "attempt" readNumber input
  let (review, input) ← readOptional "review" readText input
  let (recon, input) ← readOptional "recon" readText input
  if input = ['\x7d'] then some ⟨v, kind, actor, key, phase, attempt, review, recon⟩ else none

def compactJson : HeaderJson where
  toString header := .ok header.compact
  fromStr input := match readHeader input.toList with
    | some header => .ok header
    | none => .error "expected value"

end Reader

section Reading
variable {α : Type} {name name' : String} {read : Reader α} {write : α → Json} {value : Option α}
  {rest : List Char}

theorem more_member (name : String) (tokens : name.toList.all isTokenChar = true) (value : Json) :
    Json.more (member name value) = label name ++ value.write := by
  simp [Json.more, member, label, quote_tokens (List.all_eq_true.mp tokens)]

theorem readText_quote {token : String} (tokens : ∀ c ∈ token.toList, isTokenChar c) (rest : List Char) :
    readText ((text token).write ++ rest) = some (token, rest) := by
  have open' : ∀ c ∈ token.toList, (decide (c ≠ '"')) = true := by
    intro c among
    have other : c ≠ '"' := by
      rintro rfl
      exact absurd (tokens _ among) (by decide)
    simpa using other
  have shape : (text token).write ++ rest = ['"'] ++ (token.toList ++ '"' :: rest) := by
    simp [text, Json.write, quote_tokens tokens]
  rw [shape, readText, stripPrefix_append, Option.map_some, List.takeWhile_append_of_pos open',
    List.dropWhile_append_of_pos open']
  simp

theorem readNumber_digits (value : UInt32) (after : ∀ c ∈ rest.head?, c.isDigit = false) :
    readNumber ((number value).write ++ rest) = some (value, rest) := by
  have digits : ∀ c ∈ Nat.toDigits 10 value.toNat, c.isDigit = true := fun c among =>
    Nat.isDigit_of_mem_toDigits (by decide) (by decide) among
  have stop : rest.takeWhile Char.isDigit = [] ∧ rest.dropWhile Char.isDigit = rest := by
    cases rest with
    | nil => exact ⟨rfl, rfl⟩
    | cons c rest => simp [after c rfl]
  rw [number, Json.write, readNumber, List.takeWhile_append_of_pos digits, List.dropWhile_append_of_pos digits,
    stop.1, stop.2, List.append_nil, decimalValue_toDigits, UInt32.ofNat_toNat]

theorem readMember_label (read : Reader α) (rest : List Char) : readMember name read (label name ++ rest) = read rest := by
  rw [readMember, stripPrefix_append]
  rfl

def Lacks (name : String) (rest : List Char) : Prop := stripPrefix (label name) rest = none

def AfterNumber (rest : List Char) : Prop := ∀ c ∈ rest.head?, c.isDigit = false

def written (name : String) (write : α → Json) (value : Option α) : List Char := Json.more (optional name write value)

theorem readOptional_written (named : name.toList.all isTokenChar = true)
    (reads : ∀ v, value = some v → read ((write v).write ++ rest) = some (v, rest)) (lacks : Lacks name rest) :
    readOptional name read (written name write value ++ rest) = some (value, rest) := by
  cases value with
  | none =>
      have none : readMember name read rest = none := by
        rw [readMember, lacks]
        rfl
      simp [written, optional, Json.more, readOptional, none]
  | some v =>
      have shape : written name write (some v) ++ rest = label name ++ ((write v).write ++ rest) := by
        rw [written, optional, more_member name named, List.append_assoc]
      rw [shape, readOptional, readMember_label, reads v rfl]

theorem Lacks.written (named : name'.toList.all isTokenChar = true)
    (apart : ∀ input, stripPrefix (label name) (label name' ++ input) = none) (lacks : Lacks name rest) :
    Lacks name (written name' write value ++ rest) := by
  cases value with
  | none => simpa [Record.written, optional, Json.more] using lacks
  | some v =>
      rw [Record.written, optional, more_member name' named, List.append_assoc]
      exact apart _

theorem AfterNumber.written (after : AfterNumber rest) : AfterNumber (written name write value ++ rest) := by
  cases value with
  | none => simpa [Record.written, optional, Json.more] using after
  | some v => simp [AfterNumber, Record.written, optional, member, Json.more, show ','.isDigit = false from rfl]

theorem json_write (header : RecordHeader) : header.json.write =
    ['\x7b', '"', 'v', '"', ':'] ++ ((number header.v).write ++ (label "kind" ++ ((text header.kind.asStr).write ++
      (label "actor" ++ ((text header.actor).write ++ (label "key" ++ ((text header.key).write ++
        (written "phase" text header.phase ++ (written "attempt" number header.attempt ++
          (written "review" text header.review ++ (written "recon" text header.recon ++ ['\x7d'])))))))))))  := by
  have shape : header.json = .object (("v", number header.v) :: (member "kind" (text header.kind.asStr) ++
      member "actor" (text header.actor) ++ member "key" (text header.key) ++ optional "phase" text header.phase ++
      optional "attempt" number header.attempt ++ optional "review" text header.review ++
      optional "recon" text header.recon)) := rfl
  have first : Json.quote "v".toList = ['"', 'v', '"'] := rfl
  rw [shape, Json.write, writeMembers_cons, first]
  simp only [more_append, more_member "kind" (by decide), more_member "actor" (by decide),
    more_member "key" (by decide), written, List.append_assoc, List.cons_append, List.nil_append]

theorem kindOf_asStr (kind : RecordKind) : kindOf kind.asStr = some kind := by
  cases kind <;> rfl

theorem asStr_tokens (kind : RecordKind) : ∀ c ∈ kind.asStr.toList, isTokenChar c := by
  have all : kind.asStr.toList.all isTokenChar = true := by cases kind <;> decide
  exact List.all_eq_true.mp all

theorem tokens_of_isToken {value : String} (token : isToken value) : ∀ c ∈ value.toList, isTokenChar c := by
  simp only [isToken, Bool.and_eq_true, List.all_eq_true] at token
  exact token.2

theorem readHeader_compact {header : RecordHeader} (tokens : header.Tokens) :
    readHeader header.json.write = some header := by
  obtain ⟨actor, key, phase, review, recon⟩ := tokens
  have texts : ∀ {value : Option String}, (∀ own ∈ value, isToken own) → ∀ rest own, value = some own →
      readText ((text own).write ++ rest) = some (own, rest) :=
    fun named rest own same => readText_quote (tokens_of_isToken (named own same)) rest
  have brace : AfterNumber ['\x7d'] := by simp [AfterNumber, show '\x7d'.isDigit = false from rfl]
  have lastly : readOptional "recon" readText (written "recon" text header.recon ++ ['\x7d']) =
      some (header.recon, ['\x7d']) :=
    readOptional_written (by decide) (texts recon _) rfl
  obtain ⟨afterReview, reviewed⟩ : ∃ rest, rest = written "recon" text header.recon ++ ['\x7d'] := ⟨_, rfl⟩
  obtain ⟨afterAttempt, attempted⟩ : ∃ rest, rest = written "review" text header.review ++ afterReview := ⟨_, rfl⟩
  obtain ⟨afterPhase, phased⟩ : ∃ rest, rest = written "attempt" number header.attempt ++ afterAttempt := ⟨_, rfl⟩
  have unreviewed : Lacks "review" afterReview := reviewed ▸ Lacks.written (by decide) (fun _ => rfl) rfl
  have third : readOptional "review" readText (written "review" text header.review ++ afterReview) =
      some (header.review, afterReview) :=
    readOptional_written (by decide) (texts review _) unreviewed
  have unattempted : Lacks "attempt" afterAttempt :=
    attempted ▸ Lacks.written (by decide) (fun _ => rfl)
      (reviewed ▸ Lacks.written (by decide) (fun _ => rfl) rfl)
  have ended : AfterNumber afterAttempt := attempted ▸ (reviewed ▸ brace.written : AfterNumber afterReview).written
  have second : readOptional "attempt" readNumber (written "attempt" number header.attempt ++ afterAttempt) =
      some (header.attempt, afterAttempt) :=
    readOptional_written (by decide) (fun own _ => readNumber_digits own ended) unattempted
  have unphased : Lacks "phase" afterPhase :=
    phased ▸ Lacks.written (by decide) (fun _ => rfl) (attempted ▸ Lacks.written (by decide) (fun _ => rfl)
      (reviewed ▸ Lacks.written (by decide) (fun _ => rfl) rfl))
  have first : readOptional "phase" readText (written "phase" text header.phase ++ afterPhase) =
      some (header.phase, afterPhase) :=
    readOptional_written (by decide) (texts phase _) unphased
  have version := fun rest => @readNumber_digits (label "kind" ++ rest) header.v (by simp [label, show ','.isDigit = false from rfl])
  rw [json_write, ← reviewed, ← attempted, ← phased, readHeader, stripPrefix_append]
  simp only [Option.bind_eq_bind, Option.bind_some, version, readMember_label, readText_quote (asStr_tokens _),
    kindOf_asStr, readText_quote (tokens_of_isToken actor), readText_quote (tokens_of_isToken key)]
  rw [first, Option.bind_some, phased, second, Option.bind_some, attempted, third, Option.bind_some, reviewed, lastly,
    Option.bind_some, if_pos rfl]

end Reading

section RoundTrip
variable {json : HeaderJson}

theorem plain_tokens {value : String} (tokens : ∀ c ∈ value.toList, isTokenChar c) : PlainText (text value).write := by
  rw [text, Json.write, quote_tokens tokens]
  intro c among
  simp only [List.cons_append, List.mem_cons, List.mem_append, List.not_mem_nil, or_false] at among
  obtain rfl | within | rfl := among
  · exact Or.inr rfl
  · exact Or.inl (tokens c within)
  · exact Or.inr rfl

theorem plain_number (value : UInt32) : PlainText (number value).write := by
  intro c among
  have digit : c.isDigit = true := Nat.isDigit_of_mem_toDigits (by decide) (by decide) among
  simp [isTokenChar, Char.isAlphanum, digit]

theorem plain_label {name : String} (named : name.toList.all isTokenChar = true) : PlainText (label name) := by
  intro c among
  simp only [label, List.mem_cons, List.mem_append, List.not_mem_nil, or_false] at among
  obtain (rfl | rfl | within) | rfl | rfl := among
  · exact Or.inr rfl
  · exact Or.inr rfl
  · exact Or.inl (List.all_eq_true.mp named c within)
  · exact Or.inr rfl
  · exact Or.inl rfl

theorem plain_written {α : Type} {name : String} {write : α → Json} {value : Option α}
    (named : name.toList.all isTokenChar = true) (plain : ∀ own ∈ value, PlainText (write own).write) :
    PlainText (written name write value) := by
  cases value with
  | none => exact fun c impossible => absurd impossible List.not_mem_nil
  | some own =>
      rw [written, optional, more_member name named]
      exact (plain_label named).append (plain own rfl)

theorem plain_compact {header : RecordHeader} (tokens : header.Tokens) : PlainText header.json.write := by
  obtain ⟨actor, key, phase, review, recon⟩ := tokens
  have start : PlainText ['\x7b', '"', 'v', '"', ':'] := by
    have all : List.all ['\x7b', '"', 'v', '"', ':'] (fun c => isTokenChar c || isJsonMark c) = true := by decide
    intro c among
    simpa using List.all_eq_true.mp all c among
  have brace : PlainText ['\x7d'] := fun c among => Or.inr (List.mem_singleton.mp among ▸ rfl)
  have texts : ∀ {value : Option String}, (∀ own ∈ value, isToken own) → ∀ own ∈ value, PlainText (text own).write :=
    fun named own among => plain_tokens (tokens_of_isToken (named own among))
  rw [json_write]
  refine start.append ((plain_number _).append ((plain_label (by decide)).append ((plain_tokens (asStr_tokens _)).append
    ((plain_label (by decide)).append ((plain_tokens (tokens_of_isToken actor)).append
      ((plain_label (by decide)).append ((plain_tokens (tokens_of_isToken key)).append
        ((plain_written (by decide) (texts phase)).append ((plain_written (by decide) fun _ _ => plain_number _).append
          ((plain_written (by decide) (texts review)).append
            ((plain_written (by decide) (texts recon)).append brace)))))))))))

theorem HeaderJson.Serde.faithful (serde : json.Serde) : json.Faithful where
  writes header tokens := ⟨_, serde.writes header tokens⟩
  reads header text tokens written := by
    rw [serde.writes header tokens] at written
    cases written
    exact serde.reads header tokens
  plain header text tokens written := by
    rw [serde.writes header tokens] at written
    cases written
    rw [RecordHeader.compact, String.toList_ofList]
    exact plain_compact tokens

theorem compactJson_serde : compactJson.Serde where
  writes header tokens := rfl
  reads header tokens := by simp [compactJson, RecordHeader.compact, readHeader_compact tokens]

theorem spec_valid {header : RecordHeader} {spec : RecordSpec} (read : header.spec = .ok spec) :
    spec.validateFields = .ok () := by
  simp only [RecordHeader.spec, bind_eq_ok] at read
  obtain ⟨actor, -, _, checked, same⟩ := read
  cases same
  cases valid : RecordSpec.validateFields _ with
  | ok _ => rfl
  | error e =>
      rw [valid] at checked
      cases checked

theorem decodeBody_valid {stored : String} {record : DecodedRecord}
    (decoded : decodeBody json stored = .ok (some record)) : record.spec.validateFields = .ok () := by
  unfold decodeBody at decoded
  split at decoded
  · cases decoded
  · split at decoded
    · cases decoded
    · simp only [bind_eq_ok] at decoded
      obtain ⟨header, -, decoded⟩ := decoded
      split at decoded
      · cases decoded
      · simp only [bind_eq_ok] at decoded
        obtain ⟨spec, read, same⟩ := decoded
        cases same
        exact spec_valid read

theorem decodeBody_reserved {stored : String} (reserved : hasReservedPrefix stored = true) :
    decodeBody json stored ≠ .ok none := by
  obtain ⟨payload, opened⟩ : ∃ payload, stripPrefix headerPrefix.toList stored.toList = some payload := by
    rw [hasReservedPrefix] at reserved
    exact ⟨_, if_pos reserved⟩
  intro decoded
  simp only [decodeBody, opened] at decoded
  split at decoded
  · cases decoded
  · simp only [bind_eq_ok] at decoded
    obtain ⟨header, -, decoded⟩ := decoded
    split at decoded
    · cases decoded
    · simp only [bind_eq_ok] at decoded
      obtain ⟨spec, -, same⟩ := decoded
      cases same

/-- An envelope decodes to what it was made of; only invalid fields or a reserved body are not encoded;
and a reserved prefix is read as a valid record or not at all. -/
theorem record_round_trip (serde : json.Serde) :
    (∀ (spec : RecordSpec) (body stored : String), spec.encodeBody json body = .ok stored →
        decodeBody json stored = .ok (some ⟨spec, body⟩)) ∧
      (∀ (spec : RecordSpec) (body failure : String), spec.encodeBody json body = .error failure →
        spec.validateFields ≠ .ok () ∨ hasReservedPrefix body = true) ∧
      ∀ stored : String, hasReservedPrefix stored = true →
        (∃ failure, decodeBody json stored = .error failure) ∨
          ∃ record, decodeBody json stored = .ok (some record) ∧ record.spec.validateFields = .ok () := by
  refine ⟨?_, ?_, ?_⟩
  · intro spec body stored encoded
    obtain ⟨valid, plain⟩ : spec.validateFields = .ok () ∧ hasReservedPrefix body = false := by
      simp only [RecordSpec.encodeBody, bind_eq_ok] at encoded
      obtain ⟨_, valid, encoded⟩ := encoded
      refine ⟨valid, ?_⟩
      by_contra reserved
      rw [Bool.not_eq_false] at reserved
      simp [reserved] at encoded
    exact decodeBody_encodeBody serde.faithful valid plain encoded
  · intro spec body failure failed
    by_contra sound
    rw [not_or, not_not, Bool.not_eq_true] at sound
    obtain ⟨valid, plain⟩ := sound
    rw [encodeBody_plain valid plain (serde.writes _ (header_tokens valid))] at failed
    cases failed
  · intro stored reserved
    cases decoded : decodeBody json stored with
    | error failure => exact Or.inl ⟨failure, rfl⟩
    | ok result =>
        cases result with
        | none => exact absurd decoded (decodeBody_reserved reserved)
        | some record => exact Or.inr ⟨record, rfl, decodeBody_valid decoded⟩

theorem record_round_trip_compact :
    (∀ (spec : RecordSpec) (body stored : String), spec.encodeBody compactJson body = .ok stored →
        decodeBody compactJson stored = .ok (some ⟨spec, body⟩)) ∧
      (∀ (spec : RecordSpec) (body failure : String), spec.encodeBody compactJson body = .error failure →
        spec.validateFields ≠ .ok () ∨ hasReservedPrefix body = true) ∧
      ∀ stored : String, hasReservedPrefix stored = true →
        (∃ failure, decodeBody compactJson stored = .error failure) ∨
          ∃ record, decodeBody compactJson stored = .ok (some record) ∧ record.spec.validateFields = .ok () :=
  record_round_trip compactJson_serde

end RoundTrip

end Phasegent.Record
