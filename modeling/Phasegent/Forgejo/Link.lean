import Phasegent.Provider.Api
import Phasegent.Text.Cleaning
import Phasegent.Text.Decimal
import Phasegent.Text.Fallible
import Phasegent.Text.Words

namespace Phasegent.Forgejo
open Fallible Text

abbrev HeaderValue := Option (List Char)

structure Headers where
  totalCount : List HeaderValue
  link : List HeaderValue
  deriving DecidableEq, Repr

structure PageMetadata where
  total : Option Nat
  linkedNext : Option Bool
  deriving DecidableEq, Repr

section Link

def isLinkToken (value : List Char) : Bool :=
  !value.isEmpty && value.all fun c => c.isAlphanum || "!#$%&'*+-.^_\x60|~".toList.contains c

def linkEntriesFrom : Bool → Bool → List Char → List Char → List (List Char)
  | _, _, entry, [] => [entry]
  | insideTarget, insideQuotes, entry, c :: rest =>
      if c = '<' ∧ insideQuotes = false then linkEntriesFrom true insideQuotes (entry ++ [c]) rest
      else if c = '>' ∧ insideQuotes = false then linkEntriesFrom false insideQuotes (entry ++ [c]) rest
      else if c = '"' then linkEntriesFrom insideTarget (!insideQuotes) (entry ++ [c]) rest
      else if c = ',' ∧ insideTarget = false ∧ insideQuotes = false then
        entry :: linkEntriesFrom insideTarget insideQuotes [] rest
      else linkEntriesFrom insideTarget insideQuotes (entry ++ [c]) rest

def linkEntries (text : List Char) : List (List Char) :=
  ((linkEntriesFrom false false [] text).map trim).filter (!·.isEmpty)

variable (operation : String)

def linkParameterValue (raw : List Char) : Except PhasegentError (List Char) := do
  let value := trim raw
  if value.head? = some '"' then
    refuse (value.length < 2 ∨ value.getLast? ≠ some '"')
      (.pagination operation "unbalanced quoted Link header parameter")
    let inner := value.tail.dropLast
    refuse ('"' ∈ inner ∨ '\\' ∈ inner) (.pagination operation "invalid quoted Link header parameter")
    return inner
  else
    refuse (isLinkToken value = false) (.pagination operation "invalid Link header parameter value")
    return value

def relationValue : Option (List Char) → List (List Char) → Except PhasegentError (Option (List Char))
  | found, [] => return found
  | found, parameter :: rest =>
      if trim parameter = [] then relationValue found rest
      else do
        let some (name, value) := splitOnce ['='] (trim parameter)
          | throw (.pagination operation "malformed Link header parameter")
        refuse (isLinkToken (trim name) = false) (.pagination operation "invalid Link header parameter name")
        let value ← linkParameterValue operation value
        if toAsciiLower (trim name) = "rel".toList then
          refuse (found.isSome = true) (.pagination operation "duplicate Link header rel parameter")
          relationValue (some value) rest
        else relationValue found rest

def isAsciiWhitespace (c : Char) : Bool := c == ' ' || c == '\t' || c == '\n' || c == '\r' || c == '\x0C'

def otherRelations : List (List Char) := ["last".toList, "prev".toList, "first".toList]

def readRelations : Bool → List (List Char) → Except PhasegentError Bool
  | next, [] => return next
  | next, relation :: rest =>
      if toAsciiLower relation = "next".toList then readRelations true rest
      else if toAsciiLower relation ∈ otherRelations then readRelations next rest
      else throw (.pagination operation ("unsupported Link relation '" ++ String.ofList relation ++ "'"))

variable (validUrl : List Char → Bool)

def isTargetUri (uri : List Char) : Bool :=
  !uri.isEmpty && uri.all (fun c => !(isWhitespace c || c == '<' || c == '>')) && validUrl uri

def readEntry (next : Bool) (entry : List Char) : Except PhasegentError Bool := do
  let some (target, parameters) := splitOnce [';'] entry
    | throw (.pagination operation "malformed Link header entry")
  let target := trim target
  refuse (¬(target.head? = some '<' ∧ target.getLast? = some '>'))
    (.pagination operation "malformed Link header target")
  refuse (isTargetUri validUrl (trim target.tail.dropLast) = false)
    (.pagination operation "invalid Link header target URI")
  let some relation ← relationValue operation none (parameters.splitOn ';')
    | throw (.pagination operation "Link header entry has no relation")
  let next ← readRelations operation next (words isAsciiWhitespace relation)
  refuse (words isAsciiWhitespace relation = []) (.pagination operation "empty Link relation")
  return next

def readEntries : Bool → List (List Char) → Except PhasegentError Bool
  | next, [] => return next
  | next, entry :: rest => do
      let next ← readEntry operation validUrl next entry
      readEntries next rest

def readLinks : Bool → Bool → List HeaderValue → Except PhasegentError (Bool × Bool)
  | next, saw, [] => return (next, saw)
  | next, saw, value :: rest => do
      let some text := value | throw (.pagination operation "invalid Link header")
      let next ← readEntries operation validUrl next (linkEntries text)
      readLinks next (saw || !(linkEntries text).isEmpty) rest

def parseLinkNext (values : List HeaderValue) : Except PhasegentError (Option Bool) :=
  if values = [] then return none
  else do
    let (next, saw) ← readLinks operation validUrl false false values
    refuse (saw = false) (.pagination operation "Link header has no usable relation")
    return some next

def readTotals : Option Nat → List HeaderValue → Except PhasegentError (Option Nat)
  | total, [] => return total
  | total, value :: rest => do
      let some text := value | throw (.pagination operation "invalid X-Total-Count header")
      let some parsed := parseU64 (trim text)
        | throw (.pagination operation ("invalid X-Total-Count value '" ++ String.ofList text ++ "'"))
      refuse (total.any (· ≠ parsed) = true) (.pagination operation "conflicting X-Total-Count headers")
      readTotals (some parsed) rest

def pageMetadata (headers : Headers) : Except PhasegentError PageMetadata := do
  let total ← readTotals operation none headers.totalCount
  let linkedNext ← parseLinkNext operation validUrl headers.link
  return ⟨total, linkedNext⟩

end Link

section Written

structure Parameter where
  name : List Char
  value : List Char
  quoted : Bool
  named : isLinkToken name = true
  proper : if quoted then ∀ c ∈ value, c ∉ ['"', '\\', ';'] else isLinkToken value = true

def Parameter.text (parameter : Parameter) : List Char :=
  parameter.name ++ '=' :: if parameter.quoted then '"' :: parameter.value ++ ['"'] else parameter.value

def relationsText : List (List Char) → List Char
  | [] => []
  | [relation] => relation
  | relation :: rest => relation ++ ' ' :: relationsText rest

def knownRelations : List (List Char) := "next".toList :: otherRelations

/-- A link as the reader takes it: a target without a semicolon or a quote, relations that are known, and other
parameters on either side of them, their quoted values without a semicolon too. -/
structure WebLink (validUrl : List Char → Bool) where
  target : List Char
  before : List Parameter
  relations : List (List Char)
  after : List Parameter
  valid : isTargetUri validUrl target = true
  whole : ';' ∉ target ∧ '"' ∉ target
  others : ∀ parameter ∈ before ++ after, toAsciiLower parameter.name ≠ "rel".toList
  related : relations ≠ []
  known : ∀ relation ∈ relations, toAsciiLower relation ∈ knownRelations

def WebLink.hasNext {validUrl : List Char → Bool} (link : WebLink validUrl) : Bool :=
  link.relations.any fun relation => toAsciiLower relation = "next".toList

theorem known_letters {relation : List Char} (known : toAsciiLower relation ∈ knownRelations) {c : Char}
    (among : c ∈ relation) : c.toLower ∈ "nextlaprvfis".toList := by
  have lower : c.toLower ∈ toAsciiLower relation := List.mem_map_of_mem among
  simp only [knownRelations, otherRelations, List.mem_cons, List.not_mem_nil, or_false] at known
  rcases known with same | same | same | same
  all_goals
    rw [same] at lower
    revert lower
    simp +contextual [or_imp]

theorem known_plain {relation : List Char} (known : toAsciiLower relation ∈ knownRelations) {c : Char}
    (among : c ∈ relation) : c ∉ ['"', '\\', ';'] ∧ isAsciiWhitespace c = false := by
  have letter := known_letters known among
  refine ⟨fun special => ?_, Bool.eq_false_iff.mpr fun blank => ?_⟩
  · revert letter
    fin_cases special <;> decide
  · simp only [isAsciiWhitespace, Bool.or_eq_true, beq_iff_eq] at blank
    rcases blank with (((rfl | rfl) | rfl) | rfl) | rfl <;> revert letter <;> decide

theorem relationsText_plain {relations : List (List Char)}
    (known : ∀ relation ∈ relations, toAsciiLower relation ∈ knownRelations) :
    ∀ c ∈ relationsText relations, c ∉ ['"', '\\', ';'] := by
  induction relations using relationsText.induct with
  | case1 => nofun
  | case2 relation => exact fun c among => (known_plain (known relation List.mem_cons_self) among).1
  | case3 relation rest nonempty ih =>
      intro c among
      rw [relationsText] at among
      · rcases List.mem_append.mp among with among | among
        · exact (known_plain (known relation List.mem_cons_self) among).1
        rcases List.mem_cons.mp among with rfl | among
        · decide
        · exact ih (fun own inside => known own (List.mem_cons_of_mem _ inside)) c among
      · exact nonempty

variable {validUrl : List Char → Bool}

theorem rel_lower : toAsciiLower "rel".toList = "rel".toList := by decide

theorem rel_token : isLinkToken "rel".toList = true := by decide

def WebLink.relation (link : WebLink validUrl) : Parameter :=
  ⟨"rel".toList, relationsText link.relations, true, rel_token, relationsText_plain link.known⟩

def WebLink.parameters (link : WebLink validUrl) : List Parameter := link.before ++ link.relation :: link.after

def WebLink.text (link : WebLink validUrl) : List Char :=
  '<' :: (link.target ++ '>' :: ';' :: [';'].intercalate (link.parameters.map fun parameter => ' ' :: parameter.text))

def linksText : List (WebLink validUrl) → List Char
  | [] => []
  | [link] => link.text
  | link :: rest => link.text ++ ',' :: ' ' :: linksText rest

section Tokens

def marks : List Char := ['"', '\\', ';', '=', ',', '<', '>', ' ']

theorem alphanum_plain {c : Char} (letter : c.isAlphanum = true) : c ∉ marks ∧ isWhitespace c = false := by
  have range : (48 ≤ c.toNat ∧ c.toNat ≤ 57) ∨ (65 ≤ c.toNat ∧ c.toNat ≤ 90) ∨ 97 ≤ c.toNat ∧ c.toNat ≤ 122 := by
    simp only [Char.isAlphanum, Char.isAlpha, Bool.or_eq_true, isUpper_iff, isLower_iff, isDigit_iff] at letter
    omega
  refine ⟨fun special => ?_, ?_⟩
  · revert letter
    fin_cases special <;> decide
  · simp only [isWhitespace, Bool.or_eq_false_iff, Bool.and_eq_false_iff, decide_eq_false_iff_not, beq_eq_false_iff_ne]
    omega

theorem symbol_plain : ∀ c ∈ "!#$%&'*+-.^_\x60|~".toList, c ∉ marks ∧ isWhitespace c = false := by
  simp [marks, isWhitespace]

theorem token_plain {text : List Char} (token : isLinkToken text = true) {c : Char} (among : c ∈ text) :
    c ∉ marks ∧ isWhitespace c = false := by
  simp only [isLinkToken, Bool.and_eq_true, List.all_eq_true, Bool.or_eq_true, List.contains_iff_mem] at token
  exact (token.2 c among).elim alphanum_plain (symbol_plain c)

theorem token_trimmed {text : List Char} (token : isLinkToken text = true) : trim text = text :=
  trim_eq_self fun _ among => (token_plain token among).2

theorem token_ne_nil {text : List Char} (token : isLinkToken text = true) : text ≠ [] := by
  rintro rfl
  cases token

theorem trimmed_ends (front : List Char) {text : List Char} {c d : Char} (starts : isWhitespace c = false) (ends : isWhitespace d = false)
    (first : text.head? = some c) (last : text = front ++ [d]) : Trimmed isWhitespace text := by
  refine ⟨fun own found => ?_, fun own found => ?_⟩
  · rw [first] at found
    exact Option.mem_some.mp found ▸ starts
  · rw [last, List.getLast?_concat] at found
    exact Option.mem_some.mp found ▸ ends

theorem trim_blanks {blanks text : List Char} (blank : ∀ c ∈ blanks, isWhitespace c = true)
    (trimmed : Trimmed isWhitespace text) : trim (blanks ++ text) = text := by
  rw [trim, List.dropWhile_append_of_pos blank]
  exact trimmed.trimBy_eq_self

end Tokens

section Parameters

variable {operation : String} {parameter : Parameter}

def Parameter.spelling (parameter : Parameter) : List Char :=
  if parameter.quoted then '"' :: parameter.value ++ ['"'] else parameter.value

theorem linkParameterValue_spelling : linkParameterValue operation parameter.spelling = .ok parameter.value := by
  obtain ⟨name, value, quoted, named, proper⟩ := parameter
  cases quoted with
  | false =>
      have token : isLinkToken value = true := by simpa using proper
      have unquoted : value.head? ≠ some '"' := fun first =>
        (token_plain token (List.mem_of_mem_head? first)).1 (by simp [marks])
      simp [linkParameterValue, Parameter.spelling, token_trimmed token, unquoted, token, refuse]
  | true =>
      have plain : ∀ c ∈ value, c ∉ ['"', '\\', ';'] := by simpa using proper
      have whole : trim ('"' :: value ++ ['"']) = '"' :: value ++ ['"'] :=
        (trimmed_ends ('"' :: value) (by decide) (by decide) rfl rfl : Trimmed isWhitespace ('"' :: value ++ ['"'])).trimBy_eq_self
      have inner : '"' ∉ value ∧ '\\' ∉ value := ⟨fun inside => plain _ inside (by simp), fun inside => plain _ inside (by simp)⟩
      have last : ('"' :: (value ++ ['"'])).getLast? = some '"' := List.getLast?_concat (l := '"' :: value) ..
      simp only [linkParameterValue, Parameter.spelling, if_true, whole]
      simp [refuse, inner, last]

theorem text_eq : parameter.text = parameter.name ++ '=' :: parameter.spelling := rfl

theorem text_trimmed : Trimmed isWhitespace parameter.text := by
  obtain ⟨name, value, quoted, named, proper⟩ := parameter
  obtain ⟨c, rest, rfl⟩ := List.exists_cons_of_ne_nil (token_ne_nil named)
  have starts := (token_plain named List.mem_cons_self).2
  cases quoted with
  | false =>
      have token : isLinkToken value = true := by simpa using proper
      obtain ⟨front, d, rfl⟩ := (List.eq_nil_or_concat' value).resolve_left (token_ne_nil token)
      have ends := (token_plain token (List.mem_append_right front List.mem_cons_self)).2
      exact trimmed_ends (c :: rest ++ '=' :: front) starts ends rfl (by simp [Parameter.text])
  | true =>
      have ends : isWhitespace '"' = false := by decide
      exact trimmed_ends (c :: rest ++ '=' :: '"' :: value) starts ends rfl (by simp [Parameter.text])

theorem semicolon_not_mem_text : ';' ∉ parameter.text := by
  obtain ⟨name, value, quoted, named, proper⟩ := parameter
  have absent : ';' ∉ name := fun inside => (token_plain named inside).1 (by simp [marks])
  cases quoted with
  | false =>
      have token : isLinkToken value = true := by simpa using proper
      have absent' : ';' ∉ value := fun inside => (token_plain token inside).1 (by simp [marks])
      simp [Parameter.text, absent, absent']
  | true =>
      have plain : ∀ c ∈ value, c ∉ ['"', '\\', ';'] := by simpa using proper
      have absent' : ';' ∉ value := fun inside => plain _ inside (by simp)
      simp [Parameter.text, absent, absent']

theorem relationValue_cons {found : Option (List Char)} {rest : List (List Char)} :
    relationValue operation found ((' ' :: parameter.text) :: rest) =
      if toAsciiLower parameter.name = "rel".toList then
        if found.isSome = true then .error (.pagination operation "duplicate Link header rel parameter")
        else relationValue operation (some parameter.value) rest
      else relationValue operation found rest := by
  have space : ∀ c ∈ [' '], isWhitespace c = true := by simp [isWhitespace]
  have whole : trim (' ' :: parameter.text) = parameter.text := trim_blanks space text_trimmed
  have split : splitOnce ['='] parameter.text = some (parameter.name, parameter.spelling) :=
    splitOnce_char _ fun inside => (token_plain parameter.named inside).1 (by simp [marks])
  have filled : parameter.text ≠ [] := by simp [text_eq]
  rw [relationValue, whole, if_neg filled, split]
  simp only [token_trimmed parameter.named, parameter.named, linkParameterValue_spelling, refuse, ok_bind, reduceCtorEq, if_false]
  split
  · split <;> rfl
  · rfl

end Parameters

section Entries

variable {operation : String} {link : WebLink validUrl}

theorem relationValue_others {parameters : List Parameter} {found : Option (List Char)} {rest : List (List Char)}
    (others : ∀ parameter ∈ parameters, toAsciiLower parameter.name ≠ "rel".toList) :
    relationValue operation found (parameters.map (fun parameter => ' ' :: parameter.text) ++ rest) =
      relationValue operation found rest := by
  induction parameters with
  | nil => rfl
  | cons parameter parameters ih =>
      rw [List.forall_mem_cons] at others
      rw [List.map_cons, List.cons_append, relationValue_cons, if_neg others.1, ih others.2]

theorem relationValue_parameters :
    relationValue operation none (link.parameters.map fun parameter => ' ' :: parameter.text) =
      .ok (some (relationsText link.relations)) := by
  have others := link.others
  rw [List.forall_mem_append] at others
  have rel : toAsciiLower link.relation.name = "rel".toList := rel_lower
  rw [WebLink.parameters, List.map_append, relationValue_others others.1, List.map_cons, relationValue_cons, if_pos rel,
    if_neg (by simp), ← List.append_nil (link.after.map _), relationValue_others others.2]
  rfl

theorem words_relationsText {relations : List (List Char)}
    (known : ∀ relation ∈ relations, toAsciiLower relation ∈ knownRelations) :
    words isAsciiWhitespace (relationsText relations) = relations := by
  have filled : ∀ relation, toAsciiLower relation ∈ knownRelations → relation ≠ [] := by
    rintro _ among rfl
    revert among
    decide
  induction relations using relationsText.induct with
  | case1 => rfl
  | case2 relation =>
      have known := known relation List.mem_cons_self
      have spaceless : ∀ c ∈ relation, isAsciiWhitespace c = false := fun _ among => (known_plain known among).2
      simp [words, relationsText, List.splitOnP_eq_singleton spaceless, filled relation known]
  | case3 relation rest nonempty ih =>
      rw [List.forall_mem_cons] at known
      have spaceless : ∀ c ∈ relation, isAsciiWhitespace c = false := fun _ among => (known_plain known.1 among).2
      have rest := ih known.2
      rw [words] at rest
      rw [relationsText, words, List.splitOnP_append_cons_of_forall_mem spaceless ' ' (by decide), List.filter_cons_of_pos, rest]
      · simpa using filled relation known.1
      · exact nonempty

theorem readRelations_known {relations : List (List Char)} {next : Bool}
    (known : ∀ relation ∈ relations, toAsciiLower relation ∈ knownRelations) :
    readRelations operation next relations =
      .ok (next || relations.any fun relation => toAsciiLower relation = "next".toList) := by
  induction relations generalizing next with
  | nil => simp [readRelations]
  | cons relation rest ih =>
      rw [List.forall_mem_cons] at known
      rw [readRelations]
      by_cases forward : toAsciiLower relation = "next".toList
      · rw [if_pos forward, ih known.2]
        simp [forward]
      · have other := (List.mem_cons.mp known.1).resolve_left forward
        rw [if_neg forward, if_pos other, ih known.2, List.any_cons, decide_eq_false forward, Bool.false_or]

theorem semicolon_not_mem_front : ';' ∉ '<' :: (link.target ++ ['>']) := by
  simp [link.whole.1]

theorem splitOn_parameters :
    ([';'].intercalate (link.parameters.map fun parameter => ' ' :: parameter.text)).splitOn ';' =
      link.parameters.map fun parameter => ' ' :: parameter.text := by
  apply List.splitOn_intercalate
  · intro text among
    obtain ⟨parameter, -, rfl⟩ := List.mem_map.mp among
    simp [semicolon_not_mem_text]
  · simp [WebLink.parameters]

theorem readEntry_text {next : Bool} : readEntry operation validUrl next link.text = .ok (next || link.hasNext) := by
  have split : splitOnce [';'] link.text = some ('<' :: (link.target ++ ['>']),
      [';'].intercalate (link.parameters.map fun parameter => ' ' :: parameter.text)) := by
    have parts : link.text = ('<' :: (link.target ++ ['>'])) ++ ';' ::
        [';'].intercalate (link.parameters.map fun parameter => ' ' :: parameter.text) := by
      simp [WebLink.text]
    rw [parts]
    exact splitOnce_char _ semicolon_not_mem_front
  have ends : isWhitespace '<' = false ∧ isWhitespace '>' = false := by decide
  have whole : trim ('<' :: (link.target ++ ['>'])) = '<' :: (link.target ++ ['>']) :=
    (trimmed_ends ('<' :: link.target) ends.1 ends.2 rfl rfl).trimBy_eq_self
  have last : ('<' :: (link.target ++ ['>'])).getLast? = some '>' := List.getLast?_concat (l := '<' :: link.target) ..
  have spaceless : trim link.target = link.target := by
    have valid := link.valid
    simp only [isTargetUri, Bool.and_eq_true, List.all_eq_true, Bool.not_eq_true', Bool.or_eq_false_iff] at valid
    exact trim_eq_self fun c among => (valid.1.2 c among).1.1
  rw [readEntry, split]
  simp only [whole, last, List.head?_cons, List.tail_cons, List.dropLast_concat, spaceless, link.valid, splitOn_parameters,
    relationValue_parameters, ok_bind]
  rw [words_relationsText link.known, readRelations_known link.known]
  simp [link.related, WebLink.hasNext, refuse]

end Entries

section Splitting

def Passes (state : Bool × Bool) (text : List Char) (state' : Bool × Bool) : Prop :=
  ∀ entry rest, linkEntriesFrom state.1 state.2 entry (text ++ rest) = linkEntriesFrom state'.1 state'.2 (entry ++ text) rest

theorem passes_nil {state : Bool × Bool} : Passes state [] state := fun entry rest => by simp

theorem Passes.append {state state' state'' : Bool × Bool} {text text' : List Char} (first : Passes state text state')
    (second : Passes state' text' state'') : Passes state (text ++ text') state'' := by
  intro entry rest
  rw [List.append_assoc, first, second, List.append_assoc]

theorem Passes.cons {state state' state'' : Bool × Bool} {c : Char} {text : List Char} (first : Passes state [c] state')
    (second : Passes state' text state'') : Passes state (c :: text) state'' := first.append second

theorem passes_quote {target quotes : Bool} : Passes (target, quotes) ['"'] (target, !quotes) := by
  intro entry rest
  rw [List.singleton_append, linkEntriesFrom, if_neg (by simp), if_neg (by simp), if_pos rfl]

theorem passes_open {target : Bool} : Passes (target, false) ['<'] (true, false) := by
  intro entry rest
  rw [List.singleton_append, linkEntriesFrom, if_pos (by simp)]

theorem passes_close {target : Bool} : Passes (target, false) ['>'] (false, false) := by
  intro entry rest
  rw [List.singleton_append, linkEntriesFrom, if_neg (by simp), if_pos (by simp)]

def Still (state : Bool × Bool) (c : Char) : Prop :=
  c ≠ '"' ∧ (state.2 = false → c ≠ '<' ∧ c ≠ '>' ∧ (state.1 = false → c ≠ ','))

theorem passes_still {state : Bool × Bool} {text : List Char} (still : ∀ c ∈ text, Still state c) :
    Passes state text state := by
  induction text with
  | nil => exact passes_nil
  | cons c text ih =>
      rw [List.forall_mem_cons] at still
      refine Passes.cons (fun entry rest => ?_) (ih still.2)
      obtain ⟨target, quotes⟩ := state
      have own := still.1
      simp only [Still] at own
      rw [List.singleton_append, linkEntriesFrom, if_neg fun here => (own.2 here.2).1 here.1,
        if_neg fun here => (own.2 here.2).2.1 here.1, if_neg own.1,
        if_neg fun here => (own.2 here.2.2).2.2 here.2.1 here.1]

theorem token_still {text : List Char} (token : isLinkToken text = true) : ∀ c ∈ text, Still (false, false) c := by
  intro c among
  have plain := (token_plain token among).1
  simp only [marks, List.mem_cons, not_or] at plain
  exact ⟨plain.1, fun _ => ⟨plain.2.2.2.2.2.1, plain.2.2.2.2.2.2.1, fun _ => plain.2.2.2.2.1⟩⟩

variable {parameter : Parameter} {link : WebLink validUrl}

theorem passes_parameter : Passes (false, false) parameter.text (false, false) := by
  obtain ⟨name, value, quoted, named, proper⟩ := parameter
  have equals : Passes (false, false) ['='] (false, false) := passes_still (by simp [Still])
  refine (passes_still (token_still named)).append (equals.cons ?_)
  cases quoted with
  | false => exact passes_still (token_still (by simpa using proper))
  | true =>
      have plain : ∀ c ∈ value, c ∉ ['"', '\\', ';'] := by simpa using proper
      refine passes_quote.cons (Passes.append (passes_still fun c among => ⟨?_, nofun⟩) passes_quote)
      rintro rfl
      exact plain _ among (by simp)

theorem passes_parameters {parameters : List Parameter} : Passes (false, false)
    ([';'].intercalate (parameters.map fun parameter => ' ' :: parameter.text)) (false, false) := by
  have blank : Passes (false, false) [' '] (false, false) := passes_still (by simp [Still])
  have semicolon : Passes (false, false) [';'] (false, false) := passes_still (by simp [Still])
  induction parameters with
  | nil => exact passes_nil
  | cons parameter rest ih =>
      cases rest with
      | nil => simpa using blank.cons passes_parameter
      | cons next rest =>
          rw [List.map_cons, List.map_cons, List.intercalate_cons_cons, List.append_assoc]
          exact (blank.cons passes_parameter).append (semicolon.append ih)

theorem passes_text : Passes (false, false) link.text (false, false) := by
  refine passes_open.cons (Passes.append (passes_still fun c among => ⟨?_, fun _ => ?_⟩) (passes_close.cons
    (Passes.cons (passes_still (by simp [Still])) passes_parameters)))
  · rintro rfl
    exact link.whole.2 among
  · have valid := link.valid
    simp only [isTargetUri, Bool.and_eq_true, List.all_eq_true, Bool.not_eq_true', Bool.or_eq_false_iff, beq_eq_false_iff_ne] at valid
    exact ⟨(valid.1.2 c among).1.2, (valid.1.2 c among).2, nofun⟩

theorem parameters_end {parameters : List Parameter} (some : parameters ≠ []) : ∃ (front : List Char) (parameter : Parameter),
    [';'].intercalate (parameters.map fun parameter => ' ' :: parameter.text) = front ++ parameter.text := by
  induction parameters with
  | nil => exact absurd rfl some
  | cons parameter rest ih =>
      cases rest with
      | nil => exact ⟨[' '], parameter, by simp⟩
      | cons next rest =>
          obtain ⟨front, last, same⟩ := ih (by simp)
          rw [List.map_cons] at same
          refine ⟨(' ' :: parameter.text) ++ [';'] ++ front, last, ?_⟩
          rw [List.map_cons, List.map_cons, List.intercalate_cons_cons, same]
          simp

theorem text_framed : Trimmed isWhitespace link.text := by
  have some : link.parameters ≠ [] := by simp [WebLink.parameters]
  obtain ⟨front, parameter, same⟩ := parameters_end some
  have trimmed : Trimmed isWhitespace parameter.text := text_trimmed
  refine ⟨?_, fun c last => trimmed.last c ?_⟩
  · intro c first
    cases Option.mem_some.mp first
    simp [isWhitespace]
  · have filled : parameter.text ≠ [] := by simp [text_eq]
    have parts : link.text = ('<' :: (link.target ++ '>' :: ';' :: front)) ++ parameter.text := by
      simp [WebLink.text, same]
    rwa [parts, List.getLast?_append_of_ne_nil _ filled] at last

theorem text_filled : link.text ≠ [] := by simp [WebLink.text]

theorem linkEntriesFrom_linksText {links : List (WebLink validUrl)} {blanks : List Char}
    (blank : ∀ c ∈ blanks, isWhitespace c = true) :
    ((linkEntriesFrom false false blanks (linksText links)).map trim).filter (!·.isEmpty) = links.map (·.text) := by
  induction links using linksText.induct generalizing blanks with
  | case1 =>
      have nothing : Trimmed isWhitespace [] := ⟨nofun, nofun⟩
      have bare : trim blanks = [] := by simpa using trim_blanks blank nothing
      simp [linksText, linkEntriesFrom, bare]
  | case2 link =>
      have passed := (passes_text : Passes (false, false) link.text (false, false)) blanks []
      rw [List.append_nil] at passed
      simp only [linksText, passed, linkEntriesFrom, List.map_cons, List.map_nil, trim_blanks blank text_framed]
      simp [text_filled]
  | case3 link rest nonempty ih =>
      have comma : linkEntriesFrom false false (blanks ++ link.text) (',' :: ' ' :: linksText rest) =
          (blanks ++ link.text) :: linkEntriesFrom false false [' '] (linksText rest) := by
        simp [linkEntriesFrom]
      have spaces : ∀ c ∈ [' '], isWhitespace c = true := by simp [isWhitespace]
      rw [linksText, passes_text, comma, List.map_cons, trim_blanks blank text_framed, List.filter_cons_of_pos (by simp [text_filled]),
        ih spaces, List.map_cons]
      exact nonempty

theorem linkEntries_linksText (links : List (WebLink validUrl)) : linkEntries (linksText links) = links.map (·.text) :=
  linkEntriesFrom_linksText nofun

end Splitting

section RoundTrip

variable {operation : String}

theorem readEntries_links {links : List (WebLink validUrl)} {next : Bool} :
    readEntries operation validUrl next (links.map (·.text)) = .ok (next || links.any (·.hasNext)) := by
  induction links generalizing next with
  | nil => simp [readEntries]
  | cons link links ih => rw [List.map_cons, readEntries, readEntry_text, ok_bind, ih, List.any_cons, Bool.or_assoc]

theorem readLinks_links {values : List (List (WebLink validUrl))} {next saw : Bool} :
    readLinks operation validUrl next saw (values.map fun links => some (linksText links)) =
      .ok (next || values.any (·.any (·.hasNext)), saw || values.any (!·.isEmpty)) := by
  induction values generalizing next saw with
  | nil => simp [readLinks]
  | cons links values ih =>
      simp only [List.map_cons, readLinks, linkEntries_linksText, readEntries_links, ok_bind, ih, List.any_cons, Bool.or_assoc,
        List.isEmpty_map]

/-- Whatever such links a server sends, in however many headers, they are read back as whether one of them leads on;
headers without a link are refused. -/
theorem parseLinkNext_links (operation : String) (values : List (List (WebLink validUrl))) :
    parseLinkNext operation validUrl (values.map fun links => some (linksText links)) =
      if values = [] then .ok none
      else if values.flatten = [] then .error (.pagination operation "Link header has no usable relation")
      else .ok (some (values.flatten.any (·.hasNext))) := by
  have saw : (values.any (!·.isEmpty)) = false ↔ values.flatten = [] := by simp
  simp only [parseLinkNext, List.map_eq_nil_iff, readLinks_links, ok_bind, Bool.false_or]
  split
  · rfl
  by_cases bare : values.flatten = []
  · rw [if_pos bare, saw.mpr bare]
    rfl
  · have linked := Bool.of_not_eq_false (mt saw.mp bare)
    rw [if_neg bare, linked, List.any_flatten]
    rfl

end RoundTrip

end Written

section Sample

def plainUrl (uri : List Char) : Bool := "https://".toList.isPrefixOf uri

theorem title_proper : ∀ c ∈ "page two".toList, c ∉ ['"', '\\', ';'] := by simp

def titled : Parameter where
  name := "title".toList
  value := "page two".toList
  quoted := true
  named := rfl
  proper := title_proper

theorem titled_others : ∀ parameter ∈ [titled] ++ [], toAsciiLower parameter.name ≠ "rel".toList := by decide

theorem bare_others : ∀ parameter ∈ ([] ++ [] : List Parameter), toAsciiLower parameter.name ≠ "rel".toList := by
  simp

theorem second_valid : isTargetUri plainUrl "https://forgejo.test/issues?page=2".toList = true := by decide +kernel

theorem second_whole : ';' ∉ "https://forgejo.test/issues?page=2".toList ∧
    '"' ∉ "https://forgejo.test/issues?page=2".toList := by decide +kernel

theorem next_known : ∀ relation ∈ ["Next".toList], toAsciiLower relation ∈ knownRelations := by decide

theorem last_known : ∀ relation ∈ ["prev".toList, "last".toList], toAsciiLower relation ∈ knownRelations := by decide

def nextLink : WebLink plainUrl where
  target := "https://forgejo.test/issues?page=2".toList
  before := [titled]
  relations := ["Next".toList]
  after := []
  valid := second_valid
  whole := second_whole
  others := titled_others
  related := List.cons_ne_nil _ _
  known := next_known

def lastLink : WebLink plainUrl where
  target := "https://forgejo.test/issues?page=2".toList
  before := []
  relations := ["prev".toList, "last".toList]
  after := []
  valid := second_valid
  whole := second_whole
  others := bare_others
  related := List.cons_ne_nil _ _
  known := last_known

theorem sample_text : linksText [nextLink, lastLink] =
    ("<https://forgejo.test/issues?page=2>; title=\"page two\"; rel=\"Next\", " ++
      "<https://forgejo.test/issues?page=2>; rel=\"prev last\"").toList := by
  decide +kernel

theorem sample_links_read :
    parseLinkNext "issue list" plainUrl
        [some ("<https://forgejo.test/issues?page=2>; title=\"page two\"; rel=\"Next\", " ++
            "<https://forgejo.test/issues?page=2>; rel=\"prev last\"").toList] = .ok (some true) ∧
      parseLinkNext "issue list" plainUrl [some []] =
        .error (.pagination "issue list" "Link header has no usable relation") := by
  constructor
  · rw [← sample_text]
    exact parseLinkNext_links "issue list" [[nextLink, lastLink]]
  · exact parseLinkNext_links "issue list" ([[]] : List (List (WebLink plainUrl)))

end Sample

end Phasegent.Forgejo
