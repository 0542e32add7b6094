import Mathlib
import Phasegent.Notify.Retained

namespace Phasegent.Notify.Plugin
open Fallible
open Js (Value)
open Text (clipTo Json)

section Statement

/-- A form of the host; an array of the language has fewer than 2 ^ 32 members. -/
structure HostForm where
  value : Value
  fields : (fieldsOf value).length < 2 ^ 32
  options : ∀ field ∈ fieldsOf value, (optionsOf field).length < 2 ^ 32

def Payload.size (payload : Payload) : Nat :=
  payload.sessionId.length + payload.sessionTitle.length + payload.project.length +
    (payload.questions.map NormalizedQuestion.size).sum

structure Bounded (form : HostForm) (payload : Payload) : Prop where
  bytes : payload.json.utf8ByteSize ≤ questionInputLimitBytes
  scalars : payload.size ≤ totalTextBudget
  questions : payload.questions.length + payload.omittedQuestions = (fieldsOf form.value).length
  choices : ∃ sources, sources.Sublist (fieldsOf form.value) ∧ List.Forall₂ (fun field question =>
    question.options.length + question.omittedOptions = (optionsOf field).length) sources payload.questions

/-- The command accepts a document with a question and finds the same questions in it. -/
def Accepted (fromSlice : ByteArray → Option RawInput) (payload : Payload) : Prop := payload.questions ≠ [] →
  ∃ notification, parseQuestionInput fromSlice payload.json.toUTF8 = .ok notification ∧
    notification.questions = payload.questions ∧ notification.omittedQuestions = payload.omittedQuestions

def sessionText (form : Value) : List Char := clipTo sessionIdCap (cleanText (member form "sessionID"))

def titleText (session : Value) : List Char := clipTo sessionTitleCap (cleanText (member session "title"))

def projectText (context : Value) : List Char := clipTo projectCap (cleanText (.string (projectName context)))

def questionRoom (context form session : Value) : Nat :=
  totalTextBudget - (sessionText form).length - (titleText session).length - (projectText context).length

def hidden (text : List Char) : Nat := text.length - (Notify.cleanText text).length

/-- No question comes through; or none of what comes through has a control that only the command
drops, no count is cut, and the command's own name for a session without one fits as well. -/
def Compatible (context : Value) (form : HostForm) (session : Value) : Prop :=
  let kept := ledger 0 (questionRoom context form.value session) (fieldsOf form.value)
  kept.entries = [] ∨
    (∀ entry ∈ kept.entries, (∀ text ∈ entry.texts, Plain text) ∧ entry.omitted ≤ maxOmissionCount) ∧
      (fieldsOf form.value).length - kept.entries.length ≤ maxOmissionCount ∧
      if sessionText form.value = [] then
        7 ≤ kept.left ∧ ∀ entry ∈ kept.entries, 9 ≤ entry.before + hidden (titleText session) + hidden (projectText context)
      else Notify.cleanText (sessionText form.value) ≠ []

end Statement

section Size

theorem plain_of_clean {text : List Char} (clean : Clean isSpace text) : Json.Plain text := by
  intro c member
  exact (clean.kept c member).imp_left And.left

theorem bytes_optionDocument {option : NormalizedOption} (retained : ChoiceRetained option) :
    Json.bytes (optionDocument option).write ≤ 4 * option.size + 29 := by
  have label := Json.bytes_quote (plain_of_clean retained.label)
  have description := Json.bytes_quote (plain_of_clean retained.description)
  have name : Json.bytes (Json.quote "label".toList) = 7 := by decide
  have name' : Json.bytes (Json.quote "description".toList) = 13 := by decide
  have marks : '\x7b'.utf8Size = 1 ∧ '\x7d'.utf8Size = 1 ∧ ':'.utf8Size = 1 ∧ ','.utf8Size = 1 := by decide
  simp only [optionDocument, Json.write, Json.writeMembers, Json.bytes_append, Json.bytes_cons, Json.bytes_nil,
    NormalizedOption.size, name, name', marks]
  omega

theorem bytes_options {options : List NormalizedOption} (retained : ∀ option ∈ options, ChoiceRetained option) :
    Json.bytes (Json.writeItems (options.map optionDocument)) ≤ 4 * choiceSize options + 30 * options.length := by
  refine (Json.bytes_writeItems _).trans ?_
  induction options with
  | nil => simp [choiceSize]
  | cons option rest ih =>
      have first := bytes_optionDocument (retained option List.mem_cons_self)
      have later := ih fun other member => retained other (List.mem_cons_of_mem option member)
      simp only [List.map_cons, List.sum_cons, choiceSize, List.length_cons] at later ⊢
      omega

theorem bytes_questionDocument {field : Value} {question : NormalizedQuestion}
    (retained : QuestionRetained field question) (sized : (optionsOf field).length < 2 ^ 32) :
    Json.bytes (questionDocument question).write ≤ 4 * question.size + 500 := by
  have header := Json.bytes_quote (plain_of_clean retained.header)
  have text := Json.bytes_quote (plain_of_clean retained.text)
  have options := bytes_options retained.choices
  have few := retained.few
  have cap : maxChoices = 12 := rfl
  have whole := retained.supplied
  have omitted : Json.bytes (Json.number question.omittedOptions).write ≤ 10 :=
    Json.bytes_write_number (by omega) (by decide)
  have multiple : Json.bytes (Json.boolean question.multiple).write ≤ 5 := by
    cases question.multiple <;> decide
  have names : Json.bytes (Json.quote "header".toList) = 8 ∧ Json.bytes (Json.quote "text".toList) = 6 ∧
      Json.bytes (Json.quote "multiple".toList) = 10 ∧ Json.bytes (Json.quote "options".toList) = 9 ∧
      Json.bytes (Json.quote "omitted_options".toList) = 17 := by decide
  have marks : '\x7b'.utf8Size = 1 ∧ '\x7d'.utf8Size = 1 ∧ ':'.utf8Size = 1 ∧ ','.utf8Size = 1 ∧
      '['.utf8Size = 1 ∧ ']'.utf8Size = 1 := by decide
  simp only [Json.write] at omitted multiple
  simp only [questionDocument, Json.write, Json.writeMembers, Json.bytes_append, Json.bytes_cons, Json.bytes_nil,
    NormalizedQuestion.size, names, marks]
  omega

theorem bytes_questions {sources : List Value} {questions : List NormalizedQuestion}
    (retained : List.Forall₂ QuestionRetained sources questions)
    (sized : ∀ field ∈ sources, (optionsOf field).length < 2 ^ 32) :
    Json.bytes (Json.writeItems (questions.map questionDocument)) ≤
      4 * (questions.map NormalizedQuestion.size).sum + 501 * questions.length := by
  refine (Json.bytes_writeItems _).trans ?_
  induction retained with
  | nil => simp
  | cons first _ ih =>
      have own := bytes_questionDocument first (sized _ List.mem_cons_self)
      have later := ih fun field member => sized field (List.mem_cons_of_mem _ member)
      simp only [List.map_cons, List.sum_cons, List.length_cons] at later ⊢
      omega

theorem bytes_document {payload : Payload} {sources : List Value}
    (sessionId : Json.Plain payload.sessionId) (sessionTitle : Json.Plain payload.sessionTitle)
    (project : Json.Plain payload.project) (retained : List.Forall₂ QuestionRetained sources payload.questions)
    (sized : ∀ field ∈ sources, (optionsOf field).length < 2 ^ 32) (few : payload.questions.length ≤ maxQuestions)
    (counted : payload.omittedQuestions < 2 ^ 32) :
    payload.json.utf8ByteSize ≤ 4 * payload.size + 5000 := by
  have session := Json.bytes_quote sessionId
  have title := Json.bytes_quote sessionTitle
  have name := Json.bytes_quote project
  have questions := bytes_questions retained sized
  have cap : maxQuestions = 8 := rfl
  have omitted : Json.bytes (Json.number payload.omittedQuestions).write ≤ 10 :=
    Json.bytes_write_number (by omega) (by decide)
  have event : Json.bytes (Json.quote "blocked".toList) = 9 := by decide
  have names : Json.bytes (Json.quote "event".toList) = 7 ∧ Json.bytes (Json.quote "question".toList) = 10 ∧
      Json.bytes (Json.quote "session_id".toList) = 12 ∧ Json.bytes (Json.quote "session_title".toList) = 15 ∧
      Json.bytes (Json.quote "project".toList) = 9 ∧ Json.bytes (Json.quote "questions".toList) = 11 ∧
      Json.bytes (Json.quote "omitted_questions".toList) = 19 := by decide
  have marks : '\x7b'.utf8Size = 1 ∧ '\x7d'.utf8Size = 1 ∧ ':'.utf8Size = 1 ∧ ','.utf8Size = 1 ∧
      '['.utf8Size = 1 ∧ ']'.utf8Size = 1 := by decide
  simp only [Json.write] at omitted
  rw [Payload.json, Json.utf8ByteSize_ofList]
  simp only [Payload.document, Json.write, Json.writeMembers, Json.bytes_append, Json.bytes_cons, Json.bytes_nil,
    Payload.size, event, names, marks]
  omega

end Size

section Build

variable {context session : Value} {form : HostForm}

theorem takeField_whole {remaining cap : Nat} (positive : 0 < cap) (room : cap ≤ remaining) (raw : Value) :
    takeField remaining raw cap = (clipTo cap (cleanText raw), remaining - (clipTo cap (cleanText raw)).length) := by
  have bound : min cap remaining = cap := Nat.min_eq_left room
  have taken := takeField_fst remaining raw cap
  rw [bound, if_neg (by omega)] at taken
  have left := takeField_snd remaining raw cap
  rw [taken] at left
  exact Prod.ext taken left

theorem buildQuestionPayload_eq (context form session : Value) : buildQuestionPayload context form session =
    ⟨if sessionText form = [] then "unknown".toList else sessionText form, titleText session, projectText context,
      (takeQuestions 0 (questionRoom context form session) (fieldsOf form)).kept,
      (takeQuestions 0 (questionRoom context form session) (fieldsOf form)).omitted⟩ := by
  have short := @Text.length_clipTo sessionIdCap (cleanText (member form "sessionID")) (by decide)
  have short' := @Text.length_clipTo sessionTitleCap (cleanText (member session "title")) (by decide)
  have caps : sessionIdCap = 128 ∧ sessionTitleCap = 200 ∧ projectCap = 240 ∧ totalTextBudget = 8000 := by decide
  unfold buildQuestionPayload
  rw [takeField_whole (by decide) (by decide)]
  dsimp only
  rw [takeField_whole (by decide) (by omega)]
  dsimp only
  rw [takeField_whole (by decide) (by omega)]
  rfl

theorem questionRoom_spent (context form session : Value) :
    (sessionText form).length + (titleText session).length + (projectText context).length +
      questionRoom context form session = totalTextBudget := by
  have short := @Text.length_clipTo sessionIdCap (cleanText (member form "sessionID")) (by decide)
  have short' := @Text.length_clipTo sessionTitleCap (cleanText (member session "title")) (by decide)
  have short'' := @Text.length_clipTo projectCap (cleanText (.string (projectName context))) (by decide)
  have caps : sessionIdCap = 128 ∧ sessionTitleCap = 200 ∧ projectCap = 240 ∧ totalTextBudget = 8000 := by decide
  unfold questionRoom sessionText titleText projectText
  omega

end Build

section Command

variable {fromSlice : ByteArray → Option RawInput} {payload : Payload}

def commandRoom (payload : Payload) : Nat :=
  totalTextBudget - (Notify.cleanText payload.sessionId).length - (Notify.cleanText payload.sessionTitle).length -
    (Notify.cleanText payload.project).length

theorem raw_question (payload : Payload) : payload.raw.question =
    ⟨payload.sessionId, some payload.sessionTitle, some payload.project, payload.questions.map rawItem,
      some (.ofNat payload.omittedQuestions)⟩ := rfl

theorem normalize_raw (short : payload.sessionId.length ≤ sessionIdCap)
    (short' : payload.sessionTitle.length ≤ sessionTitleCap)
    (short'' : payload.project.length ≤ projectCap) (few : payload.questions.length ≤ maxQuestions) :
    (normalize (Notify.cleanText payload.sessionId) payload.raw.question).questions =
        (normalizeItems ⟨commandRoom payload⟩ (payload.questions.map rawItem)).kept ∧
      (normalize (Notify.cleanText payload.sessionId) payload.raw.question).omittedQuestions =
        boundedOmission (some (.ofNat payload.omittedQuestions)) +
          (normalizeItems ⟨commandRoom payload⟩ (payload.questions.map rawItem)).omitted := by
  have caps : sessionIdCap = 128 ∧ sessionTitleCap = 200 ∧ projectCap = 240 ∧ totalTextBudget = 8000 := by decide
  have sessionId := length_cleanText_le payload.sessionId
  have title := length_cleanText_le payload.sessionTitle
  have project := length_cleanText_le payload.project
  have all : (payload.questions.map rawItem).take maxQuestions = payload.questions.map rawItem :=
    List.take_of_length_le (by simpa using few)
  have surplus : (payload.questions.map rawItem).length - maxQuestions = 0 := by
    rw [List.length_map]
    omega
  have first := (Budget.mk totalTextBudget).take_whole
    (show (Notify.cleanText (Notify.cleanText payload.sessionId)).length ≤ sessionIdCap by rw [cleanText_idem]; omega)
    (by decide)
  rw [cleanText_idem] at first
  have second := (Budget.mk (totalTextBudget - (Notify.cleanText payload.sessionId).length)).take_whole
    (show (Notify.cleanText payload.sessionTitle).length ≤ sessionTitleCap by omega)
    (show sessionTitleCap ≤ totalTextBudget - (Notify.cleanText payload.sessionId).length by omega)
  have third := (Budget.mk (totalTextBudget - (Notify.cleanText payload.sessionId).length -
    (Notify.cleanText payload.sessionTitle).length)).take_whole
    (show (Notify.cleanText payload.project).length ≤ projectCap by omega)
    (show projectCap ≤ totalTextBudget - (Notify.cleanText payload.sessionId).length -
      (Notify.cleanText payload.sessionTitle).length by omega)
  unfold normalize
  rw [raw_question]
  dsimp only [Option.getD_some]
  rw [all, surplus, first]
  dsimp only at second third ⊢
  rw [second]
  dsimp only
  rw [third]
  exact ⟨rfl, rfl⟩

theorem retained_source {sources : List Value} {questions : List NormalizedQuestion}
    (retained : List.Forall₂ QuestionRetained sources questions) :
    ∀ question ∈ questions, ∃ field ∈ sources, QuestionRetained field question := by
  induction retained with
  | nil => simp
  | @cons field question sources questions first _ ih =>
      rw [List.forall_mem_cons]
      refine ⟨⟨field, List.mem_cons_self, first⟩, fun other member => ?_⟩
      obtain ⟨source, among, own⟩ := ih other member
      exact ⟨source, List.mem_cons_of_mem field among, own⟩

theorem accepted_iff {sources : List Value} (reads : fromSlice payload.json.toUTF8 = some payload.raw)
    (short : payload.sessionId.length ≤ sessionIdCap) (short' : payload.sessionTitle.length ≤ sessionTitleCap)
    (short'' : payload.project.length ≤ projectCap) (few : payload.questions.length ≤ maxQuestions)
    (counted : payload.omittedQuestions < 2 ^ 32) (retained : List.Forall₂ QuestionRetained sources payload.questions)
    (sized : ∀ field ∈ sources, (optionsOf field).length < 2 ^ 32) (some : payload.questions ≠ []) :
    Accepted fromSlice payload ↔ Notify.cleanText payload.sessionId ≠ [] ∧
      (∀ question ∈ payload.questions, QuestionKept question) ∧ Fits (commandRoom payload) payload.questions ∧
      payload.omittedQuestions ≤ maxOmissionCount := by
  have bounds : ∀ question ∈ payload.questions, QuestionBounds question := by
    intro question member
    obtain ⟨field, among, own⟩ := retained_source retained question member
    exact own.bounds (sized field among)
  have keeps := @normalizeItems_keeps ⟨commandRoom payload⟩ payload.questions bounds
  have count := normalizeItems_length ⟨commandRoom payload⟩ (payload.questions.map rawItem)
  have number : boundedOmission (.some (.ofNat payload.omittedQuestions)) =
      min payload.omittedQuestions maxOmissionCount := by
    rw [boundedOmission, Option.getD_some, UInt64.toNat_ofNat', Nat.mod_eq_of_lt (by omega)]
  have event : ¬payload.raw.event ≠ "blocked".toList := fun other => other rfl
  have items : payload.raw.question.questions = payload.questions.map rawItem := rfl
  constructor
  · intro accepted
    obtain ⟨notification, parsed, questions, omitted⟩ := accepted some
    simp only [parseQuestionInput, reads, Option.elim_some, ok_bind, bind_eq_ok, refuse_eq_ok, pure_eq,
      Except.ok.injEq] at parsed
    obtain ⟨-, -, -, named, -, -, -, -, rfl⟩ := parsed
    obtain ⟨kept, omitted'⟩ := normalize_raw short short' short'' few
    obtain ⟨plain, fits⟩ := keeps.mp (kept.symm.trans questions)
    rw [kept.symm.trans questions, List.length_map] at count
    have total := omitted'.symm.trans omitted
    rw [number] at total
    exact ⟨named, plain, fits, by omega⟩
  · rintro ⟨named, plain, fits, bound⟩ _
    have same := keeps.mpr ⟨plain, fits⟩
    obtain ⟨kept, omitted'⟩ := normalize_raw short short' short'' few
    rw [same, List.length_map] at count
    refine ⟨normalize (Notify.cleanText payload.sessionId) payload.raw.question, ?_, kept.trans same, ?_⟩
    · have texts : ¬∃ item ∈ payload.raw.question.questions, Notify.cleanText item.text = [] := by
        rw [items]
        rintro ⟨item, member, blank⟩
        obtain ⟨question, among, rfl⟩ := List.mem_map.mp member
        have own := bounds question among
        have shown := own.text.mpr ((plain question among).plain question.text List.mem_cons_self)
        exact own.some (shown.symm.trans blank)
      have listed : ¬payload.raw.question.questions = [] := by
        rw [items, List.map_eq_nil_iff]
        exact some
      simp only [parseQuestionInput, reads, Option.elim_some, ok_bind, refuse_of_not event, refuse_of_not listed,
        refuse_of_not texts]
      rw [refuse_of_not (show ¬Notify.cleanText payload.raw.question.sessionId = [] from named)]
      rfl
    · rw [omitted', number]
      omega

end Command

section Law

variable {context session : Value} {form : HostForm}

theorem sessionId_length (form : Value) : (if sessionText form = [] then "unknown".toList else sessionText form).length =
    (if sessionText form = [] then 7 else 0) + (sessionText form).length := by
  split
  · next none =>
      rw [none]
      rfl
  · exact (Nat.zero_add _).symm

theorem build_size (context form session : Value) : (buildQuestionPayload context form session).size +
    (ledger 0 (questionRoom context form session) (fieldsOf form)).left =
      (if sessionText form = [] then 7 else 0) + totalTextBudget := by
  obtain ⟨-, left, sizes, -⟩ := takeQuestions_ledger 0 (questionRoom context form session) (fieldsOf form)
  have spent := questionRoom_spent context form session
  have own := sessionId_length form
  rw [buildQuestionPayload_eq, Payload.size]
  dsimp only
  omega

theorem sessionText_length (form : Value) : (sessionText form).length ≤ sessionIdCap := by
  have short := @Text.length_clipTo sessionIdCap (cleanText (member form "sessionID")) (by decide)
  unfold sessionText
  omega

theorem titleText_length (session : Value) : (titleText session).length ≤ sessionTitleCap := by
  have short := @Text.length_clipTo sessionTitleCap (cleanText (member session "title")) (by decide)
  unfold titleText
  omega

theorem projectText_length (context : Value) : (projectText context).length ≤ projectCap := by
  have short := @Text.length_clipTo projectCap (cleanText (.string (projectName context))) (by decide)
  unfold projectText
  omega

variable (context session form) in
theorem build_retained : ∃ sources, sources.Sublist (fieldsOf form.value) ∧
    List.Forall₂ QuestionRetained sources (buildQuestionPayload context form.value session).questions ∧
    ∀ field ∈ sources, (optionsOf field).length < 2 ^ 32 := by
  obtain ⟨⟨sources, among, retained⟩, -⟩ := takeQuestions_retained 0 (questionRoom context form.value session)
    (fieldsOf form.value)
  rw [buildQuestionPayload_eq]
  exact ⟨sources, among, retained, fun field member => form.options field (among.subset member)⟩

variable (context session form) in
theorem build_counts :
    (buildQuestionPayload context form.value session).questions.length +
      (buildQuestionPayload context form.value session).omittedQuestions = (fieldsOf form.value).length ∧
    (buildQuestionPayload context form.value session).questions.length ≤ maxQuestions := by
  obtain ⟨-, whole, few⟩ := takeQuestions_retained 0 (questionRoom context form.value session) (fieldsOf form.value)
  rw [buildQuestionPayload_eq]
  refine ⟨whole, ?_⟩
  simpa using few (Nat.zero_le _)

theorem build_bytes (context : Value) (form : HostForm) (session : Value) :
    (buildQuestionPayload context form.value session).json.utf8ByteSize ≤ questionInputLimitBytes := by
  obtain ⟨sources, -, retained, sized⟩ := build_retained context session form
  obtain ⟨whole, few⟩ := build_counts context session form
  have size := build_size context form.value session
  have fields := form.fields
  have budget : totalTextBudget = 8000 := rfl
  have limit : questionInputLimitBytes = 65536 := rfl
  have charged : (if sessionText form.value = [] then 7 else 0) ≤ 7 := by
    split
    · exact Nat.le_refl 7
    · exact Nat.zero_le 7
  have sessionId : Json.Plain (buildQuestionPayload context form.value session).sessionId := by
    rw [buildQuestionPayload_eq]
    dsimp only
    split
    · have spelled : ("unknown".toList.all fun c => 32 ≤ c.toNat || c == '\n') = true := by decide
      intro c member
      simpa using List.all_eq_true.mp spelled c member
    · exact plain_of_clean (clean_clipTo (clean_cleanText _) _)
  have title : Json.Plain (buildQuestionPayload context form.value session).sessionTitle := by
    rw [buildQuestionPayload_eq]
    exact plain_of_clean (clean_clipTo (clean_cleanText _) _)
  have project : Json.Plain (buildQuestionPayload context form.value session).project := by
    rw [buildQuestionPayload_eq]
    exact plain_of_clean (clean_clipTo (clean_cleanText _) _)
  have bytes := bytes_document sessionId title project retained sized few (by omega)
  omega

theorem bounded_iff (context : Value) (form : HostForm) (session : Value) :
    Bounded form (buildQuestionPayload context form.value session) ↔
      (sessionText form.value = [] →
        7 ≤ (ledger 0 (questionRoom context form.value session) (fieldsOf form.value)).left) := by
  have size := build_size context form.value session
  constructor
  · intro bounded unnamed
    have scalars := bounded.scalars
    rw [if_pos unnamed] at size
    omega
  · intro room
    obtain ⟨sources, among, retained, -⟩ := build_retained context session form
    refine ⟨build_bytes context form session, ?_, (build_counts context session form).1, sources, among,
      retained.imp fun field question own => own.supplied⟩
    split at size
    · next unnamed =>
        have left := room unnamed
        omega
    · omega

theorem ledger_before (count left : Nat) (fields : List Value) :
    ∀ entry ∈ (ledger count left fields).entries, 2 ≤ entry.before := by
  induction fields generalizing count left with
  | nil => simp [ledger]
  | cons field rest ih =>
      unfold ledger
      dsimp only
      split
      · exact ih count left
      · next kept =>
          rw [List.forall_mem_cons]
          dsimp only
          exact ⟨by omega, ih _ _⟩

theorem forall_entries {entries : List Entry} {questions : List NormalizedQuestion}
    (made : List.Forall₂ Entry.Of entries questions) :
    (∀ entry ∈ entries, (∀ text ∈ entry.texts, Plain text) ∧ entry.omitted ≤ maxOmissionCount) ↔
      ∀ question ∈ questions, QuestionKept question := by
  induction made with
  | nil => simp
  | cons own _ ih =>
      rw [List.forall_mem_cons, List.forall_mem_cons, ih, own.plain, own.omitted]
      refine and_congr_left fun _ => ⟨fun kept => ⟨kept.1, kept.2⟩, fun kept => ⟨kept.plain, kept.counted⟩⟩

theorem commandRoom_build (context form session : Value) :
    commandRoom (buildQuestionPayload context form session) + (if sessionText form = [] then 7 else 0) =
      questionRoom context form session + (if sessionText form = [] then 0 else hidden (sessionText form)) +
        hidden (titleText session) + hidden (projectText context) := by
  have spent := questionRoom_spent context form session
  have sessionId := length_cleanText_le (sessionText form)
  have title := length_cleanText_le (titleText session)
  have project := length_cleanText_le (projectText context)
  have short := sessionText_length form
  have short' := titleText_length session
  have short'' := projectText_length context
  have caps : sessionIdCap = 128 ∧ sessionTitleCap = 200 ∧ projectCap = 240 ∧ totalTextBudget = 8000 := by decide
  rw [buildQuestionPayload_eq, commandRoom]
  dsimp only
  unfold hidden
  split
  · next unnamed =>
      have stands : (Notify.cleanText "unknown".toList).length = 7 := by decide
      rw [unnamed] at spent
      simp only [List.length_nil] at spent
      omega
  · omega

theorem bounds_agree (fromSlice : ByteArray → Option RawInput) (context : Value) (form : HostForm) (session : Value)
    (reads : fromSlice (buildQuestionPayload context form.value session).json.toUTF8 =
      some (buildQuestionPayload context form.value session).raw) :
    (Bounded form (buildQuestionPayload context form.value session) ∧
      Accepted fromSlice (buildQuestionPayload context form.value session)) ↔ Compatible context form session := by
  obtain ⟨sources, -, retained, sized⟩ := build_retained context session form
  obtain ⟨whole, few⟩ := build_counts context session form
  obtain ⟨made, left, sizes, fits⟩ := takeQuestions_ledger 0 (questionRoom context form.value session)
    (fieldsOf form.value)
  have fields := form.fields
  have spent := questionRoom_spent context form.value session
  have room := commandRoom_build context form.value session
  have short := sessionText_length form.value
  have short' := titleText_length session
  have short'' := projectText_length context
  have caps : sessionIdCap = 128 ∧ sessionTitleCap = 200 ∧ projectCap = 240 ∧ totalTextBudget = 8000 := by decide
  have questions : (buildQuestionPayload context form.value session).questions =
      (takeQuestions 0 (questionRoom context form.value session) (fieldsOf form.value)).kept := by
    rw [buildQuestionPayload_eq]
  have count := made.length_eq
  rw [← questions] at count
  rw [bounded_iff]
  by_cases empty : (ledger 0 (questionRoom context form.value session) (fieldsOf form.value)).entries = []
  · have none : (buildQuestionPayload context form.value session).questions = [] := by
      rw [empty] at count
      exact List.length_eq_zero_iff.mp count.symm
    refine iff_of_true ⟨fun _ => ?_, fun some => absurd none some⟩ (Or.inl empty)
    rw [← questions, none] at sizes
    simp only [List.map_nil, List.sum_nil] at sizes
    omega
  have some : (buildQuestionPayload context form.value session).questions ≠ [] := by
    intro none
    rw [none] at count
    exact empty (List.length_eq_zero_iff.mp count)
  have sessionId : (buildQuestionPayload context form.value session).sessionId =
      if sessionText form.value = [] then "unknown".toList else sessionText form.value := by
    rw [buildQuestionPayload_eq]
  have named : (buildQuestionPayload context form.value session).sessionId.length ≤ sessionIdCap := by
    rw [sessionId]
    split
    · decide
    · exact short
  have title : (buildQuestionPayload context form.value session).sessionTitle.length ≤ sessionTitleCap := by
    rw [buildQuestionPayload_eq]
    exact short'
  have project : (buildQuestionPayload context form.value session).project.length ≤ projectCap := by
    rw [buildQuestionPayload_eq]
    exact short''
  rw [accepted_iff reads named title project few (by omega) retained sized some, questions, ← forall_entries made,
    fits, sessionId]
  have before := ledger_before 0 (questionRoom context form.value session) (fieldsOf form.value)
  have below := ledger_left_le 0 (questionRoom context form.value session) (fieldsOf form.value)
  have omitted : (buildQuestionPayload context form.value session).omittedQuestions =
      (fieldsOf form.value).length -
        (ledger 0 (questionRoom context form.value session) (fieldsOf form.value)).entries.length := by omega
  rw [omitted]
  unfold Compatible
  dsimp only
  rw [or_iff_right empty]
  by_cases unnamed : sessionText form.value = []
  · have stands : Notify.cleanText "unknown".toList ≠ [] := by decide
    simp only [unnamed, if_true, forall_const] at room ⊢
    constructor
    · intro ⟨seven, _, kept, ⟨texts, _⟩, bound⟩
      refine ⟨kept, bound, seven, fun entry member => ?_⟩
      have own := texts entry member
      omega
    · intro ⟨kept, bound, seven, texts⟩
      refine ⟨seven, stands, kept, ⟨fun entry member => ?_, by omega⟩, bound⟩
      have own := texts entry member
      omega
  · simp only [unnamed, if_false, false_implies, true_and] at room ⊢
    constructor
    · intro ⟨id, kept, _, bound⟩
      exact ⟨kept, bound, id⟩
    · intro ⟨kept, bound, id⟩
      refine ⟨id, kept, ⟨fun entry member => ?_, by omega⟩, bound⟩
      have own := before entry member
      omega

def reading (payload : Payload) (bytes : ByteArray) : Option RawInput :=
  if bytes = payload.json.toUTF8 then some payload.raw else none

theorem reading_self (payload : Payload) : reading payload payload.json.toUTF8 = some payload.raw := if_pos rfl

def sampleForm (description : List Char) : HostForm where
  value := .object [("sessionID", .string "ses_1".toList), ("fields", .array [.object [("title", .string "Plan".toList),
    ("description", .string description)]])]
  fields := by simp [fieldsOf, member, Value.truthy, Value.get, Value.asArray, List.lookup]
  options := by simp [fieldsOf, optionsOf, member, Value.truthy, Value.get, Value.asArray, List.lookup]

theorem plain_question_agrees :
    let payload := buildQuestionPayload .null (sampleForm "Which one?".toList).value .undefined
    Bounded (sampleForm "Which one?".toList) payload ∧ Accepted (reading payload) payload := by
  refine (bounds_agree _ .null (sampleForm "Which one?".toList) .undefined (reading_self _)).mpr (Or.inr ?_)
  decide

/-- The plugin keeps a control character that the command drops. -/
theorem latin_control_dropped :
    let payload := buildQuestionPayload .null (sampleForm "a\u0080b".toList).value .undefined
    ¬Accepted (reading payload) payload := by
  intro payload accepted
  obtain ⟨sources, -, retained, sized⟩ := build_retained .null .undefined (sampleForm "a\u0080b".toList)
  have found := (accepted_iff (reading_self payload) (by decide) (by decide) (by decide)
    (by decide) (by decide) retained sized (by decide)).mp accepted
  have plain : ∀ question ∈ payload.questions, Plain question.text :=
    fun question member => (found.2.1 question member).plain question.text List.mem_cons_self
  revert plain
  decide

end Law

end Phasegent.Notify.Plugin
