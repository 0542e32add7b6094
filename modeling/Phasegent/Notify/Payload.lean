import Phasegent.Js.Value
import Phasegent.Notify.Question
import Phasegent.Text.Json

namespace Phasegent.Notify.Plugin
open Js (Value)

-- `value && value.name`
def member (value : Value) (name : String) : Value := if value.truthy then value.get name else value

section Texts

-- What `String.prototype.trim` strips: white space and line terminators.
def isSpace (c : Char) : Bool :=
  c.toNat ∈ [9, 10, 11, 12, 13, 32, 0xA0, 0x1680, 0x2028, 0x2029, 0x202F, 0x205F, 0x3000, 0xFEFF] ||
    (0x2000 ≤ c.toNat && c.toNat ≤ 0x200A)

def isDropped (c : Char) : Bool :=
  c.toNat ≤ 0x9 || (0xB ≤ c.toNat && c.toNat ≤ 0x1F) || c.toNat == 0x7F

def cleanText (raw : Value) : List Char :=
  match raw.asString with
  | none => []
  | some text => Text.trimBy isSpace ((Text.unifyNewlines text).filter fun c => !isDropped c)

def takeField (remaining : Nat) (raw : Value) (cap : Nat) : List Char × Nat :=
  let cleaned := cleanText raw
  let available := min cap remaining
  if cleaned = [] then ([], remaining)
  else if available = 0 then ([], remaining)
  else
    let taken := Text.clipTo available cleaned
    (taken, remaining - taken.length)

def takeQuestionText (remaining : Nat) (raw : Value) (cap : Nat) : List Char × Nat :=
  let cleaned := cleanText raw
  let available := min cap remaining
  if cleaned = [] then ([], remaining)
  else if available < 2 then ([], remaining)
  else
    let taken := Text.clipTo available cleaned
    (taken, remaining - taken.length)

def isSeparator (c : Char) : Bool := c == '/' || c == '\\'

def basename (value : Value) : List Char :=
  match value.asString with
  | none => []
  | some text => (Text.trimEndMatches isSeparator text).rtakeWhile fun c => !isSeparator c

def locationDirectory (context : Value) : Value :=
  let location := member context "location"
  match (member location "directory").asString with
  | some directory => .string directory
  | none => .null

def projectName (context : Value) : List Char :=
  let directory := member (member (member context "location") "project") "directory"
  let name := basename directory
  if name = [] then basename (locationDirectory context) else name

end Texts

section Payload

structure Payload where
  sessionId : List Char
  sessionTitle : List Char
  project : List Char
  questions : List NormalizedQuestion
  omittedQuestions : Nat
  deriving DecidableEq

-- What a pass over the members of a form keeps and leaves out, and the budget after it.
structure Taken (α : Type) where
  kept : List α
  omitted : Nat
  remaining : Nat

variable {α : Type}

def Taken.omit (taken : Taken α) : Taken α := { taken with omitted := taken.omitted + 1 }

def Taken.push (x : α) (taken : Taken α) : Taken α := { taken with kept := x :: taken.kept }

def takeOptions (count remaining : Nat) : List Value → Taken NormalizedOption
  | [] => ⟨[], 0, remaining⟩
  | option :: rest =>
      if maxChoices ≤ count ∨ remaining = 0 then (takeOptions count remaining rest).omit
      else
        let (label, remaining) := takeField remaining (member option "label") labelCap
        let (description, remaining) := takeField remaining (member option "description") descriptionCap
        if label = [] ∧ description = [] then (takeOptions count remaining rest).omit
        else (takeOptions (count + 1) remaining rest).push ⟨label, description⟩

def optionsOf (field : Value) : List Value := (member field "options").asArray.getD []

def takeQuestions (count remaining : Nat) : List Value → Taken NormalizedQuestion
  | [] => ⟨[], 0, remaining⟩
  | field :: rest =>
      if maxQuestions ≤ count then (takeQuestions count remaining rest).omit
      else
        let described := takeQuestionText remaining (member field "description") questionTextCap
        let (text, remaining) :=
          if described.1 = [] then takeQuestionText described.2 (member field "title") questionTextCap
          else described
        if text = [] then (takeQuestions count remaining rest).omit
        else
          let (header, remaining) := takeField remaining (member field "title") headerCap
          let options := takeOptions 0 remaining (optionsOf field)
          let multiple := (member field "type").isString "multiselect".toList
          (takeQuestions (count + 1) options.remaining rest).push ⟨header, text, multiple, options.kept, options.omitted⟩

def fieldsOf (form : Value) : List Value := (member form "fields").asArray.getD []

def buildQuestionPayload (context form session : Value) : Payload :=
  let (taken, remaining) := takeField totalTextBudget (member form "sessionID") sessionIdCap
  let sessionId := if taken = [] then "unknown".toList else taken
  let (sessionTitle, remaining) := takeField remaining (member session "title") sessionTitleCap
  let (project, remaining) := takeField remaining (.string (projectName context)) projectCap
  let questions := takeQuestions 0 remaining (fieldsOf form)
  ⟨sessionId, sessionTitle, project, questions.kept, questions.omitted⟩

end Payload

section Document
open Text (Json)

def optionDocument (option : NormalizedOption) : Json :=
  .object [("label", .string option.label), ("description", .string option.description)]

def questionDocument (question : NormalizedQuestion) : Json :=
  .object [("header", .string question.header), ("text", .string question.text),
    ("multiple", .boolean question.multiple), ("options", .array (question.options.map optionDocument)),
    ("omitted_options", .number question.omittedOptions)]

def Payload.document (payload : Payload) : Json :=
  .object [("event", .string "blocked".toList),
    ("question", .object [("session_id", .string payload.sessionId), ("session_title", .string payload.sessionTitle),
      ("project", .string payload.project), ("questions", .array (payload.questions.map questionDocument)),
      ("omitted_questions", .number payload.omittedQuestions)])]

def Payload.json (payload : Payload) : String := String.ofList payload.document.write

def Payload.raw (payload : Payload) : RawInput :=
  ⟨"blocked".toList, payload.sessionId, some payload.sessionTitle, some payload.project,
    payload.questions.map fun question => ⟨question.text, some question.header, some question.multiple,
      question.options.map fun option => ⟨option.label, some option.description⟩,
      some (.ofNat question.omittedOptions)⟩,
    some (.ofNat payload.omittedQuestions)⟩

end Document

end Phasegent.Notify.Plugin
