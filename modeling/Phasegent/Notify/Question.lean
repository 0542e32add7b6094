import Phasegent.Text.Cleaning
import Phasegent.Text.Fallible

namespace Phasegent.Notify
open Fallible

section Input

def questionInputLimitBytes : Nat := 65536
def maxQuestions : Nat := 8
def maxChoices : Nat := 12
def totalTextBudget : Nat := 8000

def sessionIdCap : Nat := 128
def sessionTitleCap : Nat := 200
def projectCap : Nat := 240
def headerCap : Nat := 120
def questionTextCap : Nat := 1500
def labelCap : Nat := 160
def descriptionCap : Nat := 400

inductive QuestionError where
  | readFailed
  | tooLarge
  | malformed
  | unsupportedEvent
  | missingSessionId
  | missingQuestions
  | missingQuestionText
  deriving DecidableEq, Repr

def QuestionError.category : QuestionError → String
  | .readFailed => "could not read notification input"
  | .tooLarge => "notification input is too large"
  | .malformed => "notification input is not valid structured JSON"
  | .unsupportedEvent => "notification event is not supported"
  | .missingSessionId => "notification session id is required"
  | .missingQuestions => "notification questions are required"
  | .missingQuestionText => "notification question text is required"

structure RawOption where
  label : List Char
  description : Option (List Char)

structure RawItem where
  text : List Char
  header : Option (List Char)
  multiple : Option Bool
  options : List RawOption
  omittedOptions : Option UInt64

structure RawQuestion where
  sessionId : List Char
  sessionTitle : Option (List Char)
  project : Option (List Char)
  questions : List RawItem
  omittedQuestions : Option UInt64

structure RawInput where
  event : List Char
  question : RawQuestion

end Input

section Normalized

structure NormalizedOption where
  label : List Char
  description : List Char
  deriving DecidableEq

structure NormalizedQuestion where
  header : List Char
  text : List Char
  multiple : Bool
  options : List NormalizedOption
  omittedOptions : Nat
  deriving DecidableEq

structure QuestionNotification where
  sessionId : List Char
  sessionTitle : List Char
  project : List Char
  questions : List NormalizedQuestion
  omittedQuestions : Nat
  deriving DecidableEq

end Normalized

section Texts

def cleanText (raw : List Char) : List Char :=
  Text.trim ((Text.unifyNewlines raw).filter fun c => c == '\n' || !Text.isControl c)

structure Budget where
  remaining : Nat

def Budget.charge (budget : Budget) (emitted : List Char) : List Char × Budget :=
  (emitted, ⟨budget.remaining - emitted.length⟩)

def Budget.take (budget : Budget) (raw : List Char) (cap : Nat) : List Char × Budget :=
  let cleaned := cleanText raw
  let available := min cap budget.remaining
  if cleaned = [] then ([], budget)
  else if available = 0 then ([], budget)
  else budget.charge (Text.clipTo available cleaned)

/-- A clip that would leave nothing but the ellipsis is not taken. -/
def Budget.takeQuestionText (budget : Budget) (raw : List Char) (cap : Nat) : List Char × Budget :=
  let cleaned := cleanText raw
  let available := min cap budget.remaining
  if cleaned = [] then ([], budget)
  else if available < 2 then ([], budget)
  else budget.charge (Text.clipTo available cleaned)

end Texts

section Normalize

def maxOmissionCount : Nat := 1000000

def boundedOmission (value : Option UInt64) : Nat := min (value.getD 0).toNat maxOmissionCount

structure Pass (α : Type) where
  kept : List α
  omitted : Nat
  budget : Budget

variable {α : Type}

def Pass.omit (pass : Pass α) : Pass α := { pass with omitted := pass.omitted + 1 }

def Pass.keep (x : α) (pass : Pass α) : Pass α := { pass with kept := x :: pass.kept }

def normalizeOptions (budget : Budget) : List RawOption → Pass NormalizedOption
  | [] => ⟨[], 0, budget⟩
  | option :: rest =>
      if budget.remaining = 0 then (normalizeOptions budget rest).omit
      else
        let (label, budget) := budget.take option.label labelCap
        let (description, budget) := budget.take (option.description.getD []) descriptionCap
        if label = [] ∧ description = [] then (normalizeOptions budget rest).omit
        else (normalizeOptions budget rest).keep ⟨label, description⟩

def normalizeItems (budget : Budget) : List RawItem → Pass NormalizedQuestion
  | [] => ⟨[], 0, budget⟩
  | item :: rest =>
      let (text, budget) := budget.takeQuestionText item.text questionTextCap
      if text = [] then (normalizeItems budget rest).omit
      else
        let (header, budget) := budget.take (item.header.getD []) headerCap
        let options := normalizeOptions budget (item.options.take maxChoices)
        let omitted := boundedOmission item.omittedOptions + options.omitted + (item.options.length - maxChoices)
        (normalizeItems options.budget rest).keep ⟨header, text, item.multiple.getD false, options.kept, omitted⟩

def normalize (sessionId : List Char) (raw : RawQuestion) : QuestionNotification :=
  let budget : Budget := ⟨totalTextBudget⟩
  let (taken, budget) := budget.take sessionId sessionIdCap
  let sessionId := if taken = [] then "unknown".toList else taken
  let (sessionTitle, budget) := budget.take (raw.sessionTitle.getD []) sessionTitleCap
  let (project, budget) := budget.take (raw.project.getD []) projectCap
  let items := normalizeItems budget (raw.questions.take maxQuestions)
  ⟨sessionId, sessionTitle, project, items.kept,
    boundedOmission raw.omittedQuestions + items.omitted + (raw.questions.length - maxQuestions)⟩

-- What the deserializer makes of a document, where it accepts it.
variable (fromSlice : ByteArray → Option RawInput)

def readQuestionInput (bytes : ByteArray) : Except QuestionError ByteArray := do
  refuse (questionInputLimitBytes < bytes.size) .tooLarge
  return bytes

def parseQuestionInput (bytes : ByteArray) : Except QuestionError QuestionNotification := do
  let raw ← (fromSlice bytes).elim (.error .malformed) .ok
  refuse (raw.event ≠ "blocked".toList) .unsupportedEvent
  let sessionId := cleanText raw.question.sessionId
  refuse (sessionId = []) .missingSessionId
  refuse (raw.question.questions = []) .missingQuestions
  refuse (∃ item ∈ raw.question.questions, cleanText item.text = []) .missingQuestionText
  return normalize sessionId raw.question

end Normalize

end Phasegent.Notify
