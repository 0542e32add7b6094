import Phasegent.Notify.Normalized
import Phasegent.Notify.Payload

namespace Phasegent.Notify.Plugin
open Js (Value)
open Text (clipTo)

section Ledger

def within (room : Nat) (text : List Char) : List Char := if text.length ≤ room then text else text.take (room - 1)

def charge (room : Nat) (text : List Char) : Nat := min text.length room

/-- The budget before each question that is kept, the host's own text that comes through in it, and
the number of its choices that do not. -/
structure Entry where
  before : Nat
  texts : List (List Char)
  omitted : Nat

structure Ledger (α : Type) where
  entries : List α
  left : Nat

def choiceLedger (count left : Nat) : List Value → Ledger (List (List Char))
  | [] => ⟨[], left⟩
  | option :: rest =>
      if maxChoices ≤ count ∨ left = 0 then choiceLedger count left rest
      else
        let label := cleanText (member option "label")
        let description := cleanText (member option "description")
        let room := min labelCap left
        let room' := min descriptionCap (left - charge room label)
        let left := left - charge room label - charge room' description
        if label = [] ∧ (description = [] ∨ room' = 0) then choiceLedger count left rest
        else
          let later := choiceLedger (count + 1) left rest
          ⟨[within room label, within room' description] :: later.entries, later.left⟩

-- The description of a field, or else its title: the first that a question can be made of.
def questionSource (left : Nat) (field : Value) : List Char :=
  let description := cleanText (member field "description")
  if description = [] ∨ left < 2 then cleanText (member field "title") else description

def ledger (count left : Nat) : List Value → Ledger Entry
  | [] => ⟨[], left⟩
  | field :: rest =>
      let text := questionSource left field
      if maxQuestions ≤ count ∨ text = [] ∨ left < 2 then ledger count left rest
      else
        let room := min questionTextCap left
        let header := cleanText (member field "title")
        let room' := min headerCap (left - charge room text)
        let choices := choiceLedger 0 (left - charge room text - charge room' header) (optionsOf field)
        let later := ledger (count + 1) choices.left rest
        ⟨⟨left, within room text :: within room' header :: choices.entries.flatten,
          (optionsOf field).length - choices.entries.length⟩ :: later.entries, later.left⟩

end Ledger

section Takes

variable {remaining cap : Nat} {raw : Value} {text : List Char}

theorem length_clipTo_eq_charge (room : Nat) (text : List Char) (some : 0 < room) :
    (clipTo room text).length = charge room text := Text.length_clipTo some

theorem plain_clipTo (room : Nat) (text : List Char) : Plain (clipTo room text) ↔ Plain (within room text) := by
  unfold clipTo within
  split
  · rfl
  · constructor
    · intro plain c member
      exact plain c (List.mem_append_left _ member)
    · intro plain c member
      rw [List.mem_append, List.mem_singleton] at member
      obtain inner | rfl := member
      · exact plain c inner
      · rfl

theorem takeField_snd (remaining : Nat) (raw : Value) (cap : Nat) :
    (takeField remaining raw cap).2 = remaining - (takeField remaining raw cap).1.length := by
  unfold takeField
  dsimp only
  split
  · rfl
  · split
    · rfl
    · rfl

theorem takeField_fst (remaining : Nat) (raw : Value) (cap : Nat) : (takeField remaining raw cap).1 =
    if min cap remaining = 0 then [] else clipTo (min cap remaining) (cleanText raw) := by
  unfold takeField
  dsimp only
  by_cases none : cleanText raw = []
  · rw [if_pos none, none, Text.clipTo_of_le (Nat.zero_le _), ite_self]
  · rw [if_neg none]
    split
    · rfl
    · rfl

theorem takeField_length (remaining : Nat) (raw : Value) (cap : Nat) :
    (takeField remaining raw cap).1.length = charge (min cap remaining) (cleanText raw) := by
  rw [takeField_fst]
  split
  · next full =>
      rw [full, charge]
      exact (Nat.min_zero _).symm
  · next some => exact length_clipTo_eq_charge _ _ (Nat.pos_of_ne_zero some)

theorem takeField_plain (remaining : Nat) (raw : Value) (cap : Nat) :
    Plain (takeField remaining raw cap).1 ↔ Plain (within (min cap remaining) (cleanText raw)) := by
  rw [takeField_fst]
  split
  · next full =>
      have none : within 0 (cleanText raw) = [] := by
        unfold within
        split
        · next short => exact List.length_eq_zero_iff.mp (Nat.le_zero.mp short)
        · rfl
      rw [full, none]
  · exact plain_clipTo _ _

theorem takeField_eq_nil (remaining : Nat) (raw : Value) (cap : Nat) :
    (takeField remaining raw cap).1 = [] ↔ cleanText raw = [] ∨ min cap remaining = 0 := by
  rw [takeField_fst]
  split
  · next full => simp [full]
  · next some =>
      rw [Text.clipTo_eq_nil (Nat.pos_of_ne_zero some)]
      simp [some]

theorem takeQuestionText_eq (remaining : Nat) (raw : Value) (cap : Nat) : takeQuestionText remaining raw cap =
    if cleanText raw = [] ∨ min cap remaining < 2 then ([], remaining)
    else (clipTo (min cap remaining) (cleanText raw),
      remaining - charge (min cap remaining) (cleanText raw)) := by
  unfold takeQuestionText
  dsimp only
  by_cases none : cleanText raw = []
  · simp [none]
  · by_cases full : min cap remaining < 2
    · simp [none, full]
    · rw [if_neg none, if_neg full, if_neg (by simp [none, full]),
        length_clipTo_eq_charge _ _ (by omega)]

end Takes

section Link

structure Entry.Of (entry : Entry) (question : NormalizedQuestion) : Prop where
  plain : (∀ text ∈ entry.texts, Plain text) ↔ ∀ text ∈ question.texts, Plain text
  omitted : entry.omitted = question.omittedOptions

theorem takeOptions_length (count remaining : Nat) (options : List Value) :
    (takeOptions count remaining options).kept.length + (takeOptions count remaining options).omitted =
      options.length := by
  induction options generalizing count remaining with
  | nil => rfl
  | cons option rest ih =>
      unfold takeOptions
      dsimp only
      split
      · exact congrArg (· + 1) (ih count remaining)
      · split
        · exact congrArg (· + 1) (ih count _)
        · exact (Nat.add_right_comm _ _ _).trans (congrArg (· + 1) (ih (count + 1) _))

theorem takeOptions_ledger (count remaining : Nat) (options : List Value) :
    (choiceLedger count remaining options).left = (takeOptions count remaining options).remaining ∧
      (choiceLedger count remaining options).entries.length = (takeOptions count remaining options).kept.length ∧
      ((∀ text ∈ (choiceLedger count remaining options).entries.flatten, Plain text) ↔
        ∀ option ∈ (takeOptions count remaining options).kept, ∀ text ∈ option.texts, Plain text) := by
  induction options generalizing count remaining with
  | nil => simp [takeOptions, choiceLedger]
  | cons option rest ih =>
      unfold takeOptions choiceLedger
      dsimp only
      by_cases stop : maxChoices ≤ count ∨ remaining = 0
      · rw [if_pos stop, if_pos stop]
        exact ih count remaining
      rw [if_neg stop, if_neg stop]
      have room : ¬min labelCap remaining = 0 := by
        have cap : labelCap = 160 := rfl
        omega
      have left := takeField_snd remaining (member option "label") labelCap
      rw [takeField_length] at left
      have left' := takeField_snd (takeField remaining (member option "label") labelCap).2
        (member option "description") descriptionCap
      rw [takeField_length, left] at left'
      have label := takeField_plain remaining (member option "label") labelCap
      have description := takeField_plain (takeField remaining (member option "label") labelCap).2
        (member option "description") descriptionCap
      have none := takeField_eq_nil remaining (member option "label") labelCap
      have none' := takeField_eq_nil (takeField remaining (member option "label") labelCap).2
        (member option "description") descriptionCap
      rw [left] at description none'
      simp only [room, or_false] at none
      simp only [none, none', left', left]
      split
      · exact ih count _
      · obtain ⟨later, count', plain⟩ := ih (count + 1) (remaining - charge (min labelCap remaining)
          (cleanText (member option "label")) - charge (min descriptionCap (remaining - charge (min labelCap remaining)
            (cleanText (member option "label")))) (cleanText (member option "description")))
        refine ⟨later, congrArg (· + 1) count', ?_⟩
        rw [Taken.push, List.flatten_cons, List.forall_mem_append, List.forall_mem_cons, plain]
        simp only [NormalizedOption.texts, List.forall_mem_cons, List.not_mem_nil, false_implies, implies_true,
          and_true, label, description]

theorem charge_le (cap remaining : Nat) (text : List Char) : charge (min cap remaining) text ≤ remaining := by
  unfold charge
  omega

theorem takeOptions_spent (count remaining : Nat) (options : List Value) :
    choiceSize (takeOptions count remaining options).kept + (takeOptions count remaining options).remaining =
      remaining := by
  induction options generalizing count remaining with
  | nil => simp [takeOptions, choiceSize]
  | cons option rest ih =>
      have left := takeField_snd remaining (member option "label") labelCap
      have bound := charge_le labelCap remaining (cleanText (member option "label"))
      rw [← takeField_length] at bound
      have left' := takeField_snd (takeField remaining (member option "label") labelCap).2
        (member option "description") descriptionCap
      have bound' := charge_le descriptionCap (takeField remaining (member option "label") labelCap).2
        (cleanText (member option "description"))
      rw [← takeField_length] at bound'
      unfold takeOptions
      dsimp only
      split
      · exact ih count remaining
      · split
        · next none =>
            refine (ih count _).trans ?_
            rw [left', none.2, left, none.1]
            rfl
        · have spent := ih (count + 1) (takeField (takeField remaining (member option "label") labelCap).2
            (member option "description") descriptionCap).2
          simp only [Taken.push, choiceSize, List.map_cons, List.sum_cons, NormalizedOption.size] at spent ⊢
          omega

theorem questionText_eq (remaining : Nat) (field : Value) :
    let described := takeQuestionText remaining (member field "description") questionTextCap
    (if described.1 = [] then takeQuestionText described.2 (member field "title") questionTextCap else described) =
      if questionSource remaining field = [] ∨ remaining < 2 then ([], remaining)
      else (clipTo (min questionTextCap remaining) (questionSource remaining field),
        remaining - charge (min questionTextCap remaining) (questionSource remaining field)) := by
  have room : min questionTextCap remaining < 2 ↔ remaining < 2 := by
    have cap : questionTextCap = 1500 := rfl
    omega
  unfold questionSource
  dsimp only
  simp only [takeQuestionText_eq, room]
  by_cases unfit : cleanText (member field "description") = [] ∨ remaining < 2
  · simp only [if_pos unfit, if_true, room]
  · rw [not_or] at unfit
    have some : 0 < min questionTextCap remaining := by
      have cap : questionTextCap = 1500 := rfl
      omega
    have shown : clipTo (min questionTextCap remaining) (cleanText (member field "description")) ≠ [] := by
      rw [Ne, Text.clipTo_eq_nil some]
      exact unfit.1
    simp [unfit, shown]

theorem ledger_left_le (count remaining : Nat) (fields : List Value) :
    (ledger count remaining fields).left ≤ remaining := by
  induction fields generalizing count remaining with
  | nil => exact Nat.le_refl remaining
  | cons field rest ih =>
      unfold ledger
      dsimp only
      split
      · exact ih count remaining
      · refine (ih _ _).trans ?_
        rw [(takeOptions_ledger _ _ _).1]
        have spent := takeOptions_spent 0 (remaining - charge (min questionTextCap remaining)
          (questionSource remaining field) - charge (min headerCap (remaining - charge (min questionTextCap remaining)
            (questionSource remaining field))) (cleanText (member field "title"))) (optionsOf field)
        omega

theorem takeQuestions_ledger (count remaining : Nat) (fields : List Value) :
    List.Forall₂ Entry.Of (ledger count remaining fields).entries (takeQuestions count remaining fields).kept ∧
      (ledger count remaining fields).left = (takeQuestions count remaining fields).remaining ∧
      ((takeQuestions count remaining fields).kept.map NormalizedQuestion.size).sum +
        (takeQuestions count remaining fields).remaining = remaining ∧
      ∀ room, Fits room (takeQuestions count remaining fields).kept ↔
        (∀ entry ∈ (ledger count remaining fields).entries, remaining + 2 ≤ room + entry.before) ∧
          remaining ≤ room + (ledger count remaining fields).left := by
  induction fields generalizing count remaining with
  | nil => simp [takeQuestions, ledger, Fits]
  | cons field rest ih =>
      have source := questionText_eq remaining field
      dsimp only at source
      have below := ledger_left_le (count + 1)
      unfold takeQuestions ledger
      dsimp only
      rw [source]
      by_cases stop : maxQuestions ≤ count
      · rw [if_pos stop, if_pos (Or.inl stop)]
        exact ih count remaining
      rw [if_neg stop]
      by_cases none : questionSource remaining field = [] ∨ remaining < 2
      · rw [if_pos (Or.inr none), if_pos none]
        exact ih count remaining
      have kept : ¬(maxQuestions ≤ count ∨ questionSource remaining field = [] ∨ remaining < 2) := by
        rw [not_or]
        exact ⟨stop, none⟩
      have some : 0 < min questionTextCap remaining := by
        have cap : questionTextCap = 1500 := rfl
        omega
      have shown : clipTo (min questionTextCap remaining) (questionSource remaining field) ≠ [] := by
        rw [Ne, Text.clipTo_eq_nil some]
        exact fun nothing => none (Or.inl nothing)
      rw [if_neg kept, if_neg none]
      dsimp only
      rw [if_neg shown]
      have length := length_clipTo_eq_charge _ (questionSource remaining field) some
      have bound := charge_le questionTextCap remaining (questionSource remaining field)
      generalize left : remaining - charge (min questionTextCap remaining) (questionSource remaining field) = left1
      have header := takeField_snd left1 (member field "title") headerCap
      have headerLength := takeField_length left1 (member field "title") headerCap
      have headerPlain := takeField_plain left1 (member field "title") headerCap
      have headerBound := charge_le headerCap left1 (cleanText (member field "title"))
      rw [headerLength] at header
      rw [← header]
      generalize (takeField left1 (member field "title") headerCap) = taken at *
      obtain ⟨choicesLeft, choicesCount, choicesPlain⟩ := takeOptions_ledger 0 taken.2 (optionsOf field)
      have supplied := takeOptions_length 0 taken.2 (optionsOf field)
      have spent := takeOptions_spent 0 taken.2 (optionsOf field)
      rw [choicesLeft]
      obtain ⟨entries, later, sizes, fits⟩ := ih (count + 1) (takeOptions 0 taken.2 (optionsOf field)).remaining
      refine ⟨List.Forall₂.cons ⟨?_, ?_⟩ entries, later, ?_, fun room => ?_⟩
      · rw [forall_texts]
        simp only [List.forall_mem_cons, plain_clipTo, headerPlain, choicesPlain]
      · dsimp only
        omega
      · simp only [Taken.push, List.map_cons, List.sum_cons, NormalizedQuestion.size]
        omega
      · have under := ledger_left_le (count + 1) (takeOptions 0 taken.2 (optionsOf field)).remaining rest
        simp only [Taken.push, Fits, NormalizedQuestion.size, fits, List.forall_mem_cons]
        constructor
        · rintro ⟨two, whole, each, last⟩
          exact ⟨⟨by omega, fun entry member => by have := each entry member; omega⟩, by omega⟩
        · rintro ⟨⟨two, each⟩, last⟩
          exact ⟨by omega, by omega, fun entry member => by have := each entry member; omega, by omega⟩

end Link

end Phasegent.Notify.Plugin
