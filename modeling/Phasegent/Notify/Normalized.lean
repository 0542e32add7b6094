import Mathlib
import Phasegent.Notify.Question

namespace Phasegent.Notify
open Text (Trimmed clipTo)

section Sizes

def NormalizedOption.size (option : NormalizedOption) : Nat := option.label.length + option.description.length

def NormalizedOption.texts (option : NormalizedOption) : List (List Char) := [option.label, option.description]

def choiceSize (options : List NormalizedOption) : Nat := (options.map NormalizedOption.size).sum

def NormalizedQuestion.size (question : NormalizedQuestion) : Nat :=
  question.text.length + question.header.length + choiceSize question.options

def NormalizedQuestion.texts (question : NormalizedQuestion) : List (List Char) :=
  question.text :: question.header :: question.options.flatMap NormalizedOption.texts

/-- The controls that only Unicode counts as such. -/
def isLatinControl (c : Char) : Bool := 0x80 ≤ c.toNat && c.toNat ≤ 0x9F

def Plain (text : List Char) : Prop := ∀ c ∈ text, isLatinControl c = false

instance : DecidablePred Plain := fun text => List.decidableBAll (fun c => isLatinControl c = false) text

end Sizes

section Cleaning

variable {text raw : List Char}

-- A text that the plugin has cleaned: its white space is not quite that of the command.
structure Clean (space : Char → Bool) (text : List Char) : Prop extends Trimmed space text where
  kept : ∀ c ∈ text, 0x20 ≤ c.toNat ∧ c.toNat ≠ 0x7F ∨ c = '\n'

theorem not_isControl {c : Char} (kept : 0x20 ≤ c.toNat ∧ c.toNat ≠ 0x7F ∨ c = '\n')
    (plain : isLatinControl c = false) : (c == '\n' || !Text.isControl c) = true := by
  obtain visible | rfl := kept
  · have outside : ¬(0x80 ≤ c.toNat ∧ c.toNat ≤ 0x9F) := by simpa [isLatinControl] using plain
    have other : Text.isControl c = false := by
      simp only [Text.isControl, Bool.or_eq_false_iff, Bool.and_eq_false_iff, decide_eq_false_iff_not]
      omega
    simp [other]
  · rfl

theorem mem_cleanText {c : Char} (member : c ∈ cleanText raw) : c = '\n' ∨ Text.isControl c = false := by
  have before := Text.mem_of_mem_trimBy member
  simpa using (List.mem_filter.mp before).2

theorem plain_cleanText (raw : List Char) : Plain (cleanText raw) := by
  intro c member
  obtain rfl | other := mem_cleanText member
  · rfl
  · simp only [Text.isControl, Bool.or_eq_false_iff, Bool.and_eq_false_iff, decide_eq_false_iff_not] at other
    simp only [isLatinControl, Bool.and_eq_false_iff, decide_eq_false_iff_not]
    omega

theorem cr_not_mem_cleanText (raw : List Char) : '\r' ∉ cleanText raw := by
  intro member
  have before := Text.mem_of_mem_trimBy member
  exact Text.cr_not_mem_unifyNewlines raw (List.mem_filter.mp before).1

theorem cleanText_eq_self (trimmed : Trimmed Text.isWhitespace text) (free : '\r' ∉ text)
    (kept : ∀ c ∈ text, (c == '\n' || !Text.isControl c) = true) : cleanText text = text := by
  rw [cleanText, Text.unifyNewlines_eq_self free, List.filter_eq_self.mpr kept]
  exact trimmed.trimBy_eq_self

@[simp] theorem cleanText_idem (raw : List Char) : cleanText (cleanText raw) = cleanText raw := by
  refine cleanText_eq_self (Text.trimmed_trimBy _ _) (cr_not_mem_cleanText raw) fun c member => ?_
  obtain rfl | other := mem_cleanText member
  · rfl
  · simp [other]

theorem length_cleanText_le (raw : List Char) : (cleanText raw).length ≤ raw.length := by
  have unified : (Text.unifyNewlines raw).length ≤ raw.length := by
    rw [Text.unifyNewlines, List.length_map]
    induction raw using Text.replaceCrLf.induct with
    | case1 rest ih =>
        simp only [Text.replaceCrLf, List.length_cons]
        omega
    | case2 c rest other ih =>
        rw [Text.replaceCrLf]
        · simp only [List.length_cons]
          omega
        · exact other
    | case3 => rfl
  exact Text.length_trimBy_le.trans ((List.length_filter_le _ _).trans unified)

/-- The command leaves the text as it is exactly where no control of its own stands in it. -/
def Settles (text : List Char) : Prop := cleanText text = text ↔ Plain text

theorem Clean.settles {space : Char → Bool} (clean : Clean space text)
    (wider : ∀ c, isLatinControl c = false → Text.isWhitespace c → space c) :
    Settles text := by
  constructor
  · intro same
    rw [← same]
    exact plain_cleanText text
  · intro plain
    have free : '\r' ∉ text := by
      intro member
      obtain ⟨visible, -⟩ | line := clean.kept '\r' member
      · exact absurd visible (by decide)
      · exact absurd line (by decide)
    have kept := fun c member => not_isControl (clean.kept c member) (plain c member)
    exact cleanText_eq_self (clean.toTrimmed.mono fun c member => wider c (plain c member)) free kept

end Cleaning

section Takes

variable {budget : Budget} {text : List Char} {cap : Nat}

theorem Budget.take_remaining (budget : Budget) (raw : List Char) (cap : Nat) :
    (budget.take raw cap).2.remaining = budget.remaining - (budget.take raw cap).1.length := by
  unfold Budget.take
  dsimp only
  split
  · rfl
  · split
    · rfl
    · rfl

theorem Budget.takeQuestionText_remaining (budget : Budget) (raw : List Char) (cap : Nat) :
    (budget.takeQuestionText raw cap).2.remaining =
      budget.remaining - (budget.takeQuestionText raw cap).1.length := by
  unfold Budget.takeQuestionText
  dsimp only
  split
  · rfl
  · split
    · rfl
    · rfl

theorem plain_clipTo_cleanText (room : Nat) (raw : List Char) : Plain (clipTo room (cleanText raw)) := by
  intro c member
  obtain inner | rfl := Text.mem_clipTo member
  · exact plain_cleanText raw c inner
  · rfl

theorem Budget.take_eq_iff (budget : Budget) (same : Settles text) (short : text.length ≤ cap) :
    (budget.take text cap).1 = text ↔ Plain text ∧ text.length ≤ budget.remaining := by
  unfold Budget.take
  dsimp only
  by_cases none : cleanText text = []
  · rw [if_pos none]
    constructor
    · intro empty
      rw [← empty]
      exact ⟨by simp [Plain], Nat.zero_le _⟩
    · intro ⟨plain, _⟩
      rw [← same.mpr plain, none]
  rw [if_neg none]
  have some := List.length_pos_iff.mpr none
  have shrinks := length_cleanText_le text
  by_cases full : min cap budget.remaining = 0
  · rw [if_pos full]
    constructor
    · intro empty
      rw [← empty] at none
      exact absurd rfl none
    · intro ⟨_, fits⟩
      omega
  rw [if_neg full, Budget.charge]
  dsimp only
  constructor
  · intro taken
    have length := @Text.length_clipTo _ (cleanText text) (Nat.pos_of_ne_zero full)
    rw [taken] at length
    refine ⟨?_, by omega⟩
    rw [← taken]
    exact plain_clipTo_cleanText _ text
  · intro ⟨plain, fits⟩
    rw [same.mpr plain, Text.clipTo_of_le (Nat.le_min.mpr ⟨short, fits⟩)]

theorem Budget.takeQuestionText_eq_iff (budget : Budget) (same : Settles text) (short : text.length ≤ cap)
    (nonempty : text ≠ []) (wide : 2 ≤ cap) :
    (budget.takeQuestionText text cap).1 = text ↔
      Plain text ∧ text.length ≤ budget.remaining ∧ 2 ≤ budget.remaining := by
  unfold Budget.takeQuestionText
  dsimp only
  by_cases none : cleanText text = []
  · rw [if_pos none]
    constructor
    · intro empty
      exact absurd empty.symm nonempty
    · intro ⟨plain, _⟩
      exact absurd ((same.mpr plain).symm.trans none) nonempty
  rw [if_neg none]
  by_cases full : min cap budget.remaining < 2
  · rw [if_pos full]
    constructor
    · intro empty
      exact absurd empty.symm nonempty
    · intro ⟨_, _, room⟩
      omega
  rw [if_neg full, Budget.charge]
  dsimp only
  constructor
  · intro taken
    have length := @Text.length_clipTo _ (cleanText text) (by omega : 0 < min cap budget.remaining)
    rw [taken] at length
    refine ⟨?_, by omega, by omega⟩
    rw [← taken]
    exact plain_clipTo_cleanText _ text
  · intro ⟨plain, fits, _⟩
    rw [same.mpr plain, Text.clipTo_of_le (Nat.le_min.mpr ⟨short, fits⟩)]

theorem Budget.take_whole (budget : Budget) {raw : List Char} (short : (cleanText raw).length ≤ cap)
    (room : cap ≤ budget.remaining) :
    budget.take raw cap = (cleanText raw, ⟨budget.remaining - (cleanText raw).length⟩) := by
  unfold Budget.take
  dsimp only
  by_cases none : cleanText raw = []
  · rw [if_pos none, none]
    rfl
  · have some := List.length_pos_iff.mpr none
    rw [if_neg none, if_neg (by omega), Budget.charge, Text.clipTo_of_le (by omega)]

end Takes

section Passes

structure OptionBounds (option : NormalizedOption) : Prop where
  label : Settles option.label
  description : Settles option.description
  shortLabel : option.label.length ≤ labelCap
  shortDescription : option.description.length ≤ descriptionCap
  some : option.label ≠ [] ∨ option.description ≠ []

structure QuestionBounds (question : NormalizedQuestion) : Prop where
  header : Settles question.header
  text : Settles question.text
  shortHeader : question.header.length ≤ headerCap
  shortText : question.text.length ≤ questionTextCap
  some : question.text ≠ []
  options : ∀ option ∈ question.options, OptionBounds option
  few : question.options.length ≤ maxChoices
  counted : question.omittedOptions < 2 ^ 64

/-- The texts of the questions fit one after another, each question's own text with more than an ellipsis. -/
def Fits : Nat → List NormalizedQuestion → Prop
  | _, [] => True
  | room, question :: rest => 2 ≤ room ∧ question.size ≤ room ∧ Fits (room - question.size) rest

def rawOption (option : NormalizedOption) : RawOption := ⟨option.label, some option.description⟩

def rawItem (question : NormalizedQuestion) : RawItem :=
  ⟨question.text, some question.header, some question.multiple, question.options.map rawOption,
    some (.ofNat question.omittedOptions)⟩

variable {budget : Budget} {option : NormalizedOption} {question : NormalizedQuestion}

theorem normalizeOptions_length (budget : Budget) (options : List RawOption) :
    (normalizeOptions budget options).kept.length + (normalizeOptions budget options).omitted = options.length := by
  induction options generalizing budget with
  | nil => rfl
  | cons option rest ih =>
      unfold normalizeOptions
      dsimp only
      split
      · rw [List.length_cons, ← ih budget]
        exact rfl
      · split
        · rw [List.length_cons, ← ih]
          exact rfl
        · have rest := ih ((budget.take option.label labelCap).2.take (option.description.getD []) descriptionCap).2
          simp only [Pass.keep, List.length_cons]
          omega

theorem takes_option (budget : Budget) (bounds : OptionBounds option) :
    ((budget.take option.label labelCap).1 = option.label ∧
      ((budget.take option.label labelCap).2.take option.description descriptionCap).1 = option.description) ↔
      (∀ text ∈ option.texts, Plain text) ∧ option.size ≤ budget.remaining := by
  have left := budget.take_remaining option.label labelCap
  rw [Budget.take_eq_iff _ bounds.label bounds.shortLabel, Budget.take_eq_iff _ bounds.description bounds.shortDescription]
  simp only [NormalizedOption.texts, List.forall_mem_cons, List.not_mem_nil, false_implies, implies_true, and_true,
    NormalizedOption.size]
  constructor
  · intro ⟨⟨plain, fits⟩, plain', fits'⟩
    rw [left, (Budget.take_eq_iff _ bounds.label bounds.shortLabel).mpr ⟨plain, fits⟩] at fits'
    exact ⟨⟨plain, plain'⟩, by omega⟩
  · intro ⟨⟨plain, plain'⟩, fits⟩
    have fits' : option.label.length ≤ budget.remaining := by omega
    rw [left, (Budget.take_eq_iff _ bounds.label bounds.shortLabel).mpr ⟨plain, fits'⟩]
    exact ⟨⟨plain, fits'⟩, plain', by omega⟩

theorem OptionBounds.size_pos (bounds : OptionBounds option) : 0 < option.size := by
  unfold NormalizedOption.size
  obtain label | description := bounds.some
  · have some := List.length_pos_iff.mpr label
    omega
  · have some := List.length_pos_iff.mpr description
    omega

theorem normalizeOptions_keeps {options : List NormalizedOption} (bounds : ∀ option ∈ options, OptionBounds option) :
    (normalizeOptions budget (options.map rawOption)).kept = options ↔
      (∀ option ∈ options, ∀ text ∈ option.texts, Plain text) ∧ choiceSize options ≤ budget.remaining := by
  induction options generalizing budget with
  | nil => simp [normalizeOptions, choiceSize]
  | cons option rest ih =>
      have own := bounds option List.mem_cons_self
      have later := fun budget => @ih budget fun other member => bounds other (List.mem_cons_of_mem option member)
      have positive := own.size_pos
      have shorter : ∀ budget, (normalizeOptions budget (rest.map rawOption)).kept ≠ option :: rest := by
        intro budget same
        have count := normalizeOptions_length budget (rest.map rawOption)
        rw [same, List.length_cons, List.length_map] at count
        omega
      have whole : choiceSize (option :: rest) = option.size + choiceSize rest := rfl
      rw [List.map_cons, normalizeOptions, List.forall_mem_cons, whole]
      by_cases full : budget.remaining = 0
      · rw [if_pos full]
        refine iff_of_false (shorter budget) fun ⟨_, fits⟩ => ?_
        omega
      rw [if_neg full]
      have takes := takes_option budget own
      have left := budget.take_remaining option.label labelCap
      have left' := (budget.take option.label labelCap).2.take_remaining option.description descriptionCap
      dsimp only [rawOption, Option.getD_some] at takes left left' ⊢
      split
      · next none =>
          refine iff_of_false (shorter _) fun ⟨⟨plain, _⟩, fits⟩ => ?_
          obtain ⟨label, description⟩ := takes.mpr ⟨plain, by omega⟩
          rw [none.1, none.2] at *
          obtain some | some := own.some
          · exact some label.symm
          · exact some description.symm
      · rw [Pass.keep, List.cons_eq_cons, later, left', left]
        have size : option.size = option.label.length + option.description.length := rfl
        constructor
        · intro ⟨same, plain, fits⟩
          have label := congrArg NormalizedOption.label same
          have description := congrArg NormalizedOption.description same
          obtain ⟨plain', fits'⟩ := takes.mp ⟨label, description⟩
          dsimp only at label description
          rw [description, label] at fits
          exact ⟨⟨plain', plain⟩, by omega⟩
        · intro ⟨⟨plain', plain⟩, fits⟩
          obtain ⟨label, description⟩ := takes.mpr ⟨plain', by omega⟩
          rw [description, label]
          exact ⟨rfl, plain, by omega⟩

theorem normalizeOptions_remaining (budget : Budget) (options : List RawOption) :
    (normalizeOptions budget options).budget.remaining =
      budget.remaining - choiceSize (normalizeOptions budget options).kept := by
  induction options generalizing budget with
  | nil => rfl
  | cons option rest ih =>
      have left := budget.take_remaining option.label labelCap
      have left' := (budget.take option.label labelCap).2.take_remaining (option.description.getD []) descriptionCap
      unfold normalizeOptions
      dsimp only
      split
      · exact ih budget
      · split
        · next none =>
            rw [none.2, left, none.1] at left'
            simp only [Pass.omit, ih, left', List.length_nil, Nat.sub_zero]
        · simp only [Pass.keep, ih, left', left, choiceSize, List.map_cons, List.sum_cons, NormalizedOption.size]
          omega

theorem normalizeItems_length (budget : Budget) (items : List RawItem) :
    (normalizeItems budget items).kept.length + (normalizeItems budget items).omitted = items.length := by
  induction items generalizing budget with
  | nil => rfl
  | cons item rest ih =>
      unfold normalizeItems
      dsimp only
      split
      · rw [List.length_cons, ← ih (budget.takeQuestionText item.text questionTextCap).2]
        exact rfl
      · exact (Nat.add_right_comm _ _ _).trans (congrArg (· + 1) (ih _))

theorem omitted_iff (bounds : QuestionBounds question)
    (kept : (normalizeOptions budget (question.options.map rawOption)).kept = question.options) :
    boundedOmission (some (.ofNat question.omittedOptions)) +
        (normalizeOptions budget (question.options.map rawOption)).omitted +
        ((question.options.map rawOption).length - maxChoices) = question.omittedOptions ↔
      question.omittedOptions ≤ maxOmissionCount := by
  have count := normalizeOptions_length budget (question.options.map rawOption)
  have few := bounds.few
  have number : (UInt64.ofNat question.omittedOptions).toNat = question.omittedOptions := by
    rw [UInt64.toNat_ofNat']
    exact Nat.mod_eq_of_lt bounds.counted
  rw [kept, List.length_map] at count
  rw [boundedOmission, Option.getD_some, number, List.length_map]
  omega

structure QuestionKept (question : NormalizedQuestion) : Prop where
  plain : ∀ text ∈ question.texts, Plain text
  counted : question.omittedOptions ≤ maxOmissionCount

theorem forall_texts : (∀ text ∈ question.texts, Plain text) ↔ Plain question.text ∧ Plain question.header ∧
    ∀ option ∈ question.options, ∀ text ∈ option.texts, Plain text := by
  simp only [NormalizedQuestion.texts, List.forall_mem_cons, List.mem_flatMap]
  refine and_congr_right fun _ => and_congr_right fun _ => ?_
  constructor
  · intro plain option member text among
    exact plain text ⟨option, member, among⟩
  · intro plain text ⟨option, member, among⟩
    exact plain option member text among

theorem normalizeItems_keeps {questions : List NormalizedQuestion}
    (bounds : ∀ question ∈ questions, QuestionBounds question) :
    (normalizeItems budget (questions.map rawItem)).kept = questions ↔
      (∀ question ∈ questions, QuestionKept question) ∧ Fits budget.remaining questions := by
  induction questions generalizing budget with
  | nil => simp [normalizeItems, Fits]
  | cons question rest ih =>
      have own := bounds question List.mem_cons_self
      have later := fun budget => @ih budget fun other member => bounds other (List.mem_cons_of_mem question member)
      have shorter : ∀ budget, (normalizeItems budget (rest.map rawItem)).kept ≠ question :: rest := by
        intro budget same
        have count := normalizeItems_length budget (rest.map rawItem)
        rw [same, List.length_cons, List.length_map] at count
        omega
      have taken := budget.takeQuestionText_eq_iff own.text own.shortText own.some (by decide)
      have left := budget.takeQuestionText_remaining question.text questionTextCap
      rw [List.map_cons, normalizeItems, List.forall_mem_cons, Fits]
      dsimp only [rawItem, Option.getD_some] at taken left ⊢
      split
      · next none =>
          refine iff_of_false (shorter _) fun ⟨⟨kept, _⟩, room, fits, _⟩ => own.some ?_
          have plain := kept.plain question.text List.mem_cons_self
          have short : question.text.length ≤ budget.remaining := by
            unfold NormalizedQuestion.size at fits
            omega
          rw [← taken.mpr ⟨plain, short, room⟩, none]
      · have takesHeader := (budget.takeQuestionText question.text questionTextCap).2.take_eq_iff own.header
          own.shortHeader
        have left' := (budget.takeQuestionText question.text questionTextCap).2.take_remaining question.header headerCap
        have all : (question.options.map rawOption).take maxChoices = question.options.map rawOption :=
          List.take_of_length_le (by simpa using own.few)
        have size : question.size = question.text.length + question.header.length + choiceSize question.options := rfl
        rw [all, Pass.keep, List.cons_eq_cons, later, normalizeOptions_remaining, left', left]
        constructor
        · intro ⟨same, keptRest, fitsRest⟩
          have text := congrArg NormalizedQuestion.text same
          have header := congrArg NormalizedQuestion.header same
          have options := congrArg NormalizedQuestion.options same
          have omitted := congrArg NormalizedQuestion.omittedOptions same
          dsimp only at text header options omitted
          obtain ⟨plainText, fitsText, room⟩ := taken.mp text
          obtain ⟨plainHeader, fitsHeader⟩ := takesHeader.mp header
          obtain ⟨plainOptions, fitsOptions⟩ := (normalizeOptions_keeps own.options).mp options
          rw [options, header, text] at fitsRest
          rw [left, text] at fitsHeader
          rw [left', header, left, text] at fitsOptions
          have charged : budget.remaining - question.text.length - question.header.length -
              choiceSize question.options = budget.remaining - question.size := by omega
          rw [charged] at fitsRest
          exact ⟨⟨⟨forall_texts.mpr ⟨plainText, plainHeader, plainOptions⟩, (omitted_iff own options).mp omitted⟩,
            keptRest⟩, room, by omega, fitsRest⟩
        · intro ⟨⟨kept, keptRest⟩, room, fits, fitsRest⟩
          obtain ⟨plainText, plainHeader, plainOptions⟩ := forall_texts.mp kept.plain
          have text := taken.mpr ⟨plainText, by omega, room⟩
          have header := takesHeader.mpr ⟨plainHeader, by rw [left, text]; omega⟩
          have options := (normalizeOptions_keeps own.options).mpr
            ⟨plainOptions, by rw [left', header, left, text]; omega⟩
          have omitted := (omitted_iff own options).mpr kept.counted
          have charged : budget.remaining - question.text.length - question.header.length -
              choiceSize question.options = budget.remaining - question.size := by omega
          refine ⟨?_, keptRest, ?_⟩
          · rw [omitted, options, header, text]
          · rw [options, header, text, charged]
            exact fitsRest

end Passes

end Phasegent.Notify
