import Phasegent.Notify.Taken

namespace Phasegent.Notify.Plugin
open Js (Value)
open Text (clipTo)

section Texts

theorem isSpace_of_isWhitespace {c : Char} (plain : isLatinControl c = false) (white : Text.isWhitespace c) :
    isSpace c := by
  simp only [isLatinControl, Bool.and_eq_false_iff, decide_eq_false_iff_not] at plain
  simp only [Text.isWhitespace, Bool.or_eq_true, Bool.and_eq_true, decide_eq_true_eq, beq_iff_eq] at white
  simp only [isSpace, Bool.or_eq_true, decide_eq_true_eq, List.mem_cons, List.not_mem_nil, or_false, Bool.and_eq_true]
  omega

theorem clean_cleanText (raw : Value) : Clean isSpace (cleanText raw) := by
  unfold cleanText
  split
  · exact ⟨⟨by simp, by simp⟩, by simp⟩
  · refine ⟨Text.trimmed_trimBy _ _, fun c member => ?_⟩
    have kept := (List.mem_filter.mp (Text.mem_of_mem_trimBy member)).2
    simp only [isDropped, Bool.not_eq_true', Bool.or_eq_false_iff, Bool.and_eq_false_iff, decide_eq_false_iff_not,
      beq_eq_false_iff_ne] at kept
    by_cases line : c.toNat = 10
    · exact Or.inr (Char.ext (UInt32.toNat_inj.mp line))
    · left
      omega

theorem clean_clipTo {text : List Char} (clean : Clean isSpace text) (room : Nat) :
    Clean isSpace (clipTo room text) := by
  refine ⟨clean.toTrimmed.clipTo (by decide) room, fun c member => ?_⟩
  obtain inner | rfl := Text.mem_clipTo member
  · exact clean.kept c inner
  · exact Or.inl (by decide)

theorem settles {text : List Char} (clean : Clean isSpace text) : Settles text :=
  clean.settles fun _ plain white => isSpace_of_isWhitespace plain white

theorem takeField_clean (remaining : Nat) (raw : Value) (cap : Nat) : Clean isSpace (takeField remaining raw cap).1 := by
  rw [takeField_fst]
  split
  · exact ⟨⟨by simp, by simp⟩, by simp⟩
  · exact clean_clipTo (clean_cleanText raw) _

theorem takeField_length_le (remaining : Nat) (raw : Value) (cap : Nat) :
    (takeField remaining raw cap).1.length ≤ cap := by
  rw [takeField_length, charge]
  omega

end Texts

section Choices

variable {option : NormalizedOption}

structure ChoiceRetained (option : NormalizedOption) : Prop where
  label : Clean isSpace option.label
  description : Clean isSpace option.description
  shortLabel : option.label.length ≤ labelCap
  shortDescription : option.description.length ≤ descriptionCap
  some : option.label ≠ [] ∨ option.description ≠ []

theorem ChoiceRetained.bounds (retained : ChoiceRetained option) : OptionBounds option :=
  ⟨settles retained.label, settles retained.description, retained.shortLabel, retained.shortDescription, retained.some⟩

theorem takeOptions_retained (count remaining : Nat) (options : List Value) :
    (∀ option ∈ (takeOptions count remaining options).kept, ChoiceRetained option) ∧
      (count ≤ maxChoices → count + (takeOptions count remaining options).kept.length ≤ maxChoices) := by
  induction options generalizing count remaining with
  | nil => simp [takeOptions]
  | cons option rest ih =>
      unfold takeOptions
      dsimp only
      split
      · exact ih count remaining
      · next room =>
          split
          · exact ih count _
          · next some =>
              obtain ⟨retained, few⟩ := ih (count + 1) (takeField (takeField remaining (member option "label") labelCap).2
                (member option "description") descriptionCap).2
              constructor
              · rw [Taken.push, List.forall_mem_cons]
                refine ⟨⟨takeField_clean _ _ _, takeField_clean _ _ _, takeField_length_le _ _ _,
                  takeField_length_le _ _ _, ?_⟩, retained⟩
                rw [← not_and_or]
                exact some
              · intro bound
                have more := few (by omega)
                simp only [Taken.push, List.length_cons]
                omega

end Choices

section Questions

variable {question : NormalizedQuestion}

/-- A question as the plugin retains it, from one of the fields of the form. -/
structure QuestionRetained (field : Value) (question : NormalizedQuestion) : Prop where
  header : Clean isSpace question.header
  text : Clean isSpace question.text
  shortHeader : question.header.length ≤ headerCap
  shortText : question.text.length ≤ questionTextCap
  some : question.text ≠ []
  choices : ∀ option ∈ question.options, ChoiceRetained option
  few : question.options.length ≤ maxChoices
  supplied : question.options.length + question.omittedOptions = (optionsOf field).length

theorem QuestionRetained.bounds {field : Value} (retained : QuestionRetained field question)
    (sized : (optionsOf field).length < 2 ^ 32) : QuestionBounds question := by
  refine ⟨settles retained.header, settles retained.text, retained.shortHeader, retained.shortText, retained.some,
    fun option member => (retained.choices option member).bounds, retained.few, ?_⟩
  have whole := retained.supplied
  omega

theorem takeQuestions_retained (count remaining : Nat) (fields : List Value) :
    (∃ sources, sources.Sublist fields ∧
      List.Forall₂ QuestionRetained sources (takeQuestions count remaining fields).kept) ∧
      (takeQuestions count remaining fields).kept.length + (takeQuestions count remaining fields).omitted =
        fields.length ∧
      (count ≤ maxQuestions → count + (takeQuestions count remaining fields).kept.length ≤ maxQuestions) := by
  induction fields generalizing count remaining with
  | nil => exact ⟨⟨[], List.Sublist.slnil, List.Forall₂.nil⟩, rfl, fun bound => bound⟩
  | cons field rest ih =>
      have leaves : ∀ remaining, (∃ sources, sources.Sublist (field :: rest) ∧
          List.Forall₂ QuestionRetained sources (takeQuestions count remaining rest).omit.kept) ∧
          (takeQuestions count remaining rest).omit.kept.length + (takeQuestions count remaining rest).omit.omitted =
            (field :: rest).length ∧
          (count ≤ maxQuestions → count + (takeQuestions count remaining rest).omit.kept.length ≤ maxQuestions) := by
        intro remaining
        obtain ⟨⟨sources, among, retained⟩, whole, few⟩ := ih count remaining
        exact ⟨⟨sources, among.cons field, retained⟩, congrArg (· + 1) whole, few⟩
      have source := questionText_eq remaining field
      dsimp only at source
      unfold takeQuestions
      dsimp only
      rw [source]
      split
      · exact leaves remaining
      · next room =>
          by_cases none : questionSource remaining field = [] ∨ remaining < 2
          · rw [if_pos none]
            exact leaves remaining
          rw [if_neg none]
          dsimp only
          have some : 0 < min questionTextCap remaining := by
            have cap : questionTextCap = 1500 := rfl
            omega
          have shown : clipTo (min questionTextCap remaining) (questionSource remaining field) ≠ [] := by
            rw [Ne, Text.clipTo_eq_nil some]
            exact fun nothing => none (Or.inl nothing)
          have clean : Clean isSpace (questionSource remaining field) := by
            unfold questionSource
            dsimp only
            split
            · exact clean_cleanText _
            · exact clean_cleanText _
          have short : (clipTo (min questionTextCap remaining) (questionSource remaining field)).length ≤
              questionTextCap := by
            rw [Text.length_clipTo some]
            omega
          rw [if_neg shown]
          generalize remaining - charge (min questionTextCap remaining) (questionSource remaining field) = left
          obtain ⟨choices, few⟩ := takeOptions_retained 0 (takeField left (member field "title") headerCap).2
            (optionsOf field)
          have supplied := takeOptions_length 0 (takeField left (member field "title") headerCap).2 (optionsOf field)
          obtain ⟨⟨sources, among, retained⟩, whole, fewer⟩ := ih (count + 1)
            (takeOptions 0 (takeField left (member field "title") headerCap).2 (optionsOf field)).remaining
          refine ⟨⟨field :: sources, among.cons_cons field, List.Forall₂.cons ?_ retained⟩, ?_, fun bound => ?_⟩
          · refine ⟨takeField_clean _ _ _, clean_clipTo clean _, takeField_length_le _ _ _, short, shown, choices, ?_,
              supplied⟩
            simpa using few (Nat.zero_le _)
          · exact (Nat.add_right_comm _ _ _).trans (congrArg (· + 1) whole)
          · have more := fewer (by omega)
            simp only [Taken.push, List.length_cons]
            omega

end Questions

end Phasegent.Notify.Plugin
