import Phasegent.Text.Slice

namespace Text

/-- A letter of a text, with the separator that stands before it. -/
structure Mark (α : Type) where
  gap : Option α
  letter : α
  deriving DecidableEq, Repr

variable {α : Type}

namespace Mark

def spell (mark : Mark α) : List α := mark.gap.toList ++ [mark.letter]

def width (mark : Mark α) : Nat := mark.spell.length

structure Proper (isSeparator : α → Bool) (mark : Mark α) : Prop where
  letter : isSeparator mark.letter = false
  gap : ∀ c ∈ mark.gap, isSeparator c

end Mark

def spell (marks : List (Mark α)) : List α := marks.flatMap Mark.spell

def fit : Nat → List (Mark α) → List (Mark α)
  | _, [] => []
  | room, mark :: rest => if mark.width ≤ room then mark :: fit (room - mark.width) rest else []

def lead (gap : Option α) : List (Mark α) → List (Mark α)
  | [] => []
  | mark :: rest => { mark with gap := gap } :: rest

section Reading
variable (isLetter : α → Bool) (fold separator : α → α)

/-- The letters of a text; a run of other characters reads as the separator of its first. -/
def marksFrom : Option α → List α → List (Mark α)
  | _, [] => []
  | gap, c :: rest =>
      if isLetter c then ⟨gap, fold c⟩ :: marksFrom none rest
      else marksFrom (gap.or (some (separator c))) rest

def marks (text : List α) : List (Mark α) := lead none (marksFrom isLetter fold separator none text)

end Reading

section Spelling
variable {isSeparator : α → Bool}

@[simp] theorem spell_nil : spell ([] : List (Mark α)) = [] := rfl

@[simp] theorem spell_cons (mark : Mark α) (rest : List (Mark α)) :
    spell (mark :: rest) = mark.gap.toList ++ mark.letter :: spell rest := by
  simp [spell, Mark.spell]

@[simp] theorem spell_append (first last : List (Mark α)) :
    spell (first ++ last) = spell first ++ spell last := by
  simp [spell]

@[simp] theorem width_eq (mark : Mark α) : mark.width = mark.gap.toList.length + 1 := by
  simp [Mark.width, Mark.spell]

theorem rdropWhile_append_cons {c : α} (kept : isSeparator c = false) (before after : List α) :
    (before ++ c :: after).rdropWhile isSeparator = before ++ c :: after.rdropWhile isSeparator := by
  induction after using List.reverseRecOn with
  | nil =>
      rw [List.rdropWhile_concat_neg _ _ _ (by simp [kept])]
      rfl
  | append_singleton after d ih =>
      by_cases dropped : isSeparator d
      · rw [← List.cons_append, ← List.append_assoc, List.rdropWhile_concat_pos _ _ _ dropped, ih,
          List.rdropWhile_concat_pos _ _ _ dropped]
      · rw [← List.cons_append, ← List.append_assoc, List.rdropWhile_concat_neg _ _ _ dropped,
          List.rdropWhile_concat_neg _ _ _ dropped, List.append_assoc, List.cons_append]

theorem spell_fit (room : Nat) {marks : List (Mark α)} (proper : ∀ mark ∈ marks, mark.Proper isSeparator) :
    ((spell marks).take room).rdropWhile isSeparator = spell (fit room marks) := by
  induction marks generalizing room with
  | nil => simp [fit]
  | cons mark rest ih =>
      obtain ⟨own, later⟩ := List.forall_mem_cons.mp proper
      obtain ⟨gap, letter⟩ := mark
      cases gap with
      | none =>
          cases room with
          | zero => simp [fit]
          | succ room =>
              have tail := rdropWhile_append_cons own.letter [] ((spell rest).take room)
              simpa [fit, ih room later] using tail
      | some c =>
          have separates : isSeparator c := own.gap c rfl
          match room with
          | 0 => simp [fit]
          | 1 => simp [fit, List.rdropWhile, separates]
          | room + 2 =>
              have tail := rdropWhile_append_cons own.letter [c] ((spell rest).take room)
              simpa [fit, ih room later] using tail

theorem length_spell_fit (room : Nat) (marks : List (Mark α)) :
    (spell (fit room marks)).length ≤ room := by
  induction marks generalizing room with
  | nil => simp [fit]
  | cons mark rest ih =>
      rw [fit]
      split
      · next fits =>
          have later := ih (room - mark.width)
          rw [width_eq] at fits later
          simp only [spell_cons, List.length_append, List.length_cons, width_eq]
          omega
      · simp

theorem mem_fit {room : Nat} {marks : List (Mark α)} {mark : Mark α} (among : mark ∈ fit room marks) :
    mark ∈ marks := by
  induction marks generalizing room with
  | nil => cases among
  | cons first rest ih =>
      rw [fit] at among
      split at among
      · obtain rfl | later := List.mem_cons.mp among
        · exact List.mem_cons_self
        · exact List.mem_cons_of_mem _ (ih later)
      · cases among

theorem fit_all {room : Nat} {marks : List (Mark α)} (fits : (spell marks).length ≤ room) :
    fit room marks = marks := by
  induction marks generalizing room with
  | nil => rfl
  | cons mark rest ih =>
      simp only [spell_cons, List.length_append, List.length_cons] at fits
      rw [fit, if_pos (by rw [width_eq]; omega), ih (by rw [width_eq]; omega)]

theorem spell_trimmed {marks : List (Mark α)} (proper : ∀ mark ∈ marks, mark.Proper isSeparator) :
    (spell marks).rdropWhile isSeparator = spell marks := by
  have whole := spell_fit (spell marks).length proper
  rwa [List.take_length, fit_all le_rfl] at whole

theorem dropWhile_spell {marks : List (Mark α)} (proper : ∀ mark ∈ marks, mark.Proper isSeparator) :
    (spell marks).dropWhile isSeparator = spell (lead none marks) := by
  cases marks with
  | nil => rfl
  | cons mark rest =>
      have own := proper mark List.mem_cons_self
      obtain ⟨gap, letter⟩ := mark
      have letters := own.letter
      cases gap with
      | none => simp_all [lead]
      | some c =>
          have separates := own.gap c rfl
          simp_all [lead]

theorem proper_lead {gap : Option α} (separates : ∀ c ∈ gap, isSeparator c) {marks : List (Mark α)}
    (proper : ∀ mark ∈ marks, mark.Proper isSeparator) :
    ∀ mark ∈ lead gap marks, mark.Proper isSeparator := by
  cases marks with
  | nil => exact proper
  | cons mark rest =>
      obtain ⟨own, later⟩ := List.forall_mem_cons.mp proper
      exact List.forall_mem_cons.mpr ⟨⟨own.letter, separates⟩, later⟩

theorem spell_lead_cons (gap : Option α) {marks : List (Mark α)} (some : marks ≠ []) :
    spell (lead gap marks) = gap.toList ++ spell (lead none marks) := by
  cases marks with
  | nil => exact absurd rfl some
  | cons mark rest => simp [lead]

@[simp] theorem lead_eq_nil {gap : Option α} {marks : List (Mark α)} : lead gap marks = [] ↔ marks = [] := by
  cases marks <;> simp [lead]

@[simp] theorem lead_lead {gap other : Option α} {marks : List (Mark α)} :
    lead gap (lead other marks) = lead gap marks := by
  cases marks <;> rfl

theorem proper_marksFrom {isLetter : α → Bool} {fold separator : α → α}
    (letters : ∀ c, isLetter c → isSeparator (fold c) = false)
    (separators : ∀ c, isSeparator (separator c)) {gap : Option α}
    (separates : ∀ c ∈ gap, isSeparator c) (text : List α) :
    ∀ mark ∈ marksFrom isLetter fold separator gap text, mark.Proper isSeparator := by
  induction text generalizing gap with
  | nil => simp [marksFrom]
  | cons c rest ih =>
      rw [marksFrom]
      split
      · next letter =>
          exact List.forall_mem_cons.mpr ⟨⟨letters c letter, separates⟩, ih (by simp)⟩
      · apply ih
        cases gap with
        | none => simp [separators]
        | some g => simpa using separates

theorem spell_injective {marks others : List (Mark α)}
    (proper : ∀ mark ∈ marks, mark.Proper isSeparator)
    (proper' : ∀ mark ∈ others, mark.Proper isSeparator) (same : spell marks = spell others) :
    marks = others := by
  induction marks generalizing others with
  | nil =>
      cases others with
      | nil => rfl
      | cons mark rest => simp at same
  | cons mark rest ih =>
      cases others with
      | nil => simp at same
      | cons other rest' =>
          obtain ⟨own, later⟩ := List.forall_mem_cons.mp proper
          obtain ⟨own', later'⟩ := List.forall_mem_cons.mp proper'
          obtain ⟨gap, letter⟩ := mark
          obtain ⟨gap', letter'⟩ := other
          have letters := own.letter
          have letters' := own'.letter
          cases gap with
          | none =>
              cases gap' with
              | none =>
                  simp only [spell_cons, Option.toList_none, List.nil_append, List.cons.injEq] at same
                  rw [same.1, ih later later' same.2]
              | some c =>
                  simp only [spell_cons, Option.toList_none, Option.toList_some, List.nil_append,
                    List.cons_append, List.cons.injEq] at same
                  have separates := own'.gap c rfl
                  simp_all
          | some c =>
              have separates := own.gap c rfl
              cases gap' with
              | none =>
                  simp only [spell_cons, Option.toList_none, Option.toList_some, List.nil_append,
                    List.cons_append, List.cons.injEq] at same
                  simp_all
              | some c' =>
                  simp only [spell_cons, Option.toList_some, List.nil_append, List.cons_append,
                    List.cons.injEq] at same
                  rw [same.1, same.2.1, ih later later' same.2.2]

end Spelling

end Text
