namespace Text

variable {α : Type} (blank : α → Bool)

def words (text : List α) : List (List α) :=
  (text.splitOnP blank).filter fun word => !word.isEmpty

/-- A text as words, each with the gap before it; a blank end is a gap before the empty word. -/
def spans : List α → List (List α × List α)
  | [] => []
  | c :: rest =>
      if blank c then
        match spans rest with
        | [] => [([c], [])]
        | (gap, word) :: more => (c :: gap, word) :: more
      else
        match spans rest with
        | ([], word) :: more => ([], c :: word) :: more
        | more => ([], [c]) :: more

def unspan (pairs : List (List α × List α)) : List α := pairs.flatMap fun pair => pair.1 ++ pair.2

@[simp] theorem unspan_nil : unspan ([] : List (List α × List α)) = [] := rfl

@[simp] theorem unspan_cons (gap word : List α) (pairs : List (List α × List α)) :
    unspan ((gap, word) :: pairs) = gap ++ (word ++ unspan pairs) := by
  simp [unspan]

@[simp] theorem unspan_spans (text : List α) : unspan (spans blank text) = text := by
  induction text with
  | nil => rfl
  | cons c rest ih =>
      rw [spans]
      split
      · split <;> simp_all
      · split <;> simp_all

inductive Spaced (blank : α → Bool) : List (List α × List α) → Prop
  | nil : Spaced blank []
  | last {gap : List α} (some : gap ≠ []) (spaces : ∀ c ∈ gap, blank c = true) : Spaced blank [(gap, [])]
  | next {gap word : List α} {pairs : List (List α × List α)} (some : gap ≠ []) (spaces : ∀ c ∈ gap, blank c = true)
      (named : word ≠ []) (letters : ∀ c ∈ word, blank c = false) (rest : Spaced blank pairs) :
      Spaced blank ((gap, word) :: pairs)

inductive Opened (blank : α → Bool) : List (List α × List α) → Prop
  | nil : Opened blank []
  | last {gap : List α} (some : gap ≠ []) (spaces : ∀ c ∈ gap, blank c = true) : Opened blank [(gap, [])]
  | next {gap word : List α} {pairs : List (List α × List α)} (spaces : ∀ c ∈ gap, blank c = true)
      (named : word ≠ []) (letters : ∀ c ∈ word, blank c = false) (rest : Spaced blank pairs) :
      Opened blank ((gap, word) :: pairs)

theorem opened_spans (text : List α) : Opened blank (spans blank text) := by
  induction text with
  | nil => exact .nil
  | cons c rest ih =>
      rw [spans]
      generalize spans blank rest = pairs at ih
      by_cases space : blank c = true
      · rw [if_pos space]
        cases ih with
        | nil => exact .last (by simp) (by simp [space])
        | last some spaces => exact .last (by simp) (by simpa [space] using spaces)
        | next spaces named letters rest => exact .next (by simpa [space] using spaces) named letters rest
      · rw [if_neg space]
        rw [Bool.not_eq_true] at space
        cases ih with
        | nil => exact .next (by simp) (by simp) (by simp [space]) .nil
        | @last gap some spaces =>
            cases gap with
            | nil => exact absurd rfl some
            | cons d gap => exact .next (by simp) (by simp) (by simp [space]) (.last some spaces)
        | @next gap word pairs spaces named letters rest =>
            cases gap with
            | nil => exact .next (by simp) (by simp) (by simpa [space] using letters) rest
            | cons d gap =>
                exact .next (by simp) (by simp) (by simp [space]) (.next (by simp) spaces named letters rest)

def opening : List (List α × List α) → List α × List (List α × List α)
  | ([], word) :: more => (word, more)
  | more => ([], more)

private def named (pairs : List (List α × List α)) : List (List α) :=
  (pairs.map Prod.snd).filter fun word => !word.isEmpty

private theorem splitOnP_spans (text : List α) :
    ∃ others, text.splitOnP blank = (opening (spans blank text)).1 :: others ∧
      (others.filter fun word => !word.isEmpty) = named (opening (spans blank text)).2 := by
  induction text with
  | nil => exact ⟨[], rfl, rfl⟩
  | cons c rest ih =>
      obtain ⟨others, split, same⟩ := ih
      rw [List.splitOnP_cons_eq_if_modifyHead, spans]
      by_cases space : blank c = true
      · rw [if_pos space, if_pos space, split]
        generalize spans blank rest = pairs at same ⊢
        refine ⟨(opening pairs).1 :: others, ?_, ?_⟩
        · cases pairs <;> rfl
        · cases pairs with
          | nil => simpa [named, opening] using same
          | cons pair more =>
              obtain ⟨gap, word⟩ := pair
              cases gap with
              | nil => cases word <;> simpa [named, opening] using same
              | cons d gap => simpa [named, opening] using same
      · rw [if_neg space, if_neg space, split]
        refine ⟨others, ?_, ?_⟩
        · generalize spans blank rest = pairs
          cases pairs with
          | nil => rfl
          | cons pair more =>
              obtain ⟨gap, word⟩ := pair
              cases gap <;> rfl
        · rw [same]
          generalize spans blank rest = pairs
          cases pairs with
          | nil => rfl
          | cons pair more =>
              obtain ⟨gap, word⟩ := pair
              cases gap <;> rfl

theorem words_spans (text : List α) :
    words blank text = ((spans blank text).map Prod.snd).filter fun word => !word.isEmpty := by
  obtain ⟨others, split, same⟩ := splitOnP_spans blank text
  rw [words, split]
  generalize spans blank text = pairs at same ⊢
  cases pairs with
  | nil => simpa [opening, named] using same
  | cons pair more =>
      obtain ⟨gap, word⟩ := pair
      cases gap with
      | nil => cases word <;> simpa [opening, named] using same
      | cons d gap => simpa [opening, named] using same

variable {blank}

theorem of_mem_splitOnP {text piece : List α} (among : piece ∈ text.splitOnP blank) :
    ∀ c ∈ piece, blank c = false ∧ c ∈ text := by
  induction text generalizing piece with
  | nil =>
      rw [List.splitOnP_nil, List.mem_singleton] at among
      simp [among]
  | cons d rest ih =>
      rw [List.splitOnP_cons_eq_if_modifyHead] at among
      have later : ∀ own ∈ rest.splitOnP blank, ∀ c ∈ own, blank c = false ∧ c ∈ d :: rest :=
        fun own member c inside => ⟨(ih member c inside).1, List.mem_cons_of_mem _ (ih member c inside).2⟩
      split at among
      · rcases List.mem_cons.mp among with rfl | among
        · simp
        · exact later piece among
      · obtain ⟨head, others, split⟩ := List.exists_cons_of_ne_nil (List.splitOnP_ne_nil blank rest)
        rw [split] at among later
        rcases List.mem_cons.mp among with rfl | among
        · intro c inside
          rcases List.mem_cons.mp inside with rfl | inside
          · simp_all
          · exact later head List.mem_cons_self c inside
        · exact later piece (List.mem_cons_of_mem _ among)

theorem of_mem_words {text word : List α} (among : word ∈ words blank text) :
    word ≠ [] ∧ ∀ c ∈ word, blank c = false ∧ c ∈ text := by
  rw [words, List.mem_filter] at among
  exact ⟨by simpa using among.2, of_mem_splitOnP among.1⟩

/-- A text is its lines with blank characters put back at the breaks between them. -/
inductive Rejoins (blank : α → Bool) : List (List α) → List α → Prop
  | last (line : List α) : Rejoins blank [line] line
  | next (line : List α) {gap rest : List α} {lines : List (List α)} (spaces : ∀ c ∈ gap, blank c = true)
      (others : Rejoins blank lines rest) : Rejoins blank (line :: lines) (line ++ gap ++ rest)

theorem Rejoins.front {line text : List α} {lines : List (List α)} (joined : Rejoins blank (line :: lines) text) :
    line <+: text := by
  cases joined with
  | last => exact List.prefix_rfl
  | next _ spaces others => exact ⟨_, (List.append_assoc ..).symm⟩

def Lettered (blank : α → Bool) (text : List α) : Prop := ∃ c rest, text = c :: rest ∧ blank c = false

theorem Lettered.append {text : List α} (lettered : Lettered blank text) (rest : List α) :
    Lettered blank (text ++ rest) := by
  obtain ⟨c, more, rfl, letter⟩ := lettered
  exact ⟨c, more ++ rest, rfl, letter⟩

theorem Lettered.of_prefix {front text : List α} (lettered : Lettered blank front) (before : front <+: text) :
    Lettered blank text := by
  obtain ⟨rest, rfl⟩ := before
  exact lettered.append rest

theorem lettered_word {word : List α} (named : word ≠ []) (letters : ∀ c ∈ word, blank c = false) :
    Lettered blank word := by
  cases word with
  | nil => exact absurd rfl named
  | cons c rest => exact ⟨c, rest, rfl, letters c List.mem_cons_self⟩

theorem Lettered.dropWhile {text : List α} (lettered : Lettered blank text) : text.dropWhile blank = text := by
  obtain ⟨c, rest, rfl, letter⟩ := lettered
  simp [letter]

theorem gap_append_inj {gap gap' text text' : List α} (spaces : ∀ c ∈ gap, blank c = true)
    (spaces' : ∀ c ∈ gap', blank c = true) (lettered : Lettered blank text) (lettered' : Lettered blank text')
    (same : gap ++ text = gap' ++ text') : gap = gap' ∧ text = text' := by
  have rest : text = text' := by
    have dropped := congrArg (List.dropWhile blank) same
    rwa [List.dropWhile_append_of_pos spaces, List.dropWhile_append_of_pos spaces', lettered.dropWhile,
      lettered'.dropWhile] at dropped
  subst rest
  exact ⟨List.append_cancel_right same, rfl⟩

theorem rejoins_cons_iff {line gap text next : List α} {lines : List (List α)} (spaces : ∀ c ∈ gap, blank c = true)
    (lettered : Lettered blank text) (starts : Lettered blank next) :
    Rejoins blank (line :: next :: lines) (line ++ gap ++ text) ↔ Rejoins blank (next :: lines) text := by
  constructor
  · intro joined
    generalize whole : line ++ gap ++ text = joinedText at joined
    cases joined with
    | @next _ gap' rest _ spaces' others =>
        rw [List.append_assoc, List.append_assoc, List.append_cancel_left_eq] at whole
        obtain ⟨-, rfl⟩ := gap_append_inj spaces spaces' lettered (starts.of_prefix others.front) whole
        exact others
  · exact fun others => .next line spaces others

end Text
