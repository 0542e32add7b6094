import Phasegent.Output.Lines

namespace Phasegent.Output
open Text

section Columns

variable (console : Console) (width : Nat)

/-- The column a line is at after a character, which starts a new line when it does not fit. -/
def fill (column : Nat) (c : Char) : Nat :=
  if column + console.measureTextWidth [c] ≤ width then column + console.measureTextWidth [c]
  else console.measureTextWidth [c]

def lastColumn (word : Line) : Nat := word.foldl (fill console width) 0

/-- Where words fill lines from a column on, each gap that stays inside a line is one space, and no gap is
left at the end. -/
def SingleSpaced : Nat → List (Line × Line) → Prop
  | _, [] => True
  | column, (gap, word) :: rest =>
      word ≠ [] ∧
        if column + 1 + console.measureTextWidth word ≤ width then
          gap = [' '] ∧ SingleSpaced (column + 1 + console.measureTextWidth word) rest
        else SingleSpaced (lastColumn console width word) rest

/-- A text that fits, or starts with a word and is single spaced from there on. -/
def KeepsSpacing (text : Line) : Prop :=
  console.measureTextWidth text ≤ width ∨
    match spans isWhitespace text with
    | [] => True
    | (lead, word) :: rest => lead = [] ∧ word ≠ [] ∧ SingleSpaced console width (lastColumn console width word) rest

end Columns

section Recovery

variable {console : Console} {width : Nat}

theorem foldl_fill_fits {word : Line} {column : Nat} (fits : column + console.measureTextWidth word ≤ width) :
    word.foldl (fill console width) column = column + console.measureTextWidth word := by
  induction word generalizing column with
  | nil => simp
  | cons c rest ih =>
      rw [console.measure_cons] at fits ⊢
      rw [List.foldl_cons, fill, if_pos (by omega), ih (by omega)]
      omega

theorem lastColumn_eq (wide : 2 ≤ width) {word : Line} (some : word ≠ []) :
    lastColumn console width word = console.measureTextWidth (splitToken console width word).2 := by
  induction word using splitToken.induct console width with
  | case1 word long head empty => exact absurd empty (Console.truncate_ne_nil some wide)
  | case2 word long head kept heads left split ih =>
      have whole : head ++ word.drop head.length = word := truncate_append_drop console width word
      have fits : console.measureTextWidth head ≤ width := console.truncate_fits word width
      rw [splitToken_head long kept]
      cases rest : word.drop head.length with
      | nil =>
          rw [rest, List.append_nil] at whole
          rw [whole] at fits
          omega
      | cons c more =>
          rw [rest] at ih whole
          have next : width < console.measureTextWidth head + console.measureTextWidth [c] := by
            by_contra room
            rw [Nat.not_lt, ← console.measure_append] at room
            have longest : (head ++ [c]).length ≤ head.length :=
              (console.truncate_longest word width (head ++ [c]) ⟨more, by rw [← whole]; simp⟩ room).length_le
            rw [List.length_append, List.length_singleton] at longest
            omega
          have narrow := console.measure_narrow c
          have filled : head.foldl (fill console width) 0 = console.measureTextWidth head := by
            rw [foldl_fill_fits (by omega), Nat.zero_add]
          have restarted : fill console width (console.measureTextWidth head) c = fill console width 0 c := by
            rw [fill, fill, if_neg (by omega), if_pos (by omega), Nat.zero_add]
          rw [lastColumn, ← whole, List.foldl_append, filled, List.foldl_cons, restarted, ← List.foldl_cons]
          exact ih (by simp)
  | case3 word fits =>
      rw [splitToken_fits (Nat.not_lt.mp fits), lastColumn, foldl_fill_fits (by omega), Nat.zero_add]

theorem layOut_front (console : Console) (width : Nat) (current : Line) (rest : List Line) :
    ∃ line others, layOut console width current rest = line :: others ∧ current <+: line := by
  induction rest generalizing current with
  | nil => exact ⟨current, [], rfl, List.prefix_rfl⟩
  | cons word rest ih =>
      rw [layOut]
      split
      · obtain ⟨line, others, same, before⟩ := ih (current ++ ' ' :: word)
        exact ⟨line, others, same, (List.prefix_append _ _).trans before⟩
      · exact ⟨current, _, rfl, List.prefix_rfl⟩

theorem rejoins_pieces_iff {heads : List Line} (letters : ∀ head ∈ heads, Lettered isWhitespace head) {line text : Line}
    (others : List Line) (starts : Lettered isWhitespace line) (lettered : Lettered isWhitespace text) :
    (∃ next more, heads ++ line :: others = next :: more ∧ Lettered isWhitespace next) ∧
      (Rejoins isWhitespace (heads ++ line :: others) (heads.flatten ++ text) ↔
        Rejoins isWhitespace (line :: others) text) := by
  induction heads with
  | nil => exact ⟨⟨line, others, rfl, starts⟩, Iff.rfl⟩
  | cons head heads ih =>
      obtain ⟨first, letters⟩ := List.forall_mem_cons.mp letters
      obtain ⟨⟨next, more, same, opens⟩, joins⟩ := ih letters
      refine ⟨⟨head, _, rfl, first⟩, ?_⟩
      have inner : Lettered isWhitespace (heads.flatten ++ text) := by
        cases heads with
        | nil => exact lettered
        | cons second heads => exact ((letters second List.mem_cons_self).append _).append _
      have glued : Rejoins isWhitespace (head :: next :: more) (head ++ [] ++ (heads.flatten ++ text)) ↔
          Rejoins isWhitespace (next :: more) (heads.flatten ++ text) := rejoins_cons_iff (by simp) inner opens
      rw [← same, List.append_nil] at glued
      rw [List.flatten_cons, List.append_assoc, List.cons_append, glued, joins]

theorem rejoins_word_iff (console : Console) (wide : 2 ≤ width) {word : Line} (named : word ≠ [])
    (letters : ∀ c ∈ word, isWhitespace c = false) (rest : List Line) (text : Line) :
    (∃ next more, (splitToken console width word).1 ++ layOut console width (splitToken console width word).2 rest =
        next :: more ∧ Lettered isWhitespace next) ∧
      (Rejoins isWhitespace
          ((splitToken console width word).1 ++ layOut console width (splitToken console width word).2 rest)
          (word ++ text) ↔
        Rejoins isWhitespace (layOut console width (splitToken console width word).2 rest)
          ((splitToken console width word).2 ++ text)) := by
  have pieces := pieces_splitToken console wide named
  obtain ⟨line, others, laid, before⟩ := layOut_front console width
    (splitToken console width word).2 rest
  have within : ∀ c, c ∈ (splitToken console width word).1.flatten ∨ c ∈ (splitToken console width word).2 →
      isWhitespace c = false := fun c inside => letters c (pieces.whole ▸ List.mem_append.mpr inside)
  have tail := lettered_word pieces.left fun c inside => within c (Or.inr inside)
  have heads : ∀ head ∈ (splitToken console width word).1, Lettered isWhitespace head := fun head among =>
    lettered_word (pieces.some head among) fun c inside =>
      within c (Or.inl (List.mem_flatten.mpr ⟨head, among, inside⟩))
  rw [laid]
  have joins := rejoins_pieces_iff heads others (tail.of_prefix before) (tail.append text)
  rwa [← List.append_assoc, pieces.whole] at joins

theorem gap_of_joined {current gap word rest : Line} (some : gap ≠ []) (spaces : ∀ c ∈ gap, isWhitespace c = true)
    (lettered : Lettered isWhitespace word) (before : current ++ ' ' :: word <+: current ++ (gap ++ rest)) :
    gap = [' '] := by
  rw [List.prefix_append_right_inj] at before
  obtain ⟨c, more, rfl, letter⟩ := lettered
  cases gap with
  | nil => exact absurd rfl some
  | cons d gap =>
      obtain ⟨rfl, after⟩ := List.cons_prefix_cons.mp before
      cases gap with
      | nil => rfl
      | cons e gap =>
          obtain ⟨rfl, -⟩ := List.cons_prefix_cons.mp after
          rw [spaces c (by simp)] at letter
          cases letter

theorem rejoins_layOut_iff (wide : 2 ≤ width) {pairs : List (Line × Line)} (spaced : Spaced isWhitespace pairs)
    {current : Line} (fits : console.measureTextWidth current ≤ width) :
    Rejoins isWhitespace
        (layOut console width current ((pairs.map Prod.snd).filter fun word => !word.isEmpty))
        (current ++ unspan pairs) ↔
      SingleSpaced console width (console.measureTextWidth current) pairs := by
  induction spaced generalizing current with
  | nil =>
      rw [unspan_nil, List.append_nil]
      exact ⟨fun _ => trivial, fun _ => .last current⟩
  | @last gap some spaces =>
      constructor
      · intro joined
        exfalso
        generalize whole : current ++ unspan [(gap, [])] = text at joined
        cases joined with
        | last => simp [some] at whole
        | next _ _ others => cases others
      · exact fun impossible => absurd rfl impossible.1
  | @next gap word pairs some spaces named letters rest ih =>
      have words : ((((gap, word) :: pairs).map Prod.snd).filter fun word => !word.isEmpty) =
          word :: ((pairs.map Prod.snd).filter fun word => !word.isEmpty) := by simp [named]
      rw [words, layOut, unspan_cons, SingleSpaced]
      by_cases room : console.measureTextWidth current + 1 + console.measureTextWidth word ≤ width
      · rw [if_pos room, if_pos room]
        have joined : console.measureTextWidth (current ++ ' ' :: word) ≤ width := by rwa [measure_joined]
        have joins := ih joined
        rw [measure_joined] at joins
        constructor
        · intro joined
          obtain ⟨line, others, laid, before⟩ := layOut_front console width
            (current ++ ' ' :: word) ((pairs.map Prod.snd).filter fun word => !word.isEmpty)
          have front := before.trans (Rejoins.front (laid ▸ joined))
          have single := gap_of_joined some spaces (lettered_word named letters) front
          refine ⟨named, single, joins.mp ?_⟩
          rw [single] at joined
          simpa using joined
        · rintro ⟨-, rfl, rest⟩
          simpa using joins.mpr rest
      · rw [if_neg room, if_neg room, lastColumn_eq wide named]
        obtain ⟨⟨next, more, laid, starts⟩, joins⟩ := rejoins_word_iff console wide named letters
          ((pairs.map Prod.snd).filter fun word => !word.isEmpty) (unspan pairs)
        have lettered := (lettered_word named letters).append (unspan pairs)
        rw [laid, ← List.append_assoc, rejoins_cons_iff spaces lettered starts, ← laid, joins,
          ih (pieces_splitToken console wide named).left_fits]
        exact ⟨fun rest => ⟨named, rest⟩, And.right⟩

end Recovery

/-- A row ends and its lines fit; its text is what its lines and the whitespace dropped at their breaks make
up exactly where filling the lines keeps every gap. -/
theorem row_keeps_characters_iff (console : Console) (buffer : Lines) (wide : 2 ≤ buffer.width) (text : Line) :
    ∃ lines, buffer.row console text = buffer.push lines ∧
      (∀ line ∈ lines, console.measureTextWidth line ≤ buffer.width) ∧
      (Rejoins isWhitespace lines (singleLine text) ↔ KeepsSpacing console buffer.width (singleLine text)) := by
  refine ⟨_, rfl, fun line among => (fitting_single wide (plain_singleLine text) line among).1, ?_⟩
  generalize singleLine text = own
  rw [KeepsSpacing]
  by_cases fits : console.measureTextWidth own ≤ buffer.width
  · rw [wrapLine_short fits]
    exact ⟨fun _ => Or.inl fits, fun _ => .last own⟩
  · have long := Nat.not_le.mp fits
    have whole := unspan_spans isWhitespace own
    have split := words_spans isWhitespace own
    have opened := opened_spans isWhitespace own
    rw [or_iff_right fits]
    generalize spans isWhitespace own = pairs at whole split opened
    cases opened with
    | nil =>
        rw [← whole, unspan_nil, console.measure_nil] at fits
        exact absurd (Nat.zero_le _) fits
    | @last gap some spaces =>
        rw [wrapLine_blank wide long split]
        constructor
        · intro joined
          exfalso
          cases joined with
          | last => exact fits (console.measure_nil ▸ Nat.zero_le _)
          | next _ _ others => cases others
        · exact fun impossible => absurd rfl impossible.2.1
    | @next lead word pairs spaces named letters rest =>
        have words : ((((lead, word) :: pairs).map Prod.snd).filter fun word => !word.isEmpty) =
            word :: ((pairs.map Prod.snd).filter fun word => !word.isEmpty) := by simp [named]
        rw [words] at split
        rw [wrapLine_words wide long split, ← whole, unspan_cons]
        obtain ⟨⟨next, more, laid, starts⟩, joins⟩ := rejoins_word_iff console wide named letters
          ((pairs.map Prod.snd).filter fun word => !word.isEmpty) (unspan pairs)
        have left := rejoins_layOut_iff wide rest (pieces_splitToken console wide named).left_fits
        rw [← lastColumn_eq wide named] at left
        constructor
        · intro joined
          cases lead with
          | nil => exact ⟨rfl, named, left.mp (joins.mp joined)⟩
          | cons c lead =>
              obtain ⟨d, after, same, letter⟩ := starts.of_prefix (Rejoins.front (laid ▸ joined))
              cases same
              rw [spaces c List.mem_cons_self] at letter
              cases letter
        · rintro ⟨rfl, -, single⟩
          exact joins.mpr (left.mpr single)

theorem row_keeps_characters_path :
    ∃ lines, (Lines.new 12 false).row plainConsole "/tmp/my app removed".toList = (Lines.new 12 false).push lines ∧
      (∀ line ∈ lines, plainConsole.measureTextWidth line ≤ 12) ∧
      (Rejoins isWhitespace lines (singleLine "/tmp/my app removed".toList) ↔
        KeepsSpacing plainConsole 12 (singleLine "/tmp/my app removed".toList)) :=
  row_keeps_characters_iff plainConsole (Lines.new 12 false) (by decide) "/tmp/my app removed".toList

/-- A path with two spaces is printed with one of them. -/
theorem double_space_lost :
    ((Lines.new 12 false).row plainConsole "/tmp/my  app removed".toList).lines =
        ["/tmp/my app".toList, "removed".toList] ∧
      singleLine "/tmp/my  app removed".toList = "/tmp/my  app removed".toList ∧
      ¬Rejoins isWhitespace ["/tmp/my app".toList, "removed".toList] "/tmp/my  app removed".toList := by
  have clean : Clean "/tmp/my  app removed".toList := by
    have plain : ("/tmp/my  app removed".toList.all fun c => !isControl c) = true := by decide
    intro c among control
    have own := List.all_eq_true.mp plain c among
    simp [control] at own
  have single : singleLine "/tmp/my  app removed".toList = "/tmp/my  app removed".toList := by
    rw [singleLine, sanitize_of_clean clean]
    decide
  refine ⟨?_, single, ?_⟩
  · have split : words isWhitespace "/tmp/my  app removed".toList =
        ["/tmp/my".toList, "app".toList, "removed".toList] := by decide
    have first : splitToken plainConsole 12 "/tmp/my".toList = ([], "/tmp/my".toList) := splitToken_fits (by decide)
    have last : splitToken plainConsole 12 "removed".toList = ([], "removed".toList) := splitToken_fits (by decide)
    have wrapped : wrapLine plainConsole "/tmp/my  app removed".toList 12 =
        ["/tmp/my app".toList, "removed".toList] := by
      rw [wrapLine_words (by decide) (by decide) split, first, layOut, if_pos (by decide), layOut,
        if_neg (by decide), last]
      rfl
    rw [Lines.row, Lines.pushSingleLine, single]
    exact wrapped
  · intro joined
    have before := joined.front
    revert before
    decide

end Phasegent.Output
