import Phasegent.Text.Chars
import Phasegent.Text.Words

namespace Phasegent.Output
open Text

abbrev Line := List Char

/-- The `console` crate: columns add up, no character takes more than two of them and printable ASCII
takes one, and a truncated text is the longest beginning that fits. -/
structure Console where
  measureTextWidth : Line → Nat
  truncateStr : Line → Nat → Line
  /-- A text in bold, when styling is forced. -/
  bold : Line → Line
  measure_append : ∀ front back, measureTextWidth (front ++ back) = measureTextWidth front + measureTextWidth back
  measure_narrow : ∀ c, measureTextWidth [c] ≤ 2
  measure_ascii : ∀ c : Char, 0x20 ≤ c.toNat → c.toNat ≤ 0x7e → measureTextWidth [c] = 1
  truncate_front : ∀ text width, truncateStr text width <+: text
  truncate_fits : ∀ text width, measureTextWidth (truncateStr text width) ≤ width
  truncate_longest : ∀ text width front, front <+: text → measureTextWidth front ≤ width →
    front <+: truncateStr text width

namespace Console

variable (console : Console)

@[simp] theorem measure_nil : console.measureTextWidth [] = 0 := by
  have same := console.measure_append [] []
  rw [List.append_nil] at same
  omega

theorem measure_cons (c : Char) (text : Line) :
    console.measureTextWidth (c :: text) = console.measureTextWidth [c] + console.measureTextWidth text :=
  console.measure_append [c] text

@[simp] theorem measure_space : console.measureTextWidth [' '] = 1 :=
  console.measure_ascii ' ' (by decide) (by decide)

@[simp] theorem measure_spaces (n : Nat) : console.measureTextWidth (List.replicate n ' ') = n := by
  induction n with
  | zero => exact console.measure_nil
  | succ n ih =>
      rw [List.replicate_succ, console.measure_cons, console.measure_space, ih]
      omega

variable {console}

theorem truncate_ne_nil {text : Line} {width : Nat} (some : text ≠ []) (wide : 2 ≤ width) :
    console.truncateStr text width ≠ [] := by
  cases text with
  | nil => exact absurd rfl some
  | cons c rest =>
      intro empty
      have longest := console.truncate_longest (c :: rest) width [c] ⟨rest, rfl⟩
        ((console.measure_narrow c).trans wide)
      rw [empty] at longest
      exact absurd (List.prefix_nil.mp longest) (by simp)

theorem length_drop_truncate {text : Line} {width : Nat} (some : console.truncateStr text width ≠ []) :
    (text.drop (console.truncateStr text width).length).length < text.length := by
  have short := (console.truncate_front text width).length_le
  have long := List.length_pos_iff.mpr some
  rw [List.length_drop]
  omega

end Console

def plainConsole : Console where
  measureTextWidth := List.length
  truncateStr text width := text.take width
  bold text := "\x1b[1m".toList ++ text ++ "\x1b[0m".toList
  measure_append _ _ := List.length_append
  measure_narrow _ := Nat.le_succ 1
  measure_ascii _ _ _ := rfl
  truncate_front text width := List.take_prefix width text
  truncate_fits text width := List.length_take_le width text
  truncate_longest _ _ _ before short := List.prefix_take_iff.mpr ⟨before, short⟩

section Wrapping

variable (console : Console)

def splitToken (width : Nat) (current : Line) : List Line × Line :=
  if width < console.measureTextWidth current then
    let head := console.truncateStr current width
    if _some : head = [] then ([], current)
    else
      let (heads, rest) := splitToken width (current.drop head.length)
      (head :: heads, rest)
  else ([], current)
termination_by current.length
decreasing_by exact Console.length_drop_truncate _some

def wrapWord (width : Nat) : List Line × Line → Line → List Line × Line
  | (wrapped, current), word =>
      let (wrapped, current) :=
        if current.isEmpty then (wrapped, current ++ word)
        else if console.measureTextWidth current + 1 + console.measureTextWidth word ≤ width then
          (wrapped, current ++ ' ' :: word)
        else (wrapped ++ [current], word)
      let (heads, current) := splitToken console width current
      (wrapped ++ heads, current)

def wrapLine (line : Line) (width : Nat) : List Line :=
  if width = 0 ∨ console.measureTextWidth line ≤ width then [line]
  else
    let (wrapped, current) := (words isWhitespace line).foldl (wrapWord console width) ([], [])
    let wrapped := if current.isEmpty then wrapped else wrapped ++ [current]
    if wrapped.isEmpty then [[]] else wrapped

variable {console} {width : Nat}

theorem splitToken_fits {current : Line} (fits : console.measureTextWidth current ≤ width) :
    splitToken console width current = ([], current) := by
  rw [splitToken, if_neg (Nat.not_lt.mpr fits)]

structure Pieces (console : Console) (width : Nat) (token : Line) (pieces : List Line × Line) : Prop where
  whole : pieces.1.flatten ++ pieces.2 = token
  some : ∀ head ∈ pieces.1, head ≠ []
  fits : ∀ head ∈ pieces.1, console.measureTextWidth head ≤ width
  left : pieces.2 ≠ []
  left_fits : console.measureTextWidth pieces.2 ≤ width

theorem splitToken_head {current : Line} (long : width < console.measureTextWidth current)
    (kept : console.truncateStr current width ≠ []) :
    splitToken console width current =
      (console.truncateStr current width ::
          (splitToken console width (current.drop (console.truncateStr current width).length)).1,
        (splitToken console width (current.drop (console.truncateStr current width).length)).2) := by
  rw [splitToken, if_pos long]
  simp only [dif_neg kept]

theorem truncate_append_drop (console : Console) (width : Nat) (current : Line) :
    console.truncateStr current width ++ current.drop (console.truncateStr current width).length = current :=
  (List.prefix_iff_eq_append.mp (console.truncate_front current width)).symm ▸ rfl

theorem pieces_splitToken (console : Console) (wide : 2 ≤ width) {current : Line} (some : current ≠ []) :
    Pieces console width current (splitToken console width current) := by
  induction current using splitToken.induct console width with
  | case1 current long head empty => exact absurd empty (Console.truncate_ne_nil some wide)
  | case2 current long head kept heads left split ih =>
      have whole := truncate_append_drop console width current
      have rest : current.drop head.length ≠ [] := by
        intro empty
        have fits := console.truncate_fits current width
        rw [empty, List.append_nil] at whole
        rw [whole] at fits
        omega
      obtain ⟨joined, kept', narrow, left, leftFits⟩ := ih rest
      rw [splitToken_head long kept]
      refine ⟨?_, ?_, ?_, left, leftFits⟩
      · rw [List.flatten_cons, List.append_assoc, joined, whole]
      · exact List.forall_mem_cons.mpr ⟨kept, kept'⟩
      · exact List.forall_mem_cons.mpr ⟨console.truncate_fits current width, narrow⟩
  | case3 current fits =>
      rw [splitToken_fits (Nat.not_lt.mp fits)]
      exact ⟨rfl, by simp, by simp, some, Nat.not_lt.mp fits⟩

/-- The lines a started line and the words after it are laid out on. -/
def layOut (console : Console) (width : Nat) : Line → List Line → List Line
  | current, [] => [current]
  | current, word :: rest =>
      if console.measureTextWidth current + 1 + console.measureTextWidth word ≤ width then
        layOut console width (current ++ ' ' :: word) rest
      else current :: ((splitToken console width word).1 ++ layOut console width (splitToken console width word).2 rest)

theorem measure_joined (current word : Line) :
    console.measureTextWidth (current ++ ' ' :: word) =
      console.measureTextWidth current + 1 + console.measureTextWidth word := by
  rw [console.measure_append, console.measure_cons, console.measure_space]
  omega

theorem foldl_wrapWord (console : Console) (wide : 2 ≤ width) {rest : List Line} (named : ∀ word ∈ rest, word ≠ []) {current : Line}
    (some : current ≠ []) (wrapped : List Line) :
    ∃ lines last, rest.foldl (wrapWord console width) (wrapped, current) = (wrapped ++ lines, last) ∧ last ≠ [] ∧
      lines ++ [last] = layOut console width current rest := by
  induction rest generalizing current wrapped with
  | nil => exact ⟨[], current, by simp, some, rfl⟩
  | cons word rest ih =>
      obtain ⟨first, named⟩ := List.forall_mem_cons.mp named
      rw [List.foldl_cons, wrapWord, layOut]
      simp only [List.isEmpty_iff, if_neg some]
      by_cases fits : console.measureTextWidth current + 1 + console.measureTextWidth word ≤ width
      · have joined : console.measureTextWidth (current ++ ' ' :: word) ≤ width := by rwa [measure_joined]
        simp only [if_pos fits, splitToken_fits joined, List.append_nil]
        exact ih named (by simp) wrapped
      · simp only [if_neg fits]
        obtain ⟨lines, last, folded, kept, same⟩ :=
          ih named (pieces_splitToken console wide first).left (wrapped ++ [current] ++ (splitToken console width word).1)
        refine ⟨current :: ((splitToken console width word).1 ++ lines), last, ?_, kept, ?_⟩
        · rw [folded]
          simp
        · rw [← same]
          simp

theorem wrapLine_short {line : Line} (fits : console.measureTextWidth line ≤ width) :
    wrapLine console line width = [line] := if_pos (Or.inr fits)

theorem wrapLine_blank (wide : 2 ≤ width) {line : Line} (long : width < console.measureTextWidth line)
    (none : words isWhitespace line = []) : wrapLine console line width = [[]] := by
  rw [wrapLine, if_neg (by omega), none]
  rfl

theorem wrapLine_words (wide : 2 ≤ width) {line word : Line} {rest : List Line}
    (long : width < console.measureTextWidth line) (split : words isWhitespace line = word :: rest) :
    wrapLine console line width =
      (splitToken console width word).1 ++ layOut console width (splitToken console width word).2 rest := by
  have named : ∀ own ∈ word :: rest, own ≠ [] := fun own among =>
    (of_mem_words (split ▸ among)).1
  obtain ⟨first, named⟩ := List.forall_mem_cons.mp named
  obtain ⟨lines, last, folded, kept, same⟩ :=
    foldl_wrapWord console wide named (pieces_splitToken console wide first).left (splitToken console width word).1
  rw [wrapLine, if_neg (by omega), split, List.foldl_cons, wrapWord]
  simp only [List.isEmpty_nil, if_true, List.nil_append, folded, ← same]
  simp [kept]

section Characters

variable {P : Char → Prop}

def Fitting (console : Console) (width : Nat) (P : Char → Prop) (line : Line) : Prop :=
  console.measureTextWidth line ≤ width ∧ ∀ c ∈ line, P c

theorem fitting_pieces (console : Console) (wide : 2 ≤ width) {token : Line} (some : token ≠ []) (all : ∀ c ∈ token, P c) :
    (∀ head ∈ (splitToken console width token).1, Fitting console width P head) ∧
      Fitting console width P (splitToken console width token).2 := by
  have pieces := pieces_splitToken console wide some
  rw [← pieces.whole] at all
  refine ⟨fun head among => ⟨pieces.fits head among, fun c inside => all c ?_⟩,
    pieces.left_fits, fun c inside => all c (List.mem_append_right _ inside)⟩
  exact List.mem_append_left _ (List.mem_flatten.mpr ⟨head, among, inside⟩)

theorem fitting_layOut (wide : 2 ≤ width) (space : P ' ') {rest : List Line} (named : ∀ word ∈ rest, word ≠ [])
    (all : ∀ word ∈ rest, ∀ c ∈ word, P c) {current : Line} (started : Fitting console width P current) :
    ∀ line ∈ layOut console width current rest, Fitting console width P line := by
  induction rest generalizing current with
  | nil => simpa [layOut] using started
  | cons word rest ih =>
      obtain ⟨first, named⟩ := List.forall_mem_cons.mp named
      obtain ⟨plain, all⟩ := List.forall_mem_cons.mp all
      rw [layOut]
      by_cases fits : console.measureTextWidth current + 1 + console.measureTextWidth word ≤ width
      · rw [if_pos fits]
        refine ih named all ⟨by rwa [measure_joined], ?_⟩
        simpa [or_imp, forall_and] using ⟨started.2, space, plain⟩
      · rw [if_neg fits]
        obtain ⟨heads, left⟩ := fitting_pieces console wide first plain
        intro line among
        rcases List.mem_cons.mp among with rfl | among
        · exact started
        · rcases List.mem_append.mp among with among | among
          · exact heads line among
          · exact ih named all left line among

theorem fitting_wrapLine (console : Console) (wide : 2 ≤ width) (space : P ' ') {line : Line} (all : ∀ c ∈ line, P c) :
    ∀ wrapped ∈ wrapLine console line width, Fitting console width P wrapped := by
  by_cases fits : console.measureTextWidth line ≤ width
  · rw [wrapLine_short fits]
    simpa using ⟨fits, all⟩
  · have long := Nat.not_le.mp fits
    cases split : words isWhitespace line with
    | nil =>
        rw [wrapLine_blank wide long split]
        simp [Fitting]
    | cons word rest =>
        have own : ∀ own ∈ word :: rest, own ≠ [] ∧ ∀ c ∈ own, P c := fun own among =>
          have found := of_mem_words (split ▸ among)
          ⟨found.1, fun c inside => all c (found.2 c inside).2⟩
        obtain ⟨⟨first, plain⟩, others⟩ := List.forall_mem_cons.mp own
        obtain ⟨heads, left⟩ := fitting_pieces console wide first plain
        rw [wrapLine_words wide long split]
        intro wrapped among
        rcases List.mem_append.mp among with among | among
        · exact heads wrapped among
        · exact fitting_layOut wide space (fun word among => (others word among).1)
            (fun word among => (others word among).2) left wrapped among

end Characters

theorem wrapLine_ne_nil (line : Line) : wrapLine console line width ≠ [] := by
  rw [wrapLine]
  split
  · simp
  · dsimp only
    generalize (words isWhitespace line).foldl (wrapWord console width) ([], []) = state
    generalize (if state.2.isEmpty then state.1 else state.1 ++ [state.2]) = wrapped
    cases wrapped <;> simp

end Wrapping

end Phasegent.Output
