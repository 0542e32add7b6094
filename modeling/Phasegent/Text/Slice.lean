import Mathlib.Data.List.DropRight

namespace Text

variable {α : Type}

def splitOnce [BEq α] (sep : List α) : List α → Option (List α × List α)
  | [] => if sep.isPrefixOf [] then some ([], []) else none
  | x :: xs =>
      if sep.isPrefixOf (x :: xs) then some ([], (x :: xs).drop sep.length)
      else (splitOnce sep xs).map fun (before, after) => (x :: before, after)

def trimEndMatches (drop : α → Bool) (text : List α) : List α := text.rdropWhile drop

def stripPrefix [BEq α] (pre text : List α) : Option (List α) :=
  if pre.isPrefixOf text then some (text.drop pre.length) else none

def contains [BEq α] (part text : List α) : Bool := text.tails.any part.isPrefixOf

def firstLine (text : List Char) : List Char :=
  match splitOnce ['\n'] text with
  | none => text
  | some (line, _) => if line.getLast? = some '\r' then line.dropLast else line

theorem dropWhile_eq_self_of_prefix {p : α → Bool} {front text : List α} (before : front <+: text)
    (kept : text.dropWhile p = text) : front.dropWhile p = front := by
  cases front with
  | nil => rfl
  | cons x rest =>
      obtain ⟨after, rfl⟩ := before
      have stays : ¬p x := by simpa using kept
      simp [stays]

@[simp] theorem trimEndMatches_idem (p : α → Bool) (text : List α) :
    trimEndMatches p (trimEndMatches p text) = trimEndMatches p text :=
  List.rdropWhile_idempotent p text

theorem splitOnce_append [BEq α] [LawfulBEq α] {sep before : List α} (rest : List α)
    (first : ∀ k < before.length, ¬sep <+: (before ++ (sep ++ rest)).drop k) :
    splitOnce sep (before ++ (sep ++ rest)) = some (before, rest) := by
  induction before with
  | nil =>
      have here : sep.isPrefixOf (sep ++ rest) := by simp
      rw [List.nil_append]
      cases text : sep ++ rest with
      | nil =>
          obtain ⟨rfl, rfl⟩ := List.append_eq_nil_iff.mp text
          rfl
      | cons x xs =>
          rw [text] at here
          rw [splitOnce, if_pos here, ← text, List.drop_left]
  | cons x before ih =>
      have other : ¬sep.isPrefixOf (x :: (before ++ (sep ++ rest))) := by
        rw [List.isPrefixOf_iff_prefix]
        exact first 0 (Nat.zero_lt_succ _)
      have later : ∀ k < before.length, ¬sep <+: (before ++ (sep ++ rest)).drop k :=
        fun k bound => first (k + 1) (Nat.succ_lt_succ bound)
      rw [List.cons_append, splitOnce, if_neg other, ih later]
      rfl

theorem splitOnce_char [BEq α] [LawfulBEq α] {mark : α} {before : List α} (rest : List α)
    (absent : mark ∉ before) : splitOnce [mark] (before ++ mark :: rest) = some (before, rest) := by
  apply splitOnce_append rest
  intro k bound found
  have own : (before ++ ([mark] ++ rest))[k]? = some mark := by
    obtain ⟨after, same⟩ := found
    have head := congrArg (·[0]?) same
    simpa using head.symm
  rw [List.getElem?_append_left bound] at own
  exact absent (List.mem_of_getElem? own)

@[simp] theorem stripPrefix_append [BEq α] [LawfulBEq α] (pre text : List α) :
    stripPrefix pre (pre ++ text) = some text := by
  have front : pre.isPrefixOf (pre ++ text) := by simp
  rw [stripPrefix, if_pos front, List.drop_left]

end Text
