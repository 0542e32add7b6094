import Mathlib.Data.List.Basic
import Mathlib.Data.List.DropRight
import Mathlib.Data.List.Infix

namespace Text.Lines

variable {α : Type} {stop : α}

/-- Nothing is open at the end of the text. -/
def Closed (stop : α) (text : List α) : Prop := ∀ last ∈ text.getLast?, last = stop

theorem closed_nil : Closed stop [] := by simp [Closed]

theorem closed_append_stop (text : List α) : Closed stop (text ++ [stop]) := by simp [Closed]

theorem Closed.append {text rest : List α} (closed : Closed stop text) (closed' : Closed stop rest) :
    Closed stop (text ++ rest) := by
  intro last among
  cases rest with
  | nil => exact closed last (by simpa using among)
  | cons c rest =>
      apply closed'
      simpa [List.getLast?_append] using among

variable [DecidableEq α]

variable (stop) in
def splitInclusive : List α → List (List α)
  | [] => []
  | c :: rest =>
      if c = stop then [c] :: splitInclusive rest
      else
        match splitInclusive rest with
        | [] => [[c]]
        | line :: later => (c :: line) :: later

@[simp] theorem splitInclusive_nil : splitInclusive stop [] = [] := rfl

theorem splitInclusive_line {body : List α} (open' : stop ∉ body) (rest : List α) :
    splitInclusive stop (body ++ stop :: rest) = (body ++ [stop]) :: splitInclusive stop rest := by
  induction body with
  | nil => simp [splitInclusive]
  | cons c body ih =>
      rw [List.mem_cons, not_or] at open'
      rw [List.cons_append, splitInclusive, if_neg (Ne.symm open'.1), ih open'.2]
      rfl

theorem splitInclusive_open {body : List α} (open' : stop ∉ body) (some : body ≠ []) :
    splitInclusive stop body = [body] := by
  induction body with
  | nil => exact absurd rfl some
  | cons c body ih =>
      rw [List.mem_cons, not_or] at open'
      rw [splitInclusive, if_neg (Ne.symm open'.1)]
      cases body with
      | nil => rfl
      | cons d body => rw [ih open'.2 (by simp)]

theorem lines_induction {P : List α → Prop} (stop : α) (nil : P [])
    (last : ∀ body, stop ∉ body → body ≠ [] → P body)
    (line : ∀ body rest, stop ∉ body → P rest → P (body ++ stop :: rest)) (text : List α) : P text := by
  induction size : text.length using Nat.strongRecOn generalizing text with
  | ind n ih =>
      by_cases among : stop ∈ text
      · obtain ⟨body, rest, rfl, open'⟩ := List.eq_append_cons_of_mem among
        refine line body rest open' (ih rest.length ?_ rest rfl)
        simp only [List.length_append, List.length_cons] at size
        omega
      · by_cases none : text = []
        · exact none ▸ nil
        · exact last text among none

@[simp] theorem flatten_splitInclusive (text : List α) : (splitInclusive stop text).flatten = text := by
  induction text using lines_induction stop with
  | nil => rfl
  | last body open' some => rw [splitInclusive_open open' some]; simp
  | line body rest open' ih => rw [splitInclusive_line open']; simp [ih]

theorem splitInclusive_append {text : List α} (closed : Closed stop text) (rest : List α) :
    splitInclusive stop (text ++ rest) = splitInclusive stop text ++ splitInclusive stop rest := by
  induction text using lines_induction stop with
  | nil => rfl
  | last body open' some =>
      obtain ⟨front, last, rfl⟩ := List.eq_nil_or_concat body |>.resolve_left some
      have ends := closed last (by simp)
      simp [ends] at open'
  | line body later open' ih =>
      have after : Closed stop later := by
        intro last among
        apply closed last
        cases later with
        | nil => simp at among
        | cons c later => simpa [List.getLast?_append] using among
      rw [List.append_assoc, List.cons_append, splitInclusive_line open', splitInclusive_line open', ih after]
      rfl

theorem splitInclusive_takeWhile (p : List α → Bool) (text : List α) :
    splitInclusive stop ((splitInclusive stop text).takeWhile p).flatten =
      (splitInclusive stop text).takeWhile p := by
  induction text using lines_induction stop with
  | nil => rfl
  | last body open' some =>
      rw [splitInclusive_open open' some, List.takeWhile_cons]
      split
      · simpa using splitInclusive_open open' some
      · rfl
  | line body rest open' ih =>
      rw [splitInclusive_line open', List.takeWhile_cons]
      split
      · rw [List.flatten_cons, List.append_assoc, List.cons_append, List.nil_append,
          splitInclusive_line open', ih]
      · rfl

theorem splitInclusive_dropWhile (p : List α → Bool) (text : List α) :
    splitInclusive stop ((splitInclusive stop text).dropWhile p).flatten =
      (splitInclusive stop text).dropWhile p := by
  induction text using lines_induction stop with
  | nil => rfl
  | last body open' some =>
      rw [splitInclusive_open open' some, List.dropWhile_cons]
      split
      · rfl
      · simpa using splitInclusive_open open' some
  | line body rest open' ih =>
      rw [splitInclusive_line open', List.dropWhile_cons]
      split
      · exact ih
      · rw [List.flatten_cons, flatten_splitInclusive, List.append_assoc, List.cons_append, List.nil_append,
          splitInclusive_line open']

theorem exists_open (stop : α) (text : List α) :
    ∃ closed last, text = closed ++ last ∧ Closed stop closed ∧ stop ∉ last := by
  induction text using lines_induction stop with
  | nil => exact ⟨[], [], rfl, closed_nil, by simp⟩
  | last body open' some => exact ⟨[], body, rfl, closed_nil, open'⟩
  | line body rest open' ih =>
      obtain ⟨closed, last, rfl, ends, free⟩ := ih
      exact ⟨(body ++ [stop]) ++ closed, last, by simp, (closed_append_stop body).append ends, free⟩

def lastLine (stop : α) (text : List α) : List α := text.rtakeWhile (· ≠ stop)

theorem lastLine_append {closed last : List α} (ends : Closed stop closed) (free : stop ∉ last) :
    lastLine stop (closed ++ last) = last := by
  induction last using List.reverseRecOn with
  | nil =>
      rw [List.append_nil, lastLine]
      rcases List.eq_nil_or_concat closed with rfl | ⟨front, c, rfl⟩
      · rfl
      · have own := ends c (by simp)
        rw [List.concat_eq_append]
        simp [own]
  | append_singleton front c ih =>
      simp only [List.mem_append, List.mem_singleton, not_or] at free
      rw [lastLine, ← List.append_assoc, List.rtakeWhile_concat_pos _ _ _ (by simpa using Ne.symm free.2)]
      congr 1
      exact ih free.1

end Text.Lines
