import Phasegent.Text.Chars

namespace Text

section Newlines

def replaceCrLf : List Char → List Char
  | '\r' :: '\n' :: rest => '\n' :: replaceCrLf rest
  | c :: rest => c :: replaceCrLf rest
  | [] => []

def unifyNewlines (text : List Char) : List Char :=
  (replaceCrLf text).map fun c => if c = '\r' then '\n' else c

theorem cr_not_mem_unifyNewlines (text : List Char) : '\r' ∉ unifyNewlines text := by
  rw [unifyNewlines, List.mem_map]
  intro ⟨c, _, same⟩
  split at same
  · exact absurd same (by decide)
  · next other => exact other same

theorem replaceCrLf_eq_self {text : List Char} (free : '\r' ∉ text) : replaceCrLf text = text := by
  induction text using replaceCrLf.induct with
  | case1 rest ih => simp at free
  | case2 c rest other ih =>
      rw [replaceCrLf, ih fun later => free (List.mem_cons_of_mem c later)]
      exact other
  | case3 => rfl

theorem unifyNewlines_eq_self {text : List Char} (free : '\r' ∉ text) : unifyNewlines text = text := by
  rw [unifyNewlines, replaceCrLf_eq_self free]
  have same : ∀ c ∈ text, (if c = '\r' then '\n' else c) = c := by
    intro c member
    have plain : c ≠ '\r' := fun broken => free (by rwa [broken] at member)
    exact if_neg plain
  simpa using List.map_congr_left same

end Newlines

section Trimming

variable {space : Char → Bool} {text : List Char}

def trimBy (space : Char → Bool) (text : List Char) : List Char := trimEndMatches space (text.dropWhile space)

structure Trimmed (space : Char → Bool) (text : List Char) : Prop where
  head : ∀ c ∈ text.head?, space c = false
  last : ∀ c ∈ text.getLast?, space c = false

theorem Trimmed.trimBy_eq_self (trimmed : Trimmed space text) : trimBy space text = text := by
  have front : text.dropWhile space = text := by
    cases text with
    | nil => rfl
    | cons c rest => simp [trimmed.head c rfl]
  rw [trimBy, front, trimEndMatches, List.rdropWhile_eq_self_iff]
  intro nonempty
  simp [trimmed.last _ (List.getLast?_eq_getLast_of_ne_nil nonempty)]

theorem trimmed_trimBy (space : Char → Bool) (text : List Char) : Trimmed space (trimBy space text) := by
  constructor
  · intro c first
    have before : trimBy space text <+: text.dropWhile space := List.rdropWhile_prefix _ _
    have front := dropWhile_eq_self_of_prefix before (List.dropWhile_idempotent space text)
    cases shape : trimBy space text with
    | nil => simp [shape] at first
    | cons d rest =>
        rw [shape] at first front
        cases first
        by_contra spaced
        have shorter := congrArg List.length front
        rw [List.dropWhile_cons_of_pos (by simpa using spaced)] at shorter
        have bound := (List.dropWhile_sublist space (l := rest)).length_le
        simp only [List.length_cons] at shorter
        omega
  · intro c last
    have idem := List.rdropWhile_idempotent space (text.dropWhile space)
    rw [List.rdropWhile_eq_self_iff] at idem
    have nonempty : trimBy space text ≠ [] := by
      intro none
      simp [none] at last
    have kept := idem nonempty
    have found : (trimBy space text).getLast? = some ((trimBy space text).getLast nonempty) :=
      List.getLast?_eq_getLast_of_ne_nil nonempty
    rw [found] at last
    cases last
    exact Bool.eq_false_iff.mpr kept

theorem mem_of_mem_trimBy {c : Char} (member : c ∈ trimBy space text) : c ∈ text := by
  have before : trimBy space text <+: text.dropWhile space := List.rdropWhile_prefix _ _
  exact (List.dropWhile_suffix space).subset (before.subset member)

theorem length_trimBy_le : (trimBy space text).length ≤ text.length := by
  have before : trimBy space text <+: text.dropWhile space := List.rdropWhile_prefix _ _
  exact before.length_le.trans (List.dropWhile_suffix space).length_le

theorem Trimmed.mono {space' : Char → Bool} (fewer : ∀ c ∈ text, space' c → space c)
    (trimmed : Trimmed space text) : Trimmed space' text := by
  constructor
  · intro c first
    have member : c ∈ text := List.mem_of_mem_head? first
    have kept := trimmed.head c first
    by_contra spaced
    simp [fewer c member (by simpa using spaced)] at kept
  · intro c last
    have member : c ∈ text := List.mem_of_mem_getLast? last
    have kept := trimmed.last c last
    by_contra spaced
    simp [fewer c member (by simpa using spaced)] at kept

end Trimming

section Clipping

variable {room : Nat} {text : List Char}

/-- What a text of at most `room` characters keeps of another; a cut is marked within it. -/
def clipTo (room : Nat) (text : List Char) : List Char :=
  if text.length ≤ room then text else text.take (room - 1) ++ ['…']

theorem clipTo_of_le (short : text.length ≤ room) : clipTo room text = text := if_pos short

theorem length_clipTo (some : 0 < room) : (clipTo room text).length = min text.length room := by
  unfold clipTo
  split
  · omega
  · simp
    omega

theorem clipTo_eq_nil (some : 0 < room) : clipTo room text = [] ↔ text = [] := by
  rw [← List.length_eq_zero_iff, ← List.length_eq_zero_iff, length_clipTo some]
  omega

theorem mem_clipTo {c : Char} (member : c ∈ clipTo room text) : c ∈ text ∨ c = '…' := by
  unfold clipTo at member
  split at member
  · exact Or.inl member
  · rw [List.mem_append, List.mem_singleton] at member
    exact member.imp_left List.mem_of_mem_take

theorem Trimmed.clipTo {space : Char → Bool} (trimmed : Trimmed space text) (mark : space '…' = false)
    (room : Nat) : Trimmed space (clipTo room text) := by
  unfold Text.clipTo
  split
  · exact trimmed
  · constructor
    · intro c first
      cases text with
      | nil =>
          simp only [List.take_nil, List.nil_append, List.head?_cons, Option.mem_some_iff] at first
          rw [← first]
          exact mark
      | cons d rest =>
          cases shape : room - 1 with
          | zero =>
              simp only [shape, List.take_zero, List.nil_append, List.head?_cons, Option.mem_some_iff] at first
              rw [← first]
              exact mark
          | succ kept =>
              simp only [shape, List.take_succ_cons, List.cons_append, List.head?_cons,
                Option.mem_some_iff] at first
              rw [← first]
              exact trimmed.head d rfl
    · intro c last
      simp only [List.getLast?_append, List.getLast?_singleton, Option.some_or, Option.mem_def,
        Option.some.injEq] at last
      rw [← last]
      exact mark

end Clipping

end Text
