import Phasegent.Provider.Remote

namespace Phasegent.Remote
open Fallible Text

section Suffixes

def IsGit (suffix : List Char) : Prop := toAsciiLower suffix = gitSuffix

def EndsGit (text : List Char) : Prop := ∃ front suffix, text = front ++ suffix ∧ IsGit suffix

instance (suffix : List Char) : Decidable (IsGit suffix) := inferInstanceAs (Decidable (_ = _))

variable {text front back suffix : List Char}

theorem IsGit.length (git : IsGit suffix) : suffix.length = 4 := by
  simpa [IsGit, toAsciiLower, gitSuffix] using congrArg List.length git

theorem IsGit.ne_nil (git : IsGit suffix) : suffix ≠ [] := by
  intro empty
  simpa [empty] using git.length

theorem IsGit.ascii (git : IsGit suffix) {c : Char} (among : c ∈ suffix) : c ≠ '/' ∧ c.utf8Size = 1 := by
  have lower : c.toLower ∈ gitSuffix := by
    rw [← git]
    exact List.mem_map_of_mem among
  by_cases upper : c.isUpper
  · have bounds := isUpper_iff.mp upper
    constructor
    · rintro rfl
      exact absurd upper (by decide)
    · rw [Char.utf8Size_eq_one_iff, UInt32.le_iff_toNat_le]
      exact Nat.le_trans bounds.2 (by decide)
  · rw [toLower_of_not_isUpper upper] at lower
    have letters : gitSuffix.all (fun d => d != '/' && d.utf8Size == 1) = true := by decide
    simpa using List.all_eq_true.mp letters c lower

theorem IsGit.slashless (git : IsGit suffix) : '/' ∉ suffix := fun slash => (git.ascii slash).1 rfl

theorem IsGit.bytes (git : IsGit suffix) : Json.bytes suffix = 4 := by
  have single : ∀ c ∈ suffix, c.utf8Size = 1 := fun c among => (git.ascii among).2
  have count : Json.bytes suffix = suffix.length := by simp [Json.bytes, Cut.total, List.map_congr_left single]
  rw [count, git.length]

theorem endsGit_iff : EndsGit text ↔ IsGit (text.drop (text.length - 4)) := by
  constructor
  · rintro ⟨front, suffix, rfl, git⟩
    have front' : (front ++ suffix).length - 4 = front.length := by simp [git.length]
    rw [front', List.drop_left]
    exact git
  · exact fun git => ⟨text.take (text.length - 4), _, (List.take_append_drop _ _).symm, git⟩

instance (text : List Char) : Decidable (EndsGit text) := decidable_of_iff _ endsGit_iff.symm

def dropGit (text : List Char) : List Char := withoutGit text (decide (EndsGit text))

theorem dropGit_append (git : IsGit suffix) : dropGit (front ++ suffix) = front := by
  have ends : EndsGit (front ++ suffix) := ⟨front, suffix, rfl, git⟩
  simp [dropGit, withoutGit, ends, git.length]

theorem dropGit_of_not (plain : ¬EndsGit text) : dropGit text = text := by
  simp [dropGit, withoutGit, plain]

structure Tail (front back : List Char) : Prop where
  some : back ≠ []
  slashless : '/' ∉ back
  edge : front = [] ∨ ∃ rest, front = rest ++ ['/']

theorem Tail.endsGit_iff (tail : Tail front back) : EndsGit (front ++ back) ↔ EndsGit back := by
  constructor
  · rintro ⟨before, suffix, same, git⟩
    obtain ⟨rest, -, ends⟩ | ⟨rest, split, ends⟩ := List.append_eq_append_iff.mp same
    · exact ⟨rest, suffix, ends, git⟩
    · -- The suffix would reach over the slash.
      have none : rest = [] := by
        by_contra more
        obtain empty | ⟨other, slash⟩ := tail.edge
        · rw [split] at empty
          exact more (List.append_eq_nil_iff.mp empty).2
        · have last : (before ++ rest).getLast? = Option.some '/' := by
            rw [← split, slash]
            simp
          rw [List.getLast?_append_of_ne_nil _ more] at last
          rw [ends] at git
          exact git.slashless (List.mem_append_left _ (List.mem_of_getLast? last))
      rw [none, List.nil_append] at ends
      exact ⟨[], back, rfl, ends ▸ git⟩
  · rintro ⟨before, suffix, rfl, git⟩
    exact ⟨front ++ before, suffix, by simp, git⟩

end Suffixes

section Segments
variable {text front back tail : List Char}

theorem segments_append_slash (front back : List Char) :
    segments (front ++ '/' :: back) = segments front ++ segments back := by
  simp [segments, List.splitOn_append_cons_self]

@[simp] theorem segments_nil : segments [] = [] := rfl

theorem segments_slashless (slashless : '/' ∉ text) (some : text ≠ []) : segments text = [text] := by
  simp [segments, List.splitOn_eq_singleton slashless, some]

theorem segments_slashes (slashes : ∀ c ∈ tail, c = '/') (front : List Char) :
    segments (front ++ tail) = segments front := by
  induction tail generalizing front with
  | nil => simp
  | cons c tail ih =>
      obtain ⟨rfl, rest⟩ := List.forall_mem_cons.mp slashes
      have none : segments tail = [] := by simpa using ih rest []
      rw [segments_append_slash, none, List.append_nil]

theorem segments_front_slashes (slashes : ∀ c ∈ front, c = '/') (text : List Char) :
    segments (front ++ text) = segments text := by
  induction front with
  | nil => rfl
  | cons c front ih =>
      obtain ⟨rfl, rest⟩ := List.forall_mem_cons.mp slashes
      have step := segments_append_slash [] (front ++ text)
      rw [List.nil_append, segments_nil, List.nil_append] at step
      rw [List.cons_append, step, ih rest]

theorem Tail.segments (tail : Tail front back) : Remote.segments (front ++ back) = Remote.segments front ++ [back] := by
  obtain rfl | ⟨rest, rfl⟩ := tail.edge
  · simpa using segments_slashless tail.slashless tail.some
  · have none : Remote.segments (rest ++ ['/']) = Remote.segments rest :=
      segments_slashes (by simp) rest
    rw [List.append_assoc, List.singleton_append, segments_append_slash, none,
      segments_slashless tail.slashless tail.some]

theorem segments_last (text : List Char) : (∀ c ∈ text, c = '/') ∧ segments text = [] ∨
    ∃ front back tail, text = front ++ back ++ tail ∧ Tail front back ∧ ∀ c ∈ tail, c = '/' := by
  induction text using List.reverseRecOn with
  | nil => exact Or.inl ⟨nofun, rfl⟩
  | append_singleton text c ih =>
      by_cases slash : c = '/'
      · subst slash
        obtain ⟨all, none⟩ | ⟨front, back, tail, rfl, last, slashes⟩ := ih
        · have more : ∀ c ∈ text ++ ['/'], c = '/' := by simpa [or_imp, forall_and] using all
          exact Or.inl ⟨more, by rw [segments_slashes (by simp), none]⟩
        · refine Or.inr ⟨front, back, tail ++ ['/'], by simp, last, ?_⟩
          simpa [or_imp, forall_and] using slashes
      · right
        refine ⟨text.rdropWhile (· ≠ '/'), text.rtakeWhile (· ≠ '/') ++ [c], [], ?_, ⟨by simp, ?_, ?_⟩, nofun⟩
        · rw [← List.append_assoc, List.rdropWhile_append_rtakeWhile, List.append_nil]
        · intro member
          obtain within | same := List.mem_append.mp member
          · simpa using List.mem_rtakeWhile_imp within
          · exact slash (List.mem_singleton.mp same).symm
        · by_cases none : text.rdropWhile (· ≠ '/') = []
          · exact Or.inl none
          · have last := List.rdropWhile_last_not (· ≠ '/') text none
            have slash : (text.rdropWhile (· ≠ '/')).getLast none = '/' := by simpa using last
            refine Or.inr ⟨(text.rdropWhile (· ≠ '/')).dropLast, ?_⟩
            have whole := List.dropLast_append_getLast none
            rw [slash] at whole
            exact whole.symm

end Segments

section Unsuffixed
variable {front back tail text : List Char}

def unsuffix (parts : List (List Char)) : List (List Char) :=
  match parts.getLast? with
  | none => parts
  | some last => parts.dropLast ++ [dropGit last].filter (!·.isEmpty)

theorem unsuffix_append (parts : List (List Char)) (last : List Char) :
    unsuffix (parts ++ [last]) = parts ++ [dropGit last].filter (!·.isEmpty) := by
  simp [unsuffix]

theorem trimSlashes_slashes (slashes : ∀ c ∈ text, c = '/') : trimSlashes text = [] := by
  have none : text.dropWhile isSlash = [] := by
    rw [List.dropWhile_eq_nil_iff]
    simpa [isSlash] using slashes
  rw [trimSlashes, none]
  rfl

theorem Tail.trimSlashes (last : Tail front back) (slashes : ∀ c ∈ tail, c = '/') :
    Remote.trimSlashes (front ++ back ++ tail) = front.dropWhile isSlash ++ back ∧
      Tail (front.dropWhile isSlash) back ∧
      Remote.segments (front.dropWhile isSlash) = Remote.segments front := by
  have firm : ∀ c ∈ back, isSlash c = false := by
    intro c among
    have other : c ≠ '/' := fun slash => last.slashless (slash ▸ among)
    simpa [isSlash] using other
  have starts : (back ++ tail).dropWhile isSlash = back ++ tail := by
    obtain ⟨c, rest, rfl⟩ := List.exists_cons_of_ne_nil last.some
    simp [firm c List.mem_cons_self]
  have ends : (front.dropWhile isSlash ++ back).reverse.dropWhile isSlash = (front.dropWhile isSlash ++ back).reverse := by
    obtain ⟨before, c, rfl⟩ := (List.eq_nil_or_concat' back).resolve_left last.some
    simp [firm c (by simp)]
  have gone : tail.reverse.dropWhile isSlash = [] := by
    rw [List.dropWhile_eq_nil_iff]
    simpa [isSlash] using slashes
  refine ⟨?_, ⟨last.some, last.slashless, ?_⟩, ?_⟩
  · have front' : (front ++ back ++ tail).dropWhile isSlash = front.dropWhile isSlash ++ back ++ tail := by
      rw [List.append_assoc, List.dropWhile_append, starts]
      split
      · next empty => simp [List.isEmpty_iff.mp empty]
      · simp
    rw [Remote.trimSlashes, front', trimEndMatches, List.rdropWhile, List.reverse_append, List.dropWhile_append,
      gone, ends]
    simp
  · obtain rfl | ⟨rest, rfl⟩ := last.edge
    · exact Or.inl rfl
    · rw [List.dropWhile_append]
      split
      · exact Or.inl rfl
      · exact Or.inr ⟨_, rfl⟩
  · have slashes : ∀ c ∈ front.takeWhile isSlash, c = '/' := by
      intro c among
      simpa [isSlash] using List.mem_takeWhile_imp among
    rw [← segments_front_slashes slashes, List.takeWhile_append_dropWhile]

theorem segments_trimSlashes (text : List Char) : segments (trimSlashes text) = segments text := by
  obtain ⟨slashes, none⟩ | ⟨front, back, tail, rfl, last, slashes⟩ := segments_last text
  · rw [trimSlashes_slashes slashes, none, segments_nil]
  · obtain ⟨trimmed, last', same⟩ := last.trimSlashes slashes
    rw [trimmed, last'.segments, same, segments_slashes slashes, last.segments]

theorem Tail.dropGit (last : Tail front back) : Remote.dropGit (front ++ back) = front ++ Remote.dropGit back := by
  by_cases ends : EndsGit back
  · obtain ⟨before, suffix, rfl, git⟩ := ends
    rw [← List.append_assoc, dropGit_append git, dropGit_append git]
  · rw [dropGit_of_not ends, dropGit_of_not (mt last.endsGit_iff.mp ends)]

theorem dropGit_front (text : List Char) : Remote.dropGit text <+: text := by
  rw [Remote.dropGit, withoutGit]
  split
  · exact List.take_prefix _ _
  · exact List.prefix_rfl

theorem segments_dropGit (raw : List Char) : segments (dropGit (trimSlashes raw)) = unsuffix (segments raw) := by
  obtain ⟨slashes, none⟩ | ⟨front, back, tail, rfl, last, slashes⟩ := segments_last raw
  · rw [trimSlashes_slashes slashes, none]
    decide
  · obtain ⟨trimmed, last', same⟩ := last.trimSlashes slashes
    rw [trimmed, last'.dropGit, segments_slashes slashes, last.segments, unsuffix_append, ← same]
    by_cases nothing : dropGit back = []
    · simp [nothing]
    · have shorter : Tail (front.dropWhile isSlash) (dropGit back) :=
        ⟨nothing, fun slash => last.slashless ((dropGit_front back).subset slash), last'.edge⟩
      simp [shorter.segments, nothing]

theorem segments_suffix (text : List Char) {suffix : List Char} (git : IsGit suffix) :
    ∃ init last, segments (text ++ suffix) = init ++ [last] ∧ EndsGit last ∧
      segments text = init ++ [dropGit last].filter (!·.isEmpty) := by
  have single : EndsGit suffix := ⟨[], suffix, rfl, git⟩
  have bare : dropGit suffix = [] := by simpa using @dropGit_append [] suffix git
  obtain ⟨slashes, none⟩ | ⟨front, back, tail, rfl, last, slashes⟩ := segments_last text
  · refine ⟨[], suffix, ?_, single, by simp [none, bare]⟩
    rw [segments_front_slashes slashes, segments_slashless git.slashless git.ne_nil, List.nil_append]
  · obtain rfl | ⟨before, slash, rfl⟩ := List.eq_nil_or_concat' tail
    · have longer : Tail front (back ++ suffix) :=
        ⟨by simp [last.some], by simp [last.slashless, git.slashless], last.edge⟩
      refine ⟨segments front, back ++ suffix, by simpa using longer.segments, ⟨back, suffix, rfl, git⟩, ?_⟩
      simp [last.segments, dropGit_append git, last.some]
    · have own : Tail (front ++ back ++ (before ++ [slash])) suffix := by
        refine ⟨git.ne_nil, git.slashless, Or.inr ⟨front ++ back ++ before, ?_⟩⟩
        simp [slashes slash (by simp)]
      exact ⟨_, suffix, own.segments, single, by simp [bare]⟩

theorem unsuffix_segments (text : List Char) {suffix : List Char} (git : IsGit suffix) :
    unsuffix (segments (text ++ suffix)) = segments text := by
  obtain ⟨init, last, parts, -, rest⟩ := segments_suffix text git
  rw [parts, unsuffix_append, rest]

theorem unsuffix_eq_self {parts : List (List Char)} {last : List Char} (some : last ≠ []) :
    unsuffix (parts ++ [last]) = parts ++ [last] ↔ ¬EndsGit last := by
  rw [unsuffix_append, List.append_cancel_left_eq]
  by_cases ends : EndsGit last
  · obtain ⟨front, suffix, rfl, git⟩ := ends
    have ends : EndsGit (front ++ suffix) := ⟨front, suffix, rfl, git⟩
    simp only [dropGit_append git, ends, not_true_eq_false, iff_false]
    intro same
    by_cases none : front = []
    · simp [none] at same
    · simp [none, git.ne_nil] at same
  · simp [dropGit_of_not ends, ends, some]

end Unsuffixed

section Fixed

def Clean (parts : List (List Char)) : Prop := ∀ part ∈ parts, part ≠ [] ∧ '/' ∉ part

theorem slash_not_mem_splitOn (text : List Char) : ∀ part ∈ text.splitOn '/', '/' ∉ part := by
  induction text with
  | nil => simp
  | cons c text ih =>
      rw [List.splitOn_cons_eq_if_modifyHead]
      by_cases slash : c = '/'
      · simpa [slash] using ih
      · obtain ⟨first, rest, parts⟩ := List.exists_cons_of_ne_nil (List.splitOn_ne_nil '/' text)
        rw [parts] at ih ⊢
        obtain ⟨front, others⟩ := List.forall_mem_cons.mp ih
        have firm : '/' ∉ c :: first := by simpa [Ne.symm slash] using front
        simpa [slash] using ⟨by simpa using firm, others⟩

theorem clean_segments (text : List Char) : Clean (segments text) := by
  intro part among
  simp only [segments, List.mem_filter] at among
  exact ⟨by simpa using among.2, slash_not_mem_splitOn text part among.1⟩

theorem segments_join {parts : List (List Char)} (clean : Clean parts) : segments (join parts) = parts := by
  by_cases none : parts = []
  · rw [none]
    rfl
  · rw [segments, join, List.splitOn_intercalate '/' (fun part among => (clean part among).2) none]
    simpa using fun part among => (clean part among).1

def stripped (path : List Char) : List Char := join (segments (dropGit (trimSlashes path)))

theorem stripped_eq (path : List Char) : stripped path = join (unsuffix (segments path)) := by
  rw [stripped, segments_dropGit]

theorem segments_stripped (path : List Char) : segments (stripped path) = unsuffix (segments path) := by
  rw [stripped, segments_join (clean_segments _), segments_dropGit]

theorem stripped_stripped (raw : List Char) :
    stripped (stripped raw) = stripped raw ↔ unsuffix (unsuffix (segments raw)) = unsuffix (segments raw) := by
  constructor
  · intro same
    have parts := congrArg segments same
    rwa [segments_stripped, segments_stripped] at parts
  · intro same
    rw [stripped_eq (stripped raw), segments_stripped, same, ← stripped_eq]

/-- Two suffixes end the path, with only slashes between them and after them. -/
def DoublySuffixed (raw : List Char) : Prop :=
  ∃ front git slashes git' tail, raw = front ++ git ++ slashes ++ git' ++ tail ∧ IsGit git ∧ IsGit git' ∧
    (∀ c ∈ slashes, c = '/') ∧ ∀ c ∈ tail, c = '/'

theorem doublySuffixed_iff (raw : List Char) :
    DoublySuffixed raw ↔ ∃ init last, unsuffix (segments raw) = init ++ [last] ∧ EndsGit last := by
  constructor
  · rintro ⟨front, git, slashes, git', tail, rfl, first, second, between, after⟩
    obtain ⟨init, last, parts, ends, -⟩ := segments_suffix front first
    refine ⟨init, last, ?_, ends⟩
    rw [segments_slashes after, unsuffix_segments _ second, segments_slashes between, parts]
  · rintro ⟨init, last, parts, ends⟩
    obtain ⟨-, none⟩ | ⟨front, back, tail, rfl, own, slashes⟩ := segments_last raw
    · rw [none] at parts
      simp [unsuffix] at parts
    rw [segments_slashes slashes, own.segments, unsuffix_append] at parts
    by_cases suffixed : EndsGit back
    swap
    · -- Nothing was stripped, so the last segment has no suffix.
      have kept : [back].filter (!·.isEmpty) = [back] := by simp [own.some]
      rw [dropGit_of_not suffixed, kept] at parts
      have same : back = last := by simpa using (List.append_inj' parts rfl).2
      exact absurd (same ▸ ends) suffixed
    obtain ⟨before, git', rfl, second⟩ := suffixed
    rw [dropGit_append second] at parts
    by_cases nothing : before = []
    · subst nothing
      have gone : ([[]] : List (List Char)).filter (!·.isEmpty) = [] := rfl
      rw [gone, List.append_nil] at parts
      obtain ⟨-, none⟩ | ⟨front', back', slashes', rfl, own', between⟩ := segments_last front
      · simp [none] at parts
      · rw [segments_slashes between, own'.segments] at parts
        have same : back' = last := by simpa using (List.append_inj' parts rfl).2
        obtain ⟨before', git, rfl, first⟩ := same ▸ ends
        exact ⟨front' ++ before', git, slashes', git', tail, by simp, first, second, between, slashes⟩
    · have kept : [before].filter (!·.isEmpty) = [before] := by simp [nothing]
      rw [kept] at parts
      have same : before = last := by simpa using (List.append_inj' parts rfl).2
      obtain ⟨before', git, rfl, first⟩ := same ▸ ends
      exact ⟨front ++ before', git, [], git', tail, by simp, first, second, nofun, slashes⟩

theorem stripped_fixed_iff (raw : List Char) : stripped (stripped raw) = stripped raw ↔ ¬DoublySuffixed raw := by
  rw [stripped_stripped, doublySuffixed_iff]
  obtain none | ⟨init, last, parts⟩ := List.eq_nil_or_concat' (unsuffix (segments raw))
  · rw [none]
    simp [unsuffix]
  · have some : last ≠ [] := by
      rw [← segments_dropGit] at parts
      exact (clean_segments _ last (by rw [parts]; simp)).1
    rw [parts, unsuffix_eq_self some]
    simp

end Fixed

section Spellings

/-- Two spellings of one path, apart in repeated slashes and suffixes. -/
inductive Respells : List Char → List Char → Prop
  | slash {front back : List Char} (edge : front = [] ∨ (∃ rest, front = rest ++ ['/']) ∨ back = []) :
      Respells (front ++ back) (front ++ '/' :: back)
  | suffix {path suffix : List Char} (git : IsGit suffix) : Respells path (path ++ suffix)

def SamePath : List Char → List Char → Prop := Relation.EqvGen Respells

def Settles (parts rest : List (List Char)) : Prop := ∃ k, unsuffix^[k] parts = rest ∧ unsuffix rest = rest

theorem Settles.unique {parts rest rest' : List (List Char)} (settles : Settles parts rest)
    (settles' : Settles parts rest') : rest = rest' := by
  obtain ⟨k, rfl, fixed⟩ := settles
  obtain ⟨j, rfl, fixed'⟩ := settles'
  obtain le | le := Nat.le_total k j
  · obtain ⟨more, rfl⟩ := Nat.exists_eq_add_of_le' le
    rw [Function.iterate_add_apply, Function.iterate_fixed fixed]
  · obtain ⟨more, rfl⟩ := Nat.exists_eq_add_of_le' le
    rw [Function.iterate_add_apply, Function.iterate_fixed fixed']

theorem settles_succ {parts rest : List (List Char)} : Settles (unsuffix parts) rest ↔ Settles parts rest := by
  constructor
  · rintro ⟨k, reached, fixed⟩
    exact ⟨k + 1, reached, fixed⟩
  · rintro ⟨k, rfl, fixed⟩
    exact ⟨k, by rw [← Function.iterate_succ_apply, Function.iterate_succ_apply', fixed], fixed⟩

theorem Respells.settles {path path' : List Char} (respells : Respells path path') (rest : List (List Char)) :
    Settles (segments path) rest ↔ Settles (segments path') rest := by
  cases respells with
  | @slash front back edge =>
      have same : segments (front ++ back) = segments (front ++ '/' :: back) := by
        obtain rfl | ⟨before, rfl⟩ | rfl := edge
        · rw [segments_append_slash, segments_nil, List.nil_append, List.nil_append]
        · have one : segments (before ++ ['/']) = segments before := segments_slashes (by simp) before
          rw [List.append_assoc, List.singleton_append, segments_append_slash, segments_append_slash, one]
        · rw [segments_append_slash, segments_nil, List.append_nil]
          simp
      rw [same]
  | suffix git => rw [← @settles_succ (segments (path ++ _)), unsuffix_segments _ git]

theorem SamePath.settles {path path' : List Char} (same : SamePath path path') (rest : List (List Char)) :
    Settles (segments path) rest ↔ Settles (segments path') rest := by
  induction same with
  | rel _ _ respells => exact respells.settles rest
  | refl => exact Iff.rfl
  | symm _ _ _ ih => exact ih.symm
  | trans _ _ _ _ _ first second => exact first.trans second

theorem SamePath.unsuffix {path path' : List Char} (same : SamePath path path') (single : ¬DoublySuffixed path)
    (single' : ¬DoublySuffixed path') : unsuffix (segments path) = unsuffix (segments path') := by
  have settled : ∀ {raw : List Char}, ¬DoublySuffixed raw → Settles (segments raw) (Remote.unsuffix (segments raw)) := by
    intro raw once
    exact ⟨1, rfl, (stripped_stripped raw).mp ((stripped_fixed_iff raw).mpr once)⟩
  exact ((same.settles _).mp (settled single)).unique (settled single')

end Spellings

section Bytes

theorem bytes_pos {text : List Char} (some : text ≠ []) : 0 < Json.bytes text :=
  Cut.total_pos (fun c => c.utf8Size_pos) some

theorem sliceFrom_eq_some {n : Nat} {text tail : List Char} :
    sliceFrom n text = some tail ↔ ∃ front, text = front ++ tail ∧ Json.bytes front = n := by
  induction text generalizing n with
  | nil =>
      cases n with
      | zero => simp [sliceFrom, eq_comm]
      | succ n => simp [sliceFrom]
  | cons c rest ih =>
      have wide := c.utf8Size_pos
      cases n with
      | zero =>
          constructor
          · intro whole
            exact ⟨[], by simpa [sliceFrom] using whole, rfl⟩
          · rintro ⟨front, same, none⟩
            have empty : front = [] := by
              by_contra some
              exact absurd none (bytes_pos some).ne'
            simpa [sliceFrom, empty] using same
      | succ n =>
          rw [sliceFrom]
          split
          · next fits =>
            rw [ih]
            constructor
            · rintro ⟨front, rfl, size⟩
              exact ⟨c :: front, rfl, by rw [Json.bytes_cons]; omega⟩
            · rintro ⟨front, same, size⟩
              cases front with
              | nil => simp at size
              | cons d front =>
                  obtain ⟨rfl, rfl⟩ := List.cons.inj same
                  rw [Json.bytes_cons] at size
                  exact ⟨front, rfl, by omega⟩
          · next large =>
            simp only [reduceCtorEq, false_iff]
            rintro ⟨front, same, size⟩
            cases front with
            | nil => simp at size
            | cons d front =>
                obtain ⟨rfl, rfl⟩ := List.cons.inj same
                rw [Json.bytes_cons] at size
                omega

/-- The last four bytes, where there are so many, start at a character. -/
def Sliceable (text : List Char) : Prop :=
  4 ≤ Json.bytes text → ∃ front back, text = front ++ back ∧ Json.bytes back = 4

theorem hasGitSuffix_eq {text : List Char} (sliceable : Sliceable text) :
    hasGitSuffix text = some (decide (EndsGit text)) := by
  rw [hasGitSuffix]
  split
  · next short =>
    have plain : ¬EndsGit text := by
      rintro ⟨front, suffix, rfl, git⟩
      rw [Json.bytes_append, git.bytes] at short
      omega
    simp [plain]
  · next long =>
    obtain ⟨front, back, rfl, size⟩ := sliceable (by omega)
    have slice : sliceFrom (Json.bytes (front ++ back) - 4) (front ++ back) = some back :=
      sliceFrom_eq_some.mpr ⟨front, rfl, by rw [Json.bytes_append, size]; omega⟩
    have ends : EndsGit (front ++ back) ↔ toAsciiLower back = gitSuffix := by
      constructor
      · rintro ⟨before, suffix, same, git⟩
        have slice' : sliceFrom (Json.bytes (front ++ back) - 4) (front ++ back) = some suffix :=
          sliceFrom_eq_some.mpr ⟨before, same, by rw [same, Json.bytes_append, git.bytes]; omega⟩
        rw [slice, Option.some_inj] at slice'
        rw [slice']
        exact git
      · exact fun git => ⟨front, back, rfl, git⟩
    rw [slice, Option.map_some, Option.some_inj]
    by_cases git : toAsciiLower back = gitSuffix <;> simp [ends, git]

theorem hasGitSuffix_none {text : List Char} (cut : ¬Sliceable text) : hasGitSuffix text = none := by
  simp only [Sliceable, not_forall, not_exists, not_and] at cut
  obtain ⟨long, inside⟩ := cut
  have none : sliceFrom (Json.bytes text - 4) text = none := by
    rw [Option.eq_none_iff_forall_ne_some]
    intro tail slice
    obtain ⟨front, same, size⟩ := sliceFrom_eq_some.mp slice
    apply inside front tail same
    rw [same, Json.bytes_append] at size long
    omega
  rw [hasGitSuffix, if_neg (by omega), none]
  rfl

end Bytes

section Identity
variable (library : GitUrlLibrary)

/-- The computation comes to an end, and stripping the path of its result changes nothing. -/
def Settled (url : String) : Prop :=
  ∃ result, canonicalGitParts library url = some result ∧
    ∀ authority path, result = .ok (authority, path) → stripped path = path

def Plain (url : String) : Prop :=
  ∀ authority raw, location library url = .ok (authority, raw) →
    Sliceable (trimSlashes raw) ∧ ¬DoublySuffixed raw

theorem normalizeGitPath_none {raw : List Char} (cut : ¬Sliceable (trimSlashes raw)) :
    normalizeGitPath raw = none := by
  have some : trimSlashes raw ≠ [] := by
    intro empty
    rw [empty] at cut
    exact cut fun long => absurd long (by decide)
  simp [normalizeGitPath, some, hasGitSuffix_none cut]

theorem normalizeGitPath_some {raw : List Char} (sliceable : Sliceable (trimSlashes raw)) :
    ∃ result, normalizeGitPath raw = some result ∧
      ∀ path, result = .ok path ↔ path = stripped raw ∧ unsuffix (segments raw) ≠ [] := by
  have parts : segments (trimSlashes (dropGit (trimSlashes raw))) = unsuffix (segments raw) := by
    rw [segments_trimSlashes, segments_dropGit]
  by_cases empty : trimSlashes raw = []
  · have none : unsuffix (segments raw) = [] := by
      rw [← parts, empty]
      decide
    refine ⟨_, if_pos empty, fun path => ?_⟩
    simp [none]
  · have suffixed := hasGitSuffix_eq sliceable
    have bare : withoutGit (trimSlashes raw) (decide (EndsGit (trimSlashes raw))) = dropGit (trimSlashes raw) := rfl
    simp only [normalizeGitPath, empty, if_false, suffixed, Option.map_some, bare]
    refine ⟨_, rfl, fun path => ?_⟩
    by_cases nothing : trimSlashes (dropGit (trimSlashes raw)) = []
    · have none : unsuffix (segments raw) = [] := by rw [← parts, nothing, segments_nil]
      simp [nothing, none]
    · by_cases none : unsuffix (segments raw) = []
      · simp [nothing, parts, none]
      · simp [nothing, parts, none, stripped_eq, eq_comm]

theorem parts_of_location {url authority : String} {raw : List Char}
    (located : location library url = .ok (authority, raw)) :
    canonicalGitParts library url =
      (normalizeGitPath raw).map fun path => path.map fun path => (authority, path) := by
  simp [canonicalGitParts, located]

theorem settled_iff (url : String) : Settled library url ↔ Plain library url := by
  cases located : location library url with
  | error e =>
      have failed : canonicalGitParts library url = some (.error e) := by simp [canonicalGitParts, located]
      simp [Settled, Plain, located, failed]
  | ok parts =>
      obtain ⟨authority, raw⟩ := parts
      have plain : Plain library url ↔ Sliceable (trimSlashes raw) ∧ ¬DoublySuffixed raw := by simp [Plain, located]
      rw [plain, Settled, parts_of_location library located]
      by_cases sliceable : Sliceable (trimSlashes raw)
      · obtain ⟨result, normalized, value⟩ := normalizeGitPath_some sliceable
        rw [← stripped_fixed_iff]
        simp only [normalized, Option.map_some, Option.some_inj, exists_eq_left', sliceable, true_and]
        constructor
        · intro fixed
          by_cases none : unsuffix (segments raw) = []
          · rw [stripped_stripped, none]
            rfl
          · have ok := (value (stripped raw)).mpr ⟨rfl, none⟩
            exact fixed authority (stripped raw) (by rw [ok]; rfl)
        · intro fixed authority' path same
          cases result with
          | error e => cases same
          | ok own =>
              obtain ⟨rfl, -⟩ := (value own).mp rfl
              cases same
              exact fixed
      · simp [normalizeGitPath_none sliceable, sliceable]

theorem sliceable_of_ascii {text : List Char} (ascii : ∀ c ∈ text, c.toNat < 128) : Sliceable text := by
  have count : ∀ {part : List Char}, (∀ c ∈ part, c.toNat < 128) → Json.bytes part = part.length := by
    intro part small
    have single : ∀ c ∈ part, c.utf8Size = 1 := by
      intro c among
      rw [Char.utf8Size_eq_one_iff, UInt32.le_iff_toNat_le]
      exact Nat.le_of_lt_succ (small c among)
    simp [Json.bytes, Cut.total, List.map_congr_left single]
  intro long
  refine ⟨text.take (text.length - 4), text.drop (text.length - 4), (List.take_append_drop _ _).symm, ?_⟩
  rw [count ascii] at long
  rw [count fun c among => ascii c (List.mem_of_mem_drop among), List.length_drop]
  omega

-- The path of a parsed URL is ASCII, so only the scp-style remotes can be cut inside of a character.
theorem url_sliceable {url authority : String} {raw : List Char}
    (parsed : stripPrefix "git@".toList (trim url.toList) = none)
    (located : location library url = .ok (authority, raw)) : Sliceable (trimSlashes raw) := by
  simp only [location, parsed, urlLocation, bind_eq_ok] at located
  obtain ⟨-, -, parsedUrl, -, found⟩ := located
  cases host : library.host parsedUrl with
  | none =>
      rw [host] at found
      cases found
  | some own =>
      rw [host] at found
      cases found
      apply sliceable_of_ascii
      intro c among
      have within : c ∈ (library.path parsedUrl).toList :=
        (List.dropWhile_suffix _).subset ((List.rdropWhile_prefix _ _).subset among)
      exact library.ascii parsedUrl c within

/-- A remote settles exactly where its path can be sliced and has at most one suffix, and two such
spellings of one remote have one identity. Every path of a parsed URL can be sliced. -/
theorem canonical_url_settles_iff :
    (∀ url, Settled library url ↔ Plain library url) ∧
      (∀ url url' authority raw raw', location library url = .ok (authority, raw) →
        location library url' = .ok (authority, raw') → SamePath raw raw' →
        Plain library url → Plain library url' →
        ∀ identity, canonicalGitUrl library url = some (.ok identity) →
          canonicalGitUrl library url' = some (.ok identity)) ∧
      ∀ url, stripPrefix "git@".toList (trim url.toList) = none →
        ∀ authority raw, location library url = .ok (authority, raw) → Sliceable (trimSlashes raw) := by
  refine ⟨settled_iff library, ?_, fun url parsed authority raw => url_sliceable library parsed⟩
  intro url url' authority raw raw' located located' same plain plain' identity
  obtain ⟨sliceable, single⟩ := plain authority raw located
  obtain ⟨sliceable', single'⟩ := plain' authority raw' located'
  obtain ⟨result, normalized, value⟩ := normalizeGitPath_some sliceable
  obtain ⟨result', normalized', value'⟩ := normalizeGitPath_some sliceable'
  have parts := same.unsuffix single single'
  have paths : stripped raw' = stripped raw := by rw [stripped_eq, stripped_eq, parts]
  simp only [canonicalGitUrl, parts_of_location library located, parts_of_location library located', normalized,
    normalized', Option.map_some]
  cases result with
  | error e => simp [Except.map]
  | ok path =>
      obtain ⟨rfl, some⟩ := (value path).mp rfl
      have ok : result' = .ok (stripped raw) := (value' _).mpr ⟨paths.symm, parts ▸ some⟩
      simp [ok]

def forgeUrls : GitUrlLibrary where
  Url := {path : List Char // path.all fun c => decide (c.toNat < 128)}
  parse text :=
    match stripPrefix "https://Forge.test".toList text.toList with
    | some path =>
        if ascii : path.all fun c => decide (c.toNat < 128) then .ok ⟨path, ascii⟩ else .error "invalid path"
    | none => .error "relative URL without a base"
  host _ := some (.domain "Forge.test")
  port _ := none
  scheme _ := "https"
  path url := String.ofList url.1
  ascii url := by simpa using url.2

theorem spellings_agree :
    Settled forgeUrls "https://Forge.test/Owner//Repo.git/" ∧
      canonicalGitUrl forgeUrls "https://Forge.test/Owner/Repo" = some (.ok "forge.test/Owner/Repo") := by
  obtain ⟨settles, agree, sliceable⟩ := canonical_url_settles_iff forgeUrls
  have located : location forgeUrls "https://Forge.test/Owner//Repo.git/" =
      .ok ("forge.test", "/Owner//Repo.git/".toList) := rfl
  have located' : location forgeUrls "https://Forge.test/Owner/Repo" =
      .ok ("forge.test", "/Owner/Repo".toList) := rfl
  have plain : Plain forgeUrls "https://Forge.test/Owner//Repo.git/" := by
    intro authority raw found
    refine ⟨sliceable _ (by decide +kernel) authority raw found, ?_⟩
    rw [located] at found
    cases found
    exact (stripped_fixed_iff _).mp (by decide +kernel)
  have plain' : Plain forgeUrls "https://Forge.test/Owner/Repo" := by
    intro authority raw found
    refine ⟨sliceable _ (by decide +kernel) authority raw found, ?_⟩
    rw [located'] at found
    cases found
    exact (stripped_fixed_iff _).mp (by decide +kernel)
  have same : SamePath "/Owner//Repo.git/".toList "/Owner/Repo".toList := by
    have suffixed : Respells "/Owner/Repo".toList "/Owner/Repo.git".toList :=
      @Respells.suffix "/Owner/Repo".toList ".git".toList (by decide)
    have inner : Respells "/Owner/Repo.git".toList "/Owner//Repo.git".toList :=
      @Respells.slash "/Owner/".toList "Repo.git".toList (Or.inr (Or.inl ⟨"/Owner".toList, by decide⟩))
    have last : Respells "/Owner//Repo.git".toList "/Owner//Repo.git/".toList :=
      @Respells.slash "/Owner//Repo.git".toList [] (Or.inr (Or.inr rfl))
    exact .symm _ _ ((Relation.EqvGen.rel _ _ suffixed).trans _ _ _ ((Relation.EqvGen.rel _ _ inner).trans _ _ _
      (.rel _ _ last)))
  exact ⟨(settles _).mpr plain, agree _ _ _ _ _ located located' same plain plain' _ rfl⟩

-- A library that parses nothing: the scp-style remotes do without it.
def noUrls : GitUrlLibrary where
  Url := Empty
  parse _ := .error "relative URL without a base"
  host := nofun
  port := nofun
  scheme := nofun
  path := nofun
  ascii := nofun

-- The fourth byte from the end is inside of a character.
theorem slice_inside_character : ¬∀ (library : GitUrlLibrary) (url : String), Settled library url := by
  intro claim
  obtain ⟨result, returned, -⟩ := claim noUrls "git@host:owner/\u4ed3\u5e93"
  have panics : (canonicalGitParts noUrls "git@host:owner/\u4ed3\u5e93").isNone = true := by decide +kernel
  rw [returned] at panics
  cases panics

end Identity

end Phasegent.Remote
