import Phasegent.Text.Chars
import Phasegent.Text.Fallible
import Phasegent.Text.Marks

namespace Phasegent.Redmine
open Fallible Text

def validateRepository (value : String) : Except String String :=
  let parts := value.toList.splitOn '/'
  if parts.length ≠ 2 ∨ parts.any fun part => part.isEmpty || part == ['.'] || part == ['.', '.'] then
    .error "repository must use OWNER/REPOSITORY form"
  else .ok value

def isEdge (c : Char) : Bool := c == '-' || c == '_'

def separatorFor (c : Char) : Char := if c = '_' then '_' else '-'

def normalizeStep (state : List Char × Bool) (c : Char) : List Char × Bool :=
  let (normalized, previousSeparator) := state
  if c.isAlphanum then (normalized ++ [c.toLower], false)
  else if !previousSeparator then (normalized ++ [separatorFor c], true)
  else (normalized, previousSeparator)

def normalizeIdentifierComponent (component : List Char) : List Char :=
  let (normalized, _) := component.foldl normalizeStep ([], false)
  (normalized.rdropWhile isEdge).dropWhile isEdge

def orDefault (fallback text : List Char) : List Char := if text = [] then fallback else text

def redmineIdentifier (repository : String) : Except String String := do
  let repository ← validateRepository repository
  let components := (repository.toList.splitOn '/').map normalizeIdentifierComponent
  let owner := orDefault "owner".toList (components[0]?.getD [])
  let repository := orDefault "repository".toList (components[1]?.getD [])
  let identifier := owner ++ '-' :: repository
  let identifier :=
    if identifier.head?.any Char.isLower then identifier else "wf-".toList ++ identifier
  let identifier :=
    if 100 < identifier.length then (identifier.take 100).rdropWhile isEdge else identifier
  return String.ofList identifier

def mirrorIdentifier (projectId : Nat) (owner repo : List Char) : String :=
  "mirror_" ++ projectId.repr ++ "_" ++ String.ofList (toAsciiLower (trim owner)) ++ "_" ++
    String.ofList (toAsciiLower (trim repo))

section Readings

def componentMarks (component : List Char) : List (Mark Char) :=
  marks Char.isAlphanum Char.toLower separatorFor component

theorem isEdge_toLower {c : Char} (letter : c.isAlphanum) : isEdge c.toLower = false := by
  have plain : ∀ d : Char, isEdge d → ¬(d.isLower ∨ d.isDigit) := by
    intro d edge
    obtain rfl | rfl : d = '-' ∨ d = '_' := by simpa [isEdge] using edge
    all_goals decide
  by_contra edge
  exact plain _ (Bool.not_eq_false _ ▸ edge) (isLower_or_isDigit_toLower letter)

theorem isEdge_separatorFor (c : Char) : isEdge (separatorFor c) := by
  unfold separatorFor
  split <;> rfl

/-- What tells the letters of an identifier from its separators. -/
structure Separates (isSeparator : Char → Bool) : Prop where
  letters : ∀ c : Char, c.isAlphanum → isSeparator c.toLower = false
  separators : ∀ c, isSeparator (separatorFor c)

theorem separates_isEdge : Separates isEdge := ⟨fun _ => isEdge_toLower, isEdge_separatorFor⟩

def isPlain (c : Char) : Bool := c.isLower || c.isDigit

theorem separates_isPlain : Separates fun c => !isPlain c where
  letters c letter := by
    have kept : isPlain c.toLower := by
      rw [isPlain, Bool.or_eq_true]
      exact isLower_or_isDigit_toLower letter
    simp [kept]
  separators c := by
    unfold separatorFor
    split <;> decide

section Proper
variable {isSeparator : Char → Bool} (separates : Separates isSeparator)
include separates

theorem proper_component (component : List Char) :
    ∀ mark ∈ componentMarks component, mark.Proper isSeparator := by
  apply proper_lead (by simp)
  exact proper_marksFrom separates.letters separates.separators (by simp) component

end Proper

theorem foldl_normalizeStep (front : List Char) (gap : Option Char)
    (separates : ∀ c ∈ gap, isEdge c) (text : List Char) :
    (text.foldl normalizeStep (front ++ gap.toList, gap.isSome)).1.rdropWhile isEdge =
      (front ++ spell (marksFrom Char.isAlphanum Char.toLower separatorFor gap text)).rdropWhile
        isEdge := by
  induction text generalizing front gap with
  | nil =>
      cases gap with
      | none => simp [marksFrom]
      | some c => simp [marksFrom, List.rdropWhile_concat_pos _ _ _ (separates c rfl)]
  | cons c rest ih =>
      rw [List.foldl_cons, marksFrom]
      by_cases letter : c.isAlphanum
      · have next := ih (front ++ gap.toList ++ [c.toLower]) none (by simp)
        simpa [normalizeStep, letter] using next
      · cases gap with
        | none =>
            have next := ih front (some (separatorFor c)) (by simp [isEdge_separatorFor])
            simpa [normalizeStep, letter] using next
        | some g =>
            have next := ih front (some g) separates
            simpa [normalizeStep, letter] using next

theorem normalize_eq_spell (component : List Char) :
    normalizeIdentifierComponent component = spell (componentMarks component) := by
  have proper : ∀ mark ∈ marksFrom Char.isAlphanum Char.toLower separatorFor none component,
      mark.Proper isEdge :=
    proper_marksFrom (fun _ => isEdge_toLower) isEdge_separatorFor (by simp) component
  have folded : (component.foldl normalizeStep ([], false)).1.rdropWhile isEdge =
      spell (marksFrom Char.isAlphanum Char.toLower separatorFor none component) :=
    (foldl_normalizeStep [] none (by simp) component).trans (spell_trimmed proper)
  rw [componentMarks, marks, ← dropWhile_spell proper, ← folded]
  rfl

def marksOr (fallback text : List Char) : List (Mark Char) :=
  if componentMarks text = [] then componentMarks fallback else componentMarks text

def ownerMarks (owner : List Char) : List (Mark Char) := marksOr "owner".toList owner

def repositoryMarks (repo : List Char) : List (Mark Char) := marksOr "repository".toList repo

/-- The letters and digits of a repository's name, with what stands between them: the slash reads
as a dash, a part without letters as its default, and `wf` goes before a name that starts with a
digit. -/
def partsMarks (owner repo : List Char) : List (Mark Char) :=
  let name := ownerMarks owner ++ lead (some '-') (repositoryMarks repo)
  if name.head?.any fun mark => mark.letter.isLower then name
  else componentMarks "wf".toList ++ lead (some '-') name

def nameMarks (repository : String) : List (Mark Char) :=
  let parts := repository.toList.splitOn '/'
  partsMarks (parts[0]?.getD []) (parts[1]?.getD [])

theorem spell_eq_nil {marks : List (Mark Char)} : spell marks = [] ↔ marks = [] := by
  cases marks <;> simp

theorem spell_marksOr (fallback text : List Char)
    (plain : spell (componentMarks fallback) = fallback) :
    orDefault fallback (normalizeIdentifierComponent text) = spell (marksOr fallback text) := by
  rw [normalize_eq_spell, orDefault, marksOr]
  by_cases empty : componentMarks text = [] <;> simp [empty, plain, spell_eq_nil]

theorem marksOr_ne_nil {fallback text : List Char} (plain : componentMarks fallback ≠ []) :
    marksOr fallback text ≠ [] := by
  unfold marksOr
  split <;> assumption

theorem proper_marksOr {isSeparator : Char → Bool} (separates : Separates isSeparator)
    (fallback text : List Char) : ∀ mark ∈ marksOr fallback text, mark.Proper isSeparator := by
  unfold marksOr
  split <;> exact proper_component separates _

theorem lead_marksOr (fallback text : List Char) : lead none (marksOr fallback text) = marksOr fallback text := by
  unfold marksOr
  split <;> simp [componentMarks, marks]

theorem head_spell {marks : List (Mark Char)} (unled : lead none marks = marks) :
    (spell marks).head? = marks.head?.map Mark.letter := by
  cases marks with
  | nil => rfl
  | cons mark rest =>
      obtain ⟨gap, letter⟩ := mark
      obtain rfl : none = gap := by simpa [lead] using unled
      rfl

theorem lead_append {first last : List (Mark Char)} (some : first ≠ []) (gap : Option Char) :
    lead gap (first ++ last) = lead gap first ++ last := by
  cases first with
  | nil => exact absurd rfl some
  | cons mark rest => rfl

theorem spell_nameMarks (owner repo : List (Mark Char)) (some : repo ≠ [])
    (unled : lead none repo = repo) :
    spell (owner ++ lead (.some '-') repo) = spell owner ++ '-' :: spell repo := by
  rw [spell_append, spell_lead_cons _ some, unled]
  rfl

theorem ownerMarks_ne_nil (owner : List Char) : ownerMarks owner ≠ [] := marksOr_ne_nil (by decide)

theorem repositoryMarks_ne_nil (repo : List Char) : repositoryMarks repo ≠ [] :=
  marksOr_ne_nil (by decide)

theorem spell_prefixed {name : List (Mark Char)} (some : name ≠ []) (unled : lead none name = name) :
    (if (spell name).head?.any Char.isLower then spell name else "wf-".toList ++ spell name) =
      spell (if name.head?.any fun mark => mark.letter.isLower then name
        else componentMarks "wf".toList ++ lead (.some '-') name) := by
  have prefixed : spell (componentMarks "wf".toList ++ lead (.some '-') name) =
      "wf-".toList ++ spell name := by
    rw [spell_nameMarks _ _ some unled]
    rfl
  rw [head_spell unled]
  cases head : name.head? with
  | none => simpa using prefixed.symm
  | some mark =>
      by_cases lower : mark.letter.isLower
      · simp [lower]
      · simpa [lower] using prefixed.symm

theorem identifier_eq_spell (owner repo : List Char) :
    let identifier := orDefault "owner".toList (normalizeIdentifierComponent owner) ++
      '-' :: orDefault "repository".toList (normalizeIdentifierComponent repo)
    (if identifier.head?.any Char.isLower then identifier else "wf-".toList ++ identifier) =
      spell (partsMarks owner repo) := by
  have joined := spell_nameMarks (ownerMarks owner) (repositoryMarks repo)
    (repositoryMarks_ne_nil repo) (lead_marksOr _ _)
  dsimp only
  have owned : orDefault "owner".toList (normalizeIdentifierComponent owner) =
      spell (ownerMarks owner) := spell_marksOr _ _ (by decide)
  have named : orDefault "repository".toList (normalizeIdentifierComponent repo) =
      spell (repositoryMarks repo) := spell_marksOr _ _ (by decide)
  rw [owned, named, ← joined]
  apply spell_prefixed
  · exact List.append_ne_nil_of_left_ne_nil (ownerMarks_ne_nil owner) _
  · rw [lead_append (ownerMarks_ne_nil owner), ownerMarks, lead_marksOr]

theorem parts_of_valid {repository repository' : String}
    (valid : validateRepository repository = .ok repository') :
    repository' = repository ∧ ∃ owner name, repository.toList.splitOn '/' = [owner, name] := by
  unfold validateRepository at valid
  simp only at valid
  split at valid
  · cases valid
  · next ok =>
      cases valid
      simp only [not_or, not_not] at ok
      exact ⟨rfl, List.length_eq_two.mp ok.1⟩

theorem proper_partsMarks {isSeparator : Char → Bool} (separates : Separates isSeparator)
    (owner repo : List Char) : ∀ mark ∈ partsMarks owner repo, mark.Proper isSeparator := by
  have dash : ∀ c ∈ some '-', isSeparator c := by
    intro c own
    obtain rfl : '-' = c := by simpa using own
    exact separates.separators '-'
  have name : ∀ mark ∈ ownerMarks owner ++
      lead (some '-') (repositoryMarks repo), mark.Proper isSeparator :=
    List.forall_mem_append.mpr
      ⟨proper_marksOr separates _ _, proper_lead dash (proper_marksOr separates _ _)⟩
  simp only [partsMarks]
  split
  · exact name
  · exact List.forall_mem_append.mpr ⟨proper_component separates _, proper_lead dash name⟩

theorem redmineIdentifier_eq {repository : String}
    (valid : validateRepository repository = .ok repository) :
    redmineIdentifier repository =
      .ok (String.ofList (spell (fit 100 (nameMarks repository)))) := by
  obtain ⟨-, owner, name, parts⟩ := parts_of_valid valid
  have whole := identifier_eq_spell owner name
  have marked : nameMarks repository = partsMarks owner name := by simp [nameMarks, parts]
  simp only [redmineIdentifier, valid, ok_bind, parts, pure_eq, List.map_cons, List.map_nil,
    List.getElem?_cons_zero, List.getElem?_cons_succ, Option.getD_some, whole, marked]
  split
  · rw [spell_fit 100 (proper_partsMarks separates_isEdge owner name)]
  · next short => rw [fit_all (Nat.le_of_not_lt short)]

structure WellFormed (identifier : String) : Prop where
  length : 1 ≤ identifier.length ∧ identifier.length ≤ 100
  chars : ∀ c ∈ identifier.toList, isPlain c ∨ c = '-' ∨ c = '_'
  first : identifier.toList.head?.any Char.isLower

theorem head_partsMarks (owner repo : List Char) :
    ∃ c rest, partsMarks owner repo = ⟨none, c⟩ :: rest ∧ c.isLower := by
  have unled : lead none (ownerMarks owner) = ownerMarks owner := lead_marksOr _ _
  cases first : ownerMarks owner with
  | nil => exact absurd first (ownerMarks_ne_nil owner)
  | cons mark rest =>
      obtain ⟨gap, c⟩ := mark
      obtain rfl : none = gap := by simpa [first, lead] using unled
      by_cases lower : c.isLower
      · exact ⟨c, _, by rw [partsMarks, first]; exact if_pos lower, lower⟩
      · exact ⟨'w', _, by rw [partsMarks, first]; exact if_neg lower, by decide⟩

theorem spell_chars {marks : List (Mark Char)} (proper : ∀ mark ∈ marks, mark.Proper isEdge)
    (plain : ∀ mark ∈ marks, mark.Proper fun c => !isPlain c) :
    ∀ c ∈ spell marks, isPlain c ∨ c = '-' ∨ c = '_' := by
  intro c own
  obtain ⟨mark, among, part⟩ := List.mem_flatMap.mp own
  obtain gap | letter := List.mem_append.mp part
  · have edge := (proper mark among).gap c (by simpa using gap)
    exact .inr (by simpa [isEdge] using edge)
  · obtain rfl := List.mem_singleton.mp letter
    exact .inl (by simpa using (plain mark among).letter)

theorem redmineIdentifier_wellFormed {repository : String}
    (valid : validateRepository repository = .ok repository) :
    ∃ identifier, redmineIdentifier repository = .ok identifier ∧ WellFormed identifier := by
  refine ⟨_, redmineIdentifier_eq valid, ?_⟩
  obtain ⟨c, rest, name, lower⟩ := head_partsMarks ((repository.toList.splitOn '/')[0]?.getD [])
    ((repository.toList.splitOn '/')[1]?.getD [])
  have cut : fit 100 (nameMarks repository) = ⟨none, c⟩ :: fit 99 rest := by
    simp [nameMarks, name, fit]
  have short := length_spell_fit 100 (nameMarks repository)
  constructor
  · rw [String.length_ofList]
    refine ⟨?_, short⟩
    simp [cut]
  · rw [String.toList_ofList]
    apply spell_chars
    · exact fun mark among => proper_partsMarks separates_isEdge _ _ mark (mem_fit among)
    · exact fun mark among => proper_partsMarks separates_isPlain _ _ mark (mem_fit among)
  · simp [cut, lower]

theorem redmineIdentifier_eq_iff {a b : String} (valid : validateRepository a = .ok a)
    (valid' : validateRepository b = .ok b) :
    redmineIdentifier a = redmineIdentifier b ↔ fit 100 (nameMarks a) = fit 100 (nameMarks b) := by
  rw [redmineIdentifier_eq valid, redmineIdentifier_eq valid']
  constructor
  · intro same
    have spelled : spell (fit 100 (nameMarks a)) = spell (fit 100 (nameMarks b)) := by
      simpa using congrArg String.toList (Except.ok.inj same)
    exact spell_injective
      (fun mark among => proper_partsMarks separates_isEdge _ _ mark (mem_fit among))
      (fun mark among => proper_partsMarks separates_isEdge _ _ mark (mem_fit among)) spelled
  · intro same
    rw [same]

end Readings

end Phasegent.Redmine
