import Phasegent.Lease.Statements

namespace Phasegent.Lease
open Fallible

-- An operating system string, cut into its characters and its ill-formed UTF-8 sequences.
inductive OsChar where
  | valid (c : Char)
  | illFormed (bytes : List UInt8)
  deriving DecidableEq, Repr

abbrev OsText := List OsChar

def OsChar.lossy : OsChar → Char
  | .valid c => c
  | .illFormed _ => Char.ofNat 0xFFFD

def lossy (text : OsText) : List Char := text.map OsChar.lossy

def osText (text : List Char) : OsText := text.map .valid

structure GitOutput where
  status : Int
  stdout : String
  deriving DecidableEq, Repr

structure ProcessOutput where
  code : Option Int
  stdout : OsText
  deriving DecidableEq, Repr

def sanitizedGitOutput (raw : OsText) : String :=
  let cleaned := (lossy raw).filter fun c => !Text.isControl c
  String.ofList ((Text.trim cleaned).take maxEchoChars)

def processRun (spawned : Except String ProcessOutput) : Except WorktreeError GitOutput :=
  match spawned with
  | .error error => .error (.new "git" ("could not run git: " ++ error))
  | .ok output => .ok ⟨output.code.getD (-1), sanitizedGitOutput output.stdout⟩

def isAbsolute (path : OsText) : Bool := path.head? == some (.valid '/')

def resolveFrom (workdir path : OsText) : OsText :=
  if isAbsolute path then path
  else if workdir = [] ∨ workdir.getLast? = some (.valid '/') then workdir ++ path
  else workdir ++ .valid '/' :: path

section Identity
variable (canonicalize : OsText → Option OsText)

def canonicalOrSelf (path : OsText) : OsText := (canonicalize path).getD path

def repoIdentity (run : Except WorktreeError GitOutput) (repoPath : OsText) :
    Except WorktreeError String := do
  let output ← run
  refuse (output.status ≠ 0)
    (.new "git" ("git rev-parse failed with exit status " ++ toString output.status))
  let raw := Text.trim output.stdout.toList
  refuse (raw = []) (.new "git" "git rev-parse returned an empty common dir")
  let canonical := canonicalOrSelf canonicalize (resolveFrom repoPath (osText raw))
  refuse (lossy canonical = []) (.new "git" "could not resolve canonical repository identity")
  return bounded (String.ofList (lossy canonical))

/-- A checkout as git answers for it: the path that `rev-parse --git-common-dir` prints there names
the common directory. -/
structure Checkout where
  workdir : OsText
  printed : OsText
  commonDir : OsText
  names : canonicalize (resolveFrom workdir printed) = some commonDir
  absolute : isAbsolute commonDir

variable {canonicalize}

namespace Checkout
variable (c : Checkout canonicalize)

def identity : Except WorktreeError String :=
  repoIdentity canonicalize (processRun (.ok ⟨some 0, c.printed ++ [.valid '\n']⟩)) c.workdir

def shown : List Char :=
  Text.trim (sanitizedGitOutput (c.printed ++ [.valid '\n'])).toList

def named : OsText := canonicalOrSelf canonicalize (resolveFrom c.workdir (osText c.shown))

structure Plain : Prop where
  wellFormed : c.printed = osText (lossy c.printed)
  visible : ∀ u ∈ lossy c.printed, Text.isControl u = false
  trimmed : Text.trim (lossy c.printed) = lossy c.printed
  short : c.printed.length ≤ maxEchoChars
  nonempty : c.printed ≠ []

theorem identity_ok {text : String} : c.identity = .ok text ↔
    c.shown ≠ [] ∧ lossy c.named ≠ [] ∧ text = bounded (String.ofList (lossy c.named)) := by
  rw [identity, repoIdentity, processRun, ok_bind]
  simp only [bind_eq_ok, refuse_eq_ok, pure_eq, Option.getD_some, ne_eq, not_true_eq_false,
    not_false_eq_true, true_and, exists_and_left, exists_const, Except.ok.injEq]
  rw [eq_comm (b := text)]
  rfl

theorem Plain.shown {c : Checkout canonicalize} (plain : c.Plain) : c.shown = lossy c.printed := by
  have kept : (lossy (c.printed ++ [.valid '\n'])).filter (fun u => !Text.isControl u) =
      lossy c.printed := by
    have newline : Text.isControl '\n' = true := by decide
    rw [lossy, List.map_append, List.filter_append, List.filter_eq_self.mpr]
    · simp [OsChar.lossy, newline, lossy]
    · intro u member
      rw [plain.visible u member, Bool.not_false]
  have short : (lossy c.printed).length ≤ maxEchoChars := by
    rw [lossy, List.length_map]
    exact plain.short
  rw [Checkout.shown, sanitizedGitOutput, kept, plain.trimmed, List.take_of_length_le short,
    String.toList_ofList, plain.trimmed]

theorem Plain.named {c : Checkout canonicalize} (plain : c.Plain) : c.named = c.commonDir := by
  rw [Checkout.named, plain.shown, ← plain.wellFormed, canonicalOrSelf, c.names, Option.getD_some]

def Identified : Prop := c.shown ≠ [] ∧ lossy c.named ≠ []

theorem Plain.identified {c : Checkout canonicalize} (plain : c.Plain) : c.Identified := by
  constructor
  · rw [plain.shown, lossy]
    exact fun empty => plain.nonempty (List.map_eq_nil_iff.mp empty)
  · rw [plain.named, lossy]
    intro empty
    have absolute := c.absolute
    rw [List.map_eq_nil_iff.mp empty] at absolute
    cases absolute

theorem Plain.identity {c : Checkout canonicalize} (plain : c.Plain) :
    c.identity = .ok (String.ofList ((lossy c.commonDir).take maxEchoChars)) := by
  apply c.identity_ok.mpr
  refine ⟨plain.identified.1, plain.identified.2, ?_⟩
  rw [bounded, String.toList_ofList, plain.named]

end Checkout

def Separated (a b : Checkout canonicalize) : Prop :=
  ∃ x y, a.identity = .ok x ∧ b.identity = .ok y ∧ x ≠ y

-- The texts differ where the identity still looks.
def DifferEarly (text text' : List Char) : Prop := ∃ i < maxEchoChars, text[i]? ≠ text'[i]?

theorem bounded_ne_iff {text text' : List Char} :
    bounded (String.ofList text) ≠ bounded (String.ofList text') ↔ DifferEarly text text' := by
  rw [bounded, bounded, String.toList_ofList, String.toList_ofList, Ne, String.ofList_inj]
  constructor
  · intro differ
    by_contra early
    apply differ
    apply List.ext_getElem?
    intro i
    by_cases inside : i < maxEchoChars
    · rw [List.getElem?_take_of_lt inside, List.getElem?_take_of_lt inside]
      by_contra here
      exact early ⟨i, inside, here⟩
    · rw [List.getElem?_take_eq_none (by omega), List.getElem?_take_eq_none (by omega)]
  · rintro ⟨i, inside, here⟩ same
    apply here
    rw [← List.getElem?_take_of_lt inside, same, List.getElem?_take_of_lt inside]

theorem separated_iff {a b : Checkout canonicalize} : Separated a b ↔
    a.Identified ∧ b.Identified ∧ DifferEarly (lossy a.named) (lossy b.named) := by
  rw [← bounded_ne_iff]
  constructor
  · rintro ⟨x, y, identityA, identityB, differ⟩
    obtain ⟨shownA, namedA, rfl⟩ := a.identity_ok.mp identityA
    obtain ⟨shownB, namedB, rfl⟩ := b.identity_ok.mp identityB
    exact ⟨⟨shownA, namedA⟩, ⟨shownB, namedB⟩, differ⟩
  · rintro ⟨⟨shownA, namedA⟩, ⟨shownB, namedB⟩, differ⟩
    exact ⟨_, _, a.identity_ok.mpr ⟨shownA, namedA, rfl⟩, b.identity_ok.mpr ⟨shownB, namedB, rfl⟩,
      differ⟩

theorem repoRows_apart_iff {x y : String} :
    x ≠ y ↔ ∀ tables row, row ∈ repoRows tables x → row ∉ repoRows tables y := by
  have listed : ∀ {tables identity row}, row ∈ repoRows tables identity ↔
      row ∈ tables.leases ∧ row.repoIdentity = identity := by
    intro tables identity row
    rw [repoRows, Sql.mem_orderDesc, List.mem_filter, beq_iff_eq]
  constructor
  · intro differ tables row ofX ofY
    exact differ ((listed.mp ofX).2.symm.trans (listed.mp ofY).2)
  · rintro apart rfl
    let row : LeaseRow := ⟨"", x, 0, "", "", "", "", .active, 0, 0, none⟩
    have own : row ∈ repoRows ⟨[row], [], [], []⟩ x := listed.mpr ⟨List.mem_singleton_self _, rfl⟩
    exact apart _ _ own own

theorem repositories_separated_iff (a b : Checkout canonicalize) :
    (Separated a b ↔
        a.Identified ∧ b.Identified ∧ DifferEarly (lossy a.named) (lossy b.named)) ∧
      (a.Plain → b.Plain →
        (Separated a b ↔ DifferEarly (lossy a.commonDir) (lossy b.commonDir))) ∧
      ∀ x y, a.identity = .ok x → b.identity = .ok y →
        (x ≠ y ↔ ∀ tables row, row ∈ repoRows tables x → row ∉ repoRows tables y) := by
  refine ⟨separated_iff, fun plainA plainB => ?_, fun x y _ _ => repoRows_apart_iff⟩
  rw [separated_iff, plainA.named, plainB.named]
  simp only [plainA.identified, plainB.identified, true_and]

end Identity

section Deep

def rootCheckout (name : List Char) : Checkout some where
  workdir := osText ('/' :: name)
  printed := osText ".git".toList
  commonDir := resolveFrom (osText ('/' :: name)) (osText ".git".toList)
  names := rfl
  absolute := by
    have relative : isAbsolute (osText ".git".toList) = false := by decide
    rw [resolveFrom, relative]
    simp only [Bool.false_eq_true, if_false]
    split <;> rfl

theorem rootCheckout_plain (name : List Char) : (rootCheckout name).Plain where
  wellFormed := show osText ".git".toList = osText (lossy (osText ".git".toList)) by decide
  visible := by
    have visible : (lossy (osText ".git".toList)).all fun u => !Text.isControl u := by decide
    intro u member
    simpa using List.all_eq_true.mp visible u member
  trimmed := show Text.trim (lossy (osText ".git".toList)) = lossy (osText ".git".toList) by decide
  short := show (osText ".git".toList).length ≤ maxEchoChars by decide
  nonempty := show osText ".git".toList ≠ [] by decide

theorem short_repositories_separated :
    Separated (rootCheckout "first".toList) (rootCheckout "second".toList) :=
  ((repositories_separated_iff _ _).2.1 (rootCheckout_plain _) (rootCheckout_plain _)).mpr
    ⟨1, by decide, by decide⟩

def longName (leaf : Char) : List Char := List.replicate 200 'a' ++ [leaf]

theorem long_repositories_collide :
    (rootCheckout (longName 'x')).commonDir ≠ (rootCheckout (longName 'y')).commonDir ∧
      (rootCheckout (longName 'x')).identity = .ok (String.ofList ('/' :: List.replicate 199 'a')) ∧
      (rootCheckout (longName 'y')).identity = .ok (String.ofList ('/' :: List.replicate 199 'a')) ∧
      ¬Separated (rootCheckout (longName 'x')) (rootCheckout (longName 'y')) := by
  have early : (lossy (rootCheckout (longName 'x')).commonDir).take maxEchoChars =
        '/' :: List.replicate 199 'a' ∧
      (lossy (rootCheckout (longName 'y')).commonDir).take maxEchoChars =
        '/' :: List.replicate 199 'a' := by
    decide +kernel
  have first := (rootCheckout_plain (longName 'x')).identity
  have second := (rootCheckout_plain (longName 'y')).identity
  rw [early.1] at first
  rw [early.2] at second
  refine ⟨by decide +kernel, first, second, ?_⟩
  rintro ⟨x, y, identityX, identityY, differ⟩
  rw [first] at identityX
  rw [second] at identityY
  exact differ ((Except.ok.inj identityX).symm.trans (Except.ok.inj identityY))

end Deep

end Phasegent.Lease
