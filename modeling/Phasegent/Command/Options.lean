import Phasegent.Provider.Endpoint
import Phasegent.Text.Slice

namespace Phasegent.Command
open Fallible

def isDashed (text : String) : Bool := text.toList.head? == some '-'

def splitInline (arg option : String) : Option String :=
  (Text.stripPrefix (option.toList ++ ['=']) arg.toList).map String.ofList

def missingValue (option : String) : String := option ++ " requires a value"

def dashedValue (option : String) : String :=
  option ++ " requires a value (use " ++ option ++ "=VALUE when VALUE starts with \x60-\x60)"

def requiredValue (arg : String) (next : Option String) (option : String) : Except String String :=
  match splitInline arg option with
  | some value => .ok value
  | none =>
      match next with
      | none => .error (missingValue option)
      | some value => if isDashed value then .error (dashedValue option) else .ok value

def windows {α : Type} : List α → List (α × α)
  | x :: y :: rest => (x, y) :: windows (y :: rest)
  | _ => []

def optionalOption (args : List String) (option : String) : Option String :=
  match args.findSome? (splitInline · option) with
  | some value => some value
  | none =>
      match (windows args).find? (·.1 == option) with
      | some (_, value) => if isDashed value then none else some value
      | none => none

def hasFlag (args : List String) (flag : String) : Bool := args.any (· == flag)

/-- The options of one command: names with a dash and no equals sign, and no flag takes a value. -/
structure OptionTable where
  values : List String
  flags : List String
  dashed : ∀ name ∈ values ++ flags, isDashed name
  plain : ∀ name ∈ values ++ flags, '=' ∉ name.toList
  apart : ∀ name ∈ values, name ∉ flags

section Validation
variable (table : OptionTable) (expected : Nat) (operation : String)

def validateFrom : Nat → List String → Except String Unit
  | positionals, [] => refuse (positionals ≠ expected) (operation ++ " has missing arguments")
  | positionals, value :: rest =>
      if isDashed value then
        if value ∈ table.flags then validateFrom positionals rest
        else if table.values.any fun option => (splitInline value option).isSome then
          validateFrom positionals rest
        else if value ∈ table.values then
          match rest with
          | [] => .error (missingValue value)
          | next :: rest =>
              if isDashed next then .error (dashedValue value) else validateFrom positionals rest
        else .error ("unknown option '" ++ value ++ "'")
      else if expected < positionals + 1 then .error (operation ++ " has unexpected arguments")
      else validateFrom (positionals + 1) rest

-- The first argument is the name of the operation.
def validateOptions (args : List String) : Except String Unit :=
  validateFrom table expected operation 0 args.tail

inductive Token where
  | flag (name : String)
  | inline (arg : String)
  | pair (option value : String)
  | positional (text : String)
  deriving DecidableEq, Repr

/-- What the validation takes every argument for, up to the first one that it rejects. -/
def scan : List String → List Token
  | [] => []
  | value :: rest =>
      if isDashed value then
        if value ∈ table.flags then .flag value :: scan rest
        else if table.values.any fun option => (splitInline value option).isSome then
          .inline value :: scan rest
        else if value ∈ table.values then
          match rest with
          | [] => []
          | next :: rest => if isDashed next then [] else .pair value next :: scan rest
        else []
      else .positional value :: scan rest

def Token.inlineValue (option : String) : Token → Option String
  | .inline arg => splitInline arg option
  | _ => none

def Token.nextValue (option : String) : Token → Option String
  | .pair name value => if name = option then some value else none
  | _ => none

def Token.valueOf (option : String) (token : Token) : Option String :=
  (token.inlineValue option).or (token.nextValue option)

end Validation

section Reading
variable {table : OptionTable} {expected positionals : Nat} {operation option name arg : String}
  {args : List String} {tokens : List Token}

/-- How the arguments of an accepted line become tokens. -/
inductive Reads (table : OptionTable) : List String → List Token → Prop
  | nil : Reads table [] []
  | flag {name : String} {args : List String} {tokens : List Token} (listed : name ∈ table.flags)
      (rest : Reads table args tokens) : Reads table (name :: args) (.flag name :: tokens)
  | inline {arg option value : String} {args : List String} {tokens : List Token}
      (listed : option ∈ table.values) (joined : splitInline arg option = some value)
      (rest : Reads table args tokens) : Reads table (arg :: args) (.inline arg :: tokens)
  | pair {option value : String} {args : List String} {tokens : List Token}
      (listed : option ∈ table.values) (bare : isDashed value = false)
      (rest : Reads table args tokens) :
      Reads table (option :: value :: args) (.pair option value :: tokens)
  | positional {text : String} {args : List String} {tokens : List Token}
      (bare : isDashed text = false) (rest : Reads table args tokens) :
      Reads table (text :: args) (.positional text :: tokens)

theorem reads_of_accepted (accepted : validateFrom table expected operation positionals args = .ok ()) :
    Reads table args (scan table args) := by
  fun_induction validateFrom table expected operation positionals args with
  | case1 => exact .nil
  | case2 positionals value rest dashed flag ih =>
      unfold scan
      rw [if_pos dashed, if_pos flag]
      exact .flag flag (ih accepted)
  | case3 positionals value rest dashed flag joined ih =>
      unfold scan
      rw [if_pos dashed, if_neg flag, if_pos joined]
      obtain ⟨option, listed, joined⟩ := List.any_eq_true.mp joined
      obtain ⟨text, joined⟩ := Option.isSome_iff_exists.mp joined
      exact .inline listed joined (ih accepted)
  | case4 => cases accepted
  | case5 => cases accepted
  | case6 positionals value dashed flag joined listed next rest bare ih =>
      rw [scan, if_pos dashed, if_neg flag, if_neg joined, if_pos listed, if_neg bare]
      exact .pair listed (by simpa using bare) (ih accepted)
  | case7 => cases accepted
  | case8 => cases accepted
  | case9 positionals value rest bare room ih =>
      unfold scan
      rw [if_neg bare]
      exact .positional (by simpa using bare) (ih accepted)

end Reading

section Agreement
variable {table : OptionTable} {option flag name arg value : String} {args : List String}
  {tokens : List Token}

theorem inline_front (joined : splitInline arg option = some value) :
    ∃ rest, arg.toList = option.toList ++ '=' :: rest := by
  obtain ⟨text, stripped, -⟩ := Option.map_eq_some_iff.mp joined
  unfold Text.stripPrefix at stripped
  split at stripped
  · rename_i front
    obtain ⟨rest, same⟩ := List.isPrefixOf_iff_prefix.mp front
    exact ⟨rest, by simpa using same.symm⟩
  · cases stripped

theorem isDashed_of_inline (dashed : isDashed option) (joined : splitInline arg option = some value) :
    isDashed arg := by
  obtain ⟨rest, same⟩ := inline_front joined
  rw [isDashed, beq_iff_eq] at dashed ⊢
  cases name : option.toList with
  | nil => simp [name] at dashed
  | cons c name' => simpa [same, name] using dashed

theorem splitInline_of_bare (dashed : isDashed option) (bare : isDashed arg = false) :
    splitInline arg option = none := by
  cases joined : splitInline arg option with
  | none => rfl
  | some value =>
      rw [isDashed_of_inline dashed joined] at bare
      cases bare

theorem splitInline_of_listed (listed : name ∈ table.values ++ table.flags) :
    splitInline name option = none := by
  cases joined : splitInline name option with
  | none => rfl
  | some value =>
      obtain ⟨rest, same⟩ := inline_front joined
      have equals : '=' ∈ name.toList := by simp [same]
      exact absurd equals (table.plain name listed)

theorem ne_of_bare (dashed : isDashed option) (bare : isDashed arg = false) : arg ≠ option := by
  rintro rfl
  rw [dashed] at bare
  cases bare

theorem Reads.inline_values (reads : Reads table args tokens) (dashed : isDashed option) :
    args.filterMap (splitInline · option) = tokens.filterMap (Token.inlineValue option) := by
  induction reads with
  | nil => rfl
  | flag listed _ ih =>
      have plain : splitInline _ option = none :=
        splitInline_of_listed (List.mem_append_right table.values listed)
      simp [List.filterMap_cons, plain, Token.inlineValue, ih]
  | inline _ _ _ ih => simp [List.filterMap_cons, Token.inlineValue, ih]
  | pair listed bare _ ih =>
      have plain : splitInline _ option = none :=
        splitInline_of_listed (List.mem_append_left table.flags listed)
      simp [List.filterMap_cons, plain, splitInline_of_bare dashed bare, Token.inlineValue, ih]
  | positional bare _ ih =>
      simp [List.filterMap_cons, splitInline_of_bare dashed bare, Token.inlineValue, ih]

def following (option : String) (args : List String) : List String :=
  (windows args).filterMap fun pair => if pair.1 = option then some pair.2 else none

theorem following_cons (other : arg ≠ option) : following option (arg :: args) = following option args := by
  cases args with
  | nil => rfl
  | cons next rest => simp [following, windows, other]

theorem following_pair : following option (arg :: value :: args) =
    if arg = option then value :: following option (value :: args)
    else following option (value :: args) := by
  by_cases same : arg = option <;> simp [following, windows, same]

theorem Reads.next_values (reads : Reads table args tokens) (known : option ∈ table.values)
    (dashed : isDashed option) :
    following option args = tokens.filterMap (Token.nextValue option) := by
  induction reads with
  | nil => rfl
  | @flag name args tokens listed _ ih =>
      have other : name ≠ option := fun same => table.apart option known (same ▸ listed)
      rw [following_cons other, ih]
      rfl
  | @inline arg name value args tokens listed joined _ ih =>
      have other : arg ≠ option := by
        rintro rfl
        simp [splitInline_of_listed (List.mem_append_left table.flags known)] at joined
      rw [following_cons other, ih]
      rfl
  | @pair name value args tokens listed bare _ ih =>
      rw [following_pair, following_cons (ne_of_bare dashed bare), ih]
      by_cases same : name = option <;> simp [Token.nextValue, same]
  | positional bare _ ih =>
      rw [following_cons (ne_of_bare dashed bare), ih]
      rfl

theorem Reads.pairs_bare (reads : Reads table args tokens) :
    ∀ token ∈ tokens, ∀ text, token.nextValue option = some text → isDashed text = false := by
  induction reads with
  | nil => simp
  | pair _ bare _ ih =>
      refine List.forall_mem_cons.mpr ⟨fun text taken => ?_, ih⟩
      simp only [Token.nextValue, Option.ite_none_right_eq_some, Option.some.injEq] at taken
      rwa [← taken.2]
  | flag _ _ ih => exact List.forall_mem_cons.mpr ⟨nofun, ih⟩
  | inline _ _ _ ih => exact List.forall_mem_cons.mpr ⟨nofun, ih⟩
  | positional _ _ ih => exact List.forall_mem_cons.mpr ⟨nofun, ih⟩

theorem Reads.flags_iff (reads : Reads table args tokens) (known : flag ∈ table.flags) :
    flag ∈ args ↔ .flag flag ∈ tokens := by
  have dashed := table.dashed flag (by simp [known])
  induction reads with
  | nil => simp
  | flag _ _ ih => simp [ih]
  | @inline arg name value args tokens listed joined _ ih =>
      have other : flag ≠ arg := by
        rintro rfl
        simp [splitInline_of_listed (List.mem_append_right table.values known)] at joined
      simp [ih, other]
  | @pair name value args tokens listed bare _ ih =>
      have other : flag ≠ name := fun same => table.apart name listed (same ▸ known)
      simp [ih, other, (ne_of_bare dashed bare).symm]
  | positional bare _ ih => simp [ih, (ne_of_bare dashed bare).symm]

theorem optionalOption_eq : optionalOption args option =
    ((args.filterMap (splitInline · option)).head?).or
      ((following option args).head?.filter fun value => !isDashed value) := by
  have first : (following option args).head? = ((windows args).find? (·.1 == option)).map (·.2) := by
    unfold following
    induction windows args with
    | nil => rfl
    | cons pair rest ih => by_cases same : pair.1 = option <;> simp [same, ih]
  rw [optionalOption, List.head?_filterMap, first]
  cases args.findSome? (splitInline · option) with
  | some value => rfl
  | none =>
      cases (windows args).find? (·.1 == option) with
      | none => rfl
      | some pair => cases bare : isDashed pair.2 <;> simp [bare, Option.filter]

theorem head_valueOf (single : (tokens.filterMap (Token.valueOf option)).length ≤ 1) :
    (tokens.filterMap (Token.inlineValue option)).head?.or
      (tokens.filterMap (Token.nextValue option)).head? =
        (tokens.filterMap (Token.valueOf option)).head? := by
  induction tokens with
  | nil => rfl
  | cons token rest ih =>
      cases joined : token.inlineValue option with
      | some value => simp [List.filterMap_cons, joined, Token.valueOf]
      | none =>
          cases next : token.nextValue option with
          | none =>
              simp only [List.filterMap_cons, joined, next, Token.valueOf, Option.or_none] at single ⊢
              exact ih single
          | some value =>
              simp only [List.filterMap_cons, joined, next, Token.valueOf, Option.none_or, List.length_cons,
                List.head?_cons] at single ⊢
              have last : rest.filterMap (Token.valueOf option) = [] := by
                rw [← List.length_eq_zero_iff]
                exact Nat.le_zero.mp (Nat.le_of_succ_le_succ single)
              have alone : rest.filterMap (Token.inlineValue option) = [] := by
                rw [List.filterMap_eq_nil_iff] at last ⊢
                intro other among
                have free := last other among
                rw [Token.valueOf, Option.or_eq_none_iff] at free
                exact free.1
              simp [alone]

def taken (table : OptionTable) (option : String) (args : List String) : List String :=
  (scan table args.tail).filterMap (Token.valueOf option)

/-- Extraction finds what validation took, as long as the name of the operation is no option. -/
theorem extraction_agrees {expected : Nat} {operation : String}
    (accepted : validateOptions table expected operation args = .ok ())
    (named : ∀ first, args.head? = some first → isDashed first = false)
    (once : ∀ option ∈ table.values, (taken table option args).length ≤ 1) :
    (∀ option ∈ table.values, optionalOption args option = (taken table option args).head?) ∧
      ∀ flag ∈ table.flags, hasFlag args flag = true ↔ .flag flag ∈ scan table args.tail := by
  have reads := reads_of_accepted accepted
  constructor
  · intro option known
    have dashed := table.dashed option (by simp [known])
    have single := head_valueOf (once option known)
    have bare : ∀ value, ((scan table args.tail).filterMap (Token.nextValue option)).head? = some value →
        isDashed value = false := by
      intro value first
      obtain ⟨token, among, next⟩ := List.mem_filterMap.mp (List.mem_of_head? first)
      exact reads.pairs_bare token among value next
    have unnamed : args.filterMap (splitInline · option) = args.tail.filterMap (splitInline · option) ∧
        following option args = following option args.tail := by
      cases args with
      | nil => exact ⟨rfl, rfl⟩
      | cons first rest =>
          have operand := named first rfl
          simp [splitInline_of_bare dashed operand, following_cons (ne_of_bare dashed operand)]
    rw [optionalOption_eq, unnamed.1, unnamed.2, taken, ← single, reads.inline_values dashed,
      reads.next_values known dashed]
    congr 1
    cases found : ((scan table args.tail).filterMap (Token.nextValue option)).head? with
    | none => rfl
    | some value => simp [Option.filter, bare value found]
  · intro flag known
    have dashed := table.dashed flag (by simp [known])
    rw [← reads.flags_iff known, hasFlag, List.any_beq', List.contains_iff_mem]
    cases args with
    | nil => simp
    | cons first rest => simp [(ne_of_bare dashed (named first rfl)).symm]

end Agreement

section Example

def pruneOptions : OptionTable where
  values := ["--repo", "--stale-days", "--reason", "--format"]
  flags := ["--release-stale", "--remove", "--no-sync", "--dryrun", "--dry-run", "--json"]
  dashed := by decide
  plain := by decide
  apart := by decide

def pruneLine : List String := ["prune", "--reason=--old", "--json", "--repo", "web"]

theorem prune_agrees :
    optionalOption pruneLine "--reason" = some "--old" ∧ optionalOption pruneLine "--repo" = some "web" := by
  have accepted : validateOptions pruneOptions 0 "worktree prune" pruneLine = .ok () := by decide
  have agrees := (extraction_agrees accepted (by decide) (by decide)).1
  exact ⟨(agrees "--reason" (by decide)).trans (by decide), (agrees "--repo" (by decide)).trans (by decide)⟩

/-- The name of the operation is read by extraction and not by validation. -/
theorem operation_read_as_flag :
    ¬∀ (table : OptionTable) (expected : Nat) (operation : String) (args : List String),
      validateOptions table expected operation args = .ok () →
        (∀ option ∈ table.values, (taken table option args).length ≤ 1) →
          ∀ flag ∈ table.flags, hasFlag args flag = true ↔ .flag flag ∈ scan table args.tail := by
  intro always
  have agrees := always pruneOptions 0 "worktree prune" ["--json"] (by decide) (by decide) "--json" (by decide)
  exact absurd (agrees.mp (by decide)) (by decide)

end Example

end Phasegent.Command
