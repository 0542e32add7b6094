import Phasegent.Command.Options
import Phasegent.Provider.Api
import Phasegent.Record.Spec

namespace Phasegent.Command
open Fallible
open Record (Role)

inductive OutputMode where
  | text | json
  deriving DecidableEq, Repr

inductive OutputSelection where
  | auto | text | json
  deriving DecidableEq, Repr

def OutputMode.asStr : OutputMode → String
  | .text => "text"
  | .json => "json"

def OutputSelection.asStr : OutputSelection → String
  | .auto => "auto"
  | .text => "text"
  | .json => "json"

def OutputSelection.parse (value : String) : Except String OutputSelection :=
  let lowered := String.ofList ((trimText value).toList.map Char.toLower)
  if lowered = "auto" then .ok .auto
  else if lowered = "text" then .ok .text
  else if lowered = "json" then .ok .json
  else .error "--output must be 'auto', 'text', or 'json'"

structure OutputOptions where
  selection : OutputSelection
  noProgress : Bool
  legacy : Option OutputMode
  deriving DecidableEq, Repr

def OutputOptions.default : OutputOptions := ⟨.auto, false, none⟩

def valueGlobalOptions : List String :=
  ["--provider", "--api-base", "--repository", "--project-id", "--close-status-id", "--close-status-name"]

section Prescan

def firstSelection (current next : OutputSelection) : OutputSelection :=
  match current with
  | .auto => next
  | current => current

def OutputOptions.select (options : OutputOptions) (value : String) : OutputOptions :=
  match OutputSelection.parse value with
  | .ok selection => { options with selection := firstSelection options.selection selection }
  | .error _ => options

def prescanFrom (options : OutputOptions) : List String → OutputOptions
  | [] => options
  | token :: rest =>
      if token = "--no-progress" then prescanFrom { options with noProgress := true } rest
      else if token = "--output" then
        match rest with
        | [] => options
        | value :: rest => prescanFrom (options.select value) rest
      else
        match splitInline token "--output" with
        | some value => prescanFrom (options.select value) rest
        | none =>
            if token ∈ valueGlobalOptions then
              match rest with
              | [] => options
              | _ :: rest => prescanFrom options rest
            else if valueGlobalOptions.any fun option => (splitInline token option).isSome then
              prescanFrom options rest
            else options

/-- The presentation of a failure that is reported before the command is known. -/
def prescanPresentation (args : List String) : OutputOptions := prescanFrom .default args

end Prescan

section Globals

structure Globals where
  provider : Option ProviderKind
  apiBase : Option String
  repository : Option String
  projectId : Option String
  closeStatusId : Option String
  closeStatusName : Option String
  selection : Option OutputSelection
  noProgress : Bool
  deriving DecidableEq, Repr

def Globals.unset : Globals := ⟨none, none, none, none, none, none, none, false⟩

def mergeOutput (previous : Option OutputSelection) (next : OutputSelection) :
    Except String OutputSelection :=
  match previous with
  | some previous =>
      if previous ≠ next then .error "--output must not be given twice with different values" else .ok next
  | none => .ok next

def Globals.assign (globals : Globals) (option value : String) : Except String Globals :=
  if option = "--provider" then do
    let kind ← ProviderKind.fromStr value
    return { globals with provider := some kind }
  else if option = "--api-base" then .ok { globals with apiBase := some value }
  else if option = "--repository" then .ok { globals with repository := some value }
  else if option = "--project-id" then .ok { globals with projectId := some value }
  else if option = "--close-status-id" then .ok { globals with closeStatusId := some value }
  else if option = "--close-status-name" then .ok { globals with closeStatusName := some value }
  else do
    let selection ← OutputSelection.parse value
    let merged ← mergeOutput globals.selection selection
    return { globals with selection := some merged }

def assignedOptions : List String := valueGlobalOptions ++ ["--output"]

inductive Stop where
  | help (rest : List String)
  | version
  | command (name : String) (rest : List String)
  deriving DecidableEq, Repr

def unknownOption (value : String) : String := "unknown option '" ++ value ++ "'"

/-- The global options before the command. -/
def parseGlobals (globals : Globals) : List String → Except String (Globals × Stop)
  | [] => .error "a command is required"
  | arg :: rest =>
      if arg = "--help" ∨ arg = "-h" then .ok (globals, .help rest)
      else if arg = "--version" ∨ arg = "-V" then .ok (globals, .version)
      else if arg ∈ assignedOptions then
        match rest with
        | [] => do
            let _ ← requiredValue arg none arg
            throw "a command is required"
        | next :: rest => do
            let value ← requiredValue arg (some next) arg
            let globals ← globals.assign arg value
            parseGlobals globals rest
      else if arg = "--no-progress" then parseGlobals { globals with noProgress := true } rest
      else if "--".toList.isPrefixOf arg.toList then
        match assignedOptions.find? fun option => (splitInline arg option).isSome with
        | none => .error (unknownOption arg)
        | some option => do
            let globals ← globals.assign option ((splitInline arg option).getD "")
            parseGlobals globals rest
      else if isDashed arg then .error (unknownOption arg)
      else .ok (globals, .command arg rest)

end Globals

section Outcome

inductive CallerContext where
  | operator
  | agent (role : Role)
  | managedWithoutRole
  deriving DecidableEq, Repr

def CallerContext.role : CallerContext → Option Role
  | .agent role => some role
  | _ => none

structure CommandSet where
  Parsed : Type
  root : Parsed
  version : Parsed
  help : List String → Except String Parsed
  parse : String → List String → Except String Parsed
  hint : String → String
  legacyFormat : Parsed → List String → Option OutputMode
  deniedOperation : Role → Parsed → Option String
  roleless : Parsed → Bool
  isWorkflow : Parsed → Bool

variable (commands : CommandSet)

structure Invocation where
  role : Option Role
  caller : CallerContext
  globals : Globals
  output : OutputOptions
  command : commands.Parsed

inductive ParseOutcome where
  | invocation (invocation : Invocation commands)
  | permission (role : Role) (operation : String)

def Globals.output (globals : Globals) (legacy : Option OutputMode) : OutputOptions :=
  ⟨globals.selection.getD .auto, globals.noProgress, legacy⟩

def invoked (caller : CallerContext) (globals : Globals) (legacy : Option OutputMode)
    (command : commands.Parsed) : ParseOutcome commands :=
  .invocation ⟨caller.role, caller, globals, globals.output legacy, command⟩

def OutputSelection.mode : OutputSelection → OutputMode
  | .text => .text
  | _ => .json

def agreeFormats (selection : Option OutputSelection) (legacy : Option OutputMode) : Except String Unit :=
  match selection, legacy with
  | some selection, some legacy =>
      refuse (selection ≠ .auto ∧ selection.mode ≠ legacy) ("worktree prune --format " ++ legacy.asStr ++
        " conflicts with --output " ++ selection.asStr)
  | _, _ => .ok ()

def refuseRoleless (caller : CallerContext) (command : commands.Parsed) : Except String Unit :=
  refuse (caller = .managedWithoutRole ∧ commands.roleless command = false)
    "managed session requires a role for operations; set PHASEGENT_ROLE"

def gateCommand (caller : CallerContext) (globals : Globals) (legacy : Option OutputMode)
    (command : commands.Parsed) : Except String (ParseOutcome commands) := do
  refuseRoleless commands caller command
  refuse (globals.closeStatusName.isSome ∧ commands.isWorkflow command = false)
    "--close-status-name is only supported by workflow bootstrap"
  return invoked commands caller globals legacy command

def parseStopped (caller : CallerContext) (globals : Globals) :
    Stop → Except String (ParseOutcome commands)
  | .help rest => (commands.help rest).map (invoked commands caller globals none)
  | .version => .ok (invoked commands caller globals none commands.version)
  | .command name rest => do
      let command ← (commands.parse name rest).mapError commands.hint
      let legacy := commands.legacyFormat command rest
      agreeFormats globals.selection legacy
      match caller.role.bind fun role => (commands.deniedOperation role command).map (role, ·) with
      | some (role, operation) => return .permission role operation
      | none => gateCommand commands caller globals legacy command

def parseOutcomeForCaller (args : List String) (caller : CallerContext) :
    Except String (ParseOutcome commands) :=
  match args with
  | [] => .ok (invoked commands caller .unset none commands.root)
  | args => do
      let (globals, stop) ← parseGlobals .unset args
      parseStopped commands caller globals stop

end Outcome

section Agreement
variable {globals globals' : Globals} {args rest : List String} {option arg value : String} {stop : Stop}

def Globals.presented (globals : Globals) : OutputOptions := globals.output none

theorem merged_first {previous : Option OutputSelection} {next merged : OutputSelection}
    (agreed : mergeOutput previous next = .ok merged) :
    firstSelection (previous.getD .auto) next = merged := by
  cases previous with
  | none => exact Except.ok.inj agreed
  | some previous =>
      by_cases same : previous = next
      · subst same
        simp only [mergeOutput, ne_eq, not_true_eq_false, if_false, Except.ok.injEq] at agreed
        cases previous <;> simpa [firstSelection] using agreed
      · simp [mergeOutput, same] at agreed

theorem assign_output (assigned : globals.assign "--output" value = .ok globals') :
    globals'.presented = globals.presented.select value := by
  unfold Globals.assign at assigned
  rw [if_neg (by decide), if_neg (by decide), if_neg (by decide), if_neg (by decide),
    if_neg (by decide), if_neg (by decide)] at assigned
  simp only [bind_eq_ok, pure_eq, Except.ok.injEq] at assigned
  obtain ⟨selection, parsed, merged, agreed, rfl⟩ := assigned
  simp [Globals.presented, Globals.output, OutputOptions.select, parsed, merged_first agreed]

theorem assign_value (listed : option ∈ valueGlobalOptions)
    (assigned : globals.assign option value = .ok globals') : globals'.presented = globals.presented := by
  unfold Globals.assign at assigned
  split at assigned
  · simp only [bind_eq_ok, pure_eq, Except.ok.injEq] at assigned
    obtain ⟨kind, -, rfl⟩ := assigned
    rfl
  repeat' split at assigned
  iterate 5
    · cases assigned
      rfl
  · exact absurd listed (by simp [valueGlobalOptions, *])

theorem requiredValue_next (plain : splitInline arg option = none)
    (required : requiredValue arg (some rest') option = .ok value) : value = rest' := by
  simp only [requiredValue, plain] at required
  split at required
  · cases required
  · exact (Except.ok.inj required).symm

theorem inline_unique {other value' : String} (plain : '=' ∉ option.toList) (plain' : '=' ∉ other.toList)
    (first : splitInline arg option = some value) (second : splitInline arg other = some value') :
    option = other := by
  obtain ⟨rest, same⟩ := inline_front first
  obtain ⟨rest', same'⟩ := inline_front second
  have taken : ∀ (name : String) (after : List Char), '=' ∉ name.toList →
      (name.toList ++ '=' :: after).takeWhile (· ≠ '=') = name.toList := by
    intro name after absent
    rw [List.takeWhile_append_of_pos]
    · simp
    · intro c among
      simpa using fun equal : c = '=' => absent (equal ▸ among)
  apply String.toList_injective
  rw [← taken option rest plain, ← same, same', taken other rest' plain']

theorem plain_assigned : ∀ option ∈ assignedOptions, '=' ∉ option.toList := by decide

section Steps
variable {options : OutputOptions} {next : String}

theorem prescan_unlisted (flag : arg ≠ "--no-progress") (unlisted : arg ∉ assignedOptions)
    (plain : ∀ option ∈ assignedOptions, splitInline arg option = none) :
    prescanFrom options (arg :: rest) = options := by
  simp only [assignedOptions, List.mem_append, List.mem_singleton, not_or] at unlisted
  have bare : ¬valueGlobalOptions.any fun option => (splitInline arg option).isSome := by
    simp only [List.any_eq_true, not_exists, not_and, Bool.not_eq_true]
    intro option listed
    rw [plain option (List.mem_append_left _ listed)]
    rfl
  unfold prescanFrom
  rw [if_neg flag, if_neg unlisted.2, plain "--output" (by decide)]
  simp only [if_neg unlisted.1, if_neg bare]

theorem prescan_named (listed : arg ∈ valueGlobalOptions) :
    prescanFrom options (arg :: next :: rest) = prescanFrom options rest := by
  have facts : ∀ option ∈ valueGlobalOptions, option ≠ "--no-progress" ∧ option ≠ "--output" ∧
      splitInline option "--output" = none := by decide
  obtain ⟨flag, other, plain⟩ := facts arg listed
  rw [prescanFrom, if_neg flag, if_neg other, plain]
  simp only [if_pos listed]

theorem prescan_output :
    prescanFrom options ("--output" :: value :: rest) = prescanFrom (options.select value) rest := by
  rw [prescanFrom, if_neg (by decide), if_pos rfl]

theorem ne_of_inline {name : String} (plain : '=' ∉ name.toList)
    (joined : splitInline arg option = some value) : arg ≠ name := by
  rintro rfl
  obtain ⟨rest, same⟩ := inline_front joined
  exact plain (by simp [same])

theorem prescan_inline_output (joined : splitInline arg "--output" = some value) :
    prescanFrom options (arg :: rest) = prescanFrom (options.select value) rest := by
  conv_lhs => unfold prescanFrom
  rw [if_neg (ne_of_inline (by decide) joined), if_neg (ne_of_inline (by decide) joined), joined]

theorem prescan_inline_value (listed : option ∈ valueGlobalOptions)
    (joined : splitInline arg option = some value) :
    prescanFrom options (arg :: rest) = prescanFrom options rest := by
  have plain := plain_assigned option (List.mem_append_left _ listed)
  have other : splitInline arg "--output" = none := by
    cases second : splitInline arg "--output" with
    | none => rfl
    | some text =>
        have same := inline_unique plain (by decide) joined second
        subst same
        exact absurd listed (by decide)
  have unlisted : arg ∉ valueGlobalOptions :=
    fun among => ne_of_inline (plain_assigned arg (List.mem_append_left _ among)) joined rfl
  have inline : valueGlobalOptions.any fun option => (splitInline arg option).isSome :=
    List.any_eq_true.mpr ⟨option, listed, by rw [joined]; rfl⟩
  conv_lhs => unfold prescanFrom
  rw [if_neg (ne_of_inline (by decide) joined), if_neg (ne_of_inline (by decide) joined), other]
  simp only [if_neg unlisted, if_pos inline]

end Steps

theorem prescan_agrees (parsed : parseGlobals globals args = .ok (globals', stop)) :
    prescanFrom globals.presented args = globals'.presented := by
  have early : ∀ name ∈ ["--help", "-h", "--version", "-V"], name ≠ "--no-progress" ∧
      name ∉ assignedOptions ∧ ∀ option ∈ assignedOptions, splitInline name option = none := by decide
  fun_induction parseGlobals globals args with
  | case1 => cases parsed
  | case2 globals arg rest help =>
      cases parsed
      obtain ⟨flag, unlisted, plain⟩ := early arg (by simpa using by tauto)
      exact prescan_unlisted flag unlisted plain
  | case3 globals arg rest _ version =>
      cases parsed
      obtain ⟨flag, unlisted, plain⟩ := early arg (by simpa using by tauto)
      exact prescan_unlisted flag unlisted plain
  | case4 globals arg _ _ listed =>
      obtain ⟨_, _, failed⟩ := bind_eq_ok.mp parsed
      cases failed
  | case5 globals arg _ _ listed next rest ih =>
      obtain ⟨value, required, later⟩ := bind_eq_ok.mp parsed
      obtain ⟨assigned, changed, ended⟩ := bind_eq_ok.mp later
      have plain : ∀ option ∈ assignedOptions, splitInline option option = none := by decide
      have given : value = next := requiredValue_next (plain arg listed) required
      rw [given] at changed
      rw [← ih assigned ended]
      obtain named | output := List.mem_append.mp listed
      · rw [prescan_named named, assign_value named changed]
      · obtain rfl := List.mem_singleton.mp output
        rw [prescan_output, assign_output changed]
  | case6 globals rest _ _ _ ih =>
      rw [← ih parsed]
      conv_lhs => unfold prescanFrom
      rfl
  | case7 => cases parsed
  | case8 globals arg rest _ _ _ _ _ option found ih =>
      obtain ⟨assigned, changed, ended⟩ := bind_eq_ok.mp parsed
      have inline : (splitInline arg option).isSome := by simpa using List.find?_some found
      obtain ⟨value, joined⟩ := Option.isSome_iff_exists.mp inline
      rw [joined, Option.getD_some] at changed
      rw [← ih assigned ended]
      obtain named | output := List.mem_append.mp (List.mem_of_find?_eq_some found)
      · rw [prescan_inline_value named joined, assign_value named changed]
      · obtain rfl := List.mem_singleton.mp output
        rw [prescan_inline_output joined, assign_output changed]
  | case9 => cases parsed
  | case10 globals arg rest _ _ unlisted flag _ bare =>
      cases parsed
      apply prescan_unlisted flag unlisted
      have dashed : ∀ option ∈ assignedOptions, isDashed option := by decide
      exact fun option listed => splitInline_of_bare (dashed option listed) (by simpa using bare)

variable {commands : CommandSet} {caller : CallerContext} {invocation : Invocation commands}

theorem stopped_output (stopped : parseStopped commands caller globals stop = .ok (.invocation invocation)) :
    invocation.output.selection = globals.presented.selection ∧
      invocation.output.noProgress = globals.presented.noProgress := by
  cases stop with
  | help rest =>
      obtain ⟨command, -, same⟩ := map_eq_ok.mp stopped
      cases same
      exact ⟨rfl, rfl⟩
  | version =>
      cases stopped
      exact ⟨rfl, rfl⟩
  | command name rest =>
      obtain ⟨command, -, stopped⟩ := bind_eq_ok.mp stopped
      obtain ⟨_, -, stopped⟩ := bind_eq_ok.mp stopped
      split at stopped
      · cases stopped
      · simp only [gateCommand, bind_eq_ok, pure_eq, Except.ok.injEq] at stopped
        obtain ⟨_, -, _, -, same⟩ := stopped
        cases same
        exact ⟨rfl, rfl⟩

/-- The prescan shows an invocation the way the parser does, for every line that is accepted. -/
theorem presentation_agrees
    (accepted : parseOutcomeForCaller commands args caller = .ok (.invocation invocation)) :
    (prescanPresentation args).selection = invocation.output.selection ∧
      (prescanPresentation args).noProgress = invocation.output.noProgress := by
  cases args with
  | nil =>
      cases accepted
      exact ⟨rfl, rfl⟩
  | cons arg rest =>
      obtain ⟨⟨globals, stop⟩, parsed, stopped⟩ := bind_eq_ok.mp accepted
      have prescanned : prescanPresentation (arg :: rest) = globals.presented := prescan_agrees parsed
      rw [prescanned]
      exact ⟨(stopped_output stopped).1.symm, (stopped_output stopped).2.symm⟩

end Agreement

section Example

def named : CommandSet where
  Parsed := String
  root := "help"
  version := "version"
  help _ := .ok "help"
  parse name _ := .ok name
  hint := id
  legacyFormat _ _ := none
  deniedOperation _ _ := none
  roleless _ := false
  isWorkflow _ := false

theorem repeated_output :
    (prescanPresentation ["--output=json", "--no-progress", "--output", "json", "doctor"]).selection = .json ∧
      (prescanPresentation ["--output=json", "--no-progress", "--output", "json", "doctor"]).noProgress := by
  have accepted : parseOutcomeForCaller named
      ["--output=json", "--no-progress", "--output", "json", "doctor"] .operator =
        .ok (.invocation ⟨none, .operator, { Globals.unset with selection := some .json, noProgress := true },
          ⟨.json, true, none⟩, "doctor"⟩) := by
    rfl
  exact presentation_agrees accepted

end Example

end Phasegent.Command
