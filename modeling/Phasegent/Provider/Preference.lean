import Mathlib
import Phasegent.Provider.Endpoint
import Phasegent.Record.Spec

namespace Phasegent.Preference
open Fallible
open Record (Role)

structure ConfigOverlay where
  defaultProvider : Option ProviderKind
  roleProvider : Role → Option ProviderKind

structure SettingTable where
  columns : List String
  value : String → Option (Option String)

structure RoleTable where
  columns : List String
  provider : Role → Option (Option String)

structure StoreFile where
  globalSetting : Option SettingTable
  roleConfig : Option RoleTable

structure ProviderInputs where
  role : Option Role
  explicit : Option ProviderKind
  envProvider : Option String
  envDefault : Option String
  overlay : Except String (Option ConfigOverlay)
  -- Whether the database can be read, and whether it can be opened for writing.
  inspection : Except String Unit
  opening : Except String Unit
  file : Option StoreFile
  projectId : Option String
  forgejo : Except PhasegentError ForgejoConfig

section Stores

def loadGlobalSetting (table : SettingTable) (name : String) : Except String (Option String) :=
  match table.value name with
  | none => .ok none
  | some none => .error "could not read global setting: Invalid column type Null at index: 0, name: value"
  | some (some value) => .ok (if trimText value = "" then none else some (trimText value))

def roleColumns : List String := ["role", "provider", "api_base", "repository"]

/-- The provider column of the role's row, if the table is of this version. -/
def storedRoleConfig (file : Option StoreFile) (role : Role) : Option (Option String) := do
  let table ← (← file).roleConfig
  guard (roleColumns.all table.columns.contains)
  table.provider role

def initialise (file : Option StoreFile) : StoreFile where
  globalSetting := some ((file.bind (·.globalSetting)).getD ⟨["name", "value"], fun _ => none⟩)
  roleConfig := some ((file.bind (·.roleConfig)).getD ⟨roleColumns, fun _ => none⟩)

end Stores

section Resolution
variable (inputs : ProviderInputs)

def ProviderInputs.effective : Role := inputs.role.getD .orchestrator

def openExistingReadOnly : Except String (Option StoreFile) := do
  inputs.inspection
  return inputs.file

def openStorage : Except String StoreFile := do
  inputs.opening
  return initialise inputs.file

/-- The role's provider as stored, under the overlay; the outer option is the presence of a configuration. -/
def loadConfigIfPresent (file : Option StoreFile) : Except String (Option (Option String)) := do
  let base := storedRoleConfig file inputs.effective
  match ← inputs.overlay with
  | none => return base
  | some overlay =>
      match overlay.roleProvider inputs.effective with
      | none => return base
      | some kind => return some (some kind.asStr)

def globalDefaultProvider : String := "PHASEGENT_DEFAULT_PROVIDER"

def persistedDefault (file : Option StoreFile) : Except String (Option String) :=
  match file.bind (·.globalSetting) with
  | none => .ok none
  | some table =>
      if ¬("name" ∈ table.columns ∧ "value" ∈ table.columns) then .ok none
      else loadGlobalSetting table globalDefaultProvider

def parseProvider (text : String) : Except PhasegentError ProviderKind :=
  (ProviderKind.fromStr text).mapError .config

def chosenBehindEnv : Except PhasegentError (Option ProviderKind) := do
  match (← inputs.overlay.mapError .config).bind (·.defaultProvider) with
  | some kind => return some (← parseProvider kind.asStr)
  | none =>
      let file ← (openExistingReadOnly inputs).mapError .config
      match ← (persistedDefault file).mapError .config with
      | some value => return some (← parseProvider value)
      | none =>
          match (← (loadConfigIfPresent inputs file).mapError .config).join with
          | some provider => return some (← parseProvider provider)
          | none => return none

def chosenKind : Except PhasegentError (Option ProviderKind) :=
  match inputs.explicit with
  | some kind => .ok (some kind)
  | none =>
      match inputs.envProvider with
      | some text => (parseProvider text).map some
      | none =>
          match (inputs.envDefault.map trimText).filter (· ≠ "") with
          | some text => (parseProvider text).map some
          | none => chosenBehindEnv inputs

def resolveKind : Except PhasegentError ProviderKind := do return (← chosenKind inputs).getD .redmine

end Resolution

section LinkScope
variable (inputs : ProviderInputs)

structure LinkScope where
  provider : String
  project : String
  deriving DecidableEq, Repr

def unscoped (detail : String) : String := "cannot scope branch link: " ++ detail

def storedProvider : Except String (Option String) :=
  match openStorage inputs with
  | .error _ => .ok none
  | .ok file => do
      let config ← (loadConfigIfPresent inputs (some file)).mapError fun error =>
        unscoped ("could not read stored config: " ++ error)
      return (config.join.map trimText).filter (· ≠ "")

def envLiteral : Option String :=
  ([inputs.envProvider, inputs.envDefault].filterMap fun raw => (raw.map trimText).filter (· ≠ "")).head?

def selectProviderLiteral : Except String (Option String) :=
  match inputs.explicit with
  | some kind => .ok (some kind.asStr)
  | none =>
      match envLiteral inputs with
      | some text => ((ProviderKind.fromStr text).mapError unscoped).map (some ·.asStr)
      | none => storedProvider inputs

def scopeFor (literal : String) : Except String LinkScope :=
  if literal = "redmine" then
    match (inputs.projectId.map trimText).filter (· ≠ "") with
    | some project => .ok ⟨"redmine", project⟩
    | none => .error ("cannot scope branch link: redmine links need an explicit --project-id; " ++
        "refusing to assign the issue without a project")
  else if literal = "local" then .ok ⟨"local", "default"⟩
  else if literal = "forgejo" then
    match inputs.forgejo with
    | .ok config => .ok ⟨"forgejo", config.repository⟩
    | .error error => .error (unscoped error.message)
  else .error (unscoped ("unknown provider '" ++ literal ++ "'"))

def resolveLinkScope : Except String (Option LinkScope) := do
  match ← selectProviderLiteral inputs with
  | none => return none
  | some literal => return some (← scopeFor inputs literal)

end LinkScope

section Agreement
variable (inputs : ProviderInputs)

/-- A branch link is recorded for the provider that numbered commands run against. -/
structure SameProvider : Prop where
  same : ∀ scope kind, resolveLinkScope inputs = .ok (some scope) → resolveKind inputs = .ok kind →
    scope.provider = kind.asStr
  fallback : resolveLinkScope inputs = .ok none → chosenKind inputs = .ok none

/-- No source names a provider for a link: the role has none, or the database cannot be opened. -/
def Unlinked : Prop :=
  (∃ e, inputs.opening = .error e) ∨
    ∃ config, loadConfigIfPresent inputs inputs.file = .ok config ∧ ∀ text ∈ config.join, trimText text = ""

structure Unnamed : Prop where
  readable : inputs.inspection = .ok ()
  overlay : ∃ overlay, inputs.overlay = .ok overlay ∧ overlay.bind (·.defaultProvider) = none
  persisted : persistedDefault inputs.file = .ok none
  role : ∃ config, loadConfigIfPresent inputs inputs.file = .ok config ∧ config.join = none

/-- The machine-wide default, which links do not read, names another provider than the role's. -/
def Overruled : Prop :=
  inputs.opening = .ok () ∧ ∃ overlay config text, inputs.overlay = .ok overlay ∧
    loadConfigIfPresent inputs inputs.file = .ok config ∧ config.join = some text ∧
    (∃ scope, scopeFor inputs (trimText text) = .ok scope) ∧
    ∃ kind : ProviderKind, kind.asStr ≠ trimText text ∧
      (overlay.bind (·.defaultProvider) = some kind ∨
        (overlay.bind (·.defaultProvider) = none ∧ inputs.inspection = .ok () ∧
          persistedDefault inputs.file = .ok (some kind.asStr)))

def Parts : Prop :=
  inputs.explicit = none ∧ (∀ text ∈ inputs.envDefault, trimText text = "") ∧
    ((∃ text ∈ inputs.envProvider, trimText text = "" ∧ Unlinked inputs) ∨
      (inputs.envProvider = none ∧ ((Unlinked inputs ∧ ¬Unnamed inputs) ∨ Overruled inputs)))

end Agreement

section Literals
variable {inputs : ProviderInputs}

theorem asStr_settled (kind : ProviderKind) : trimText kind.asStr = kind.asStr ∧ kind.asStr ≠ "" := by
  cases kind <;> decide

theorem parseProvider_asStr (kind : ProviderKind) : parseProvider kind.asStr = .ok kind := by
  cases kind <;> decide

theorem parseProvider_ok {text : String} {kind : ProviderKind} (parsed : parseProvider text = .ok kind) :
    text = kind.asStr := by
  rw [parseProvider, mapError_eq_ok] at parsed
  exact ProviderKind.fromStr_ok parsed

theorem parseProvider_blank {text : String} (blank : trimText text = "") (kind : ProviderKind) :
    parseProvider text ≠ .ok kind := by
  intro parsed
  obtain ⟨whole, filled⟩ := asStr_settled kind
  rw [parseProvider_ok parsed, whole] at blank
  exact filled blank

theorem scopeFor_provider {literal : String} {scope : LinkScope} (found : scopeFor inputs literal = .ok scope) :
    scope.provider = literal := by
  unfold scopeFor at found
  split at found
  · next same =>
      split at found
      · cases found
        exact same.symm
      · cases found
  split at found
  · next same =>
      cases found
      exact same.symm
  split at found
  · next same =>
      split at found
      · cases found
        exact same.symm
      · cases found
  · cases found

theorem filter_blank {given : Option String} :
    (given.map trimText).filter (· ≠ "") = none ↔ ∀ text ∈ given, trimText text = "" := by
  cases given with
  | none => simp
  | some text => by_cases blank : trimText text = "" <;> simp [Option.filter, blank]

theorem filter_filled {given : Option String} {literal : String} :
    (given.map trimText).filter (· ≠ "") = some literal ↔ ∃ text, given = some text ∧ trimText text = literal ∧
      literal ≠ "" := by
  cases given with
  | none => simp
  | some text =>
      by_cases blank : trimText text = ""
      · simp [Option.filter, blank]
      · simp only [Option.map_some, Option.filter, blank, ne_eq, not_false_eq_true, decide_true, if_true,
          Option.some.injEq, exists_eq_left']
        exact ⟨fun same => ⟨same, same ▸ blank⟩, fun same => same.1⟩

theorem resolveLinkScope_none :
    resolveLinkScope inputs = .ok none ↔ selectProviderLiteral inputs = .ok none := by
  unfold resolveLinkScope
  cases selected : selectProviderLiteral inputs with
  | error e => simp
  | ok literal => cases literal <;> simp

theorem resolveLinkScope_some {scope : LinkScope} (found : resolveLinkScope inputs = .ok (some scope)) :
    selectProviderLiteral inputs = .ok (some scope.provider) ∧ scopeFor inputs scope.provider = .ok scope := by
  unfold resolveLinkScope at found
  simp only [bind_eq_ok] at found
  obtain ⟨literal, selected, found⟩ := found
  cases literal with
  | none => simp at found
  | some literal =>
      simp only [bind_eq_ok, pure_eq, Except.ok.injEq, Option.some.injEq, exists_eq_right] at found
      have provider := scopeFor_provider found
      subst provider
      exact ⟨selected, found⟩

theorem resolveKind_ok {kind : ProviderKind} :
    resolveKind inputs = .ok kind ↔ ∃ chosen, chosenKind inputs = .ok chosen ∧ chosen.getD .redmine = kind := by
  simp [resolveKind]

end Literals

section Stored
variable {inputs : ProviderInputs}

theorem loadConfig_initialise (file : Option StoreFile) :
    loadConfigIfPresent inputs (some (initialise file)) = loadConfigIfPresent inputs file := by
  have same : storedRoleConfig (some (initialise file)) inputs.effective =
      storedRoleConfig file inputs.effective := by
    cases file with
    | none => simp [storedRoleConfig, initialise]
    | some file => cases file with | mk settings roles => cases roles <;> simp [storedRoleConfig, initialise]
  rw [loadConfigIfPresent, loadConfigIfPresent, same]

theorem storedProvider_none : storedProvider inputs = .ok none ↔ Unlinked inputs := by
  unfold storedProvider openStorage Unlinked
  cases opens : inputs.opening with
  | error e => simp
  | ok u =>
      simp only [ok_bind, pure_eq, loadConfig_initialise, bind_eq_ok, mapError_eq_ok, Except.ok.injEq,
        filter_blank]
      simp

theorem storedProvider_some {literal : String} (stored : storedProvider inputs = .ok (some literal)) :
    inputs.opening = .ok () ∧ ∃ config text, loadConfigIfPresent inputs inputs.file = .ok config ∧
      config.join = some text ∧ trimText text = literal := by
  unfold storedProvider openStorage at stored
  cases opens : inputs.opening with
  | error e => simp [opens] at stored
  | ok u =>
      simp only [opens, ok_bind, pure_eq, loadConfig_initialise, bind_eq_ok, mapError_eq_ok, Except.ok.injEq,
        filter_filled] at stored
      obtain ⟨config, loaded, text, given, same, -⟩ := stored
      exact ⟨rfl, config, text, loaded, given, same⟩

end Stored

section Main
variable {inputs : ProviderInputs}

theorem chosenBehindEnv_none : chosenBehindEnv inputs = .ok none ↔ Unnamed inputs := by
  constructor
  · intro chosen
    simp only [chosenBehindEnv, bind_eq_ok, mapError_eq_ok] at chosen
    obtain ⟨overlay, known, chosen⟩ := chosen
    cases named : overlay.bind (·.defaultProvider) with
    | some kind => simp [named] at chosen
    | none =>
        simp only [named, openExistingReadOnly, bind_eq_ok, mapError_eq_ok, pure_eq, Except.ok.injEq] at chosen
        obtain ⟨file, ⟨_, readable, rfl⟩, persisted, held, chosen⟩ := chosen
        cases persisted with
        | some value => simp at chosen
        | none =>
            simp only [bind_eq_ok, mapError_eq_ok] at chosen
            obtain ⟨config, loaded, chosen⟩ := chosen
            cases given : config.join with
            | some text => simp [given] at chosen
            | none => exact ⟨readable, ⟨overlay, known, named⟩, held, ⟨config, loaded, given⟩⟩
  · rintro ⟨readable, ⟨overlay, known, named⟩, held, ⟨config, loaded, given⟩⟩
    simp [chosenBehindEnv, openExistingReadOnly, known, named, readable, held, loaded, given, Except.mapError]

theorem chosenBehindEnv_some {kind : ProviderKind} (chosen : chosenBehindEnv inputs = .ok (some kind)) :
    ∃ overlay, inputs.overlay = .ok overlay ∧ (overlay.bind (·.defaultProvider) = some kind ∨
      (overlay.bind (·.defaultProvider) = none ∧ inputs.inspection = .ok () ∧
        (persistedDefault inputs.file = .ok (some kind.asStr) ∨
          ∃ config, loadConfigIfPresent inputs inputs.file = .ok config ∧ config.join = some kind.asStr))) := by
  simp only [chosenBehindEnv, bind_eq_ok, mapError_eq_ok] at chosen
  obtain ⟨overlay, known, chosen⟩ := chosen
  refine ⟨overlay, known, ?_⟩
  cases named : overlay.bind (·.defaultProvider) with
  | some other =>
      simp only [named, parseProvider_asStr, ok_bind, pure_eq, Except.ok.injEq, Option.some.injEq] at chosen
      exact Or.inl (by rw [chosen])
  | none =>
      simp only [named, openExistingReadOnly, bind_eq_ok, mapError_eq_ok, pure_eq, Except.ok.injEq] at chosen
      obtain ⟨file, ⟨_, readable, rfl⟩, persisted, held, chosen⟩ := chosen
      refine Or.inr ⟨rfl, readable, ?_⟩
      cases persisted with
      | some value =>
          simp only [bind_eq_ok, Except.ok.injEq, Option.some.injEq, exists_eq_right] at chosen
          exact Or.inl (by rw [held, parseProvider_ok chosen])
      | none =>
          simp only [bind_eq_ok, mapError_eq_ok] at chosen
          obtain ⟨config, loaded, chosen⟩ := chosen
          cases given : config.join with
          | none => simp [given] at chosen
          | some text =>
              simp only [given, bind_eq_ok, Except.ok.injEq, Option.some.injEq, exists_eq_right] at chosen
              exact Or.inr ⟨config, loaded, by rw [given, parseProvider_ok chosen]⟩

theorem chosenBehindEnv_default {overlay : Option ConfigOverlay} {kind : ProviderKind}
    (known : inputs.overlay = .ok overlay)
    (names : overlay.bind (·.defaultProvider) = some kind ∨ (overlay.bind (·.defaultProvider) = none ∧
      inputs.inspection = .ok () ∧ persistedDefault inputs.file = .ok (some kind.asStr))) :
    chosenBehindEnv inputs = .ok (some kind) := by
  cases names with
  | inl named => simp [chosenBehindEnv, known, named, parseProvider_asStr, Except.mapError]
  | inr held =>
      obtain ⟨named, readable, persisted⟩ := held
      simp [chosenBehindEnv, openExistingReadOnly, known, named, readable, persisted, parseProvider_asStr,
        Except.mapError]

theorem sameProvider_behindEnv (chosen : chosenKind inputs = chosenBehindEnv inputs)
    (selected : selectProviderLiteral inputs = storedProvider inputs) :
    SameProvider inputs ↔ ¬((Unlinked inputs ∧ ¬Unnamed inputs) ∨ Overruled inputs) := by
  constructor
  · intro ⟨same, fallback⟩ parts
    cases parts with
    | inl apart =>
        have none : resolveLinkScope inputs = .ok none := by
          rw [resolveLinkScope_none, selected, storedProvider_none]
          exact apart.1
        have fell := fallback none
        rw [chosen, chosenBehindEnv_none] at fell
        exact apart.2 fell
    | inr overruled =>
        obtain ⟨opens, overlay, config, text, known, loaded, given, ⟨scope, found⟩, kind, other, names⟩ := overruled
        have filled : trimText text ≠ "" := by
          intro blank
          rw [blank] at found
          simp [scopeFor] at found
        have stored : storedProvider inputs = .ok (some (trimText text)) := by
          simp only [storedProvider, openStorage, opens, ok_bind, pure_eq, loadConfig_initialise, loaded,
            Except.mapError]
          exact congrArg Except.ok (filter_filled.mpr ⟨text, given, rfl, filled⟩)
        have linked : resolveLinkScope inputs = .ok (some scope) := by
          simp [resolveLinkScope, selected, stored, found]
        have kinds : resolveKind inputs = .ok kind := by
          rw [resolveKind_ok, chosen, chosenBehindEnv_default known names]
          exact ⟨some kind, rfl, rfl⟩
        exact other ((same scope kind linked kinds).symm.trans (scopeFor_provider found))
  · intro together
    rw [not_or, not_and, not_not] at together
    constructor
    · intro scope kind linked kinds
      obtain ⟨literal, found⟩ := resolveLinkScope_some linked
      rw [selected] at literal
      obtain ⟨opens, config, text, loaded, given, same⟩ := storedProvider_some literal
      rw [resolveKind_ok, chosen] at kinds
      obtain ⟨result, chosen', default⟩ := kinds
      cases result with
      | none =>
          rw [chosenBehindEnv_none] at chosen'
          obtain ⟨config', loaded', absent⟩ := chosen'.role
          rw [loaded] at loaded'
          cases loaded'
          rw [given] at absent
          cases absent
      | some chosenOne =>
          obtain rfl : chosenOne = kind := default
          obtain ⟨overlay, known, source⟩ := chosenBehindEnv_some chosen'
          by_contra other
          have overruled : ∀ names, Overruled inputs := fun names =>
            ⟨opens, overlay, config, text, known, loaded, given, ⟨scope, same ▸ found⟩, chosenOne,
              fun equal => other (same.symm.trans equal.symm), names⟩
          rcases source with named | ⟨named, readable, persisted | ⟨config', loaded', role⟩⟩
          · exact together.2 (overruled (Or.inl named))
          · exact together.2 (overruled (Or.inr ⟨named, readable, persisted⟩))
          · rw [loaded] at loaded'
            cases loaded'
            rw [given] at role
            cases role
            exact other (same.symm.trans (asStr_settled chosenOne).1)
    · intro none
      rw [resolveLinkScope_none, selected, storedProvider_none] at none
      rw [chosen, chosenBehindEnv_none]
      exact together.1 none

theorem sameProvider_of_literal {text : String} (bare : inputs.explicit = none) (given : envLiteral inputs = some text)
    (kinds : ∀ kind, resolveKind inputs = .ok kind → trimText text = kind.asStr) (settled : trimText text = text) :
    SameProvider inputs := by
  have selected : selectProviderLiteral inputs = ((ProviderKind.fromStr text).mapError unscoped).map (some ·.asStr) := by
    rw [selectProviderLiteral, bare]
    simp only [given]
  constructor
  · intro scope kind linked chosen
    obtain ⟨literal, -⟩ := resolveLinkScope_some linked
    rw [selected, map_eq_ok] at literal
    obtain ⟨other, parsed, same⟩ := literal
    rw [mapError_eq_ok] at parsed
    have spelled := ProviderKind.fromStr_ok parsed
    rw [← Option.some.inj same, ← spelled, ← settled]
    exact kinds kind chosen
  · intro none
    rw [resolveLinkScope_none, selected, map_eq_ok] at none
    obtain ⟨other, -, absurd⟩ := none
    cases absurd

theorem sameProvider_of_explicit {kind : ProviderKind} (explicit : inputs.explicit = some kind) :
    SameProvider inputs := by
  have selected : selectProviderLiteral inputs = .ok (some kind.asStr) := by
    rw [selectProviderLiteral, explicit]
  have chosen : chosenKind inputs = .ok (some kind) := by
    rw [chosenKind, explicit]
  constructor
  · intro scope other linked kinds
    obtain ⟨literal, -⟩ := resolveLinkScope_some linked
    rw [selected] at literal
    rw [resolveKind_ok, chosen] at kinds
    obtain ⟨found, same, rfl⟩ := kinds
    rw [← Except.ok.inj same]
    exact (Option.some.inj (Except.ok.inj literal)).symm
  · intro none
    rw [resolveLinkScope_none, selected] at none
    cases none

theorem parts_silent (bare : inputs.explicit = none) (blank : ∀ text ∈ inputs.envDefault, trimText text = "") :
    Parts inputs ↔ (∃ text ∈ inputs.envProvider, trimText text = "" ∧ Unlinked inputs) ∨
      (inputs.envProvider = none ∧ ((Unlinked inputs ∧ ¬Unnamed inputs) ∨ Overruled inputs)) :=
  (and_iff_right bare).trans (and_iff_right blank)

theorem filter_some {text : String} : (((some text).map trimText).filter (· ≠ "") = none ↔ trimText text = "") ∧
    (trimText text ≠ "" → ((some text).map trimText).filter (· ≠ "") = some (trimText text)) := by
  by_cases blank : trimText text = "" <;> simp [Option.filter, blank]

theorem sameProvider_blank {raw : String} (bare : inputs.explicit = none) (env : inputs.envProvider = some raw)
    (blank : trimText raw = "") (silent : envLiteral inputs = none) : SameProvider inputs ↔ ¬Unlinked inputs := by
  have refused : ∀ chosen, chosenKind inputs ≠ .ok chosen := by
    intro chosen accepted
    simp only [chosenKind, bare, env, map_eq_ok] at accepted
    obtain ⟨kind, parsed, -⟩ := accepted
    exact parseProvider_blank blank kind parsed
  have selected : selectProviderLiteral inputs = storedProvider inputs := by
    simp only [selectProviderLiteral, bare, silent]
  rw [← storedProvider_none, ← selected, ← resolveLinkScope_none]
  constructor
  · intro same none
    exact refused _ (same.fallback none)
  · intro linked
    constructor
    · intro scope kind _ kinds
      obtain ⟨chosen, accepted, -⟩ := resolveKind_ok.mp kinds
      exact absurd accepted (refused chosen)
    · intro none
      exact absurd none linked

theorem spelled_of_env {raw : String} {kind : ProviderKind} (bare : inputs.explicit = none)
    (env : inputs.envProvider = some raw) (kinds : resolveKind inputs = .ok kind) : trimText raw = kind.asStr := by
  obtain ⟨chosen, accepted, own⟩ := resolveKind_ok.mp kinds
  simp only [chosenKind, bare, env, map_eq_ok] at accepted
  obtain ⟨named, parsed, rfl⟩ := accepted
  obtain rfl : named = kind := own
  rw [parseProvider_ok parsed, (asStr_settled named).1]

theorem sameProvider_of_env {raw : String} (bare : inputs.explicit = none) (env : inputs.envProvider = some raw)
    (filled : trimText raw ≠ "") : SameProvider inputs := by
  have given : envLiteral inputs = some (trimText raw) := by
    simp only [envLiteral, env, List.filterMap_cons, filter_some.2 filled, List.head?_cons]
  apply sameProvider_of_literal bare given ?_ (trimText_trimText raw)
  intro kind kinds
  rw [trimText_trimText]
  exact spelled_of_env bare env kinds

theorem sameProvider_of_default {text : String} (bare : inputs.explicit = none)
    (blank : ∀ raw ∈ inputs.envProvider, trimText raw = "")
    (default : (inputs.envDefault.map trimText).filter (· ≠ "") = some text) : SameProvider inputs := by
  have given : envLiteral inputs = some text := by
    simp only [envLiteral, List.filterMap_cons, filter_blank.mpr blank, default, List.head?_cons]
  have settled : trimText text = text := by
    obtain ⟨raw, -, rfl, -⟩ := filter_filled.mp default
    exact trimText_trimText raw
  apply sameProvider_of_literal bare given ?_ settled
  intro kind kinds
  cases env : inputs.envProvider with
  | none =>
      obtain ⟨chosen, accepted, own⟩ := resolveKind_ok.mp kinds
      simp only [chosenKind, bare, env, default, map_eq_ok] at accepted
      obtain ⟨named, parsed, rfl⟩ := accepted
      obtain rfl : named = kind := own
      rw [settled, parseProvider_ok parsed]
  | some raw =>
      have spelled := spelled_of_env bare env kinds
      exact absurd (spelled.symm.trans (blank raw env)) (asStr_settled kind).2

theorem same_provider_iff (inputs : ProviderInputs) : SameProvider inputs ↔ ¬Parts inputs := by
  cases bare : inputs.explicit with
  | some kind => exact iff_of_true (sameProvider_of_explicit bare) fun parts => by simp [Parts, bare] at parts
  | none =>
      by_cases silent : ∀ text ∈ inputs.envDefault, trimText text = ""
      · have default := filter_blank.mpr silent
        rw [parts_silent bare silent]
        cases env : inputs.envProvider with
        | none =>
            have quiet : envLiteral inputs = none := by
              simp only [envLiteral, env, List.filterMap_cons, Option.map_none, Option.filter_none, default,
                List.filterMap_nil, List.head?_nil]
            rw [sameProvider_behindEnv]
            · simp
            · simp only [chosenKind, bare, env, default]
            · simp only [selectProviderLiteral, bare, quiet]
        | some raw =>
            by_cases blank : trimText raw = ""
            · have quiet : envLiteral inputs = none := by
                simp only [envLiteral, env, List.filterMap_cons, filter_some.1.mpr blank, default,
                  List.filterMap_nil, List.head?_nil]
              rw [sameProvider_blank bare env blank quiet]
              simp [blank]
            · exact iff_of_true (sameProvider_of_env bare env blank) (by simp [blank])
      · have loud : ¬Parts inputs := fun parts => silent parts.2.1
        by_cases blank : ∀ raw ∈ inputs.envProvider, trimText raw = ""
        · rw [← filter_blank] at silent
          obtain ⟨text, default⟩ := Option.ne_none_iff_exists'.mp silent
          exact iff_of_true (sameProvider_of_default bare blank default) loud
        · push Not at blank
          obtain ⟨raw, env, filled⟩ := blank
          exact iff_of_true (sameProvider_of_env bare env filled) loud

end Main

section Samples

def overruledInputs : ProviderInputs where
  role := none
  explicit := none
  envProvider := none
  envDefault := none
  overlay := .ok (some ⟨some .localStore, fun _ => none⟩)
  inspection := .ok ()
  opening := .ok ()
  file := some ⟨none, some ⟨roleColumns, fun _ => some (some "redmine")⟩⟩
  projectId := some "1"
  forgejo := .error (.config "Forgejo role configuration is not present")

theorem overlay_overrules_link : ¬∀ inputs : ProviderInputs, SameProvider inputs := by
  intro same
  have linked : resolveLinkScope overruledInputs = .ok (some ⟨"redmine", "1"⟩) := by decide
  have kinds : resolveKind overruledInputs = .ok .localStore := by decide
  have equal := (same overruledInputs).same _ _ linked kinds
  exact absurd equal (by decide)

end Samples

end Phasegent.Preference
