import Phasegent.Provider.Endpoint
import Phasegent.Text.Decimal

namespace Phasegent.Task
open Fallible

def maxFieldChars : Nat := 512

def i64Max : Nat := 2 ^ 63 - 1

structure TaskKey where
  provider : String
  inst : String
  project : String
  externalId : String
  deriving DecidableEq, Repr

structure TaskBinding where
  taskId : Int
  key : TaskKey
  createdAt : Int
  deriving DecidableEq, Repr

theorem trimText_toString (number : Nat) : trimText (toString number) = toString number := by
  have digits : ∀ c ∈ (toString number).toList, Text.isWhitespace c = false := by
    intro c member
    have text : (toString number).toList = Nat.toDigits 10 number := Nat.toList_repr
    rw [text] at member
    have range := Text.isDigit_iff.mp (Nat.isDigit_of_mem_toDigits (by omega) (by omega) member)
    simp only [Text.isWhitespace, Bool.or_eq_false_iff, Bool.and_eq_false_iff, decide_eq_false_iff_not,
      beq_eq_false_iff_ne]
    omega
  rw [trimText, Text.trim_eq_self digits, String.ofList_toList]

def validateField (value field : String) : Except String String := do
  let trimmed := trimText value
  refuse (trimmed = "") ("task " ++ field ++ " must be non-empty")
  refuse (trimmed.toList.any Text.isControl)
    ("task " ++ field ++ " must not contain control characters")
  refuse (maxFieldChars < trimmed.toList.length) ("task " ++ field ++ " is too long")
  return trimmed

def validateExternalId (value : String) : Except String String := do
  let trimmed ← validateField value "external id"
  -- The source counts bytes here, which agrees for a text that starts with a zero digit.
  refuse (1 < trimmed.toList.length ∧ trimmed.toList.head? = some '0')
    "task external id must not have leading zeros"
  match Text.parseU64 trimmed.toList with
  | none => throw "task external id must be a positive decimal number"
  | some number =>
      refuse (number = 0 ∨ i64Max < number) "task external id must be a positive decimal number"
      return trimmed

section Keys
variable (urls : UrlLibrary)

def canonicalInstance (provider : ProviderKind) (endpoint : Option String) (project : String) :
    Except String String :=
  match provider with
  | .localStore => do
      refuse (project ≠ "default") "Local task project must be 'default'"
      return "local"
  | .forgejo =>
      match endpoint with
      | none => throw "Forgejo task identity requires an instance endpoint"
      | some endpoint => do
          let config ← (ForgejoConfig.new urls endpoint project).mapError fun error =>
            "invalid Forgejo task instance: " ++ error.message
          return config.apiBase
  | .redmine =>
      match endpoint with
      | none => throw "Redmine task identity requires an instance endpoint"
      | some endpoint => do
          let url ← (urls.parse endpoint).mapError ("invalid Redmine task instance: " ++ ·)
          refuse (urls.username url ≠ "" ∨ (urls.password url).isSome)
            "Redmine task instance must not include userinfo"
          (normalizeRedmineApiBase urls endpoint).mapError ("invalid Redmine task instance: " ++ ·)

def taskInstance (kind : ProviderKind) (inst project : String) : Except String String :=
  match kind with
  | .localStore => do
      let inst ← validateField inst "instance"
      refuse (inst ≠ "local") "Local task instance must be 'local'"
      canonicalInstance urls kind none project
  | .redmine | .forgejo => canonicalInstance urls kind (some inst) project

def TaskKey.new (provider inst project externalId : String) : Except String TaskKey := do
  let provider ← validateField provider "provider"
  let providerRaw := String.ofList (Text.toAsciiLower provider.toList)
  let kind ← (ProviderKind.fromStr providerRaw).mapError ("invalid task provider: " ++ ·)
  let project ← validateField project "project"
  let externalId ← validateExternalId externalId
  let inst ← taskInstance urls kind inst project
  return ⟨providerRaw, inst, project, externalId⟩

def TaskKey.externalNumber (key : TaskKey) : Option Nat := Text.parseU64 key.externalId.toList

structure BindingRow where
  taskId : Int
  provider : String
  inst : String
  project : String
  externalId : String
  createdAt : Int
  deriving DecidableEq, Repr

def TaskKey.row (key : TaskKey) (taskId createdAt : Int) : BindingRow :=
  ⟨taskId, key.provider, key.inst, key.project, key.externalId, createdAt⟩

def decodeBinding (row : BindingRow) : Except String TaskBinding := do
  refuse (row.taskId ≤ 0) "stored task binding has a non-positive task id"
  refuse (row.createdAt ≤ 0) "stored task binding has an invalid timestamp"
  let key ← (TaskKey.new urls row.provider row.inst row.project row.externalId).mapError
    ("stored task binding is corrupt: " ++ ·)
  refuse (key ≠ ⟨row.provider, row.inst, row.project, row.externalId⟩)
    "stored task binding is not canonical"
  return ⟨row.taskId, key, row.createdAt⟩

end Keys

def validateRepoKey (repoKey : String) : Except String String := do
  refuse (trimText repoKey = "") "task repo key must be non-empty"
  refuse (repoKey.toList.any Text.isControl) "task repo key must not contain control characters"
  refuse (maxFieldChars < repoKey.toList.length) "task repo key is too long"
  return repoKey

end Phasegent.Task
