import Phasegent.Provider.Endpoint
import Phasegent.Record.Spec
import Phasegent.Sql.Transaction
import Phasegent.Text.Decimal

namespace Phasegent.Auth
open Fallible Interleaving
open Record (Role)

structure CredentialRow where
  credential : String
  fingerprint : Option String
  updatedAt : Nat
  deriving DecidableEq, Repr

structure RoleConfigRow where
  provider : Option String
  apiBase : Option String
  repository : Option String
  deriving DecidableEq, Repr

structure RedmineStoredConfig where
  apiBase : Option String
  closeStatusId : Option Nat
  deriving DecidableEq, Repr

structure ForgejoStoredConfig where
  apiBase : String
  repository : String
  source : String
  updatedAt : Nat
  deriving DecidableEq, Repr

structure AuthStore where
  credentials : Role × String → Option CredentialRow
  roleConfig : Role → Option RoleConfigRow
  globals : String → Option String
  redmineConfig : Role → Option RedmineStoredConfig
  forgejoConfig : Role → Option ForgejoStoredConfig

inductive AuthWrite where
  | credential (role : Role) (provider : String) (row : CredentialRow)
  | globalSetting (name value : String)
  | redmineConfig (role : Role) (row : RedmineStoredConfig)
  | provider (role : Role) (provider : String)
  | forgejoConfig (role : Role) (row : ForgejoStoredConfig)
  deriving DecidableEq

def applyWrite (store : AuthStore) : AuthWrite → AuthStore
  | .credential role provider row =>
      { store with credentials := Function.update store.credentials (role, provider) (some row) }
  | .globalSetting name value =>
      { store with globals := Function.update store.globals name (some value) }
  | .redmineConfig role row =>
      { store with redmineConfig := Function.update store.redmineConfig role (some row) }
  | .provider role provider =>
      let row := (store.roleConfig role).getD ⟨none, none, none⟩
      { store with
        roleConfig := Function.update store.roleConfig role (some { row with provider := some provider }) }
  | .forgejoConfig role row =>
      { store with forgejoConfig := Function.update store.forgejoConfig role (some row) }

/-- The functions of the storage layer that write in a transaction of their own. -/
inductive AuthUnit where
  | forgejoAuth | credential | globalSetting | redmineConfig | provider
  deriving DecidableEq, Repr

inductive AuthOp where
  | openStore
  | selectRedmineConfig (role : Role)
  | begin (unit : AuthUnit)
  | write (unit : AuthUnit) (change : AuthWrite)
  | commit (unit : AuthUnit)
  deriving DecidableEq

abbrev AuthOp.Value : AuthOp → Type
  | .selectRedmineConfig _ => Option RedmineStoredConfig
  | _ => Unit

abbrev AuthOp.Ret (op : AuthOp) : Type := Except String op.Value

abbrev AuthM := Attempt AuthOp AuthOp.Ret String

section Storage

def perform (op : AuthOp) : AuthM op.Value := request op id

def statement (op : AuthOp) (context : String) : AuthM op.Value := request op (·.mapError (context ++ ·))

def inTransaction (unit : AuthUnit) (subject writing committing : String)
    (changes : List (AuthWrite × String)) : AuthM Unit := do
  let _ ← statement (.begin unit) ("could not begin " ++ subject ++ writing ++ ": ")
  let _ ← Sql.forEach (fun change => statement (.write unit change.1) (change.2 ++ ": ")) changes
  let _ ← statement (.commit unit) ("could not commit " ++ subject ++ committing ++ ": ")
  return ()

def credentialFingerprint (secret : String) : Option String :=
  let chars := secret.toList
  if chars.length < 4 then none else some (String.ofList (chars.drop (chars.length - 4)))

-- A clock before the epoch reads as none.
variable (clock : Option Nat)

def saveCredential (role : Role) (provider credential : String) : AuthM Unit :=
  inTransaction .credential "credential" " write" " write"
    [(.credential role provider ⟨credential, credentialFingerprint credential, clock.getD 0⟩,
      "could not write credential")]

def saveForgejoAuth (role : Role) (apiBase repository credential : String) : AuthM Unit :=
  match clock with
  | none => throw "system time precedes Unix epoch"
  | some now =>
      inTransaction .forgejoAuth "Forgejo auth" " update" " update"
        [(.forgejoConfig role ⟨apiBase, repository, "admin-auth-setup", now⟩,
            "could not write Forgejo config"),
          (.credential role "forgejo" ⟨credential, credentialFingerprint credential, now⟩,
            "could not store Forgejo credential")]

def saveGlobalSetting (name value : String) : AuthM Unit :=
  inTransaction .globalSetting "global setting" " write" " write"
    [(.globalSetting name (trimText value), "could not write global setting")]

def saveRedmineRow (role : Role) (row : RedmineStoredConfig) : AuthM Unit :=
  inTransaction .redmineConfig "redmine config" " write" " write"
    [(.redmineConfig role row, "could not write redmine config")]

def updateProvider (role : Role) (provider : String) : AuthM Unit :=
  inTransaction .provider "provider" " update" " update"
    [(.provider role provider, "could not update provider")]

end Storage

section Setup

structure SetupOptions where
  apiBase : Option String
  repository : Option String
  closeStatusId : Option String
  deriving DecidableEq, Repr

structure Configured where
  role : Role
  provider : String
  deriving DecidableEq, Repr

def providerRedmine : String := "redmine"
def providerLocal : String := "local"
def providerForgejo : String := "forgejo"
def globalRedmineApiBase : String := "PHASEGENT_REDMINE_API_BASE"

def validateProviderOptions (provider : String) (options : SetupOptions) : Except String Unit := do
  refuse (provider = providerRedmine ∧ options.repository.isSome) "--repository is not a Redmine option"
  refuse (provider = providerLocal ∧ options.repository.isSome) "--repository is not a local option"
  refuse ((provider = providerLocal ∨ provider = providerForgejo) ∧ options.closeStatusId.isSome)
    "--close-status-id requires the redmine provider"

variable (urls : UrlLibrary)

def validateRedmineApiBase (value : String) : Except String Unit := do
  let parsed ← (urls.parse value).mapError fun _ => "Redmine API base is not a valid URL"
  refuse (urls.scheme parsed ∉ ["http", "https"]) "Redmine API base must use http or https"
  refuse ((urls.hostStr parsed).isNone) "Redmine API base must include a host"
  refuse (urls.username parsed ≠ "" ∨ (urls.password parsed).isSome)
    "Redmine API base must not contain credentials"
  refuse ((urls.query parsed).isSome ∨ (urls.fragment parsed).isSome)
    "Redmine API base must not contain a query or fragment"

def checkedApiBase (value : String) : Except String String := do
  refuse (trimText value = "") "Redmine API base cannot be empty"
  validateRedmineApiBase urls (trimText value)
  return trimText value

def parsedCloseStatusId (value : String) : Except String Nat :=
  match Text.parseU64 value.toList with
  | some id => .ok id
  | none => .error "Redmine close status id must be numeric"

def saveApiBase : Option String → AuthM Unit
  | none => return ()
  | some value => do
      let base ← fromExcept (checkedApiBase urls value)
      saveGlobalSetting globalRedmineApiBase base

def saveCloseStatusId (role : Role) : Option String → AuthM Unit
  | none => return ()
  | some value => do
      let config ← statement (.selectRedmineConfig role) "could not read redmine config: "
      let id ← fromExcept (parsedCloseStatusId value)
      saveRedmineRow role { config.getD ⟨none, none⟩ with closeStatusId := some id }

def saveRedmineConfig (role : Role) (apiBase closeStatusId : Option String) : AuthM Unit := do
  saveApiBase urls apiBase
  saveCloseStatusId role closeStatusId
  updateProvider role providerRedmine

abbrev Prompt := String → Except String String

variable (clock : Option Nat) (prompt : Prompt)

def readCredential (label : String) : AuthM String := return trimText (← fromExcept (prompt label))

def setupLocal (role : Role) : AuthM Configured := do
  perform .openStore
  updateProvider role providerLocal
  return ⟨role, providerLocal⟩

def setupForgejo (describe : PhasegentError → String) (role : Role) (options : SetupOptions) :
    AuthM Configured := do
  let base ← fromExcept (options.apiBase.elim (.error "Forgejo --api-base is required") .ok)
  let repo ← fromExcept (options.repository.elim (.error "Forgejo --repository is required") .ok)
  let config ← fromExcept ((ForgejoConfig.new urls base repo).mapError describe)
  let credential ← readCredential prompt "Forgejo token"
  fromExcept (refuse (trimText credential = "") "Forgejo token cannot be empty")
  perform .openStore
  saveForgejoAuth clock role config.apiBase config.repository (trimText credential)
  return ⟨role, providerForgejo⟩

def setupRedmine (role : Role) (options : SetupOptions) : AuthM Configured := do
  let credential ← readCredential prompt "Redmine API key"
  fromExcept (refuse (trimText credential = "") "Redmine API key cannot be empty")
  perform .openStore
  saveCredential clock role providerRedmine (trimText credential)
  saveRedmineConfig urls role options.apiBase options.closeStatusId
  return ⟨role, providerRedmine⟩

def setupProvider (describe : PhasegentError → String) (role : Role) (provider : String)
    (options : SetupOptions) : AuthM Configured := do
  fromExcept (validateProviderOptions provider options)
  if provider = providerLocal then setupLocal role
  else if provider = providerForgejo then setupForgejo urls clock prompt describe role options
  else if provider ≠ providerRedmine then throw ("unsupported provider '" ++ provider ++ "'")
  else setupRedmine urls clock prompt role options

end Setup

section Connection

/-- The committed tables, and the copy that an open transaction works on. -/
structure AuthDb where
  committed : AuthStore
  working : AuthStore

abbrev Faults := AuthOp → Option String

-- A column takes signed 64-bit numbers only.
def unencodable : AuthOp → Option String
  | .write _ (.redmineConfig _ row) =>
      if row.closeStatusId.any (2 ^ 63 ≤ ·) then some "out of range integral type conversion attempted" else none
  | _ => none

def failure (faults : Faults) (op : AuthOp) : Option String := (faults op).or (unencodable op)

def effect (db : AuthDb) : (op : AuthOp) → op.Value × AuthDb
  | .openStore => ((), db)
  | .selectRedmineConfig role => (db.committed.redmineConfig role, db)
  | .begin _ => ((), { db with working := db.committed })
  | .write _ change => ((), { db with working := applyWrite db.working change })
  | .commit _ => ((), { db with committed := db.working })

def respond (faults : Faults) (db : AuthDb) (op : AuthOp) : op.Ret × AuthDb :=
  match failure faults op with
  | some message => (.error message, db)
  | none => (.ok (effect db op).1, (effect db op).2)

end Connection

end Phasegent.Auth
