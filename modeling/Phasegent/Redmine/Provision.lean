import Mathlib
import Phasegent.Interleaving.Sessions
import Phasegent.Provider.Endpoint
import Phasegent.Record.Spec

namespace Phasegent.Redmine
open Fallible Interleaving Record

structure RedmineUser where
  id : Nat
  login : String
  firstname : String
  lastname : String
  mail : String
  apiKey : Option String
  deriving DecidableEq, Repr

def RedmineUser.apiKeyValue (user : RedmineUser) : Option String :=
  (user.apiKey.map trimText).filter (· ≠ "")

structure RedmineUserCollection where
  users : List RedmineUser
  totalCount : Option Nat
  limit : Option Nat
  deriving DecidableEq, Repr

structure RedmineCurrentUser where
  id : Nat
  login : String
  firstname : String
  lastname : String
  mail : String
  deriving DecidableEq, Repr

structure RoleProvisioningMetadata where
  login : String
  firstname : String
  lastname : String
  mail : String
  deriving DecidableEq, Repr

def provisioningMetadata : Role → Option RoleProvisioningMetadata
  | .orchestrator => some ⟨"phasegent-orchestrator", "Phasegent", "Orchestrator",
      "phasegent-orchestrator@phasegent.local"⟩
  | .executor => some ⟨"phasegent-executor", "Phasegent", "Executor",
      "phasegent-executor@phasegent.local"⟩
  | .reviewer => some ⟨"phasegent-reviewer", "Phasegent", "Reviewer",
      "phasegent-reviewer@phasegent.local"⟩
  | .explore => some ⟨"phasegent-explore", "Phasegent", "Explore",
      "phasegent-explore@phasegent.local"⟩
  | .admin => none

def provisionedRoles : List Role := [.orchestrator, .executor, .reviewer, .explore]

/-- A row of `role_redmine_user`; its id is a signed 64-bit column that takes positive values only. -/
structure UserRow where
  userId : Int
  login : String
  deriving DecidableEq, Repr

structure RoleStore where
  users : Role → Option UserRow
  credentials : Role → Option String

inductive ProvisionOp where
  | selectUser (role : Role)
  | selectCredential (role : Role)
  | upsertUser (role : Role) (row : UserRow)
  | upsertCredential (role : Role) (credential : String)
  | listUsers (offset : Nat)
  | createUser (metadata : RoleProvisioningMetadata)
  | getUser (id : Nat)
  deriving DecidableEq

abbrev ProvisionOp.Ret : ProvisionOp → Type
  | .selectUser _ => Except String (Option UserRow)
  | .selectCredential _ => Except String (Option String)
  | .upsertUser .. | .upsertCredential .. => Except String Unit
  | .listUsers _ => Except PhasegentError RedmineUserCollection
  | .createUser _ | .getUser _ => Except PhasegentError RedmineUser

abbrev ProvisionM := Attempt ProvisionOp ProvisionOp.Ret PhasegentError

section Store

/-- `id as i64`. -/
def asI64 (id : Nat) : Int := if id < 2 ^ 63 then id else (id : Int) - 2 ^ 64

def UserRow.identity (row : UserRow) : Option (Nat × String) :=
  if 0 < row.userId ∧ trimText row.login ≠ "" then some (row.userId.toNat, trimText row.login) else none

def loadRedmineUser (role : Role) : ProvisionM (Option (Nat × String)) := do
  let row ← request (.selectUser role) (·.mapError .config)
  return row.bind UserRow.identity

def loadCredential (role : Role) : ProvisionM (Option String) :=
  request (.selectCredential role) (·.mapError .config)

def saveRedmineUser (role : Role) (userId : Nat) (login : String) : ProvisionM Unit := do
  fromExcept (refuse (userId = 0) (.config "Redmine user id must be greater than zero"))
  fromExcept (refuse (trimText login = "") (.config "Redmine user login cannot be empty"))
  fromExcept (refuse ((trimText login).toList.any Text.isControl)
    (.config "Redmine user login contains invalid characters"))
  request (.upsertUser role ⟨asI64 userId, trimText login⟩) (·.mapError .config)

def saveCredential (role : Role) (credential : String) : ProvisionM Unit :=
  request (.upsertCredential role credential) (·.mapError .config)

end Store

section Requests

def pageSize : Nat := 100

def maxPages : Nat := 10000

def saturatingAdd (a b : Nat) : Nat := min (a + b) (2 ^ 64 - 1)

def pageIsComplete (operation : String) (offset count : Nat) (totalCount : Option Nat)
    (responseLimit : Nat) : Except PhasegentError Bool :=
  if count = 0 then
    match totalCount with
    | some total =>
        if offset < total then .error (.pagination operation
          "Redmine returned an empty page before the declared total_count was reached")
        else .ok true
    | none => .ok true
  else
    match totalCount with
    | some total => .ok (total ≤ saturatingAdd offset count)
    | none => .ok (count < responseLimit)

def signatureOf (users : List RedmineUser) : String := ",".intercalate (users.map (·.id.repr))

def nextOffset (offset : Nat) (previous : Option String) (page : RedmineUserCollection) :
    Except PhasegentError (Option Nat) := do
  refuse (previous = some (signatureOf page.users) ∧ page.users ≠ [])
    (.pagination "user list" "Redmine returned the same non-empty page repeatedly")
  let count := page.users.length
  let complete ← pageIsComplete "user list" offset count page.totalCount (max (page.limit.getD pageSize) 1)
  refuse (¬complete ∧ saturatingAdd offset count ≤ offset)
    (.pagination "user list" "Redmine pagination offset did not advance")
  return if complete then none else some (saturatingAdd offset count)

def findUserFrom (target : String) : Nat → Nat → Option String → ProvisionM (Option RedmineUser)
  | 0, _, _ => throw (.pagination "user list" "pagination exceeded the safety limit")
  | pages + 1, offset, previous => do
      let page ← request (.listUsers offset) id
      match page.users.find? (·.login = target) with
      | some found => return some found
      | none => do
          match ← fromExcept (nextOffset offset previous page) with
          | none => return none
          | some next => findUserFrom target pages next (some (signatureOf page.users))

def findUserByLogin (login : String) : ProvisionM (Option RedmineUser) := do
  fromExcept (refuse (trimText login = "") (.config "Redmine user login cannot be empty"))
  findUserFrom (trimText login) maxPages 0 none

def createServiceUser (metadata : RoleProvisioningMetadata) : ProvisionM RedmineUser := do
  fromExcept (refuse (trimText metadata.login = "") (.config "Redmine user login cannot be empty"))
  fromExcept (refuse (trimText metadata.firstname = "")
    (.config "Redmine user firstname cannot be empty"))
  fromExcept (refuse (trimText metadata.lastname = "")
    (.config "Redmine user lastname cannot be empty"))
  fromExcept (refuse (trimText metadata.mail = "") (.config "Redmine user mail cannot be empty"))
  request (.createUser metadata) id

def usableKey (user : RedmineUser) : Except PhasegentError String :=
  match user.apiKeyValue.filter fun key => !key.toList.any Text.isControl with
  | some key => .ok key
  | none => .error (.decode "user get" "Redmine user response missing API key")

def getUserApiKey (id : Nat) : ProvisionM String := do
  fromExcept (refuse (id = 0) (.config "Redmine user id must be greater than zero"))
  request (.getUser id) (· >>= usableKey)

end Requests

section Roles

def isDuplicateLogin : PhasegentError → Bool
  | .http _ 422 message =>
      ["already been taken", "has already", "duplicate"].any fun part =>
        Text.contains part.toList (Text.toAsciiLower message.toList)
  | _ => false

def readApiKey (role : Role) (userId : Nat) : ProvisionM String :=
  renameFailure (fun error => .config ("could not retrieve the " ++ role.asStr ++ " user API key: " ++
    error.message)) (getUserApiKey userId)

def RedmineUser.current (user : RedmineUser) : RedmineCurrentUser :=
  ⟨user.id, user.login, user.firstname, user.lastname, user.mail⟩

def adoptExistingUser (role : Role) (existing : RedmineUser) : ProvisionM RedmineCurrentUser := do
  let apiKey ← readApiKey role existing.id
  saveRedmineUser role existing.id existing.login
  saveCredential role apiKey
  return existing.current

def persistedIdentity (role : Role) : ProvisionM (Option RedmineCurrentUser) := do
  let persistedUser ← loadRedmineUser role
  let persistedKey ← loadCredential role
  match persistedUser, persistedKey with
  | some (userId, login), some apiKey =>
      return if 0 < userId ∧ trimText login ≠ "" ∧ trimText apiKey ≠ "" then
        some ⟨userId, login, "", "", ""⟩ else none
  | _, _ => return none

def lookup (role : Role) (login suffix : String) : ProvisionM (Option RedmineUser) :=
  renameFailure (fun error => .config ("could not lookup the " ++ role.asStr ++ " user '" ++ login ++
    "'" ++ suffix ++ ": " ++ error.message)) (findUserByLogin login)

-- Somebody else made the user between the lookup and the request.
def recoverDuplicate (role : Role) (metadata : RoleProvisioningMetadata) :
    ProvisionM RedmineCurrentUser := do
  match ← lookup role metadata.login " after duplicate" with
  | some existing => adoptExistingUser role existing
  | none => throw (.config ("Redmine user '" ++ metadata.login ++
      "' already exists but lookup found nothing"))

-- A created user goes through the same three steps as an adopted one.
def createRoleUser (role : Role) (metadata : RoleProvisioningMetadata) :
    ProvisionM RedmineCurrentUser := do
  match ← outcome (createServiceUser metadata) with
  | .ok created => adoptExistingUser role created
  | .error error =>
      if isDuplicateLogin error then recoverDuplicate role metadata
      else throw (.config ("could not create the " ++ role.asStr ++ " user '" ++ metadata.login ++
        "': " ++ error.message))

def provisionMissing (role : Role) (metadata : RoleProvisioningMetadata) :
    ProvisionM RedmineCurrentUser := do
  match ← lookup role metadata.login "" with
  | some existing => adoptExistingUser role existing
  | none => createRoleUser role metadata

def provisionRoleUser (role : Role) (metadata : RoleProvisioningMetadata) :
    ProvisionM RedmineCurrentUser := do
  match ← persistedIdentity role with
  | some user => return user
  | none => provisionMissing role metadata

structure ProvisionedRole where
  role : Role
  user : RedmineCurrentUser
  deriving DecidableEq, Repr

def describeUser (user : RedmineCurrentUser) : String :=
  if user.login ≠ "" then user.login else "#" ++ user.id.repr

def ensureDistinct (provisioned : List ProvisionedRole) (role : Role) (user : RedmineCurrentUser) :
    Except PhasegentError Unit :=
  match provisioned.find? (·.user.id = user.id) with
  | none => .ok ()
  | some colliding => .error (.config ("Redmine role-scoped API keys must identify distinct users; " ++
      "got " ++ role.asStr ++ "=" ++ describeUser user ++ " and " ++ colliding.role.asStr ++ "=" ++
      describeUser user))

def metadataOf (role : Role) : Except PhasegentError RoleProvisioningMetadata :=
  match provisioningMetadata role with
  | some metadata => .ok metadata
  | none => .error (.config ("no provisioning metadata for role " ++ role.asStr))

def provisionEach : List Role → List ProvisionedRole → ProvisionM (List ProvisionedRole)
  | [], provisioned => return provisioned
  | role :: rest, provisioned => do
      let metadata ← fromExcept (metadataOf role)
      let user ← provisionRoleUser role metadata
      fromExcept (ensureDistinct provisioned role user)
      provisionEach rest (provisioned ++ [⟨role, user⟩])

def provisionAgentUsers : ProvisionM (List ProvisionedRole) := provisionEach provisionedRoles []

end Roles

section World

namespace RoleStore

def putUser (store : RoleStore) (role : Role) (row : UserRow) : RoleStore :=
  { store with users := Function.update store.users role (some row) }

def putCredential (store : RoleStore) (role : Role) (credential : String) : RoleStore :=
  { store with credentials := Function.update store.credentials role (some credential) }

end RoleStore

/-- A statement reads or writes the store, or fails and leaves it, as it does where the table's
`CHECK (user_id > 0)` refuses the row; Redmine answers anything, with ids that are 64-bit numbers. -/
def provisioning : World RoleStore ProvisionOp ProvisionOp.Ret where
  step _ store op answer store' :=
    match op, answer with
    | .selectUser role, answer => (answer = .ok (store.users role) ∨ ∃ e, answer = .error e) ∧ store' = store
    | .selectCredential role, answer =>
        (answer = .ok (store.credentials role) ∨ ∃ e, answer = .error e) ∧ store' = store
    | .upsertUser role row, .ok () => 0 < row.userId ∧ store' = store.putUser role row
    | .upsertCredential role credential, .ok () => store' = store.putCredential role credential
    | .listUsers _, .ok page => (∀ user ∈ page.users, user.id < 2 ^ 64) ∧ store' = store
    | .createUser _, .ok user => user.id < 2 ^ 64 ∧ store' = store
    | _, _ => store' = store
  crash _ store store' := store' = store

end World

end Phasegent.Redmine
