import Mathlib.Data.Rat.Floor
import Mathlib.Tactic.NormNum

namespace Phasegent.Shell

abbrev Text := List Char

def managedContextPrefix : Text := "# phasegent-context:".toList
def managedRoleEnv : String := "PHASEGENT_ROLE"
def managedSessionEnv : String := "PHASEGENT_SESSION_ID"
def managedBridgeCapacity : Nat := 64
def managedBridgeTtlMs : ℚ := 5 * 60 * 1000

section Header

def nonceChar (c : Char) : Bool :=
  c.isAlphanum || c == '.' || c == '_' || c == ':' || c == '-'

def noncePattern (nonce : Text) : Bool :=
  1 ≤ nonce.length && nonce.length ≤ 128 && nonce.all nonceChar

-- What `String.prototype.trim` strips: white space and line terminators.
def whitespace (c : Char) : Bool :=
  c.toNat ∈ [9, 10, 11, 12, 13, 32, 0xA0, 0x1680, 0x2028, 0x2029, 0x202F, 0x205F, 0x3000, 0xFEFF] ||
    (0x2000 ≤ c.toNat && c.toNat ≤ 0x200A)

def trim (text : Text) : Text :=
  ((text.dropWhile whitespace).reverse.dropWhile whitespace).reverse

def parseManagedNonce (command : Text) : Option Text :=
  if managedContextPrefix.isPrefixOf command then
    match command.findIdx? (· == '\n') with
    | none => none
    | some newline =>
        let nonce := trim ((command.take newline).drop managedContextPrefix.length)
        if noncePattern nonce then some nonce else none
  else none

def managedHeaderFor (nonce : Text) : Text :=
  managedContextPrefix ++ nonce ++ ['\n']

end Header

structure Options where
  capacity : Option ℚ
  ttlMs : Option ℚ

def capacityOf (options : Options) : Nat :=
  match options.capacity with
  | some capacity => if 0 < capacity then ⌊capacity⌋.toNat else managedBridgeCapacity
  | none => managedBridgeCapacity

def ttlMsOf (options : Options) : ℚ :=
  match options.ttlMs with
  | some ttlMs => if 0 ≤ ttlMs then ttlMs else managedBridgeTtlMs
  | none => managedBridgeTtlMs

theorem ttlMsOf_nonneg (options : Options) : 0 ≤ ttlMsOf options := by
  unfold ttlMsOf
  split
  · split
    · assumption
    · norm_num [managedBridgeTtlMs]
  · norm_num [managedBridgeTtlMs]

structure Bridge where
  capacity : Nat
  ttlMs : ℚ
  ttlMs_nonneg : 0 ≤ ttlMs

def createManagedShellBridge (options : Options) : Bridge where
  capacity := capacityOf options
  ttlMs := ttlMsOf options
  ttlMs_nonneg := ttlMsOf_nonneg options

structure Entry where
  nonce : Text
  sessionID : String
  role : Option String
  toolCallId : Option String
  expected : Text
  timestamp : ℚ
deriving DecidableEq

/-- The map of a bridge, each entry under its nonce, in the order of insertion. -/
abbrev Entries := List Entry

namespace Entries

def get (entries : Entries) (nonce : Text) : Option Entry :=
  entries.find? (·.nonce = nonce)

def has (entries : Entries) (nonce : Text) : Bool :=
  entries.any (·.nonce = nonce)

def delete (entries : Entries) (nonce : Text) : Entries :=
  entries.filter (·.nonce ≠ nonce)

def set (entries : Entries) (entry : Entry) : Entries :=
  if entries.has entry.nonce then
    entries.map fun old => if old.nonce = entry.nonce then entry else old
  else entries ++ [entry]

end Entries

section Operations
variable (b : Bridge)

def expired (current : ℚ) (entry : Entry) : Bool :=
  current - entry.timestamp > b.ttlMs

def pruneExpired (current : ℚ) (entries : Entries) : Entries :=
  entries.filter fun entry => !expired b current entry

def evictOldestIfNeeded : Entries → Entries
  | [] => []
  | oldest :: rest =>
      if (oldest :: rest).length ≥ b.capacity then evictOldestIfNeeded rest else oldest :: rest

def isNonEmptyString : Option String → Option String
  | some value => if value.length > 0 then some value else none
  | none => none

/-- The candidates left to try, each the answer of one `randomUUID` call. -/
def generateNonce (entries : Entries) : List Text → Option Text
  | [] => none
  | candidate :: rest =>
      if noncePattern candidate then
        if entries.has candidate then generateNonce entries rest else some candidate
      else generateNonce entries rest

def trustedRole (role : Option String) : Option String :=
  if role = some "orchestrator" ∨ role = some "executor" ∨ role = some "reviewer" ∨
      role = some "explore" then role
  else none

/-- A call of `decorate`, with the reading of its clock and the answers of `randomUUID`. -/
structure Decoration where
  rewritten : Text
  sessionID : Option String
  role : Option String
  toolCallId : Option String
  now : ℚ
  randomUUID : Nat → Text

def newEntry (d : Decoration) (sessionID : String) (nonce : Text) : Entry where
  nonce := nonce
  sessionID := sessionID
  role := trustedRole d.role
  toolCallId := isNonEmptyString d.toolCallId
  expected := managedHeaderFor nonce ++ d.rewritten
  timestamp := d.now

def decorate (entries : Entries) (d : Decoration) : Text × Entries :=
  match isNonEmptyString d.sessionID with
  | none => (d.rewritten, entries)
  | some sessionID =>
      let live := pruneExpired b d.now entries
      match generateNonce live ((List.range 8).map d.randomUUID) with
      | none => (d.rewritten, live)
      | some nonce =>
          let entry := newEntry d sessionID nonce
          (entry.expected, (evictOldestIfNeeded b live).set entry)

/-- An environment object, and which of its properties it lets be assigned and deleted. -/
structure Env where
  vars : String → Option String
  assigns : String → Bool
  deletes : String → Bool

namespace Env

def assign (env : Env) (name value : String) : Option Env :=
  if env.assigns name then some { env with vars := Function.update env.vars name (some value) } else none

-- Deleting a property that is not there never fails.
def delete (env : Env) (name : String) : Option Env :=
  if (env.vars name).isNone ∨ env.deletes name then
    some { env with vars := Function.update env.vars name none }
  else none

def empty : Env where
  vars := fun _ => none
  assigns := fun _ => true
  deletes := fun _ => true

end Env

/-- A shell event, and which of its properties it lets be set; what is not a string or not an object
is left out. -/
structure ShellEvent where
  command : Option Text
  env : Option Env
  setsCommand : Bool
  setsEnv : Bool

def ShellEvent.takenEnv (event : ShellEvent) : Option Env :=
  match event.env with
  | some env => some env
  | none => if event.setsEnv then some .empty else none

inductive Refusal
  | missingCommand
  | noHeader
  | unknownNonce
  | expired
  | mismatch
  | envFailed
deriving DecidableEq

inductive Consumption
  | consumed (nonce : Text) (role : Option String) (sessionID : String)
  | refused (reason : Refusal)
  | threw
deriving DecidableEq

def writeIdentity (entry : Entry) (env : Env) : Env × Bool :=
  let role :=
    match entry.role with
    | some role => env.assign managedRoleEnv role
    | none => env.delete managedRoleEnv
  match role with
  | none => (env, false)
  | some env =>
      match env.assign managedSessionEnv entry.sessionID with
      | none => (env, false)
      | some env => (env, true)

def consume (entries : Entries) (event : ShellEvent) (now : ℚ) : Consumption × ShellEvent × Entries :=
  match event.command with
  | none => (.refused .missingCommand, event, entries)
  | some command =>
      match parseManagedNonce command with
      | none => (.refused .noHeader, event, entries)
      | some nonce =>
          match entries.get nonce with
          | none => (.refused .unknownNonce, event, entries)
          | some entry =>
              let left := entries.delete nonce
              if expired b now entry then (.refused .expired, event, left)
              else if command ≠ entry.expected then (.refused .mismatch, event, left)
              else if !event.setsCommand then (.threw, event, left)
              else
                let stripped :=
                  { event with command := some (command.drop (managedHeaderFor nonce).length) }
                -- Only the writes to the environment itself are caught.
                match event.takenEnv with
                | none => (.threw, stripped, left)
                | some env =>
                    let (env, written) := writeIdentity entry env
                    let identified := { stripped with env := some env }
                    if written then (.consumed nonce entry.role entry.sessionID, identified, left)
                    else (.refused .envFailed, identified, left)

def cleanupByToolCallId (entries : Entries) (toolCallId : Option String) (now : ℚ) : Nat × Entries :=
  match isNonEmptyString toolCallId with
  | none => (0, entries)
  | some id =>
      let left := entries.filter (·.toolCallId ≠ some id)
      (entries.length - left.length, pruneExpired b now left)

def size (entries : Entries) (now : ℚ) : Nat × Entries :=
  let left := pruneExpired b now entries
  (left.length, left)

def clear : Entries := []

end Operations

end Phasegent.Shell
