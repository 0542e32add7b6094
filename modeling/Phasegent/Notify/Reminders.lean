import Phasegent.Notify.Payload

namespace Phasegent.Notify.Plugin
open Js (Value)

def questionNotifyDelayMs : Int := 300000

section Forms

def textOf (value : Value) : List Char := value.asString.getD []

-- `a || b || null`, of strings.
def firstText (a b : Option (List Char)) : Option (List Char) :=
  (a.filter fun text => text ≠ []) <|> b.filter fun text => text ≠ []

def isQuestionForm (form : Value) : Bool :=
  form.isObject && textOf (form.get "id") ≠ [] && (form.get "metadata").isObject &&
    ((form.get "metadata").get "kind").isString "question".toList

structure FormSession where
  directory : Option (List Char)
  workspaceID : Option (List Char)
  title : List Char
  deriving DecidableEq

def readFormSession (sessionID : Value) (answer : Option Value) : Option FormSession := do
  let _ ← guard (textOf sessionID ≠ [])
  let result ← answer
  let _ ← guard result.isObject
  let location := result.get "location"
  let session : FormSession :=
    ⟨(location.get "directory").asString, (location.get "workspaceID").asString, textOf (result.get "title")⟩
  let _ ← guard (¬(session.directory.getD [] = [] ∧ session.title = []))
  return session

def FormSession.value (session : FormSession) : Value := .object [("title", .string session.title)]

def eventDirectory (event : Value) : Option (List Char) := ((event.get "location").get "directory").asString

def eventWorkspace (event : Value) : Option (List Char) := ((event.get "location").get "workspaceID").asString

def formBelongsToInstance (context event : Value) (session : Option FormSession) : Bool :=
  let ownWorkspace := ((member context "location").get "workspaceID").asString
  match firstText (locationDirectory context).asString none,
    firstText (eventDirectory event) (session.bind (·.directory)) with
  | some own, some directory =>
      directory = own &&
        match firstText (eventWorkspace event) (session.bind (·.workspaceID)), firstText ownWorkspace none with
        | some workspaceID, some ownWorkspace => workspaceID = ownWorkspace
        | _, _ => true
  | _, _ => false

end Forms

section Notifier

inductive Occurrence where
  | tracked (id sessionID : List Char) (directory : Option (List Char))
  | fired (id : List Char)
  | located (id : List Char) (directory : Option (List Char))
  | resolved (id : List Char)
  | deleted (sessionID : List Char)
  | closed
  | spawned (id : List Char)
  deriving DecidableEq

structure Note where
  time : Int
  what : Occurrence
  deriving DecidableEq

structure PendingEntry where
  id : List Char
  sessionID : List Char
  form : Value
  event : Value
  session : Option FormSession
  isLocal : Bool
  settled : Bool
  delivering : Bool
  deadline : Int
  timer : Bool
  ready : Bool

/-- The asynchronous tasks at the await they are suspended in, with the position of their entry. -/
inductive Task where
  | locate (entry : Nat)
  | await (entry : Nat)
  | enrich (entry : Nat)
  deriving DecidableEq

-- The entries made so far keep their position; `pending` is the map from a form to the position of its entry.
structure Notifier where
  entries : List PendingEntry
  pending : List (List Char × Nat)
  settled : List (List Char)
  deletedSessions : List (List Char)
  disposed : Bool
  streamEnded : Bool
  tasks : List Task
  log : List Note

namespace Notifier

def initial : Notifier := ⟨[], [], [], [], false, false, [], []⟩

def isClosed (n : Notifier) : Bool := n.disposed || n.streamEnded

def record (time : Int) (what : Occurrence) (n : Notifier) : Notifier := { n with log := ⟨time, what⟩ :: n.log }

def suspend (task : Task) (n : Notifier) : Notifier := { n with tasks := n.tasks ++ [task] }

def change (i : Nat) (f : PendingEntry → PendingEntry) (n : Notifier) : Notifier := { n with entries := n.entries.modify i f }

def settleEntry (i : Nat) : Notifier → Notifier :=
  change i fun entry => { entry with settled := true, timer := false }

def settleForm (id : List Char) (n : Notifier) : Notifier :=
  if id = [] then n
  else
    let n := { n with settled := n.settled.insert id }
    match n.pending.lookup id with
    | none => n
    | some i => { n.settleEntry i with pending := n.pending.filter fun entry => entry.1 ≠ id }

def ofSession (n : Notifier) (sessionID : List Char) (i : Nat) : Bool :=
  n.entries[i]?.any fun entry => entry.sessionID = sessionID

def settleSession (sessionID : List Char) (n : Notifier) : Notifier :=
  if sessionID = [] then n
  else
    let n := { n with deletedSessions := n.deletedSessions.insert sessionID }
    (n.pending.filter fun entry => n.ofSession sessionID entry.2).foldl (fun n entry => n.settleForm entry.1) n

def clearPending (n : Notifier) : Notifier :=
  { n.pending.foldl (fun n entry => n.settleEntry entry.2) n with pending := [] }

def active (n : Notifier) (i : Nat) : Option PendingEntry :=
  n.entries[i]?.filter fun entry => !n.isClosed && !entry.settled && n.pending.lookup entry.id = some i

def isSettledOrPending (n : Notifier) (id : List Char) : Bool :=
  (n.pending.lookup id).isSome || n.settled.contains id

end Notifier

end Notifier

section Delivery
open Notifier

-- `if (pending.get(entry.id) === entry) settleForm(entry.id)`
def conclude (i : Nat) (n : Notifier) : Notifier :=
  match n.entries[i]? with
  | none => n
  | some entry => if n.pending.lookup entry.id = some i then n.settleForm entry.id else n

def notify (context : Value) (now : Int) (i : Nat) (enriched : Option FormSession) (n : Notifier) : Notifier :=
  match n.active i with
  | none => conclude i n
  | some entry =>
      let document := buildQuestionPayload context entry.form ((enriched.map (·.value)).getD .null)
      if document.questions = [] then conclude i (n.settleForm entry.id)
      else conclude i ((n.record now (.spawned entry.id)).settleForm entry.id)

def deliver (context : Value) (now : Int) (i : Nat) (n : Notifier) : Notifier :=
  match n.active i with
  | none => n
  | some entry =>
      if entry.delivering then n
      else
        let n := n.change i fun entry => { entry with delivering := true }
        match entry.session with
        | some session => notify context now i (some session) n
        | none => n.suspend (.enrich i)

def deliverLocal (context : Value) (now : Int) (i : Nat) (n : Notifier) : Notifier :=
  match n.active i with
  | none => n
  | some entry => if entry.isLocal then deliver context now i n else n

def onTimer (context : Value) (now : Int) (i : Nat) (n : Notifier) : Notifier :=
  let n := n.change i fun entry => { entry with timer := false }
  match n.active i with
  | none => n
  | some entry =>
      let n := n.record now (.fired entry.id)
      if 0 < entry.deadline - now then n.change i fun entry => { entry with timer := true }
      else if entry.ready then n.suspend (.await i)
      else deliverLocal context now i n

def resolveLocation (context : Value) (now : Int) (i : Nat) (answer : Option Value) (n : Notifier) : Notifier :=
  match n.active i with
  | none => n
  | some entry =>
      let session := readFormSession (entry.form.get "sessionID") answer
      let n := n.record now (.located entry.id (session.bind (·.directory)))
      if formBelongsToInstance context entry.event session then
        n.change i fun entry => { entry with session := session, isLocal := true }
      else n.settleForm entry.id

def resume (context : Value) (now : Int) (answer : Option Value) (n : Notifier) : Task → Notifier
  | .locate i => resolveLocation context now i answer n
  | .await i => deliverLocal context now i n
  | .enrich i =>
      notify context now i (n.entries[i]?.bind fun entry => readFormSession (entry.form.get "sessionID") answer) n

end Delivery

section Events
open Notifier

def track (now : Int) (event form : Value) (n : Notifier) : Notifier :=
  let id := textOf (form.get "id")
  if n.isSettledOrPending id then n
  else
    let sessionID := textOf (form.get "sessionID")
    let located := (eventDirectory event).isSome
    let i := n.entries.length
    let entry : PendingEntry :=
      ⟨id, sessionID, form, event, none, located, false, false, now + questionNotifyDelayMs, true, !located⟩
    let n := record now (.tracked id sessionID (eventDirectory event))
      { n with entries := n.entries ++ [entry], pending := n.pending ++ [(id, i)] }
    if located then n else n.suspend (.locate i)

def created (context : Value) (now : Int) (event form : Value) (n : Notifier) : Notifier :=
  if !isQuestionForm form then n
  else if n.isSettledOrPending (textOf (form.get "id")) then n
  else if (form.get "sessionID").asString.any (n.deletedSessions.contains ·) then n
  else if (eventDirectory event).isSome && !formBelongsToInstance context event none then n
  else track now event form n

def handleEvent (context : Value) (now : Int) (event : Value) (n : Notifier) : Notifier :=
  let named (name : String) := (event.get "type").isString name.toList
  if n.isClosed || !event.isObject then n
  else if named "form.replied" || named "form.cancelled" then
    let id := textOf ((event.get "data").get "id")
    (n.record now (.resolved id)).settleForm id
  else if named "session.deleted" then
    let sessionID := textOf ((event.get "data").get "sessionID")
    (n.record now (.deleted sessionID)).settleSession sessionID
  else if !named "form.created" then n
  else created context now event (member (event.get "data") "form") n

def endStream (now : Int) (n : Notifier) : Notifier :=
  clearPending (record now .closed { n with streamEnded := true })

def dispose (now : Int) (n : Notifier) : Notifier :=
  if n.disposed then n
  else { clearPending (record now .closed { n with disposed := true }) with settled := [], deletedSessions := [] }

end Events

section Runs

/-- Whatever can run next: the stream, the timer of an entry, armed or not, a suspended task, the disposer. -/
inductive Turn where
  | event (event : Value)
  | timer (entry : Nat)
  | resume (task : Nat) (answer : Option Value)
  | endStream
  | dispose

def blocked (n : Notifier) : Task → Bool
  | .await i => n.tasks.contains (.locate i)
  | _ => false

def turn (context : Value) (n : Notifier) : Int × Turn → Notifier
  | (now, .event event) => handleEvent context now event n
  | (now, .timer i) => onTimer context now i n
  | (now, .resume k answer) =>
      match n.tasks[k]? with
      | none => n
      | some task =>
          if blocked n task then n else resume context now answer { n with tasks := n.tasks.eraseIdx k } task
  | (now, .endStream) => endStream now n
  | (now, .dispose) => dispose now n

def run (context : Value) (turns : List (Int × Turn)) : Notifier := turns.foldl (turn context) .initial

end Runs

end Phasegent.Notify.Plugin
