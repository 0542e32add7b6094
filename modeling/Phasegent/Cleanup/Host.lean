import Mathlib.Data.String.Basic
import Phasegent.Interleaving.Adversary
import Phasegent.Lease.Row

namespace Phasegent.Cleanup
open Fallible Interleaving

def maxWarningChars : Nat := 200

def bounded (text : String) : String := String.ofList (text.toList.take maxWarningChars)

inductive CleanupMode where
  | close | prune | preview | sync | report | verify
  deriving DecidableEq, Repr

namespace CleanupMode

def mayMoveSessions : CleanupMode → Bool
  | .close | .prune => true
  | _ => false

def readsRunningState : CleanupMode → Bool
  | .close | .prune | .preview | .verify => true
  | _ => false

def enumeratesUnmanagedCandidates : CleanupMode → Bool
  | .prune | .preview | .verify => true
  | _ => false

end CleanupMode

structure ApiError where
  message : String
  deriving DecidableEq, Repr

def ApiError.plain (message : String) : ApiError := ⟨Lease.bounded message⟩

structure LocatedSession where
  id : String
  directory : String
  parentId : Option String
  deriving DecidableEq, Repr

structure SessionPage where
  sessions : List LocatedSession
  nextCursor : Option String
  deriving DecidableEq, Repr

inductive HostOp where
  | session (id : String)
  | list (directory : String) (cursor : Option String)
  | moveSession (id destination : String)
  | activeSessions
  | resolveMainCheckout
  | budgetExpired
  | budgetRemaining
  | poll (nanoseconds : Nat)
  deriving DecidableEq, Repr

abbrev HostOp.Ret : HostOp → Type
  | .session _ => Except ApiError LocatedSession
  | .list .. => Except ApiError SessionPage
  | .moveSession .. => Except ApiError Unit
  | .activeSessions => Except ApiError (List String)
  | .resolveMainCheckout => Except String String
  | .budgetExpired => Bool
  | .budgetRemaining => Nat
  | .poll _ => Unit

abbrev HostM := Attempt HostOp HostOp.Ret String

def isOpencodeSession (session : String) : Bool :=
  "ses_".toList.isPrefixOf session.toList && 4 < session.toList.length

def isAbsolute (path : String) : Bool := path.toList.head? == some '/'

section Canonical
variable (canonical : String → String)

def sameDirectory (left right : String) : Bool := canonical left == canonical right

end Canonical

section Occupancy

def maxListPages : Nat := 25

def listPage (cursor : Option String) : Attempt HostOp HostOp.Ret ApiError SessionPage :=
  request (.list "" cursor) id

/-- The pages from the cursor on; a repeated cursor or a walk that does not end is an error. -/
def walkPages : (pages : Nat) → List String → Option String →
    Attempt HostOp HostOp.Ret ApiError (List LocatedSession)
  | 0, _, _ =>
      throw (.plain "session list did not finish within the page budget; the page set is incomplete")
  | pages + 1, followed, cursor => do
      let page ← listPage cursor
      match page.nextCursor with
      | none => return page.sessions
      | some next =>
          if followed.contains next then
            throw (.plain "session list repeated a cursor; the page set is incomplete")
          else do
            let rest ← walkPages pages (followed ++ [next]) (some next)
            return page.sessions ++ rest

def allSessions : Attempt HostOp HostOp.Ret ApiError (List LocatedSession) :=
  walkPages maxListPages [] none

def incomplete (error : ApiError) : String :=
  "the OpenCode occupancy listing is incomplete: " ++ bounded error.message

def occupantsOfDirectory (canonical : String → String) (directory : String) :
    HostM (List LocatedSession) := do
  let sessions ← renameFailure incomplete allSessions
  return sessions.filter fun session => sameDirectory canonical session.directory directory

end Occupancy

section Lookups

structure LookupTexts where
  failed : ApiError → String
  mismatched : LocatedSession → String
  unusable : LocatedSession → String

def admitLocated (texts : LookupTexts) (id : String) (located : LocatedSession) :
    Except String LocatedSession := do
  refuse (located.id ≠ id) (texts.mismatched located)
  refuse (isAbsolute located.directory = false) (texts.unusable located)
  return located

def locate (texts : LookupTexts) (id : String) : HostM LocatedSession := do
  let located ← request (.session id) (·.mapError texts.failed)
  fromExcept (admitLocated texts id located)

def mismatchedAnswer (id : String) (located : LocatedSession) : String :=
  "the host answered for " ++ id ++ " with a different session '" ++ bounded located.id ++ "'"

def relativeAnswer (id : String) (located : LocatedSession) : String :=
  "the host answered for " ++ id ++ " with a non-absolute location '" ++
    bounded located.directory ++ "'"

def rootTexts (id : String) : LookupTexts where
  failed error := "OpenCode session '" ++ id ++ "' could not be located: " ++ bounded error.message
  mismatched := mismatchedAnswer ("OpenCode session '" ++ id ++ "'")
  unusable := relativeAnswer ("OpenCode session '" ++ id ++ "'")

def moveTexts (id : String) : LookupTexts where
  failed error :=
    "OpenCode session '" ++ id ++ "' could not be located before its move: " ++ bounded error.message
  mismatched := mismatchedAnswer ("OpenCode session '" ++ id ++ "'")
  unusable := relativeAnswer ("OpenCode session '" ++ id ++ "'")

def parentTexts (id parent : String) : LookupTexts where
  failed error := "the parent '" ++ parent ++ "' of OpenCode session '" ++ id ++
    "' could not be located: " ++ bounded error.message
  mismatched := mismatchedAnswer ("parent '" ++ parent ++ "' of OpenCode session '" ++ id ++ "'")
  unusable := relativeAnswer ("parent '" ++ parent ++ "' of OpenCode session '" ++ id ++ "'")

def runningTexts (id : String) : LookupTexts where
  failed error := "running session '" ++ id ++ "' could not be located: " ++ bounded error.message
  mismatched := mismatchedAnswer ("running session '" ++ id ++ "'")
  unusable _ := "running session '" ++ id ++ "' reported a non-absolute directory"

def locateAll (texts : String → LookupTexts) : List String → HostM (List LocatedSession)
  | [] => return []
  | id :: rest => do
      let located ← locate (texts id) id
      let others ← locateAll texts rest
      return located :: others

def locateRoots (roots : List String) : HostM (List LocatedSession) := locateAll rootTexts roots

def distinct : List String → List String → List String
  | _, [] => []
  | seen, id :: rest =>
      if seen.contains id then distinct seen rest else id :: distinct (id :: seen) rest

def runningSessions : HostM (List LocatedSession) := do
  let ids ← request .activeSessions
    (·.mapError fun error => "the running-session query failed: " ++ bounded error.message)
  locateAll runningTexts (distinct [] ids)

def maxParentEdges : Nat := 64

/-- Whether a chain of at most `edges` parents reaches the family. -/
def climb (id : String) (family : List String) :
    (edges : Nat) → (visited : List String) → (parent : String) → HostM Bool
  | 0, _, _ => throw ("the parent lineage of OpenCode session '" ++ id ++ "' exceeds the " ++
      maxParentEdges.repr ++ "-edge limit")
  | edges + 1, visited, parent => do
      fromExcept (refuse (isOpencodeSession parent = false)
        ("the parent lineage of OpenCode session '" ++ id ++ "' names an unusable parent '" ++
          parent ++ "'"))
      if family.contains parent then return true
      else do
        fromExcept (refuse (visited.contains parent)
          ("the parent lineage of OpenCode session '" ++ id ++ "' is cyclic"))
        let located ← locate (parentTexts id parent) parent
        match located.parentId with
        | none => return false
        | some next => climb id family edges (parent :: visited) next

def lineage (id : String) (start : Option String) (family : List String) : HostM Bool :=
  match start with
  | none => return false
  | some parent => climb id family maxParentEdges [id] parent

end Lookups

section Running
variable (canonical : String → String)

def runningBlockerOf (directory : String) (closeRoot intended : Option String)
    (alreadyReturned : List String) (session : LocatedSession) : Except String Unit :=
  if closeRoot = some session.id then .ok ()
  else do
    refuse (intended = some session.id)
      ("running OpenCode session '" ++ session.id ++ "' is the session about to be moved")
    refuse (session.id ∈ alreadyReturned)
      ("running OpenCode session '" ++ session.id ++ "' started running after it was returned")
    refuse (sameDirectory canonical session.directory directory)
      ("running OpenCode session '" ++ session.id ++ "' currently occupies this directory")

def checkAll {α : Type} (check : α → Except String Unit) : List α → Except String Unit
  | [] => .ok ()
  | a :: rest => do
      check a
      checkAll check rest

def runningBlocker (directory : String) (closeRoot intended : Option String)
    (alreadyReturned : List String) : HostM Unit := do
  let running ← runningSessions
  fromExcept (checkAll (runningBlockerOf canonical directory closeRoot intended alreadyReturned) running)

end Running

end Phasegent.Cleanup
