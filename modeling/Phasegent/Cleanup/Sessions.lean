import Mathlib.Data.List.Destutter
import Mathlib.Data.List.Sort
import Phasegent.Cleanup.Host

namespace Phasegent.Cleanup
open Fallible Interleaving

inductive FamilyOutcome where
  | unmanaged
  | vacant
  | released (sessions : List String)
  | releasable (sessions : List String)
  | keep (reason : String)
  deriving DecidableEq, Repr

-- The budget of a prune admits so many polls; whether it is spent earlier is for the clock to say.
inductive MovePolicy where
  | noWait
  | bounded (polls : Nat)
  deriving DecidableEq, Repr

section Wait
variable (canonical : String → String)

-- In nanoseconds, as what is left of the budget is.
def movePollInterval : Nat := 100000000

def notLeft (id : String) : String :=
  "the OpenCode session '" ++ id ++ "' has not left the directory yet"

def waitExpired (id : String) : String := notLeft id ++ " (bounded wait expired)"

def placement (located : LocatedSession) (id old destination : String) : Except String Bool := do
  refuse (located.id ≠ id) (mismatchedAnswer ("the moved OpenCode session '" ++ id ++ "'") located)
  refuse (isAbsolute located.directory = false)
    (relativeAnswer ("the moved OpenCode session '" ++ id ++ "'") located)
  if sameDirectory canonical located.directory destination then return false
  else if sameDirectory canonical located.directory old then return true
  else throw ("OpenCode session '" ++ id ++ "' is now in '" ++ Lease.bounded located.directory ++
    "', not the directory it was to be returned from")

def observe (id old destination : String) : HostM Bool := do
  let located ← request (.session id) (·.mapError fun error =>
    "the OpenCode session '" ++ id ++ "' could not be confirmed after the move request: " ++
      Lease.bounded error.message)
  fromExcept (placement canonical located id old destination)

def checkBudget (id : String) : HostM Unit := do
  let expired ← request .budgetExpired .ok
  fromExcept (refuse (expired = true) (waitExpired id))

def observeAll (old destination : String) : List String → HostM (List String)
  | [] => return []
  | id :: rest => do
      checkBudget id
      let stays ← observe canonical id old destination
      let others ← observeAll old destination rest
      return if stays then id :: others else others

def waitPending (old destination : String) (runningCheck : HostM Unit) :
    (polls : Nat) → (pending : List String) → HostM Unit
  | _, [] => return ()
  | 0, first :: _ => throw (waitExpired first)
  | polls + 1, first :: rest => do
      checkBudget first
      runningCheck
      checkBudget first
      let remaining ← request .budgetRemaining .ok
      fromExcept (refuse (remaining = 0) (waitExpired first))
      request (.poll (min remaining movePollInterval)) .ok
      checkBudget first
      let still ← observeAll canonical old destination (first :: rest)
      waitPending old destination runningCheck polls still

def MovePolicy.waitPending (policy : MovePolicy) (old destination : String)
    (runningCheck : HostM Unit) (pending : List String) : HostM Unit :=
  match policy, pending with
  | .noWait, [] => return ()
  | .noWait, first :: _ => throw (notLeft first)
  | .bounded polls, _ => Cleanup.waitPending canonical old destination runningCheck polls pending

end Wait

section Family

def rootSessions (associated : List String) : List String :=
  (((associated.map trimText).filter isOpencodeSession).insertionSort (· ≤ ·)).destutter (· ≠ ·)

def closeRoot (mode : CleanupMode) (closing : Option String) : Option String :=
  if mode ≠ .close then none else (closing.map trimText).filter isOpencodeSession

def familyOf (mode : CleanupMode) (associated : List String) (closing : Option String) : List String :=
  match closeRoot mode closing with
  | none => rootSessions associated
  | some root =>
      if root ∈ rootSessions associated then rootSessions associated
      else rootSessions associated ++ [root]

def hostedBefore (left right : String × Option String) : Prop :=
  left.1 < right.1 ∨ left.1 = right.1 ∧
    match left.2, right.2 with
    | none, _ => True
    | some _, none => False
    | some parent, some parent' => parent ≤ parent'

instance : DecidableRel hostedBefore := fun left right => by
  unfold hostedBefore
  split <;> infer_instance

def hostedSessions (canonical : String → String) (directory : String)
    (occupants locatedRoots : List LocatedSession) : List (String × Option String) :=
  let hosted := occupants.map (fun occupant => (occupant.id, occupant.parentId)) ++
    (locatedRoots.filter fun root => sameDirectory canonical root.directory directory).map
      fun root => (root.id, none)
  (hosted.insertionSort hostedBefore).destutter fun left right => left.1 ≠ right.1

def disagreement (canonical : String → String) (directory : String)
    (occupants : List LocatedSession) (root : LocatedSession) : Except String Unit :=
  refuse (occupants.any (·.id == root.id) = true ∧
      sameDirectory canonical root.directory directory = false)
    ("OpenCode session '" ++ root.id ++ "' is listed here but the host places it elsewhere")

def unrelated (id : String) : String :=
  "OpenCode session '" ++ id ++ "' is hosted here and is not associated with this repository"

/-- The ids of the occupants, once all of them are proven to belong to the family. -/
def relate (family : List String) : List (String × Option String) → HostM (List String)
  | [] => return []
  | (id, parent) :: rest => do
      let related ← (if family.contains id then return true else lineage id parent family : HostM Bool)
      fromExcept (refuse (related = false) (unrelated id))
      let others ← relate family rest
      return id :: others

def hostedReason (hosted : List String) : String :=
  match hosted with
  | [single] => "OpenCode session '" ++ single ++ "' is still hosted here"
  | many => many.length.repr ++ " OpenCode sessions are still hosted here"

def resolveMainCheckout : HostM String :=
  request .resolveMainCheckout (·.mapError fun reason =>
    "no verified main checkout to move the associated OpenCode session to: " ++ reason)

end Family

section Release
variable (canonical : String → String) (directory : String) (family : List String)
  (closing : Option String) (policy : MovePolicy)

structure Requests where
  accepted : List String
  pending : List String
  deriving DecidableEq, Repr

def proveMember (id : String) (located : LocatedSession) : HostM Unit :=
  if family.contains id then return ()
  else do
    let related ← lineage id located.parentId family
    fromExcept (refuse (related = false)
      ("OpenCode session '" ++ id ++ "' is no longer part of this directory's lease family"))

def requestMove (destination id : String) (requests : Requests) : HostM Requests := do
  runningBlocker canonical directory closing (some id) requests.accepted
  request (.moveSession id destination) (·.mapError fun error =>
    "moving the OpenCode session '" ++ id ++ "' failed: " ++ bounded error.message)
  let pending ← observe canonical id directory destination
  return ⟨requests.accepted ++ [id], if pending then requests.pending ++ [id] else requests.pending⟩

def returnSession (destination id : String) (requests : Requests) : HostM Requests := do
  let located ← locate (moveTexts id) id
  proveMember family id located
  if sameDirectory canonical located.directory destination then return requests
  else do
    fromExcept (refuse (sameDirectory canonical located.directory directory = false)
      ("OpenCode session '" ++ id ++ "' is now in '" ++ bounded located.directory ++
        "', not the directory it was to be returned from"))
    requestMove canonical directory closing destination id requests

def returnSessions (destination : String) : List String → Requests → HostM Requests
  | [], requests => return requests
  | id :: rest, requests => do
      let requests ← returnSession canonical directory family closing destination id requests
      returnSessions destination rest requests

def rootsElsewhere (root : LocatedSession) : Except String Unit :=
  refuse (sameDirectory canonical root.directory directory = true)
    ("OpenCode session '" ++ root.id ++ "' is still hosted here after the move request")

/-- Request every safe move, wait for the ones that have not landed, and prove the directory free. -/
def releaseFamily (movable : List String) : HostM FamilyOutcome := do
  let destination ← resolveMainCheckout
  let requests ← returnSessions canonical directory family closing destination movable ⟨[], []⟩
  policy.waitPending canonical directory destination
    (runningBlocker canonical directory closing none requests.accepted) requests.pending
  let occupants ← occupantsOfDirectory canonical directory
  fromExcept (refuse (occupants ≠ [])
    (occupants.length.repr ++ " session(s) are still hosted here"))
  let located ← locateRoots family
  fromExcept (checkAll (rootsElsewhere canonical directory) located)
  runningBlocker canonical directory closing none requests.accepted
  return .released movable

end Release

section Finalize
variable (canonical : String → String)

def decideFamily (mode : CleanupMode) (directory : String) (family : List String)
    (closing : Option String) (policy : MovePolicy) (movable : List String) : HostM FamilyOutcome :=
  if mode = .verify ∨ mode = .sync then throw (hostedReason movable)
  else if mode.mayMoveSessions then releaseFamily canonical directory family closing policy movable
  else if movable ≠ [] then do
    let _ ← resolveMainCheckout
    return .releasable movable
  else return .releasable movable

def assessFamily (mode : CleanupMode) (directory : String) (family : List String)
    (closing : Option String) (policy : MovePolicy) : HostM FamilyOutcome := do
  let locatedRoots ← locateRoots family
  let occupants ← occupantsOfDirectory canonical directory
  fromExcept (checkAll (disagreement canonical directory occupants) locatedRoots)
  (if mode.readsRunningState then runningBlocker canonical directory closing none [] else return ())
  let hosted := hostedSessions canonical directory occupants locatedRoots
  if hosted = [] then return .vacant
  else do
    let movable ← relate family hosted
    decideFamily canonical mode directory family closing policy movable

def finalizeFamilyIn (mode : CleanupMode) (directory : String) (associated : List String)
    (closing : Option String) (policy : MovePolicy) : HostM FamilyOutcome :=
  let roots := rootSessions associated
  if mode = .report then
    if roots = [] then return .unmanaged
    else throw ("an OpenCode session lease points here (" ++ ", ".intercalate roots ++
      "); occupancy is not probed in report mode")
  else if roots = [] ∧ mode.enumeratesUnmanagedCandidates = false then return .unmanaged
  else assessFamily canonical mode directory (familyOf mode associated closing)
    (closeRoot mode closing) policy

def FamilyOutcome.ofResult : Except String FamilyOutcome → FamilyOutcome
  | .ok outcome => outcome
  | .error reason => .keep reason

/-- Every early exit keeps the directory with its reason. -/
def finalizeFamilyWith (mode : CleanupMode) (directory : String) (associated : List String)
    (closing : Option String) (policy : MovePolicy) : Prog HostOp HostOp.Ret FamilyOutcome :=
  (finalizeFamilyIn canonical mode directory associated closing policy).run.map .ofResult

end Finalize

end Phasegent.Cleanup
