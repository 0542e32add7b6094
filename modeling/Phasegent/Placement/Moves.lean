import Mathlib

namespace Phasegent.Placement

section Registry

inductive Occurrence where
  | reads (attempt : Nat) (key : String)
  | found (attempt : Nat)
  | requests (attempt : Nat) (key directory : String) (move : Nat)
  | refused (attempt : Nat)
  | settles (move : Nat) (accepted : Bool)
  | superseded (attempt : Nat)
  | placed (attempt : Nat)
  deriving DecidableEq

/-- The await an attempt is suspended in. -/
inductive Stage where
  | waiting (move : Nat)
  | reading
  | moving (move : Nat)
  | finished
  deriving DecidableEq

structure Attempt where
  key : String
  directory : String
  stage : Stage
  deriving DecidableEq

structure MoveRecord where
  target : String
  attempt : Option Nat
  dispatched : Option Nat
  deriving DecidableEq

structure HostMove where
  key : String
  directory : String
  outcome : Option Bool
  deriving DecidableEq

structure Registry where
  sessionWorktrees : String → Option String
  placementOrigins : String → Option String
  abandonedTargets : List (String × String)
  moveAttempts : String → Option MoveRecord
  placedSessions : List String
  confirmedSessions : List String
  attempts : List Attempt
  moves : List HostMove
  log : List Occurrence

namespace Registry

def initial : Registry := ⟨fun _ => none, fun _ => none, [], fun _ => none, [], [], [], [], []⟩

def record (what : Occurrence) (s : Registry) : Registry := { s with log := what :: s.log }

def putRecord (key : String) (own : Option MoveRecord) (s : Registry) : Registry :=
  { s with moveAttempts := Function.update s.moveAttempts key own }

def currentAttempt (s : Registry) (key : String) : Option Nat := (s.moveAttempts key).bind (·.attempt)

def supersedeAttempt (key : String) (s : Registry) : Registry :=
  match s.moveAttempts key with
  | some ⟨target, some attempt, dispatched⟩ =>
      (s.putRecord key (some ⟨target, none, dispatched⟩)).record (.superseded attempt)
  | _ => s

def markPlaced (key : String) (s : Registry) : Registry := { s with placedSessions := s.placedSessions.insert key }

def markConfirmed (key : String) (s : Registry) : Registry :=
  { s with confirmedSessions := s.confirmedSessions.insert key }

def dropPlacement (key : String) (s : Registry) : Registry :=
  { s with
    placementOrigins := Function.update s.placementOrigins key none
    placedSessions := s.placedSessions.erase key
    confirmedSessions := s.confirmedSessions.erase key }

def rememberWorktree (key directory : String) (origin : Option String) (s : Registry) : Registry :=
  if directory = "" then s
  else
    let s := if (s.sessionWorktrees key).any (· ≠ directory) then (s.dropPlacement key).supersedeAttempt key else s
    let s := { s with sessionWorktrees := Function.update s.sessionWorktrees key (some directory) }
    match origin.filter (· ≠ "") with
    | some origin => { s with placementOrigins := Function.update s.placementOrigins key (some origin) }
    | none => s

def markTargetAbandoned (key directory : String) (s : Registry) : Registry :=
  if directory = "" then s else { s with abandonedTargets := s.abandonedTargets.insert (key, directory) }

def forgetSessionWorktree (key : String) (s : Registry) : Registry :=
  supersedeAttempt key
    (dropPlacement key { s with sessionWorktrees := Function.update s.sessionWorktrees key none })

/-- What the fresh answer of the host makes of the target that was registered when it was asked. -/
def reconcile (key registered directory : String) (s : Registry) : Bool × Registry :=
  if directory = registered then (true, s.markConfirmed key)
  else if s.placementOrigins key = some directory ∧ key ∉ s.confirmedSessions then (true, s)
  else (false, (s.markTargetAbandoned key registered).forgetSessionWorktree key)

end Registry

end Registry

section Answers
open Registry

def authoritative (answer : Option String) : Option String := answer.filter (· ≠ "")

def reconcileSessionLocation (key registered : String) (answer : Option String) (s : Registry) : Bool × Registry :=
  match authoritative answer with
  | none => if key ∈ s.placedSessions then (false, s.forgetSessionWorktree key) else (true, s)
  | some directory => s.reconcile key registered directory

def inheritedWorktree (key : String) (registered answer : Option String) (s : Registry) : Option String × Registry :=
  match authoritative answer, registered with
  | none, _ => (none, s)
  | some directory, none => (some directory, s)
  | some directory, some registered =>
      match s.reconcile key registered directory with
      | (true, s) => (some registered, s)
      | (false, s) => (some directory, s)

end Answers

section Attempts
open Registry

/-- How the host takes the request for a move: it lacks it, throws, or returns the promise of an answer. -/
inductive Reply where
  | missing
  | throws
  | promises
  deriving DecidableEq

namespace Registry

def enter (stage : Stage) (attempt : Nat) (s : Registry) : Registry :=
  { s with attempts := s.attempts.modify attempt fun own => { own with stage := stage } }

def settled (s : Registry) (move : Nat) : Bool := s.moves[move]?.any (·.outcome.isSome)

end Registry

def startReading (attempt : Nat) (key : String) (s : Registry) : Registry :=
  (s.enter .reading attempt).record (.reads attempt key)

def moveSessionToWorktree (key directory : String) (s : Registry) : Registry :=
  if directory = "" ∨ key ∈ s.placedSessions ∨ (s.currentAttempt key).isSome then s
  else
    let earlier := (s.moveAttempts key).bind (·.dispatched)
    let attempt := s.attempts.length
    let s := s.putRecord key (some ⟨directory, some attempt, earlier⟩)
    match earlier with
    | some move => { s with attempts := s.attempts ++ [⟨key, directory, .waiting move⟩] }
    | none => record (.reads attempt key) { s with attempts := s.attempts ++ [⟨key, directory, .reading⟩] }

def requestMove (attempt : Nat) (key directory : String) (reply : Reply) (s : Registry) : Registry :=
  match reply with
  | .missing => s.enter .finished attempt
  | .throws => (s.record (.refused attempt)).enter .finished attempt
  | .promises =>
      let move := s.moves.length
      let running := s.putRecord key ((s.moveAttempts key).map fun running => { running with dispatched := some move })
      (record (.requests attempt key directory move) { running with moves := s.moves ++ [⟨key, directory, none⟩] }).enter
        (.moving move) attempt

def located (attempt : Nat) (key directory : String) (answer : Option String) (reply : Reply) (s : Registry) : Registry :=
  if s.currentAttempt key ≠ some attempt then s.enter .finished attempt
  else
    match authoritative answer with
    | none => s.enter .finished attempt
    | some place =>
        if place = directory then
          ((((s.record (.found attempt)).markPlaced key).record (.placed attempt)).markConfirmed key).enter .finished attempt
        else
          let s := if (s.placementOrigins key).isNone
            then { s with placementOrigins := Function.update s.placementOrigins key (some place) } else s
          requestMove attempt key directory reply s

def resume (attempt : Nat) (answer : Option String) (reply : Reply) (s : Registry) : Registry :=
  match s.attempts[attempt]? with
  | none => s
  | some ⟨key, directory, stage⟩ =>
      match stage with
      | .waiting move =>
          if s.settled move = false then s
          else if s.currentAttempt key ≠ some attempt then s.enter .finished attempt
          else startReading attempt key s
      | .reading => located attempt key directory answer reply s
      | .moving move =>
          match s.moves[move]?.bind (·.outcome) with
          | none => s
          | some false => s.enter .finished attempt
          | some true =>
              let s := if s.currentAttempt key = some attempt then (s.markPlaced key).record (.placed attempt) else s
              s.enter .finished attempt
      | .finished => s

def release (attempt : Nat) (s : Registry) : Registry :=
  match s.attempts[attempt]? with
  | some ⟨key, _, .finished⟩ =>
      if s.currentAttempt key = some attempt then s.putRecord key none else s
  | _ => s

def settle (move : Nat) (accepted : Bool) (s : Registry) : Registry :=
  match s.moves[move]? with
  | some ⟨_, _, none⟩ =>
      record (.settles move accepted) { s with moves := s.moves.modify move fun own => { own with outcome := some accepted } }
  | _ => s

end Attempts

section Runs
open Registry

/-- Whatever can run next between two awaits: a call of the registry by any prompt, or the host. -/
inductive Turn where
  | remember (key directory : String) (origin : Option String)
  | place (key : String)
  | confirm (key : String)
  | abandon (key directory : String)
  | forget (key : String)
  | reconcile (key registered : String) (answer : Option String)
  | inherit (key : String) (registered answer : Option String)
  | move (key directory : String)
  | resume (attempt : Nat) (answer : Option String) (reply : Reply)
  | release (attempt : Nat)
  | settle (move : Nat) (accepted : Bool)

def turn (s : Registry) : Turn → Registry
  | .remember key directory origin => s.rememberWorktree key directory origin
  | .place key => s.markPlaced key
  | .confirm key => s.markConfirmed key
  | .abandon key directory => s.markTargetAbandoned key directory
  | .forget key => s.forgetSessionWorktree key
  | .reconcile key registered answer => (reconcileSessionLocation key registered answer s).2
  | .inherit key registered answer => (inheritedWorktree key registered answer s).2
  | .move key directory => moveSessionToWorktree key directory s
  | .resume attempt answer reply => Placement.resume attempt answer reply s
  | .release attempt => Placement.release attempt s
  | .settle move accepted => Placement.settle move accepted s

def run (turns : List Turn) : Registry := turns.foldl turn .initial

end Runs

end Phasegent.Placement
