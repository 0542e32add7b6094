import Mathlib
import Phasegent.Interleaving.Adversary
import Phasegent.Lease.Retention

namespace Phasegent.Lease
open Fallible Interleaving

section Acts

abbrev LeaseHistory := History LeaseOp LeaseOp.Ret

def SqlOp.reads : SqlOp → Bool
  | .findActiveLease .. | .findActiveLeaseForScope .. | .findActiveLeaseForPath ..
  | .ensureNoUnscopedCollision .. => true
  | _ => false

def harmless : (op : LeaseOp) → op.Ret → Bool
  | .sql op, answer => op.reads || !answer.toBool
  | _, _ => true

def stored : (op : LeaseOp) → op.Ret → List LeaseRow
  | .sql op, .ok _ => op.inserted
  | _, _ => []

def added : (op : LeaseOp) → op.Ret → Option (String × String)
  | .worktreeAdd repoPath target _ _, .ok _ => some (repoPath, target)
  | _, _ => none

def FindsOccupied : (op : LeaseOp) → op.Ret → Prop
  | .sql (.findActiveLeaseForPath ..), .ok (some _) => True
  | _, _ => False

def LeaseOp.tame : LeaseOp → Bool
  | .sql (.findActiveLeaseForPath ..) | .worktreeAdd .. | .worktreeRemove .. => false
  | .sql op => op.reads
  | _ => true

theorem tame_harmless {op : LeaseOp} (tame : op.tame) (answer : op.Ret) : harmless op answer := by
  cases op with
  | sql op =>
      cases op with
      | findActiveLease => rfl
      | findActiveLeaseForScope => rfl
      | ensureNoUnscopedCollision => rfl
      | _ => cases tame
  | _ => rfl

theorem tame_added {op : LeaseOp} (tame : op.tame) (answer : op.Ret) : added op answer = none := by
  cases op with
  | worktreeAdd => cases tame
  | _ => rfl

theorem tame_unasked {op : LeaseOp} (tame : op.tame) (answer : op.Ret) :
    ¬FindsOccupied op answer := by
  cases op with
  | sql op =>
      cases op with
      | findActiveLeaseForPath => cases tame
      | _ => exact fun found => found
  | _ => exact fun found => found

/-- A directory is removed only after the same acquire has added it, and a scoped acquire never
stores a lease without its scope. -/
structure Guarding (withScope : Bool) (h : LeaseHistory) (op : LeaseOp) : Prop where
  own : ∀ repoPath target, op = .worktreeRemove repoPath target →
    ∃ act ∈ h, added act.effect act.answer = some (repoPath, target)
  whole : withScope → ∀ lease, op ≠ .sql (.insertLease lease)

end Acts

section Histories

structure Untouched (h : LeaseHistory) : Prop where
  harmless : ∀ act ∈ h, harmless act.effect act.answer
  added : ∀ act ∈ h, added act.effect act.answer = none

structure Vacant (h : LeaseHistory) : Prop where
  added : ∀ act ∈ h, added act.effect act.answer = none
  free : ∀ act ∈ h, ¬FindsOccupied act.effect act.answer

structure Holding (repoPath target : String) (h : LeaseHistory) : Prop where
  harmless : ∀ act ∈ h, harmless act.effect act.answer
  added : ∃ act ∈ h, added act.effect act.answer = some (repoPath, target)
  only : ∀ act ∈ h, ∀ directory, Lease.added act.effect act.answer = some directory →
    directory = (repoPath, target)

structure Undone (h : LeaseHistory) : Prop where
  harmless : ∀ act ∈ h, harmless act.effect act.answer
  removed : ∀ act ∈ h, ∀ directory, added act.effect act.answer = some directory →
    ∃ answer before, h = ⟨.worktreeRemove directory.1 directory.2, answer⟩ :: before

structure Leased (request : AcquireRequest) (outcome : AcquireOutcome) (row : LeaseRow) : Prop where
  leaseId : row.leaseId = outcome.leaseId
  path : row.worktreePath = outcome.path
  active : row.status = .active
  identity : row.repoIdentity = request.identity
  owner : (row.issue, row.session) = (asI64 request.issue, request.session)

/-- An added directory is the outcome's own, a created outcome has its directory and its row, and
whoever found the checkout occupied has created. -/
structure HandedOver (request : AcquireRequest) (outcome : AcquireOutcome) (h : LeaseHistory) :
    Prop where
  own : ∀ act ∈ h, ∀ directory, added act.effect act.answer = some directory →
    outcome.created = true ∧ directory = (request.repoPath, outcome.path)
  fresh : outcome.created = true →
    (∃ act ∈ h, added act.effect act.answer = some (request.repoPath, outcome.path)) ∧
      ∃ write ∈ h, ∃ row ∈ stored write.effect write.answer, Leased request outcome row
  occupied : (∃ act ∈ h, FindsOccupied act.effect act.answer) → outcome.created = true

variable {repoPath target : String} {h : LeaseHistory} {request : AcquireRequest}
  {outcome : AcquireOutcome}

theorem Untouched.undone (untouched : Untouched h) : Undone h := by
  refine ⟨untouched.harmless, ?_⟩
  intro act among directory adds
  rw [untouched.added act among] at adds
  cases adds

theorem Untouched.cons {op : LeaseOp} {answer : op.Ret} (untouched : Untouched h)
    (quiet : Lease.harmless op answer) (none : Lease.added op answer = none) :
    Untouched (⟨op, answer⟩ :: h) :=
  ⟨List.forall_mem_cons.mpr ⟨quiet, untouched.harmless⟩,
    List.forall_mem_cons.mpr ⟨none, untouched.added⟩⟩

theorem Untouched.tame {op : LeaseOp} (answer : op.Ret) (untouched : Untouched h) (tame : op.tame) :
    Untouched (⟨op, answer⟩ :: h) :=
  untouched.cons (tame_harmless tame answer) (tame_added tame answer)

theorem Vacant.cons {op : LeaseOp} {answer : op.Ret} (vacant : Vacant h)
    (none : Lease.added op answer = none) (free : ¬FindsOccupied op answer) :
    Vacant (⟨op, answer⟩ :: h) :=
  ⟨List.forall_mem_cons.mpr ⟨none, vacant.added⟩, List.forall_mem_cons.mpr ⟨free, vacant.free⟩⟩

theorem Vacant.tame {op : LeaseOp} (answer : op.Ret) (vacant : Vacant h) (tame : op.tame) :
    Vacant (⟨op, answer⟩ :: h) :=
  vacant.cons (tame_added tame answer) (tame_unasked tame answer)

theorem Untouched.holding {branch base : String} (untouched : Untouched h) :
    Holding repoPath target (⟨.worktreeAdd repoPath target branch base, .ok ()⟩ :: h) := by
  refine ⟨List.forall_mem_cons.mpr ⟨rfl, untouched.harmless⟩, ⟨_, List.mem_cons_self, rfl⟩, ?_⟩
  intro act among directory adds
  rcases List.mem_cons.mp among with rfl | earlier
  · exact (Option.some.inj adds).symm
  · rw [untouched.added act earlier] at adds
    cases adds

theorem Holding.cons {op : LeaseOp} {answer : op.Ret} (holding : Holding repoPath target h)
    (quiet : Lease.harmless op answer) (none : Lease.added op answer = none) :
    Holding repoPath target (⟨op, answer⟩ :: h) := by
  obtain ⟨act, among, adds⟩ := holding.added
  refine ⟨List.forall_mem_cons.mpr ⟨quiet, holding.harmless⟩,
    ⟨act, List.mem_cons_of_mem _ among, adds⟩, List.forall_mem_cons.mpr ⟨?_, holding.only⟩⟩
  intro directory adds
  rw [none] at adds
  cases adds

theorem Holding.tame {op : LeaseOp} (answer : op.Ret) (holding : Holding repoPath target h)
    (tame : op.tame) : Holding repoPath target (⟨op, answer⟩ :: h) :=
  holding.cons (tame_harmless tame answer) (tame_added tame answer)

theorem Holding.removed (holding : Holding repoPath target h) (answer : Except WorktreeError Unit) :
    Undone (⟨.worktreeRemove repoPath target, answer⟩ :: h) := by
  refine ⟨List.forall_mem_cons.mpr ⟨rfl, holding.harmless⟩, ?_⟩
  intro act among directory adds
  rcases List.mem_cons.mp among with rfl | earlier
  · cases adds
  · obtain rfl := holding.only act earlier directory adds
    exact ⟨answer, h, rfl⟩

theorem HandedOver.tame {op : LeaseOp} (answer : op.Ret) (handed : HandedOver request outcome h)
    (tame : op.tame) : HandedOver request outcome (⟨op, answer⟩ :: h) where
  own act among directory adds := by
    rcases List.mem_cons.mp among with rfl | earlier
    · rw [tame_added tame answer] at adds
      cases adds
    · exact handed.own act earlier directory adds
  fresh created := by
    obtain ⟨⟨act, among, adds⟩, write, later, rest⟩ := handed.fresh created
    exact ⟨⟨act, List.mem_cons_of_mem _ among, adds⟩, write, List.mem_cons_of_mem _ later, rest⟩
  occupied found := by
    obtain ⟨act, among, finds⟩ := found
    rcases List.mem_cons.mp among with rfl | earlier
    · exact absurd finds (tame_unasked tame answer)
    · exact handed.occupied ⟨act, earlier, finds⟩

end Histories

section Steps
variable {α : Type} {withScope : Bool} {P : LeaseHistory → Prop} {Q : α → LeaseHistory → Prop}
  {F : WorktreeError → LeaseHistory → Prop} {request : AcquireRequest}

theorem traced_ask {op : LeaseOp} {Q : op.Ret → LeaseHistory → Prop}
    (allowed : ∀ h, P h → Guarding withScope h op) (answered : ∀ h r, P h → Q r (⟨op, r⟩ :: h)) :
    Traced (Guarding withScope) P (ask op) Q F :=
  traced_request allowed answered

end Steps

section Probes

theorem Probing.tame {α : Type} {p : LeaseM α} (probing : Probing p) :
    Performs (fun op => op.tame) p := by
  apply Performs.mono probing
  intro op probes
  cases op with
  | sql op => cases probes
  | worktreeAdd => cases probes
  | worktreeRemove => cases probes
  | _ => rfl

end Probes

section Acquires
variable {withScope : Bool} {request : AcquireRequest}

end Acquires

section Commands

def Command.acquires : Command → Option Bool
  | .acquire .. => some false
  | .acquireScoped .. => some true
  | _ => none

end Commands

section Runs
variable {F : Type} {urls : UrlLibrary} {outside : F → (op : LeaseOp) → op.Ret → F → Prop}
  {events : List (Event (LeaseDb × F) LeaseOp LeaseOp.Ret)} {i : Pid}

theorem SqlOp.reads_still {op : SqlOp} {db db' : LeaseDb} {a : op.Ret} (reads : op.reads)
    (run : op.tx urls db = .ok (a, db')) : db' = db := by
  cases op with
  | findActiveLease identity issue session =>
      rw [SqlOp.tx] at run
      exact (readTables_ok run).2
  | findActiveLeaseForScope identity session scope =>
      rw [SqlOp.tx] at run
      exact (readTables_ok run).2
  | findActiveLeaseForPath identity path =>
      rw [SqlOp.tx] at run
      exact (readTables_ok run).2
  | ensureNoUnscopedCollision identity issue =>
      rw [SqlOp.tx] at run
      exact (readTables_ok run).2
  | _ => cases reads

end Runs

section Compensation
variable {F : Type} {urls : UrlLibrary} {outside : F → (op : LeaseOp) → op.Ret → F → Prop}
  {present : F → String → Prop} {i : Pid}

theorem LeaseStep.effect {s s' : LeaseDb × F} {op : LeaseOp} {answer : op.Ret}
    (step : LeaseStep urls outside s op answer s') (external : External op) :
    outside s.2 op answer s'.2 := by
  cases step with
  | outside _ effect => exact effect
  | sql => cases external
  | fault => cases external

end Compensation

section Conflict

structure Trees where
  roots : List (List (List Char))
  clock : Nat

def place (path : String) : List (List Char) := (path.toList.splitOn '/').reverse

def forest (trees : Trees) : (op : LeaseOp) → op.Ret × Trees
  | .worktreeAdd _ target _ _ => (.ok (), { trees with roots := place target :: trees.roots })
  | .worktreeRemove _ target =>
      (.ok (), { trees with roots := trees.roots.filter (· ≠ place target) })
  | op => ((sandbox trees.clock op).1, { trees with clock := (sandbox trees.clock op).2 })

end Conflict

end Phasegent.Lease
