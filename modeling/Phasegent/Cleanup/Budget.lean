import Phasegent.Cleanup.Sessions
import Phasegent.Interleaving.Embedding
import Phasegent.Sequential.Outcome

namespace Phasegent.Cleanup.Waiting
open Fallible Sequential

-- In nanoseconds, as instants are.
def moveWaitBudget : Nat := 3000000000

def pollInterval : Nat := 100000000

inductive Op where
  | now
  | sleep (duration : Nat)
  | session (id : String)
  | runningCheck
  | work
  deriving DecidableEq, Repr

abbrev Op.Ret : Op → Type
  | .now => Nat
  | .sleep _ => Unit
  | .session _ => Except ApiError LocatedSession
  | .runningCheck => Except String Unit
  | .work => Unit

/-- A host and a clock: everything may take time, the clock shows a time within its reading, and a sleep
takes at least as long as asked. -/
structure Surroundings (W : Type) where
  time : W → Nat
  step : W → (op : Op) → op.Ret × W
  forward : ∀ w op, time w ≤ time (step w op).2
  shows : ∀ w, time w ≤ (step w .now).1 ∧ (step w .now).1 ≤ time (step w .now).2
  sleeps : ∀ w duration, time w + duration ≤ time (step w (.sleep duration)).2

def Surroundings.shown {W : Type} (env : Surroundings W) (w : W) : Nat := (env.step w .now).1

structure Event where
  op : Op
  answer : op.Ret
  started : Nat
  ended : Nat

/-- The surroundings, the deadline cell of the budget and what happened so far, the latest first. -/
structure State (W : Type) where
  world : W
  deadline : Option Nat
  events : List Event

section Program

variable {W : Type} (env : Surroundings W) (canonical : String → String)

def perform (op : Op) : StateM (State W) op.Ret := fun s =>
  let (answer, world) := env.step s.world op
  (answer, { s with
    world := world
    events := ⟨op, answer, env.time s.world, env.time world⟩ :: s.events })

namespace MoveBudget

def deadline : StateM (State W) Nat := fun s =>
  match s.deadline with
  | some fixed => (fixed, s)
  | none =>
      let (now, s) := perform env .now s
      (now + moveWaitBudget, { s with deadline := some (now + moveWaitBudget) })

def expired : StateM (State W) Bool := do
  let now ← perform env .now
  let fixed ← deadline env
  return decide (fixed ≤ now)

def remaining : StateM (State W) Nat := do
  let fixed ← deadline env
  let now ← perform env .now
  return fixed - now

def poll (duration : Nat) : StateM (State W) Unit := perform env (.sleep duration)

end MoveBudget

def checkExpired (id : String) : Fallibly (State W) String Unit := do
  let expired ← liftM (MoveBudget.expired env)
  if expired then throw (waitExpired id)

def check : Fallibly (State W) String Unit := ExceptT.mk (perform env .runningCheck)

def observe (id old destination : String) : Fallibly (State W) String Bool := do
  let located ← liftM (perform env (.session id))
  match located with
  | .error error =>
      throw ("the OpenCode session '" ++ id ++ "' could not be confirmed after the move request: " ++
        Lease.bounded error.message)
  | .ok located => ExceptT.mk (pure (placement canonical located id old destination))

def observeAll (old destination : String) : List String → Fallibly (State W) String (List String)
  | [] => return []
  | id :: rest => do
      checkExpired env id
      let stays ← observe env canonical id old destination
      let still ← observeAll old destination rest
      return if stays then id :: still else still

def waitRound (old destination first : String) (rest : List String) : Fallibly (State W) String (List String) := do
  checkExpired env first
  check env
  checkExpired env first
  let remaining ← liftM (MoveBudget.remaining env)
  if remaining = 0 then throw (waitExpired first)
  else do
    liftM (MoveBudget.poll env (min remaining pollInterval))
    checkExpired env first
    observeAll env canonical old destination (first :: rest)

/-- The loop, unless it is still going on after so many rounds. -/
def waitLoop (old destination : String) : (rounds : Nat) → List String →
    Fallibly (State W) String (Option Unit)
  | _, [] => return some ()
  | 0, _ :: _ => return none
  | rounds + 1, first :: rest => do
      let still ← waitRound env canonical old destination first rest
      waitLoop old destination rounds still

inductive Policy where
  | noWait
  | bounded

structure Call where
  policy : Policy
  pending : List String
  old : String
  destination : String

def waitPending (rounds : Nat) (call : Call) : Fallibly (State W) String (Option Unit) :=
  match call.policy, call.pending with
  | _, [] => return some ()
  | .noWait, first :: _ => throw (notLeft first)
  | .bounded, first :: rest => waitLoop env canonical call.old call.destination rounds (first :: rest)

def afterCalls (rounds : Nat) (world : W) (calls : List Call) : State W :=
  calls.foldl (fun s call => ((waitPending env canonical rounds call).run (perform env .work s).2).2) ⟨world, none, []⟩

def beforeCall (rounds : Nat) (world : W) (calls : List Call) : State W :=
  (perform env .work (afterCalls env canonical rounds world calls)).2

end Program

section Invariant

def Op.duration : Op → Nat
  | .sleep duration => duration
  | _ => 0

def Op.isProbe : Op → Bool
  | .session _ => true
  | _ => false

def slept (events : List Event) : Nat := (events.map fun event => event.op.duration).sum

variable {W : Type} (env : Surroundings W)

def Immediate : Prop := ∀ w, env.time (env.step w .now).2 = env.shown w

def Punctual (deadline started : Nat) (earlier : List Event) : Prop :=
  (∃ shown asked rest, earlier = ⟨.now, shown, asked, started⟩ :: rest ∧ shown < deadline) ∧
    (Immediate env → started < deadline)

def Timely (deadline : Nat) : List Event → Prop
  | [] => True
  | event :: earlier =>
      (event.op.isProbe = true → Punctual env deadline event.started earlier) ∧ Timely deadline earlier

/-- Of what was slept and what is left before the deadline there is no more than the budget. -/
structure Held (s : State W) : Prop where
  slept_le : slept s.events ≤ moveWaitBudget
  paid : ∀ d, s.deadline = some d → d + slept s.events ≤ env.time s.world + moveWaitBudget
  timely : ∀ d, s.deadline = some d → Timely env d s.events
  fresh : s.deadline = none → slept s.events = 0 ∧ ∀ event ∈ s.events, event.op.isProbe = false

structure Live (deadline time : Nat) (s : State W) : Prop where
  held : Held env s
  fixed : s.deadline = some deadline
  reached : time ≤ env.time s.world

structure Ready (deadline time : Nat) (s : State W) : Prop where
  live : Live env deadline time s
  before : time < deadline
  punctual : Punctual env deadline (env.time s.world) s.events

variable {env} {d time : Nat} {s : State W}

@[simp] theorem slept_cons (event : Event) (events : List Event) :
    slept (event :: events) = event.op.duration + slept events := by
  simp [slept]

theorem timely_of_none {events : List Event} (none : ∀ event ∈ events, event.op.isProbe = false) :
    Timely env d events := by
  induction events with
  | nil => trivial
  | cons event earlier ih =>
      obtain ⟨first, others⟩ := List.forall_mem_cons.mp none
      exact ⟨fun probe => absurd probe (by simp [first]), ih others⟩

theorem Held.perform (held : Held env s) {op : Op} (room : op.duration + slept s.events ≤ moveWaitBudget)
    (sleeps : 0 < op.duration → ∃ d, s.deadline = some d)
    (probes : op.isProbe = true → ∃ d, s.deadline = some d ∧ Punctual env d (env.time s.world) s.events)
    (forward : env.time s.world + op.duration ≤ env.time (env.step s.world op).2) :
    Held env (perform env op s).2 where
  slept_le := by simpa [Waiting.perform] using room
  paid d fixed := by
    have paid := held.paid d fixed
    change d + (op.duration + slept s.events) ≤ env.time (env.step s.world op).2 + moveWaitBudget
    omega
  timely d fixed := by
    refine ⟨fun asks => ?_, held.timely d fixed⟩
    obtain ⟨own, same, punctual⟩ := probes asks
    obtain rfl : d = own := Option.some.inj (fixed.symm.trans same)
    exact punctual
  fresh unset := by
    have unset : s.deadline = none := unset
    obtain ⟨nothing, quiet⟩ := held.fresh unset
    have still : op.duration = 0 := by
      by_contra moves
      obtain ⟨d, fixed⟩ := sleeps (Nat.pos_of_ne_zero moves)
      cases unset.symm.trans fixed
    have other : op.isProbe = false := by
      by_contra asks
      obtain ⟨d, fixed, -⟩ := probes (by simpa using asks)
      cases unset.symm.trans fixed
    refine ⟨by simp [Waiting.perform, still, nothing], ?_⟩
    exact List.forall_mem_cons.mpr ⟨other, quiet⟩

theorem Held.look (held : Held env s) {op : Op} (still : op.duration = 0) (other : op.isProbe = false) :
    Held env (Waiting.perform env op s).2 := by
  refine held.perform ?_ ?_ ?_ ?_
  · rw [still, Nat.zero_add]
    exact held.slept_le
  · rw [still]
    exact fun impossible => absurd impossible (Nat.lt_irrefl 0)
  · rw [other]
    exact nofun
  · rw [still]
    exact env.forward s.world op

theorem Live.look (live : Live env d time s) {op : Op} (still : op.duration = 0) (other : op.isProbe = false) :
    Live env d time (Waiting.perform env op s).2 :=
  ⟨live.held.look still other, live.fixed, live.reached.trans (env.forward s.world op)⟩

theorem Ready.probe (ready : Ready env d time s) (id : String) :
    Live env d time (Waiting.perform env (.session id) s).2 := by
  obtain ⟨live, -, punctual⟩ := ready
  refine ⟨live.held.perform ?_ ?_ ?_ ?_, live.fixed, live.reached.trans (env.forward s.world _)⟩
  · simpa [Op.duration] using live.held.slept_le
  · exact fun _ => ⟨d, live.fixed⟩
  · exact fun _ => ⟨d, live.fixed, punctual⟩
  · exact env.forward s.world _

theorem Live.sleep (live : Live env d time s) {duration : Nat} (room : duration + slept s.events ≤ moveWaitBudget) :
    Live env d (time + duration) (Waiting.perform env (.sleep duration) s).2 := by
  have later := env.sleeps s.world duration
  have reached := live.reached
  refine ⟨live.held.perform room (fun _ => ⟨d, live.fixed⟩) nofun later, live.fixed, ?_⟩
  exact (Nat.add_le_add_right reached duration).trans later

theorem Live.read (live : Live env d time s) (early : env.shown s.world < d) :
    Ready env d time (Waiting.perform env .now s).2 := by
  refine ⟨live.look rfl rfl, ?_, ⟨_, _, _, rfl, early⟩, ?_⟩
  · have shown : env.time s.world ≤ env.shown s.world := (env.shows s.world).1
    have reached := live.reached
    omega
  · intro immediate
    have same := immediate s.world
    change env.time (env.step s.world .now).2 < d
    omega

theorem Held.fix (held : Held env s) (unset : s.deadline = none) :
    Ready env (env.shown s.world + moveWaitBudget) (env.shown s.world)
      { (Waiting.perform env .now s).2 with deadline := some (env.shown s.world + moveWaitBudget) } := by
  obtain ⟨nothing, quiet⟩ := held.fresh unset
  have shown : env.shown s.world ≤ env.time (env.step s.world .now).2 := (env.shows s.world).2
  have more : env.shown s.world < env.shown s.world + moveWaitBudget := by
    simp [moveWaitBudget]
  have events : ∀ event ∈ (Waiting.perform env .now s).2.events, event.op.isProbe = false :=
    List.forall_mem_cons.mpr ⟨rfl, quiet⟩
  have total : slept (Waiting.perform env .now s).2.events = 0 := by
    simp [Waiting.perform, Op.duration, nothing]
  refine ⟨⟨⟨?_, ?_, ?_, nofun⟩, rfl, shown⟩, more, ⟨_, _, _, rfl, more⟩, ?_⟩
  · exact total.le.trans (Nat.zero_le _)
  · rintro _ ⟨rfl⟩
    change _ + slept (Waiting.perform env .now s).2.events ≤ env.time (env.step s.world .now).2 + _
    omega
  · rintro _ ⟨rfl⟩
    exact timely_of_none events
  · intro immediate
    have same := immediate s.world
    change env.time (env.step s.world .now).2 < _
    omega

end Invariant

section Rounds

variable {W : Type} {env : Surroundings W} {canonical : String → String} {n : Nat}

def Paced (env : Surroundings W) (n : Nat) (s : State W) : Prop :=
  Held env s ∧ ((s.deadline = none ∧ 30 ≤ n) ∨ ∃ d time, Live env d time s ∧ d ≤ time + n * pollInterval)

theorem Held.paced {s : State W} (held : Held env s) (enough : 30 ≤ n) : Paced env n s := by
  refine ⟨held, ?_⟩
  cases deadline : s.deadline with
  | none => exact Or.inl ⟨rfl, enough⟩
  | some d =>
      refine Or.inr ⟨d, env.time s.world, ⟨held, deadline, le_rfl⟩, ?_⟩
      have paid := held.paid d deadline
      have whole : 30 * pollInterval ≤ n * pollInterval := Nat.mul_le_mul_right _ enough
      simp only [moveWaitBudget, pollInterval] at *
      omega

theorem expired_live {d time : Nat} {s : State W} (live : Live env d time s) :
    Live env d time (MoveBudget.expired env s).2 ∧
      ((MoveBudget.expired env s).1 = false → Ready env d time (MoveBudget.expired env s).2) := by
  have same : MoveBudget.expired env s =
      (decide (d ≤ env.shown s.world), (perform env .now s).2) := by
    simp only [MoveBudget.expired, bind, StateT.bind, MoveBudget.deadline, perform, live.fixed]
    rfl
  rw [same]
  refine ⟨live.look rfl rfl, fun early => live.read ?_⟩
  simpa using early

theorem expired_unset {s : State W} (held : Held env s) (unset : s.deadline = none) :
    ∃ d time, Ready env d time (MoveBudget.expired env s).2 ∧ d ≤ time + moveWaitBudget := by
  have looked : Held env (perform env .now s).2 := held.look rfl rfl
  have same : (MoveBudget.expired env s).2 =
      { (perform env .now (perform env .now s).2).2 with
        deadline := some (env.shown (perform env .now s).2.world + moveWaitBudget) } := by
    simp only [MoveBudget.expired, bind, StateT.bind, MoveBudget.deadline, perform, unset]
    rfl
  rw [same]
  exact ⟨_, _, looked.fix unset, le_rfl⟩

variable {d time : Nat} {id old destination first : String} {rest pending : List String}

theorem checkExpired_live : Ends (Live env d time) (checkExpired env id) (fun _ => Ready env d time)
    fun _ => Held env := by
  have asked : Ends (Live env d time) (liftM (MoveBudget.expired env) : Fallibly (State W) String Bool)
      (fun expired s => Live env d time s ∧ (expired = false → Ready env d time s)) fun _ => Held env :=
    ends_lift fun s live => expired_live live
  refine ends_bind asked fun expired => ends_refuse (fun s ended _ => ended.1.held) fun s ended early => ended.2 ?_
  exact Bool.eq_false_iff.mpr early

theorem checkExpired_paced : Ends (Paced env n) (checkExpired env id)
    (fun _ s => ∃ d time, d ≤ time + n * pollInterval ∧ Ready env d time s) fun _ => Held env := by
  have asked : Ends (Paced env n) (liftM (MoveBudget.expired env) : Fallibly (State W) String Bool)
      (fun expired s => ∃ d time, Live env d time s ∧ d ≤ time + n * pollInterval ∧
        (expired = false → Ready env d time s)) fun _ => Held env := by
    refine ends_lift fun s ⟨held, progress⟩ => ?_
    rcases progress with ⟨unset, enough⟩ | ⟨d, time, live, near⟩
    · obtain ⟨d, time, ready, near⟩ := expired_unset held unset
      have whole : 30 * pollInterval ≤ n * pollInterval := Nat.mul_le_mul_right _ enough
      refine ⟨d, time, ready.live, ?_, fun _ => ready⟩
      simp only [moveWaitBudget, pollInterval] at *
      omega
    · obtain ⟨still, early⟩ := expired_live live
      exact ⟨d, time, still, near, early⟩
  refine ends_bind asked fun expired => ends_refuse (fun s ⟨_, _, live, _⟩ _ => live.held) ?_
  intro s ⟨d, time, _, near, ready⟩ early
  exact ⟨d, time, near, ready (Bool.eq_false_iff.mpr early)⟩

theorem check_live : Ends (Ready env d time) (check env) (fun _ => Live env d time) fun _ => Held env := by
  intro s ready
  have live : Live env d time (perform env .runningCheck s).2 := ready.live.look rfl rfl
  have same : (check env).run s = perform env .runningCheck s := rfl
  rw [← same] at live
  generalize (check env).run s = ended at live ⊢
  obtain ⟨answer, after⟩ := ended
  cases answer with
  | ok _ => exact live
  | error _ => exact live.held

theorem remaining_live : Ends (Ready env d time) (liftM (MoveBudget.remaining env) : Fallibly (State W) String Nat)
    (fun left s => ∃ shown, (time ≤ shown ∧ left = d - shown) ∧ left + slept s.events ≤ moveWaitBudget ∧
      Live env d shown s) fun _ => Held env := by
  refine ends_lift fun s ready => ?_
  have same : MoveBudget.remaining env s = (d - env.shown s.world, (perform env .now s).2) := by
    simp only [MoveBudget.remaining, bind, StateT.bind, MoveBudget.deadline, ready.live.fixed]
    rfl
  have held : Held env (perform env .now s).2 := ready.live.held.look rfl rfl
  have paid := ready.live.held.paid d ready.live.fixed
  have within := ready.live.held.slept_le
  have low : env.time s.world ≤ env.shown s.world := (env.shows s.world).1
  have high : env.shown s.world ≤ env.time (perform env .now s).2.world := (env.shows s.world).2
  have total : slept (perform env .now s).2.events = slept s.events := by simp [perform, Op.duration]
  rw [same]
  refine ⟨env.shown s.world, ⟨ready.live.reached.trans low, rfl⟩, ?_, ⟨held, ready.live.fixed, high⟩⟩
  rw [total]
  omega

theorem observe_live : Ends (Ready env d time) (observe env canonical id old destination)
    (fun _ => Live env d time) fun _ => Held env := by
  have probed : Ends (Ready env d time)
      (liftM (perform env (.session id)) : Fallibly (State W) String (Except ApiError LocatedSession))
      (fun _ => Live env d time) fun _ => Held env := ends_lift fun s ready => ready.probe id
  refine ends_bind probed fun located => ?_
  cases located with
  | error error => exact ends_throw _ fun s live => live.held
  | ok located => exact ends_except _ (fun _ _ s live => live) fun _ s live => live.held

theorem observeAll_live : Ends (Live env d time) (observeAll env canonical old destination pending)
    (fun _ => Live env d time) fun _ => Held env := by
  induction pending with
  | nil => exact ends_pure _ fun s live => live
  | cons id rest ih =>
      refine ends_bind checkExpired_live fun _ => ends_bind observe_live fun stays => ?_
      exact ends_bind ih fun still => ends_pure _ fun s live => live

theorem waitRound_paced : Ends (Paced env n) (waitRound env canonical old destination first rest)
    (fun _ s => 1 < n ∧ Paced env (n - 1) s) fun _ => Held env := by
  refine ends_bind checkExpired_paced fun _ => Ends.of_exists fun d => Ends.of_exists fun time =>
    Ends.assume fun near => ?_
  refine ends_bind check_live fun _ => ends_bind checkExpired_live fun _ => ends_bind remaining_live fun left => ?_
  refine Ends.of_exists fun shown => Ends.assume fun ⟨later, spare⟩ => ?_
  by_cases spent : left = 0
  · rw [if_pos spent]
    exact ends_throw _ fun s ⟨_, live⟩ => live.held
  rw [if_neg spent]
  have slept : Ends (fun s => left + slept s.events ≤ moveWaitBudget ∧ Live env d shown s)
      (liftM (MoveBudget.poll env (min left pollInterval)) : Fallibly (State W) String Unit)
      (fun _ => Live env d (shown + min left pollInterval)) fun _ => Held env :=
    ends_lift fun s ⟨room, live⟩ => live.sleep (by omega)
  refine ends_bind slept fun _ => ends_bind checkExpired_live fun _ => ?_
  -- Past this check a whole interval was slept, for the rest of the time would have reached the deadline.
  intro s ready
  have early := ready.before
  have interval : min left pollInterval = pollInterval := by omega
  rw [interval] at ready early
  have more : 1 < n := by
    by_contra few
    have single : n * pollInterval ≤ 1 * pollInterval := Nat.mul_le_mul_right _ (Nat.not_lt.mp few)
    omega
  have nearer : d ≤ shown + pollInterval + (n - 1) * pollInterval := by
    have split : (n - 1 + 1) * pollInterval = (n - 1) * pollInterval + pollInterval := Nat.succ_mul _ _
    rw [Nat.sub_add_cancel more.le] at split
    omega
  have observed : Ends (Live env d (shown + pollInterval)) (observeAll env canonical old destination (first :: rest))
      (fun _ s => 1 < n ∧ Paced env (n - 1) s) fun _ => Held env :=
    observeAll_live.weaken (fun _ s live => ⟨more, live.held, Or.inr ⟨d, _, live, nearer⟩⟩) fun _ _ held => held
  exact observed s ready.live

theorem waitLoop_paced (some : pending = [] ∨ 0 < n) : Ends (Paced env n) (waitLoop env canonical old destination n pending)
    (fun result s => result = Option.some () ∧ Held env s) fun _ => Held env := by
  induction n generalizing pending with
  | zero =>
      cases pending with
      | nil => exact ends_pure _ fun s paced => ⟨rfl, paced.1⟩
      | cons first rest => simp at some
  | succ n ih =>
      cases pending with
      | nil => exact ends_pure _ fun s paced => ⟨rfl, paced.1⟩
      | cons first rest =>
          refine ends_bind waitRound_paced fun still => Ends.assume fun more => ?_
          exact ih (Or.inr (by omega))

theorem waitPending_held (enough : 30 ≤ n) (call : Call) : Ends (Held env) (waitPending env canonical n call)
    (fun result s => result = Option.some () ∧ Held env s) fun _ => Held env := by
  obtain ⟨policy, pending, old, destination⟩ := call
  cases pending with
  | nil => exact ends_pure _ fun s held => ⟨rfl, held⟩
  | cons first rest =>
      cases policy with
      | noWait => exact ends_throw _ fun s held => held
      | bounded => exact (waitLoop_paced (Or.inr (by omega))).pre fun s held => held.paced enough

end Rounds

section Kept

variable {W : Type} {env : Surroundings W} {canonical : String → String} {Q : State W → Prop}

/-- Whatever is done next, and also where the deadline is set, the property stays. -/
structure Kept (env : Surroundings W) (Q : State W → Prop) : Prop where
  performs : ∀ op s, Q s → Q (perform env op s).2
  sets : ∀ d s, s.deadline = none → Q s → Q { s with deadline := some d }

variable (kept : Kept env Q)
include kept

theorem Kept.deadline {s : State W} (holds : Q s) : Q (MoveBudget.deadline env s).2 := by
  rw [MoveBudget.deadline]
  split
  · exact holds
  · exact kept.sets _ _ ‹_› (kept.performs .now s holds)

variable {F : String → State W → Prop} (fails : ∀ e s, Q s → F e s)
include fails

theorem Kept.checkExpired (id : String) : Ends Q (checkExpired env id) (fun _ => Q) F := by
  have asked : Ends Q (liftM (MoveBudget.expired env) : Fallibly (State W) String Bool) (fun _ => Q) F :=
    ends_lift fun s holds => kept.deadline (kept.performs .now s holds)
  exact ends_bind asked fun expired => ends_refuse (fun s holds _ => fails _ s holds) fun s holds _ => holds

theorem Kept.check : Ends Q (check env) (fun _ => Q) F := by
  intro s holds
  have after := kept.performs .runningCheck s holds
  have same : (Waiting.check env).run s = perform env .runningCheck s := rfl
  rw [← same] at after
  generalize (Waiting.check env).run s = ended at after ⊢
  obtain ⟨answer, s'⟩ := ended
  cases answer with
  | ok _ => exact after
  | error _ => exact fails _ s' after

theorem Kept.waitRound {old destination first : String} {rest : List String} {Q' : List String → State W → Prop}
    (observes : Ends Q (observeAll env canonical old destination (first :: rest)) Q' F) :
    Ends Q (waitRound env canonical old destination first rest) Q' F := by
  refine ends_bind (kept.checkExpired fails first) fun _ => ends_bind (kept.check fails) fun _ =>
    ends_bind (kept.checkExpired fails first) fun _ => ?_
  have asked : Ends Q (liftM (MoveBudget.remaining env) : Fallibly (State W) String Nat) (fun _ => Q) F :=
    ends_lift fun s holds => kept.performs .now _ (kept.deadline holds)
  refine ends_bind asked fun left => ?_
  by_cases spent : left = 0
  · rw [if_pos spent]
    exact ends_throw _ fun s holds => fails _ s holds
  rw [if_neg spent]
  have slept : Ends Q (liftM (MoveBudget.poll env (min left pollInterval)) : Fallibly (State W) String Unit)
      (fun _ => Q) F := ends_lift fun s holds => kept.performs _ s holds
  exact ends_bind slept fun _ => ends_bind (kept.checkExpired fails first) fun _ => observes

theorem Kept.observeAll {old destination : String} {pending : List String} :
    Ends Q (observeAll env canonical old destination pending) (fun _ => Q) F := by
  induction pending with
  | nil => exact ends_pure _ fun s holds => holds
  | cons id rest ih =>
      have probed : Ends Q (liftM (perform env (.session id)) : Fallibly (State W) String (Except ApiError LocatedSession))
          (fun _ => Q) F := ends_lift fun s holds => kept.performs _ s holds
      have observed : Ends Q (observe env canonical id old destination) (fun _ => Q) F := by
        refine ends_bind probed fun answer => ?_
        cases answer with
        | error error => exact ends_throw _ fun s holds => fails _ s holds
        | ok located => exact ends_except _ (fun _ _ s holds => holds) fun _ s holds => fails _ s holds
      exact ends_bind (kept.checkExpired fails id) fun _ => ends_bind observed fun stays =>
        ends_bind ih fun still => ends_pure _ fun s holds => holds

theorem Kept.waitLoop {old destination : String} {n : Nat} {pending : List String} :
    Ends Q (waitLoop env canonical old destination n pending) (fun _ => Q) F := by
  induction n generalizing pending with
  | zero => cases pending <;> exact ends_pure _ fun s holds => holds
  | succ n ih =>
      cases pending with
      | nil => exact ends_pure _ fun s holds => holds
      | cons first rest => exact ends_bind (kept.waitRound fails (kept.observeAll fails)) fun still => ih

theorem Kept.waitPending {n : Nat} (call : Call) : Ends Q (waitPending env canonical n call) (fun _ => Q) F := by
  obtain ⟨policy, pending, old, destination⟩ := call
  cases pending with
  | nil => exact ends_pure _ fun s holds => holds
  | cons first rest =>
      cases policy with
      | noWait => exact ends_throw _ fun s holds => fails _ s holds
      | bounded => exact kept.waitLoop fails

end Kept

section Arrivals

variable {W : Type} {env : Surroundings W} {canonical : String → String} {old destination : String}
  {before : List Event} {pending : List String}

def Event.Arrives (canonical : String → String) (old destination id : String) (event : Event) : Prop :=
  ∃ located started ended, event = ⟨.session id, .ok located, started, ended⟩ ∧
    placement canonical located id old destination = .ok false

def Seen (canonical : String → String) (old destination : String) (before : List Event) (id : String)
    (s : State W) : Prop :=
  ∃ added, s.events = added ++ before ∧ ∃ event ∈ added, event.Arrives canonical old destination id

def Followed (canonical : String → String) (old destination : String) (before : List Event) (all pending : List String)
    (s : State W) : Prop :=
  (∃ added, s.events = added ++ before) ∧
    ∀ id ∈ all, id ∈ pending ∨ Seen canonical old destination before id s

theorem perform_events (env : Surroundings W) (op : Op) (s : State W) : ∃ event, (perform env op s).2.events = event :: s.events := ⟨_, rfl⟩

theorem Followed.perform {all : List String} {s : State W} (followed : Followed canonical old destination before all pending s)
    (op : Op) : Followed canonical old destination before all pending (perform env op s).2 := by
  obtain ⟨⟨added, same⟩, each⟩ := followed
  obtain ⟨latest, more⟩ := perform_events env op s
  refine ⟨⟨latest :: added, by rw [more, same, List.cons_append]⟩, fun id among => (each id among).imp_right ?_⟩
  rintro ⟨seen, same', event, member, arrives⟩
  exact ⟨latest :: seen, by rw [more, same', List.cons_append], event, List.mem_cons_of_mem _ member, arrives⟩

theorem kept_followed (all pending : List String) :
    Kept env (Followed (W := W) canonical old destination before all pending) where
  performs op _ followed := followed.perform op
  sets _ _ _ followed := followed

theorem observe_followed {all done : List String} {id : String} :
    Ends (Followed (W := W) canonical old destination before all (done ++ id :: pending))
      (observe env canonical id old destination)
      (fun stays => Followed canonical old destination before all ((if stays then done ++ [id] else done) ++ pending))
      fun _ _ => True := by
  have probed : Ends (Followed (W := W) canonical old destination before all (done ++ id :: pending))
      (liftM (perform env (.session id)) : Fallibly (State W) String (Except ApiError LocatedSession))
      (fun answer s => Followed canonical old destination before all (done ++ id :: pending) s ∧
        ∀ located, answer = .ok located → placement canonical located id old destination = .ok false →
          Seen canonical old destination before id s) fun _ _ => True := by
    refine ends_lift fun s followed => ⟨followed.perform _, fun located answered arrived => ?_⟩
    obtain ⟨⟨added, same⟩, -⟩ := followed
    refine ⟨⟨.session id, .ok located, env.time s.world, env.time (env.step s.world (.session id)).2⟩ :: added, ?_,
      _, List.mem_cons_self, located, _, _, rfl, arrived⟩
    rw [List.cons_append, ← same, ← answered]
    rfl
  refine ends_bind probed fun answer => ?_
  cases answer with
  | error error => exact ends_throw _ fun s _ => trivial
  | ok located =>
      refine ends_except _ (fun stays placed s ⟨followed, seen⟩ => ?_) fun _ s _ => trivial
      cases stays with
      | true => simpa using followed
      | false =>
          have arrived := seen located rfl placed
          refine ⟨followed.1, fun own among => ?_⟩
          rcases followed.2 own among with waiting | seen
          · simp only [List.mem_append, List.mem_cons] at waiting
            rcases waiting with waiting | rfl | waiting
            · exact Or.inl (List.mem_append_left _ waiting)
            · exact Or.inr arrived
            · exact Or.inl (List.mem_append_right _ waiting)
          · exact Or.inr seen

theorem observeAll_followed {all done : List String} :
    Ends (Followed (W := W) canonical old destination before all (done ++ pending))
      (observeAll env canonical old destination pending)
      (fun still => Followed canonical old destination before all (done ++ still)) fun _ _ => True := by
  induction pending generalizing done with
  | nil => exact ends_pure _ fun s followed => followed
  | cons id rest ih =>
      refine ends_bind ((kept_followed all (done ++ id :: rest)).checkExpired (fun _ _ _ => trivial) id) fun _ =>
        ends_bind observe_followed fun stays => ends_bind ih fun still => ends_pure _ fun s followed => ?_
      cases stays with
      | true => simpa using followed
      | false => simpa using followed

theorem waitLoop_followed {n : Nat} {all : List String} :
    Ends (Followed (W := W) canonical old destination before all pending)
      (waitLoop env canonical old destination n pending)
      (fun result s => result = some () → Followed canonical old destination before all [] s) fun _ _ => True := by
  induction n generalizing pending with
  | zero =>
      cases pending with
      | nil => exact ends_pure _ fun s followed _ => followed
      | cons first rest => exact ends_pure _ fun s followed => nofun
  | succ n ih =>
      cases pending with
      | nil => exact ends_pure _ fun s followed _ => followed
      | cons first rest =>
          have observes : Ends (Followed (W := W) canonical old destination before all ([] ++ first :: rest))
              (observeAll env canonical old destination (first :: rest))
              (fun still => Followed canonical old destination before all ([] ++ still)) fun _ _ => True :=
            observeAll_followed
          exact ends_bind ((kept_followed all (first :: rest)).waitRound (fun _ _ _ => trivial) observes) fun still => ih

theorem waitPending_followed {n : Nat} (call : Call) :
    Ends (fun s : State W => s.events = before) (waitPending env canonical n call)
      (fun result s => result = some () → ∀ id ∈ call.pending, Seen canonical call.old call.destination before id s)
      fun _ _ => True := by
  obtain ⟨policy, pending, old, destination⟩ := call
  cases pending with
  | nil => exact ends_pure _ fun s _ _ id impossible => absurd impossible List.not_mem_nil
  | cons first rest =>
      cases policy with
      | noWait => exact ends_throw _ fun s _ => trivial
      | bounded =>
          have followed : Ends (Followed (W := W) canonical old destination before (first :: rest) (first :: rest))
              (waitLoop env canonical old destination n (first :: rest)) _ _ := waitLoop_followed
          refine (followed.pre fun s same => ⟨⟨[], same⟩, fun id among => Or.inl among⟩).weaken ?_ fun _ _ _ => trivial
          intro result s ended done id among
          exact ((ended done).2 id among).resolve_left List.not_mem_nil

end Arrivals

section Shared

variable {W : Type} {env : Surroundings W} {canonical : String → String}

theorem kept_fixed (d : Nat) : Kept env fun s : State W => s.deadline = some d where
  performs _ _ fixed := fixed
  sets _ _ unset fixed := absurd (unset.symm.trans fixed) nofun

theorem held_afterCalls (env : Surroundings W) (canonical : String → String) (world : W) {rounds : Nat}
    (enough : 30 ≤ rounds) (calls : List Call) : Held env (afterCalls env canonical rounds world calls) := by
  have keeps : ∀ (calls : List Call) (s : State W), Held env s →
      Held env (calls.foldl (fun s call =>
        ((waitPending env canonical rounds call).run (perform env .work s).2).2) s) := by
    intro calls
    induction calls with
    | nil => exact fun s held => held
    | cons call calls ih =>
        exact fun s held => ih _ ((waitPending_held enough call).after (fun _ _ held => held.2) (fun _ _ held => held)
          (held.look rfl rfl))
  exact keeps calls ⟨world, none, []⟩ ⟨Nat.zero_le _, nofun, nofun, fun _ => ⟨rfl, nofun⟩⟩

end Shared

-- The waits of the cleanup, over the same budget.
section Served
open Interleaving (Prog request fromExcept)

variable {W : Type} (env : Surroundings W) (canonical : String → String)
  (others : (op : HostOp) → StateM (State W) op.Ret)

def host : (op : HostOp) → StateM (State W) op.Ret
  | .session id => perform env (.session id)
  | .budgetExpired => MoveBudget.expired env
  | .budgetRemaining => MoveBudget.remaining env
  | .poll duration => MoveBudget.poll env duration
  | op => others op

def hosted {α : Type} (p : HostM α) : Fallibly (State W) String α :=
  ExceptT.mk (p.run.interpret (host env others))

-- The policy of the cleanup, which counts the polls that the budget admits.
def Policy.admitting (rounds : Nat) : Policy → MovePolicy
  | .noWait => .noWait
  | .bounded => .bounded rounds

variable {α β : Type} {old destination : String} {running : HostM Unit}

theorem hosted_bind (p : HostM α) (f : α → HostM β) :
    hosted env others (p >>= f) = hosted env others p >>= fun a => hosted env others (f a) := by
  apply ExceptT.ext
  rw [hosted, Interleaving.run_bind, ExceptT.run_mk, Prog.interpret_bind, ExceptT.run_bind]
  exact bind_congr fun result => by cases result <;> rfl

theorem hosted_fromExcept (x : Except String α) : hosted env others (fromExcept x) = ExceptT.mk (pure x) := rfl

theorem hosted_expired : hosted env others (request .budgetExpired .ok) = liftM (MoveBudget.expired env) := rfl

theorem movePollInterval_eq : movePollInterval = pollInterval := rfl

theorem hosted_checkBudget (id : String) : hosted env others (checkBudget id) = checkExpired env id := by
  rw [checkBudget, hosted_bind, hosted_expired, checkExpired]
  refine bind_congr fun expired => ?_
  rw [hosted_fromExcept]
  cases expired <;> rfl

theorem hosted_observe (id : String) :
    hosted env others (Cleanup.observe canonical id old destination) = observe env canonical id old destination := by
  apply ExceptT.ext
  funext s
  have asked : ∀ decode : Except ApiError LocatedSession → Except String LocatedSession,
      (hosted env others (request (.session id) decode)).run s =
        (decode (perform env (.session id) s).1, (perform env (.session id) s).2) := fun _ => rfl
  have read : (liftM (perform env (.session id)) : Fallibly (State W) String _).run s =
      (.ok (perform env (.session id) s).1, (perform env (.session id) s).2) := rfl
  rw [Cleanup.observe, hosted_bind, observe, run_bind, run_bind, asked, read]
  cases (perform env (.session id) s).1 <;> rfl

theorem hosted_observeAll (pending : List String) :
    hosted env others (Cleanup.observeAll canonical old destination pending) =
      observeAll env canonical old destination pending := by
  induction pending with
  | nil => rfl
  | cons id rest ih =>
      rw [Cleanup.observeAll, observeAll, hosted_bind, hosted_checkBudget]
      refine bind_congr fun _ => ?_
      rw [hosted_bind, hosted_observe]
      refine bind_congr fun stays => ?_
      rw [hosted_bind, ih]
      rfl

variable (same : hosted env others running = check env)
include same

theorem hosted_waitRound {first : String} {rest : List String} {α : Type}
    (onward : List String → HostM α) :
    hosted env others (do
        checkBudget first
        running
        checkBudget first
        let remaining ← request .budgetRemaining .ok
        fromExcept (refuse (remaining = 0) (waitExpired first))
        request (.poll (min remaining movePollInterval)) .ok
        checkBudget first
        let still ← Cleanup.observeAll canonical old destination (first :: rest)
        onward still) =
      waitRound env canonical old destination first rest >>= fun still => hosted env others (onward still) := by
  simp only [hosted_bind, hosted_checkBudget, hosted_fromExcept, hosted_observeAll, same, waitRound, bind_assoc,
    movePollInterval_eq]
  refine bind_congr fun _ => bind_congr fun _ => bind_congr fun _ => bind_congr fun remaining => ?_
  by_cases spent : remaining = 0
  · rw [if_pos spent, refuse, if_pos spent]
    rfl
  · rw [if_neg spent, refuse, if_neg spent]
    simp only [bind_assoc]
    exact pure_bind () _

theorem hosted_waitPending {rounds : Nat} {pending : List String} {s : State W}
    (ends : ((waitLoop env canonical old destination rounds pending).run s).1 ≠ .ok none) :
    (hosted env others (Cleanup.waitPending canonical old destination running rounds pending)).run s =
      (((waitLoop env canonical old destination rounds pending).run s).1.map fun _ => (),
        ((waitLoop env canonical old destination rounds pending).run s).2) := by
  induction rounds generalizing pending s with
  | zero =>
      cases pending with
      | nil => rfl
      | cons first rest => exact absurd rfl ends
  | succ rounds ih =>
      cases pending with
      | nil => rfl
      | cons first rest =>
          rw [waitLoop, run_bind] at ends ⊢
          rw [Cleanup.waitPending, hosted_waitRound env canonical others same, run_bind]
          generalize (waitRound env canonical old destination first rest).run s = ended at ends ⊢
          obtain ⟨_ | still, s'⟩ := ended
          · rfl
          · exact ih ends

theorem hosted_movePolicy {rounds : Nat} (enough : 30 ≤ rounds) {s : State W} (held : Held env s) (call : Call) :
    (hosted env others ((call.policy.admitting rounds).waitPending canonical call.old call.destination running
        call.pending)).run s =
      (((waitPending env canonical rounds call).run s).1.map fun _ => (),
        ((waitPending env canonical rounds call).run s).2) := by
  have ended : ((waitPending env canonical rounds call).run s).1 ≠ .ok none := fun unfinished =>
    absurd ((waitPending_held enough call).of_ok held unfinished).1 nofun
  obtain ⟨policy, pending, old, destination⟩ := call
  cases policy with
  | noWait => cases pending <;> rfl
  | bounded =>
      cases pending with
      | nil => cases rounds <;> rfl
      | cons first rest => exact hosted_waitPending env canonical others same ended

end Served

/-- A call ends, with no more than the budget slept in all, no probe at or past the one deadline, and success
only where each pending session was seen to arrive. -/
structure WithinBudget {W : Type} (env : Surroundings W) (canonical : String → String) (call : Call) (before : State W)
    (ended : Except String (Option Unit) × State W) : Prop where
  ends : ended.1 ≠ .ok none
  slept_le : slept ended.2.events ≤ moveWaitBudget
  fixed : ∀ d, before.deadline = some d → ended.2.deadline = some d
  timely : match ended.2.deadline with
    | none => ∀ event ∈ ended.2.events, event.op.isProbe = false
    | some d => Timely env d ended.2.events
  seen : ended.1 = .ok (some ()) → ∀ id ∈ call.pending,
    Seen canonical call.old call.destination before.events id ended.2

/-- Every call stays within the budget, whatever calls shared it before. -/
theorem shared_budget_bounds {W : Type} (env : Surroundings W) (canonical : String → String) (world : W) {rounds : Nat}
    (enough : 30 ≤ rounds) (calls : List Call) (call : Call) :
    WithinBudget env canonical call (beforeCall env canonical rounds world calls)
      ((waitPending env canonical rounds call).run (beforeCall env canonical rounds world calls)) := by
  generalize reached : beforeCall env canonical rounds world calls = before
  have start : Held env before := by
    rw [← reached]
    exact (held_afterCalls env canonical world enough calls).look rfl rfl
  have ends : Ends (Held env) (waitPending env canonical rounds call)
      (fun result s => result = some () ∧ Held env s) fun _ => Held env := waitPending_held enough call
  have held : Held env ((waitPending env canonical rounds call).run before).2 :=
    ends.after (fun _ _ held => held.2) (fun _ _ held => held) start
  refine ⟨fun unfinished => ?_, held.slept_le, fun d fixed => ?_, ?_, fun done => ?_⟩
  · exact absurd (ends.of_ok start unfinished).1 nofun
  · exact ((kept_fixed d).waitPending (fun _ _ fixed => fixed) call).after (fun _ _ fixed => fixed)
      (fun _ _ fixed => fixed) fixed
  · split
    · exact (held.fresh ‹_›).2
    · exact held.timely _ ‹_›
  · exact (waitPending_followed call).of_ok rfl done rfl

def slowHost : Surroundings Nat where
  time w := w
  step w op :=
    match op with
    | .now => (w, w)
    | .sleep duration => ((), w + duration)
    | .session id => (.ok ⟨id, if w < 1000000000 then "/work/wt" else "/work/main", none⟩, w + pollInterval)
    | .runningCheck => (.ok (), w)
    | .work => ((), w)
  forward w op := by cases op <;> simp
  shows w := ⟨le_rfl, le_rfl⟩
  sleeps w duration := le_rfl

theorem shared_budget_bounds_slow :
    WithinBudget slowHost id ⟨.bounded, ["ses_a", "ses_b"], "/work/wt", "/work/main"⟩ (beforeCall slowHost id 30 0 [])
      ((waitPending slowHost id 30 ⟨.bounded, ["ses_a", "ses_b"], "/work/wt", "/work/main"⟩).run
        (beforeCall slowHost id 30 0 [])) :=
  shared_budget_bounds slowHost id 0 (by decide) [] ⟨.bounded, ["ses_a", "ses_b"], "/work/wt", "/work/main"⟩

end Phasegent.Cleanup.Waiting
