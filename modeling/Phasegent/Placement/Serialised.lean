import Phasegent.Placement.Moves

namespace Phasegent.Placement
open Registry

section Statement

variable (key : String)

def AllSettled (log : List Occurrence) : Prop :=
  ∀ attempt directory move, .requests attempt key directory move ∈ log → ∃ accepted, .settles move accepted ∈ log

/-- The attempt asked where the session is after every earlier move of it was answered, and no other move of it was
asked for since. -/
def Fresh (attempt : Nat) (log : List Occurrence) : Prop :=
  ∃ later earlier, log = later ++ .reads attempt key :: earlier ∧ AllSettled key earlier ∧
    ∀ other directory move, .requests other key directory move ∉ later

/-- The host has reported the target of the attempt, or accepted its move. -/
def Grounded (attempt : Nat) (log : List Occurrence) : Prop :=
  .found attempt ∈ log ∨ ∃ key directory move, .requests attempt key directory move ∈ log ∧ .settles move true ∈ log

def Allowed (before : List Occurrence) : Occurrence → Prop
  | .requests attempt key _ _ => AllSettled key before ∧ Fresh key attempt before ∧ .superseded attempt ∉ before ∧
      ∀ key' directory' move', .requests attempt key' directory' move' ∉ before
  | .refused attempt => .superseded attempt ∉ before
  | .placed attempt => Grounded attempt before ∧ .superseded attempt ∉ before
  | _ => True

def OneRunning (s : Registry) : Prop := ∀ (i j : Nat) (own own' : HostMove), s.moves[i]? = some own → s.moves[j]? = some own' →
  own.key = own'.key → own.outcome = none → own'.outcome = none → i = j

def Serialised (log : List Occurrence) : Prop := ∀ after what before, log = after ++ what :: before → Allowed before what

end Statement

section Logs

variable {key : String} {attempt : Nat} {log : List Occurrence} {what : Occurrence}

def Occurrence.moves (key : String) (what : Occurrence) : Prop := ∃ attempt directory move, what = .requests attempt key directory move

theorem Serialised.cons (serialised : Serialised log) (allowed : Allowed log what) : Serialised (what :: log) := by
  intro after what' before split
  cases after with
  | nil =>
      cases split
      exact allowed
  | cons _ after =>
      cases split
      exact serialised after what' before rfl

theorem Fresh.cons (fresh : Fresh key attempt log) (other : ¬what.moves key) : Fresh key attempt (what :: log) := by
  obtain ⟨later, earlier, rfl, settled, quiet⟩ := fresh
  refine ⟨what :: later, earlier, rfl, settled, fun own directory move among => ?_⟩
  rcases List.mem_cons.mp among with rfl | among
  · exact other ⟨own, directory, move, rfl⟩
  · exact quiet own directory move among

theorem Fresh.start (settled : AllSettled key log) : Fresh key attempt (.reads attempt key :: log) :=
  ⟨[], log, rfl, settled, nofun⟩

end Logs

section Invariant

variable {s : Registry} {key : String} {attempt : Nat}

def Registry.dispatched (s : Registry) (key : String) : Option Nat := (s.moveAttempts key).bind (·.dispatched)

def Idle (s : Registry) (key : String) : Prop := ∀ move ∈ s.dispatched key, s.settled move = true

/-- How the current attempt of a session stands, by its stage. -/
def Stands (s : Registry) (key : String) (attempt : Nat) : Stage → Prop
  | .waiting move => s.dispatched key = some move ∧ ∀ key directory move, .requests attempt key directory move ∉ s.log
  | .reading => Idle s key ∧ Fresh key attempt s.log ∧ ∀ key directory move, .requests attempt key directory move ∉ s.log
  | .moving move => s.dispatched key = some move
  | .finished => Idle s key

structure Orderly (s : Registry) : Prop where
  running : ∀ move own, s.moves[move]? = some own → own.outcome = none → s.dispatched own.key = some move
  current : ∀ key attempt, s.currentAttempt key = some attempt →
    ∃ own, s.attempts[attempt]? = some own ∧ own.key = key ∧ Stands s key attempt own.stage
  moving : ∀ attempt own move, s.attempts[attempt]? = some own → own.stage = .moving move →
    ∃ key directory, .requests attempt key directory move ∈ s.log
  asked : ∀ attempt key directory move, .requests attempt key directory move ∈ s.log → attempt < s.attempts.length ∧
    ∃ own, s.moves[move]? = some own ∧ own.key = key
  answered : ∀ move own accepted, s.moves[move]? = some own → own.outcome = some accepted → .settles move accepted ∈ s.log
  superseded : ∀ attempt, .superseded attempt ∈ s.log → attempt < s.attempts.length ∧ ∀ key, s.currentAttempt key ≠ some attempt
  serialised : Serialised s.log

theorem orderly_initial : Orderly .initial :=
  ⟨nofun, nofun, nofun, nofun, nofun, nofun, fun after what before split => by simp [initial] at split⟩

theorem settled_iff {move : Nat} : s.settled move = true ↔
    ∃ own accepted, s.moves[move]? = some own ∧ own.outcome = some accepted := by
  simp [settled, Option.any_eq_true, Option.isSome_iff_exists]

theorem Orderly.allSettled (orderly : Orderly s) (idle : Idle s key) : AllSettled key s.log := by
  intro attempt directory move among
  obtain ⟨-, own, found, same⟩ := orderly.asked attempt key directory move among
  cases outcome : own.outcome with
  | none =>
      have running := orderly.running move own found outcome
      obtain ⟨own', accepted, found', settled⟩ := settled_iff.mp (idle move (same ▸ running))
      cases found.symm.trans found'
      cases outcome.symm.trans settled
  | some accepted => exact ⟨accepted, orderly.answered move own accepted found outcome⟩

structure Alike (s s' : Registry) : Prop where
  moveAttempts : s'.moveAttempts = s.moveAttempts
  attempts : s'.attempts = s.attempts
  moves : s'.moves = s.moves
  log : s'.log = s.log

theorem Orderly.alike {s' : Registry} (orderly : Orderly s) (alike : Alike s s') : Orderly s' := by
  obtain ⟨worktrees, origins, abandoned, moveAttempts, placed, confirmed, attempts, moves, log⟩ := s'
  obtain ⟨rfl, rfl, rfl, rfl⟩ := alike
  exact ⟨orderly.running, orderly.current, orderly.moving, orderly.asked, orderly.answered, orderly.superseded, orderly.serialised⟩

theorem Stands.cons {what : Occurrence} {stage : Stage} (stands : Stands s key attempt stage) (other : ¬what.moves key)
    (others : ∀ key directory move, what ≠ .requests attempt key directory move) : Stands (s.record what) key attempt stage := by
  have absent : (∀ key directory move, Occurrence.requests attempt key directory move ∉ s.log) →
      ∀ key directory move, Occurrence.requests attempt key directory move ∉ what :: s.log := by
    intro never key directory move among
    rcases List.mem_cons.mp among with same | among
    · exact others key directory move same.symm
    · exact never key directory move among
  cases stage with
  | waiting move => exact ⟨stands.1, absent stands.2⟩
  | reading => exact ⟨stands.1, stands.2.1.cons other, absent stands.2.2⟩
  | moving move => exact stands
  | finished => exact stands

theorem Orderly.note {what : Occurrence} (orderly : Orderly s) (other : ∀ key, ¬what.moves key)
    (retired : ∀ attempt, what = .superseded attempt → attempt < s.attempts.length ∧ ∀ key, s.currentAttempt key ≠ some attempt)
    (allowed : Allowed s.log what) : Orderly (s.record what) := by
  refine ⟨orderly.running, fun key attempt current => ?_, fun attempt own move found stage => ?_,
    fun attempt key directory move among => ?_,
    fun move own accepted found outcome => List.mem_cons_of_mem _ (orderly.answered move own accepted found outcome),
    fun attempt among => ?_, orderly.serialised.cons allowed⟩
  · obtain ⟨own, found, same, stands⟩ := orderly.current key attempt current
    exact ⟨own, found, same, stands.cons (other key) fun key directory move same => other key ⟨attempt, directory, move, same⟩⟩
  · obtain ⟨key, directory, among⟩ := orderly.moving attempt own move found stage
    exact ⟨key, directory, List.mem_cons_of_mem _ among⟩
  · rcases List.mem_cons.mp among with rfl | among
    · exact absurd ⟨attempt, directory, move, rfl⟩ (other key)
    · exact orderly.asked attempt key directory move among
  · rcases List.mem_cons.mp among with same | among
    · exact retired attempt same.symm
    · exact orderly.superseded attempt among

theorem getElem?_enter {stage : Stage} {other : Nat} : (s.enter stage attempt).attempts[other]? =
    (s.attempts[other]?).map fun own => if attempt = other then { own with stage := stage } else own := by
  rw [enter, List.getElem?_modify]
  rfl

theorem Stands.same {s' : Registry} {stage : Stage} (stands : Stands s key attempt stage)
    (dispatched : s'.dispatched key = s.dispatched key) (settled : ∀ move, s.settled move = true → s'.settled move = true)
    (log : s'.log = s.log) : Stands s' key attempt stage := by
  cases stage with
  | waiting move => exact ⟨dispatched.trans stands.1, log ▸ stands.2⟩
  | reading => exact ⟨fun move among => settled move (stands.1 move (dispatched ▸ among)), log ▸ stands.2.1, log ▸ stands.2.2⟩
  | moving move => exact dispatched.trans stands
  | finished => exact fun move among => settled move (stands move (dispatched ▸ among))

theorem Orderly.enter {stage : Stage} (orderly : Orderly s)
    (stands : ∀ key, s.currentAttempt key = some attempt → Stands s key attempt stage)
    (moving : ∀ move, stage = .moving move → ∃ key directory, .requests attempt key directory move ∈ s.log) :
    Orderly (s.enter stage attempt) := by
  have length : (s.enter stage attempt).attempts.length = s.attempts.length := by simp [Registry.enter]
  refine ⟨orderly.running, fun key other current => ?_, fun other own' move found stage' => ?_,
    fun other key directory move among => length ▸ orderly.asked other key directory move among,
    orderly.answered, fun other among => length ▸ orderly.superseded other among, orderly.serialised⟩
  · obtain ⟨own, found, same, stood⟩ := orderly.current key other current
    refine ⟨_, by rw [getElem?_enter, found, Option.map_some], ?_⟩
    split
    · rename_i here
      subst here
      exact ⟨same, (stands key current).same rfl (fun _ settled => settled) rfl⟩
    · exact ⟨same, stood.same rfl (fun _ settled => settled) rfl⟩
  · rw [getElem?_enter, Option.map_eq_some_iff] at found
    obtain ⟨own, found, rfl⟩ := found
    split at stage'
    · rename_i here
      subst here
      exact moving move stage'
    · exact orderly.moving other own move found stage'

theorem Orderly.finish (orderly : Orderly s) (idle : ∀ key, s.currentAttempt key = some attempt → Idle s key) :
    Orderly (s.enter .finished attempt) :=
  orderly.enter idle nofun

theorem currentAttempt_putRecord {other : String} {own : Option MoveRecord} :
    (s.putRecord key own).currentAttempt other = if other = key then own.bind (·.attempt) else s.currentAttempt other := by
  by_cases same : other = key
  · simp [currentAttempt, putRecord, same]
  · simp [currentAttempt, putRecord, same]

theorem dispatched_putRecord {other : String} {own : Option MoveRecord} :
    (s.putRecord key own).dispatched other = if other = key then own.bind (·.dispatched) else s.dispatched other := by
  by_cases same : other = key
  · simp [dispatched, putRecord, same]
  · simp [dispatched, putRecord, same]

theorem Orderly.retire {own : Option MoveRecord} (orderly : Orderly s) (retired : own.bind (·.attempt) = none)
    (kept : own.bind (·.dispatched) = s.dispatched key ∨ Idle s key) : Orderly (s.putRecord key own) := by
  refine ⟨fun move running found outcome => ?_, fun other attempt current => ?_, orderly.moving, orderly.asked,
    orderly.answered, fun attempt among => ⟨(orderly.superseded attempt among).1, fun other => ?_⟩, orderly.serialised⟩
  · have recorded := orderly.running move running found outcome
    rw [dispatched_putRecord]
    split
    · rename_i same
      rcases kept with kept | idle
      · rw [kept, ← same, recorded]
      · obtain ⟨own', accepted, found', settled⟩ := settled_iff.mp (idle move (same ▸ recorded))
        cases found.symm.trans found'
        cases outcome.symm.trans settled
    · exact recorded
  · rw [currentAttempt_putRecord] at current
    split at current
    · cases retired.symm.trans current
    · rename_i differs
      obtain ⟨own', found, same, stands⟩ := orderly.current other attempt current
      exact ⟨own', found, same, stands.same (by rw [dispatched_putRecord, if_neg differs]) (fun _ settled => settled) rfl⟩
  · rw [currentAttempt_putRecord]
    split
    · simp [retired]
    · exact (orderly.superseded attempt among).2 other

theorem Orderly.supersedeAttempt (orderly : Orderly s) : Orderly (s.supersedeAttempt key) := by
  unfold Registry.supersedeAttempt
  split
  · rename_i target attempt earlier found
    have current : s.currentAttempt key = some attempt := by simp [currentAttempt, found]
    have kept : s.dispatched key = earlier := by simp [dispatched, found]
    have retired : Orderly (s.putRecord key (some ⟨target, none, earlier⟩)) := orderly.retire rfl (Or.inl kept.symm)
    refine retired.note ?_ ?_ trivial
    · rintro other ⟨_, _, _, same⟩
      cases same
    · rintro _ ⟨rfl⟩
      obtain ⟨own, found, same, -⟩ := orderly.current key attempt current
      refine ⟨(List.getElem?_eq_some_iff.mp found).1, fun other => ?_⟩
      rw [currentAttempt_putRecord]
      split
      · simp
      · rename_i differs
        intro current'
        obtain ⟨own', found', same', -⟩ := orderly.current other attempt current'
        cases found.symm.trans found'
        exact differs (same'.symm.trans same)
  · exact orderly

theorem Orderly.release (orderly : Orderly s) : Orderly (release attempt s) := by
  unfold Placement.release
  split
  · rename_i key directory found
    split
    · rename_i current
      obtain ⟨own, found', -, stands⟩ := orderly.current key attempt current
      cases found.symm.trans found'
      exact orderly.retire rfl (Or.inr stands)
    · exact orderly
  · exact orderly

theorem Idle.settles (idle : Idle s key) (orderly : Orderly s) {move : Nat} {own : HostMove} (found : s.moves[move]? = some own)
    (same : own.key = key) : own.outcome ≠ none := by
  intro outcome
  obtain ⟨own', accepted, found', settled⟩ := settled_iff.mp (idle move (same ▸ orderly.running move own found outcome))
  cases found.symm.trans found'
  cases outcome.symm.trans settled

theorem getElem?_asked {move : Nat} {own : HostMove} {asked : HostMove} (found : (s.moves ++ [asked])[move]? = some own) :
    s.moves[move]? = some own ∨ move = s.moves.length ∧ own = asked := by
  rcases Nat.lt_or_ge move s.moves.length with older | newest
  · rw [List.getElem?_append_left older] at found
    exact Or.inl found
  · rw [List.getElem?_append_right newest] at found
    rcases below : move - s.moves.length with _ | more
    · rw [below] at found
      exact Or.inr ⟨by omega, (Option.some.inj found).symm⟩
    · simp [below] at found

theorem Orderly.request {directory : String} (orderly : Orderly s) (current : s.currentAttempt key = some attempt)
    (idle : Idle s key) (allowed : Allowed s.log (.requests attempt key directory s.moves.length)) :
    Orderly (requestMove attempt key directory .promises s) := by
  obtain ⟨own, found, same, -⟩ := orderly.current key attempt current
  obtain ⟨running, recorded, named⟩ := Option.bind_eq_some_iff.mp current
  generalize result : requestMove attempt key directory .promises s = s'
  have attempts : ∀ other, s'.attempts[other]? =
      (s.attempts[other]?).map fun own => if attempt = other then { own with stage := .moving s.moves.length } else own := by
    intro other
    rw [← result]
    exact getElem?_enter
  have length : s'.attempts.length = s.attempts.length := by
    rw [← result]
    simp [requestMove, Registry.enter, putRecord, record]
  have moves : s'.moves = s.moves ++ [⟨key, directory, none⟩] := by
    rw [← result]
    rfl
  have log : s'.log = .requests attempt key directory s.moves.length :: s.log := by
    rw [← result]
    rfl
  have currents : ∀ other, s'.currentAttempt other = s.currentAttempt other := by
    intro other
    rw [← result]
    change (s.putRecord key _).currentAttempt other = _
    rw [currentAttempt_putRecord]
    split
    · rename_i here
      simp [here, recorded, named, currentAttempt]
    · rfl
  have dispatched : ∀ other, s'.dispatched other = if other = key then some s.moves.length else s.dispatched other := by
    intro other
    rw [← result]
    change (s.putRecord key _).dispatched other = _
    rw [dispatched_putRecord, recorded]
    rfl
  have settled : ∀ move, s.settled move = true → s'.settled move = true := by
    intro move answered
    obtain ⟨own, accepted, found, outcome⟩ := settled_iff.mp answered
    refine settled_iff.mpr ⟨own, accepted, ?_, outcome⟩
    rw [moves, List.getElem?_append_left (List.getElem?_eq_some_iff.mp found).1, found]
  refine ⟨?_, ?_, ?_, ?_, ?_, ?_, ?_⟩
  · intro move asked found outcome
    rw [moves] at found
    rw [dispatched]
    rcases getElem?_asked found with older | ⟨rfl, rfl⟩
    · have differs : asked.key ≠ key := fun here => idle.settles orderly older here outcome
      rw [if_neg differs]
      exact orderly.running move asked older outcome
    · exact if_pos rfl
  · intro other attempt' current'
    rw [currents] at current'
    obtain ⟨own', found', same', stands⟩ := orderly.current other attempt' current'
    rw [attempts, found', Option.map_some]
    refine ⟨_, rfl, ?_⟩
    split
    · rename_i here
      subst here
      cases found.symm.trans found'
      refine ⟨same', ?_⟩
      rw [← same', same]
      exact (dispatched key).trans (if_pos rfl)
    · rename_i differs
      have elsewhere : other ≠ key := by
        rintro rfl
        exact differs (Option.some.inj (current.symm.trans current'))
      have noted : Stands (s.record (.requests attempt key directory s.moves.length)) other attempt' own'.stage := by
        apply stands.cons
        · rintro ⟨_, _, _, same⟩
          cases same
          exact elsewhere rfl
        · intro _ _ _ same
          cases same
          exact differs rfl
      exact ⟨same', noted.same ((dispatched other).trans (if_neg elsewhere)) settled log⟩
  · intro attempt' own' move found' stage
    rw [attempts, Option.map_eq_some_iff] at found'
    obtain ⟨own', found', rfl⟩ := found'
    rw [log]
    split at stage
    · rename_i here
      cases stage
      exact ⟨key, directory, here ▸ List.mem_cons_self⟩
    · obtain ⟨key', directory', among⟩ := orderly.moving attempt' own' move found' stage
      exact ⟨key', directory', List.mem_cons_of_mem _ among⟩
  · intro attempt' key' directory' move among
    rw [log] at among
    rw [length, moves]
    rcases List.mem_cons.mp among with same' | among
    · cases same'
      exact ⟨(List.getElem?_eq_some_iff.mp found).1, _, List.getElem?_concat_length, rfl⟩
    · obtain ⟨bound, asked, located, named⟩ := orderly.asked attempt' key' directory' move among
      refine ⟨bound, asked, ?_, named⟩
      rw [List.getElem?_append_left (List.getElem?_eq_some_iff.mp located).1, located]
  · intro move asked accepted located outcome
    rw [moves] at located
    rw [log]
    rcases getElem?_asked located with older | ⟨rfl, rfl⟩
    · exact List.mem_cons_of_mem _ (orderly.answered move asked accepted older outcome)
    · cases outcome
  · intro attempt' among
    rw [log] at among
    rw [length]
    rcases List.mem_cons.mp among with same' | among
    · cases same'
    · exact ⟨(orderly.superseded attempt' among).1, fun other => currents other ▸ (orderly.superseded attempt' among).2 other⟩
  · rw [log]
    exact orderly.serialised.cons allowed

theorem Orderly.settle {move : Nat} {accepted : Bool} (orderly : Orderly s) : Orderly (settle move accepted s) := by
  unfold Placement.settle
  split
  · rename_i key directory found
    generalize result : ({ s with moves := s.moves.modify move fun own => { own with outcome := some accepted } } : Registry) = s'
    have moves : ∀ other, s'.moves[other]? =
        (s.moves[other]?).map fun own => if move = other then { own with outcome := some accepted } else own := by
      intro other
      rw [← result, List.getElem?_modify]
      rfl
    have settled : ∀ other, s.settled other = true → s'.settled other = true := by
      intro other answered
      obtain ⟨own, accepted', located, outcome⟩ := settled_iff.mp answered
      have differs : move ≠ other := by
        rintro rfl
        cases found.symm.trans located
        cases outcome
      exact settled_iff.mpr ⟨own, accepted', by rw [moves, located, Option.map_some, if_neg differs], outcome⟩
    subst result
    refine ⟨fun other own located outcome => ?_, fun key attempt current => ?_, fun attempt own other located stage => ?_,
      fun attempt key directory other among => ?_, fun other own accepted' located outcome => ?_, fun attempt among => ?_,
      orderly.serialised.cons trivial⟩
    · rw [record, moves, Option.map_eq_some_iff] at located
      obtain ⟨own, located, rfl⟩ := located
      split at outcome
      · cases outcome
      · rename_i differs
        rw [if_neg differs]
        exact orderly.running other own located outcome
    · obtain ⟨own, located, same, stands⟩ := orderly.current key attempt current
      have noted : Stands (s.record (.settles move accepted)) key attempt own.stage := by
        apply stands.cons
        · rintro ⟨_, _, _, same⟩
          cases same
        · intro _ _ _ same
          cases same
      exact ⟨own, located, same, noted.same rfl settled rfl⟩
    · obtain ⟨key, directory, among⟩ := orderly.moving attempt own other located stage
      exact ⟨key, directory, List.mem_cons_of_mem _ among⟩
    · rcases List.mem_cons.mp among with same | among
      · cases same
      · obtain ⟨bound, own, located, same⟩ := orderly.asked attempt key directory other among
        refine ⟨bound, _, (moves other).trans (by rw [located, Option.map_some]), ?_⟩
        split <;> exact same
    · rw [record, moves, Option.map_eq_some_iff] at located
      obtain ⟨own, located, rfl⟩ := located
      split at outcome
      · rename_i here
        cases outcome
        exact here ▸ List.mem_cons_self
      · exact List.mem_cons_of_mem _ (orderly.answered other own accepted' located outcome)
    · rcases List.mem_cons.mp among with same | among
      · cases same
      · exact orderly.superseded attempt among
  · exact orderly

theorem Orderly.startReading (orderly : Orderly s) (current : s.currentAttempt key = some attempt) (idle : Idle s key)
    (unasked : ∀ key directory move, .requests attempt key directory move ∉ s.log) : Orderly (startReading attempt key s) := by
  have noted : Orderly (s.record (.reads attempt key)) := by
    refine orderly.note ?_ nofun trivial
    rintro other ⟨_, _, _, same⟩
    cases same
  refine noted.enter (fun other current' => ?_) nofun
  obtain ⟨own, found, same, -⟩ := orderly.current key attempt current
  obtain ⟨own', found', same', -⟩ := orderly.current other attempt current'
  cases found.symm.trans found'
  cases same.symm.trans same'
  refine ⟨idle, Fresh.start (orderly.allSettled idle), fun key' directory move among => ?_⟩
  rcases List.mem_cons.mp among with same | among
  · cases same
  · exact unasked key' directory move among

theorem Orderly.begin {directory : String} {stage : Stage} (orderly : Orderly s)
    (stands : Stands s key s.attempts.length stage) (still : ∀ move, stage ≠ .moving move) :
    Orderly { s.putRecord key (some ⟨directory, some s.attempts.length, s.dispatched key⟩) with
      attempts := s.attempts ++ [⟨key, directory, stage⟩] } := by
  have kept : ∀ other, (s.putRecord key (some ⟨directory, some s.attempts.length, s.dispatched key⟩)).dispatched other =
      s.dispatched other := by
    intro other
    rw [dispatched_putRecord]
    split
    · rename_i same
      rw [same]
      rfl
    · rfl
  have older : ∀ (j : Nat) (own : Attempt), s.attempts[j]? = some own →
      (s.attempts ++ [⟨key, directory, stage⟩])[j]? = some own := by
    intro j own found
    rw [List.getElem?_append_left (List.getElem?_eq_some_iff.mp found).1, found]
  refine ⟨fun move own found outcome => (kept own.key).trans (orderly.running move own found outcome),
    fun other attempt current => ?_, fun attempt own move found moving => ?_, fun attempt other target move among => ?_, orderly.answered,
    fun attempt among => ?_, orderly.serialised⟩
  · change (s.putRecord key _).currentAttempt other = some attempt at current
    rw [currentAttempt_putRecord] at current
    split at current
    · rename_i same
      cases current
      exact ⟨_, List.getElem?_concat_length, same.symm, same ▸ stands.same (kept key) (fun _ settled => settled) rfl⟩
    · obtain ⟨own, found, same, stands⟩ := orderly.current other attempt current
      exact ⟨own, older attempt own found, same, stands.same (kept other) (fun _ settled => settled) rfl⟩
  · dsimp only at found
    rcases Nat.lt_or_ge attempt s.attempts.length with earlier | newest
    · rw [List.getElem?_append_left earlier] at found
      exact orderly.moving attempt own move found moving
    · rw [List.getElem?_append_right newest] at found
      have among := List.mem_of_getElem? found
      rw [List.mem_singleton] at among
      rw [among] at moving
      exact absurd moving (still move)
  · obtain ⟨bound, asked⟩ := orderly.asked attempt other target move among
    exact ⟨by simpa using Nat.lt_succ_of_lt bound, asked⟩
  · obtain ⟨bound, retired⟩ := orderly.superseded attempt among
    refine ⟨by simpa using Nat.lt_succ_of_lt bound, fun other => ?_⟩
    change (s.putRecord key _).currentAttempt other ≠ some attempt
    rw [currentAttempt_putRecord]
    split
    · rintro ⟨rfl⟩
      exact absurd bound (Nat.lt_irrefl _)
    · exact retired other

theorem Orderly.moveSessionToWorktree {directory : String} (orderly : Orderly s) :
    Orderly (moveSessionToWorktree key directory s) := by
  have unasked : ∀ key directory move, Occurrence.requests s.attempts.length key directory move ∉ s.log := fun key target move among =>
    absurd (orderly.asked _ key target move among).1 (Nat.lt_irrefl _)
  unfold Placement.moveSessionToWorktree
  split
  · exact orderly
  dsimp only
  split
  · rename_i move earlier
    have stands : Stands s key s.attempts.length (.waiting move) := ⟨earlier, unasked⟩
    exact orderly.begin stands nofun
  · rename_i earlier
    have idle : Idle s key := by
      intro move dispatched
      cases earlier.symm.trans dispatched
    have noted : Orderly (s.record (.reads s.attempts.length key)) := by
      refine orderly.note ?_ nofun trivial
      rintro other ⟨_, _, _, same⟩
      cases same
    have stands : Stands (s.record (.reads s.attempts.length key)) key s.attempts.length .reading := by
      refine ⟨idle, Fresh.start (orderly.allSettled idle), fun other target move among => ?_⟩
      rcases List.mem_cons.mp among with same | among
      · cases same
      · exact unasked other target move among
    exact noted.begin stands nofun

theorem Orderly.unsuperseded (orderly : Orderly s) (current : s.currentAttempt key = some attempt) :
    .superseded attempt ∉ s.log :=
  fun among => (orderly.superseded attempt among).2 key current

theorem Orderly.stands (orderly : Orderly s) (current : s.currentAttempt key = some attempt) {own : Attempt}
    (found : s.attempts[attempt]? = some own) : own.key = key ∧ Stands s key attempt own.stage := by
  obtain ⟨own', found', same, stands⟩ := orderly.current key attempt current
  cases found.symm.trans found'
  exact ⟨same, stands⟩

theorem Orderly.place (orderly : Orderly s) (current : s.currentAttempt key = some attempt) (grounded : Grounded attempt s.log) :
    Orderly ((s.markPlaced key).record (.placed attempt)) := by
  have placed : Orderly (s.markPlaced key) := orderly.alike ⟨rfl, rfl, rfl, rfl⟩
  refine placed.note ?_ nofun ⟨grounded, orderly.unsuperseded current⟩
  rintro other ⟨_, _, _, same⟩
  cases same

theorem Orderly.found (orderly : Orderly s) : Orderly (s.record (.found attempt)) := by
  refine orderly.note ?_ nofun trivial
  rintro other ⟨_, _, _, same⟩
  cases same

theorem Orderly.requestMove {directory : String} {reply : Reply} {own : Attempt} (orderly : Orderly s)
    (current : s.currentAttempt key = some attempt) (found : s.attempts[attempt]? = some own) (reading : own.stage = .reading) :
    Orderly (requestMove attempt key directory reply s) := by
  have idles : ∀ other, s.currentAttempt other = some attempt → Idle s other := by
    intro other current'
    have stands := (orderly.stands current' found).2
    rw [reading] at stands
    exact stands.1
  have stands := (orderly.stands current found).2
  rw [reading] at stands
  obtain ⟨idle, fresh, unasked⟩ := stands
  cases reply with
  | missing => exact orderly.finish idles
  | throws =>
      have refused : Orderly (s.record (.refused attempt)) := by
        refine orderly.note ?_ nofun (orderly.unsuperseded current)
        rintro other ⟨_, _, _, same⟩
        cases same
      exact refused.finish idles
  | promises => exact orderly.request current idle ⟨orderly.allSettled idle, fresh, orderly.unsuperseded current, unasked⟩

theorem Orderly.located {directory : String} {answer : Option String} {reply : Reply} (orderly : Orderly s)
    (found : s.attempts[attempt]? = some ⟨key, directory, .reading⟩) : Orderly (located attempt key directory answer reply s) := by
  have idles : ∀ other, s.currentAttempt other = some attempt → Idle s other := fun other current =>
    (orderly.stands current found).2.1
  unfold Placement.located
  split
  · exact orderly.finish idles
  rename_i current
  rw [ne_eq, Decidable.not_not] at current
  split
  · exact orderly.finish idles
  split
  · have placed : Orderly (((s.record (.found attempt)).markPlaced key).record (.placed attempt)) :=
      orderly.found.place current (Or.inl List.mem_cons_self)
    have confirmed : Orderly ((((s.record (.found attempt)).markPlaced key).record (.placed attempt)).markConfirmed key) :=
      placed.alike ⟨rfl, rfl, rfl, rfl⟩
    exact confirmed.finish idles
  · rename_i place _ elsewhere
    dsimp only
    split
    · have alike : Orderly { s with placementOrigins := Function.update s.placementOrigins key (some place) } :=
        orderly.alike ⟨rfl, rfl, rfl, rfl⟩
      exact alike.requestMove current found rfl
    · exact orderly.requestMove current found rfl

theorem Orderly.resume {answer : Option String} {reply : Reply} (orderly : Orderly s) :
    Orderly (resume attempt answer reply s) := by
  unfold Placement.resume
  split
  · exact orderly
  rename_i key directory stage found
  cases stage with
  | waiting move =>
      dsimp only
      split
      · exact orderly
      rename_i answered
      have idles : ∀ other, s.currentAttempt other = some attempt → Idle s other := by
        intro other current own dispatched
        have recorded := (orderly.stands current found).2.1
        cases dispatched.symm.trans recorded
        exact Bool.of_not_eq_false answered
      split
      · exact orderly.finish idles
      · rename_i current
        rw [ne_eq, Decidable.not_not] at current
        exact orderly.startReading current (idles key current) (orderly.stands current found).2.2
  | reading => exact orderly.located found
  | moving move =>
      dsimp only
      split
      · exact orderly
      all_goals
        rename_i outcome
        obtain ⟨asked, located, accepted⟩ := Option.bind_eq_some_iff.mp outcome
        have idles : ∀ other, s.currentAttempt other = some attempt → Idle s other := by
          intro other current own dispatched
          have recorded := (orderly.stands current found).2
          cases dispatched.symm.trans recorded
          exact settled_iff.mpr ⟨asked, _, located, accepted⟩
      · exact orderly.finish idles
      · obtain ⟨other, target, among⟩ := orderly.moving attempt _ move found rfl
        have grounded : Grounded attempt s.log :=
          Or.inr ⟨other, target, move, among, orderly.answered move asked true located accepted⟩
        split
        · rename_i current
          exact (orderly.place current grounded).finish idles
        · exact orderly.finish idles
  | finished => exact orderly

theorem Orderly.forgetSessionWorktree (orderly : Orderly s) : Orderly (s.forgetSessionWorktree key) :=
  Orderly.supersedeAttempt (orderly.alike ⟨rfl, rfl, rfl, rfl⟩)

theorem Orderly.markTargetAbandoned {directory : String} (orderly : Orderly s) : Orderly (s.markTargetAbandoned key directory) := by
  unfold Registry.markTargetAbandoned
  split
  · exact orderly
  · exact orderly.alike ⟨rfl, rfl, rfl, rfl⟩

theorem Orderly.reconcile {registered directory : String} (orderly : Orderly s) : Orderly (s.reconcile key registered directory).2 := by
  unfold Registry.reconcile
  split
  · exact orderly.alike ⟨rfl, rfl, rfl, rfl⟩
  split
  · exact orderly
  · exact orderly.markTargetAbandoned.forgetSessionWorktree

theorem Orderly.rememberWorktree {directory : String} {origin : Option String} (orderly : Orderly s) :
    Orderly (s.rememberWorktree key directory origin) := by
  unfold Registry.rememberWorktree
  split
  · exact orderly
  have dropped : Orderly (if (s.sessionWorktrees key).any (· ≠ directory) = true
      then (s.dropPlacement key).supersedeAttempt key else s) := by
    split
    · exact Orderly.supersedeAttempt (orderly.alike ⟨rfl, rfl, rfl, rfl⟩)
    · exact orderly
  dsimp only
  split
  · exact dropped.alike ⟨rfl, rfl, rfl, rfl⟩
  · exact dropped.alike ⟨rfl, rfl, rfl, rfl⟩

theorem Orderly.turn (orderly : Orderly s) (next : Turn) : Orderly (turn s next) := by
  cases next with
  | remember key directory origin => exact orderly.rememberWorktree
  | place key => exact orderly.alike ⟨rfl, rfl, rfl, rfl⟩
  | confirm key => exact orderly.alike ⟨rfl, rfl, rfl, rfl⟩
  | abandon key directory => exact orderly.markTargetAbandoned
  | forget key => exact orderly.forgetSessionWorktree
  | reconcile key registered answer =>
      simp only [Placement.turn, reconcileSessionLocation]
      split
      · split
        · exact orderly.forgetSessionWorktree
        · exact orderly
      · exact orderly.reconcile
  | inherit key registered answer =>
      simp only [Placement.turn, inheritedWorktree]
      cases authoritative answer with
      | none => exact orderly
      | some directory =>
          cases registered with
          | none => exact orderly
          | some registered =>
              have reconciled : Orderly (s.reconcile key registered directory).2 := orderly.reconcile
              dsimp only
              generalize s.reconcile key registered directory = decided at reconciled ⊢
              obtain ⟨_ | _, s'⟩ := decided
              · exact reconciled
              · exact reconciled
  | move key directory => exact orderly.moveSessionToWorktree
  | resume attempt answer reply => exact orderly.resume
  | release attempt => exact orderly.release
  | settle move accepted => exact orderly.settle

theorem orderly_run (turns : List Turn) : Orderly (run turns) := by
  induction turns using List.reverseRecOn with
  | nil => exact orderly_initial
  | append_singleton turns next ih =>
      rw [run, List.foldl_concat]
      exact ih.turn next

/-- However prompts, reconciliations and the host interleave, the moves of a session are asked for one after the other, each
on a reading of the host that no move has overtaken, and a superseded attempt neither moves nor places it. -/
theorem moves_serialised (turns : List Turn) : Serialised (run turns).log ∧ OneRunning (run turns) := by
  refine ⟨(orderly_run turns).serialised, fun i j own own' found found' same running running' => ?_⟩
  have first := (orderly_run turns).running i own found running
  have second := (orderly_run turns).running j own' found' running'
  rw [same] at first
  exact Option.some.inj (first.symm.trans second)

-- The first attempt is superseded while the host moves the session; the second one waits for that move.
example : (run [.remember "s" "/a" none, .move "s" "/a", .resume 0 (some "/o") .promises, .remember "s" "/b" none,
    .move "s" "/b", .resume 1 none .missing, .settle 0 true, .resume 0 none .missing, .resume 1 none .missing,
    .resume 1 (some "/a") .promises]).log.reverse =
    [.reads 0 "s", .requests 0 "s" "/a" 0, .superseded 0, .settles 0 true, .reads 1 "s", .requests 1 "s" "/b" 1] := by
  decide

end Invariant

end Phasegent.Placement
