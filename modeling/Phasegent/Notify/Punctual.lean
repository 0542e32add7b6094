import Phasegent.Notify.Reminders

namespace Phasegent.Notify.Plugin
open Js (Value)
open Notifier

section Statement

def Occurrence.tracks (id : List Char) : Occurrence → Bool
  | .tracked own _ _ => own = id
  | _ => false

def since (id : List Char) (log : List Note) : List Note := log.takeWhile fun note => !note.what.tracks id

/-- The directory of the event is the own one, or there was none and that of the fetched session is. -/
def Here (context : Value) (log : List Note) (id : List Char) (directory : Option (List Char)) : Prop :=
  ∃ own, locationDirectory context = .string own ∧ own ≠ [] ∧
    (directory = some own ∨ directory = none ∧ ∃ note ∈ since id log, note.what = .located id (some own))

/-- What a child that is spawned for a form rests on, in the notes before it. -/
structure Warrant (context : Value) (before : List Note) (id : List Char) (time began : Int) (sessionID : List Char)
    (directory : Option (List Char)) : Prop where
  first : before.filter (·.what.tracks id) = [⟨began, .tracked id sessionID directory⟩]
  late : ∃ read, ⟨read, .fired id⟩ ∈ since id before ∧ began + questionNotifyDelayMs ≤ read
  clock : (∀ note ∈ before, note.time ≤ time) → began + questionNotifyDelayMs ≤ time
  unresolved : ∀ note ∈ before, note.what ≠ .resolved id
  kept : sessionID ≠ [] → ∀ note ∈ before, note.what ≠ .deleted sessionID
  unclosed : ∀ note ∈ before, note.what ≠ .closed
  unspawned : ∀ note ∈ before, note.what ≠ .spawned id
  here : Here context before id directory

def Warranted (context : Value) (log : List Note) : Prop :=
  ∀ after before time id, log = after ++ ⟨time, .spawned id⟩ :: before →
    ∃ began sessionID directory, Warrant context before id time began sessionID directory

/-- Every child is the only one of its form and has its warrant. -/
structure Punctual (context : Value) (log : List Note) : Prop where
  once : ∀ id, (log.filter (·.what = .spawned id)).length ≤ 1
  warranted : Warranted context log

end Statement

section Logs

variable {context : Value} {log : List Note} {note : Note} {id : List Char} {entry : PendingEntry}

theorem since_cons (other : note.what.tracks id = false) : since id (note :: log) = note :: since id log := by
  simp [since, other]

theorem mem_of_since (among : note ∈ since id log) : note ∈ log := (List.takeWhile_sublist _).subset among

theorem Here.cons {directory : Option (List Char)} (here : Here context log id directory)
    (other : note.what.tracks id = false) : Here context (note :: log) id directory := by
  obtain ⟨own, located, named, event | ⟨event, fetched, among, answer⟩⟩ := here
  · exact ⟨own, located, named, Or.inl event⟩
  · refine ⟨own, located, named, Or.inr ⟨event, fetched, ?_, answer⟩⟩
    rw [since_cons other]
    exact List.mem_cons_of_mem _ among

def Due (log : List Note) (entry : PendingEntry) : Prop :=
  ∃ read, ⟨read, .fired entry.id⟩ ∈ since entry.id log ∧ entry.deadline ≤ read

theorem Due.cons (due : Due log entry) (other : note.what.tracks entry.id = false) : Due (note :: log) entry := by
  obtain ⟨read, among, late⟩ := due
  refine ⟨read, ?_, late⟩
  rw [since_cons other]
  exact List.mem_cons_of_mem _ among

structure Kept (context : Value) (log : List Note) (entry : PendingEntry) : Prop where
  named : entry.id ≠ []
  first : log.filter (·.what.tracks entry.id) =
    [⟨entry.deadline - questionNotifyDelayMs, .tracked entry.id entry.sessionID (eventDirectory entry.event)⟩]
  here : entry.isLocal = true → Here context log entry.id (eventDirectory entry.event)

theorem Kept.cons (kept : Kept context log entry) (other : note.what.tracks entry.id = false) :
    Kept context (note :: log) entry where
  named := kept.named
  first := by simpa [other] using kept.first
  here isLocal := (kept.here isLocal).cons other

theorem Warranted.cons (warranted : Warranted context log)
    (spawn : ∀ id, note.what = .spawned id →
      ∃ began sessionID directory, Warrant context log id note.time began sessionID directory) :
    Warranted context (note :: log) := by
  intro after before time id split
  cases after with
  | nil =>
      cases split
      exact spawn id rfl
  | cons _ after =>
      cases split
      exact warranted after before time id rfl

theorem Warranted.once (warranted : Warranted context log) : (log.filter (·.what = .spawned id)).length ≤ 1 := by
  induction log with
  | nil => simp
  | cons note log ih =>
      have older : Warranted context log := fun after before time id split =>
        warranted (note :: after) before time id (by rw [split]; rfl)
      by_cases spawn : note.what = .spawned id
      · obtain ⟨time, what⟩ := note
        cases spawn
        obtain ⟨_, _, _, warrant⟩ := warranted [] log time id rfl
        have none : log.filter (·.what = .spawned id) = [] := by
          rw [List.filter_eq_nil_iff]
          intro own among
          simpa using warrant.unspawned own among
        simp [none]
      · simpa [spawn] using ih older

end Logs

section Soundness

variable {context : Value} {n : Notifier} {i : Nat} {entry : PendingEntry} {id : List Char}

def Waits (log : List Note) (entries : List PendingEntry) : Task → Prop
  | .locate i => ∃ entry, entries[i]? = some entry ∧ eventDirectory entry.event = none
  | .await i => ∃ entry, entries[i]? = some entry ∧ Due log entry
  | .enrich i => ∃ entry, entries[i]? = some entry ∧ Due log entry ∧ entry.isLocal = true

structure Remembers (n : Notifier) : Prop where
  known : ∀ i entry, n.entries[i]? = some entry → entry.id ∈ n.settled ∨ n.pending.lookup entry.id = some i
  fresh : ∀ note ∈ n.log, ∀ id, note.what.tracks id = true → id ∈ n.settled ∨ (n.pending.lookup id).isSome = true
  resolved : ∀ note ∈ n.log, ∀ id, note.what = .resolved id ∨ note.what = .spawned id → id = [] ∨ id ∈ n.settled
  deleted : ∀ note ∈ n.log, ∀ sessionID, note.what = .deleted sessionID → sessionID = [] ∨ sessionID ∈ n.deletedSessions ∧
    ∀ entry ∈ n.entries, entry.sessionID = sessionID → entry.id ∈ n.settled
  unclosed : ∀ note ∈ n.log, note.what ≠ .closed

structure Sound (context : Value) (n : Notifier) : Prop where
  kept : ∀ entry ∈ n.entries, Kept context n.log entry
  waits : ∀ task ∈ n.tasks, Waits n.log n.entries task
  apart : ∀ id ∈ n.settled, n.pending.lookup id = none
  remembers : n.isClosed = false → Remembers n
  warranted : Warranted context n.log

theorem sound_initial : Sound context .initial where
  kept := nofun
  waits := nofun
  apart := nofun
  remembers _ := ⟨nofun, nofun, nofun, nofun, nofun⟩
  warranted after before time id split := by simp [initial] at split

theorem active_eq_some : n.active i = some entry ↔ n.entries[i]? = some entry ∧ n.isClosed = false ∧
    entry.settled = false ∧ n.pending.lookup entry.id = some i := by
  simp [active, Option.filter_eq_some_iff, and_assoc]

theorem Sound.warrant (sound : Sound context n) (active : n.active i = some entry) (due : Due n.log entry)
    (isLocal : entry.isLocal = true) (time : Int) :
    Warrant context n.log entry.id time (entry.deadline - questionNotifyDelayMs) entry.sessionID
      (eventDirectory entry.event) := by
  obtain ⟨found, opened, -, pending⟩ := active_eq_some.mp active
  have among : entry ∈ n.entries := List.mem_of_getElem? found
  have remembers := sound.remembers opened
  have kept := sound.kept entry among
  have unsettled : entry.id ∉ n.settled := fun settled => by simp [sound.apart _ settled] at pending
  obtain ⟨read, fired, late⟩ := due
  refine ⟨kept.first, ⟨read, fired, by omega⟩, ?_, ?_, ?_, remembers.unclosed, ?_, kept.here isLocal⟩
  · intro clock
    have := clock _ (mem_of_since fired)
    dsimp only at this
    omega
  · intro note noted resolved
    exact (remembers.resolved note noted _ (Or.inl resolved)).elim kept.named unsettled
  · intro named note noted deleted
    rcases remembers.deleted note noted _ deleted with empty | ⟨-, settled⟩
    · exact named empty
    · exact unsettled (settled entry among rfl)
  · intro note noted spawned
    exact (remembers.resolved note noted _ (Or.inr spawned)).elim kept.named unsettled

def Allowed (context : Value) (n : Notifier) (time : Int) : Occurrence → Prop
  | .tracked .. => False
  | .fired _ | .located .. => True
  | .resolved id => id = [] ∨ id ∈ n.settled
  | .deleted sessionID => sessionID = [] ∨ sessionID ∈ n.deletedSessions ∧
      ∀ entry ∈ n.entries, entry.sessionID = sessionID → entry.id ∈ n.settled
  | .closed => n.isClosed = true
  | .spawned id => id ∈ n.settled ∧
      ∃ began sessionID directory, Warrant context n.log id time began sessionID directory

theorem Waits.cons {log : List Note} {entries : List PendingEntry} {note : Note} {task : Task} (waits : Waits log entries task)
    (other : ∀ entry ∈ entries, note.what.tracks entry.id = false) : Waits (note :: log) entries task := by
  cases task with
  | locate _ => exact waits
  | await i =>
      obtain ⟨entry, found, due⟩ := waits
      exact ⟨entry, found, due.cons (other _ (List.mem_of_getElem? found))⟩
  | enrich i =>
      obtain ⟨entry, found, due, isLocal⟩ := waits
      exact ⟨entry, found, due.cons (other _ (List.mem_of_getElem? found)), isLocal⟩

theorem Sound.record {time : Int} {what : Occurrence} (sound : Sound context n) (allowed : Allowed context n time what) :
    Sound context (n.record time what) := by
  have other : ∀ id, what.tracks id = false := by
    intro id
    cases what with
    | tracked => exact allowed.elim
    | _ => rfl
  refine ⟨fun entry among => (sound.kept entry among).cons (other _), fun task among => (sound.waits task among).cons fun _ _ => other _,
    sound.apart, fun opened => ?_, sound.warranted.cons fun id spawn => ?_⟩
  · have remembers := sound.remembers opened
    refine ⟨remembers.known, ?_, ?_, ?_, ?_⟩
    · intro note among id tracks
      rcases List.mem_cons.mp among with rfl | among
      · simp [other id] at tracks
      · exact remembers.fresh note among id tracks
    · intro note among id ended
      rcases List.mem_cons.mp among with rfl | among
      · rcases ended with rfl | rfl
        · exact allowed
        · exact Or.inr allowed.1
      · exact remembers.resolved note among id ended
    · intro note among sessionID deleted
      rcases List.mem_cons.mp among with rfl | among
      · cases deleted
        exact allowed
      · exact remembers.deleted note among sessionID deleted
    · intro note among closed
      rcases List.mem_cons.mp among with rfl | among
      · cases closed
        exact absurd (opened.symm.trans allowed) (by decide)
      · exact remembers.unclosed note among closed
  · cases spawn
    exact allowed.2

structure Alike (context : Value) (log : List Note) (entry entry' : PendingEntry) : Prop where
  id : entry'.id = entry.id
  sessionID : entry'.sessionID = entry.sessionID
  event : entry'.event = entry.event
  deadline : entry'.deadline = entry.deadline
  stays : entry.isLocal = true → entry'.isLocal = true
  here : entry'.isLocal = true → entry.isLocal = true ∨ Here context log entry.id (eventDirectory entry.event)

theorem Due.alike {log : List Note} {entry entry' : PendingEntry} (due : Due log entry) (alike : Alike context log entry entry') :
    Due log entry' := by
  obtain ⟨read, fired, late⟩ := due
  refine ⟨read, ?_, ?_⟩
  · rwa [alike.id]
  · rwa [alike.deadline]

theorem Kept.alike {log : List Note} {entry entry' : PendingEntry} (kept : Kept context log entry)
    (alike : Alike context log entry entry') : Kept context log entry' where
  named := alike.id ▸ kept.named
  first := by
    rw [alike.id, alike.deadline, alike.sessionID, alike.event]
    exact kept.first
  here isLocal := by
    rw [alike.id, alike.event]
    exact (alike.here isLocal).elim kept.here id

theorem getElem?_change {f : PendingEntry → PendingEntry} {j : Nat} : (n.change i f).entries[j]? =
    (n.entries[j]?).map fun entry => if i = j then f entry else entry := by
  rw [change, List.getElem?_modify]
  rfl

variable {f : PendingEntry → PendingEntry}

theorem changed_alike (alike : ∀ entry, n.entries[i]? = some entry → Alike context n.log entry (f entry)) {j : Nat}
    {entry' : PendingEntry} (found : (n.change i f).entries[j]? = some entry') :
    ∃ entry, n.entries[j]? = some entry ∧ Alike context n.log entry entry' := by
  rw [getElem?_change, Option.map_eq_some_iff] at found
  obtain ⟨entry, found, rfl⟩ := found
  refine ⟨entry, found, ?_⟩
  split
  · rename_i here
    exact alike entry (here ▸ found)
  · exact ⟨rfl, rfl, rfl, rfl, id, Or.inl⟩

theorem Waits.change {task : Task} (waits : Waits n.log n.entries task)
    (alike : ∀ entry, n.entries[i]? = some entry → Alike context n.log entry (f entry)) :
    Waits n.log (n.change i f).entries task := by
  have moved : ∀ (j : Nat) (entry : PendingEntry), n.entries[j]? = some entry → ∃ entry', (n.change i f).entries[j]? = some entry' ∧
      Alike context n.log entry entry' := by
    intro j entry found
    have found' := getElem?_change (n := n) (i := i) (f := f) (j := j)
    rw [found, Option.map_some] at found'
    obtain ⟨_, same, alike⟩ := changed_alike alike found'
    cases found.symm.trans same
    exact ⟨_, found', alike⟩
  cases task with
  | locate j =>
      obtain ⟨entry, found, unlocated⟩ := waits
      obtain ⟨entry', found', alike⟩ := moved j entry found
      exact ⟨entry', found', alike.event ▸ unlocated⟩
  | await j =>
      obtain ⟨entry, found, due⟩ := waits
      obtain ⟨entry', found', alike⟩ := moved j entry found
      exact ⟨entry', found', due.alike alike⟩
  | enrich j =>
      obtain ⟨entry, found, due, isLocal⟩ := waits
      obtain ⟨entry', found', alike⟩ := moved j entry found
      exact ⟨entry', found', due.alike alike, alike.stays isLocal⟩

theorem Sound.change (sound : Sound context n)
    (alike : ∀ entry, n.entries[i]? = some entry → Alike context n.log entry (f entry)) :
    Sound context (n.change i f) := by
  have before : ∀ entry' ∈ (n.change i f).entries, ∃ entry ∈ n.entries, Alike context n.log entry entry' := by
    intro entry' among
    obtain ⟨j, found⟩ := List.mem_iff_getElem?.mp among
    obtain ⟨entry, found, alike⟩ := changed_alike alike found
    exact ⟨entry, List.mem_of_getElem? found, alike⟩
  refine ⟨?_, fun task among => (sound.waits task among).change alike, sound.apart, fun opened => ?_, sound.warranted⟩
  · intro entry' among
    obtain ⟨entry, among, alike⟩ := before entry' among
    exact (sound.kept entry among).alike alike
  · have remembers := sound.remembers opened
    refine ⟨?_, remembers.fresh, remembers.resolved, ?_, remembers.unclosed⟩
    · intro j entry' found
      obtain ⟨entry, found, alike⟩ := changed_alike alike found
      rw [alike.id]
      exact remembers.known j entry found
    · intro note noted sessionID deleted
      refine (remembers.deleted note noted sessionID deleted).imp_right fun told => ⟨told.1, ?_⟩
      intro entry' among own
      obtain ⟨entry, among, alike⟩ := before entry' among
      rw [alike.id]
      exact told.2 entry among (alike.sessionID ▸ own)

theorem Sound.settleEntry (sound : Sound context n) : Sound context (n.settleEntry i) :=
  sound.change fun _ _ => ⟨rfl, rfl, rfl, rfl, id, Or.inl⟩

theorem Sound.settle {pending : List (List Char × Nat)} (sound : Sound context n)
    (others : ∀ own, own ≠ id → pending.lookup own = n.pending.lookup own) (gone : pending.lookup id = none) :
    Sound context { n with settled := n.settled.insert id, pending := pending } := by
  have more : ∀ own ∈ n.settled, own ∈ n.settled.insert id := fun own => List.mem_insert_of_mem
  refine ⟨sound.kept, sound.waits, ?_, fun opened => ?_, sound.warranted⟩
  · intro own settled
    by_cases same : own = id
    · exact same ▸ gone
    · have settled := (List.mem_insert_iff.mp settled).resolve_left same
      exact (others own same).trans (sound.apart own settled)
  · have remembers := sound.remembers opened
    refine ⟨?_, ?_, ?_, ?_, remembers.unclosed⟩
    · intro j entry found
      by_cases same : entry.id = id
      · exact Or.inl (same ▸ List.mem_insert_self)
      · refine (remembers.known j entry found).imp (more _) fun pending => ?_
        rw [others _ same]
        exact pending
    · intro note noted own tracks
      by_cases same : own = id
      · exact Or.inl (same ▸ List.mem_insert_self)
      · refine (remembers.fresh note noted own tracks).imp (more _) fun pending => ?_
        rw [others _ same]
        exact pending
    · exact fun note noted own ended => (remembers.resolved note noted own ended).imp_right (more _)
    · exact fun note noted sessionID deleted => (remembers.deleted note noted sessionID deleted).imp_right
        fun told => ⟨told.1, fun entry among own => more _ (told.2 entry among own)⟩

theorem lookup_filter_other {pending : List (List Char × Nat)} {own : List Char} (other : own ≠ id) :
    (pending.filter fun entry => entry.1 ≠ id).lookup own = pending.lookup own := by
  induction pending with
  | nil => rfl
  | cons entry rest ih =>
      obtain ⟨key, i⟩ := entry
      by_cases same : key = id
      · have differ : (own == id) = false := by simpa using other
        simpa [same, List.lookup_cons, differ] using ih
      · simp only [ne_eq, same, not_false_eq_true, decide_true, List.filter_cons_of_pos, List.lookup_cons] at ih ⊢
        rw [ih]

theorem lookup_filter_own {pending : List (List Char × Nat)} :
    (pending.filter fun entry => entry.1 ≠ id).lookup id = none := by
  rw [List.lookup_eq_none_iff]
  intro entry among
  simpa using fun same : id = entry.1 => (of_decide_eq_true (List.mem_filter.mp among).2) same.symm

theorem Sound.settleForm (sound : Sound context n) : Sound context (n.settleForm id) := by
  unfold Notifier.settleForm
  split
  · exact sound
  dsimp only
  split
  · rename_i missing
    exact sound.settle (fun _ _ => rfl) missing
  · exact (sound.settleEntry (i := _)).settle (fun _ => lookup_filter_other) lookup_filter_own

theorem record_settleForm {time : Int} {what : Occurrence} :
    (n.record time what).settleForm id = (n.settleForm id).record time what := by
  unfold Notifier.settleForm record
  split
  · rfl
  · dsimp only
    split <;> rfl

theorem mem_settled_settleForm (named : id ≠ []) : id ∈ (n.settleForm id).settled := by
  unfold Notifier.settleForm
  rw [if_neg named]
  dsimp only
  split <;> exact List.mem_insert_self

structure Settling (n n' : Notifier) : Prop where
  log : n'.log = n.log
  deletedSessions : n'.deletedSessions = n.deletedSessions
  settled : ∀ id ∈ n.settled, id ∈ n'.settled
  entries : ∀ entry' ∈ n'.entries, ∃ (i : Nat) (entry : PendingEntry), n.entries[i]? = some entry ∧ entry'.id = entry.id ∧
    entry'.sessionID = entry.sessionID

theorem Settling.refl : Settling n n where
  log := rfl
  deletedSessions := rfl
  settled _ := id
  entries entry among := by
    obtain ⟨i, found⟩ := List.mem_iff_getElem?.mp among
    exact ⟨i, entry, found, rfl, rfl⟩

theorem Settling.trans {n' n'' : Notifier} (first : Settling n n') (second : Settling n' n'') : Settling n n'' where
  log := second.log.trans first.log
  deletedSessions := second.deletedSessions.trans first.deletedSessions
  settled id settled := second.settled id (first.settled id settled)
  entries entry'' among := by
    obtain ⟨_, entry', found, sameId, sameSession⟩ := second.entries entry'' among
    obtain ⟨i, entry, found, sameId', sameSession'⟩ := first.entries entry' (List.mem_of_getElem? found)
    exact ⟨i, entry, found, sameId.trans sameId', sameSession.trans sameSession'⟩

theorem settling_settleForm : Settling n (n.settleForm id) := by
  unfold Notifier.settleForm
  split
  · exact .refl
  dsimp only
  split
  · exact { Settling.refl with settled := fun _ => List.mem_insert_of_mem }
  · refine ⟨rfl, rfl, fun _ => List.mem_insert_of_mem, fun entry' among => ?_⟩
    obtain ⟨j, found⟩ := List.mem_iff_getElem?.mp among
    simp only [Notifier.settleEntry, getElem?_change, Option.map_eq_some_iff] at found
    obtain ⟨entry, found, rfl⟩ := found
    exact ⟨j, entry, found, by split <;> rfl, by split <;> rfl⟩

theorem Sound.settleForms (sound : Sound context n) (keys : List (List Char × Nat)) :
    Sound context (keys.foldl (fun n entry => n.settleForm entry.1) n) ∧
      Settling n (keys.foldl (fun n entry => n.settleForm entry.1) n) ∧
      ∀ key ∈ keys, key.1 ≠ [] → key.1 ∈ (keys.foldl (fun n entry => n.settleForm entry.1) n).settled := by
  induction keys generalizing n with
  | nil => exact ⟨sound, .refl, nofun⟩
  | cons key keys ih =>
      obtain ⟨sound', settles, all⟩ := ih (sound.settleForm : Sound context (n.settleForm key.1))
      refine ⟨sound', settling_settleForm.trans settles, List.forall_mem_cons.mpr ⟨fun named => ?_, all⟩⟩
      exact settles.settled _ (mem_settled_settleForm named)

theorem record_settleSession {time : Int} {what : Occurrence} {sessionID : List Char} :
    (n.record time what).settleSession sessionID = (n.settleSession sessionID).record time what := by
  have pushed : ∀ (keys : List (List Char × Nat)) (n : Notifier),
      keys.foldl (fun n entry => n.settleForm entry.1) (n.record time what) =
        (keys.foldl (fun n entry => n.settleForm entry.1) n).record time what := by
    intro keys
    induction keys with
    | nil => exact fun _ => rfl
    | cons key keys ih =>
        intro n
        rw [List.foldl_cons, List.foldl_cons, record_settleForm, ih]
  unfold settleSession
  split
  · rfl
  · exact pushed _ { n with deletedSessions := n.deletedSessions.insert sessionID }

theorem Sound.settleSession {sessionID : List Char} (sound : Sound context n) (opened : n.isClosed = false) :
    Sound context (n.settleSession sessionID) ∧ ∀ time,
      Allowed context (n.settleSession sessionID) time (.deleted sessionID) := by
  unfold Notifier.settleSession
  split
  · rename_i empty
    exact ⟨sound, fun _ => Or.inl empty⟩
  dsimp only
  generalize told : ({ n with deletedSessions := n.deletedSessions.insert sessionID } : Notifier) = m
  have sound' : Sound context m := by
    subst told
    refine ⟨sound.kept, sound.waits, sound.apart, fun opened => ?_, sound.warranted⟩
    have remembers := sound.remembers opened
    refine ⟨remembers.known, remembers.fresh, remembers.resolved, ?_, remembers.unclosed⟩
    exact fun note noted sessionID deleted => (remembers.deleted note noted sessionID deleted).imp_right
      fun told => ⟨List.mem_insert_of_mem told.1, told.2⟩
  have same : n.pending = m.pending := by rw [← told]
  rw [same]
  generalize chosen : (m.pending.filter fun entry => m.ofSession sessionID entry.2) = keys
  obtain ⟨settledSound, settles, all⟩ := sound'.settleForms keys
  refine ⟨settledSound, fun _ => Or.inr ⟨?_, ?_⟩⟩
  · rw [settles.deletedSessions]
    subst told
    exact List.mem_insert_self
  · intro entry' among own
    obtain ⟨i, entry, found, sameId, sameSession⟩ := settles.entries entry' among
    have opened' : m.isClosed = false := by
      subst told
      exact opened
    rw [sameId]
    refine ((sound'.remembers opened').known i entry found).elim (settles.settled _) fun pending => ?_
    apply all (entry.id, i)
    · rw [← chosen, List.mem_filter]
      refine ⟨?_, ?_⟩
      · obtain ⟨before, after, split, -⟩ := List.lookup_eq_some_iff.mp pending
        rw [split]
        simp
      · simp [ofSession, found, ← sameSession, own]
    · exact (sound'.kept entry (List.mem_of_getElem? found)).named

theorem clearPending_same (n : Notifier) :
    n.clearPending.disposed = n.disposed ∧ n.clearPending.streamEnded = n.streamEnded := by
  unfold Notifier.clearPending
  generalize n.pending = keys
  induction keys generalizing n with
  | nil => exact ⟨rfl, rfl⟩
  | cons key keys ih => exact ih (n.settleEntry key.2)

theorem Sound.clearPending (sound : Sound context n) (closed : n.isClosed = true) : Sound context n.clearPending := by
  have settledSound : ∀ keys : List (List Char × Nat), Sound context (keys.foldl (fun n entry => n.settleEntry entry.2) n) := by
    intro keys
    induction keys using List.reverseRecOn with
    | nil => exact sound
    | append_singleton keys key ih =>
        rw [List.foldl_concat]
        exact ih.settleEntry
  have sound' := settledSound n.pending
  refine ⟨sound'.kept, sound'.waits, fun _ _ => rfl, fun opened => ?_, sound'.warranted⟩
  rw [isClosed, (clearPending_same n).1, (clearPending_same n).2, ← isClosed, closed] at opened
  cases opened

theorem Sound.suspend {task : Task} (sound : Sound context n) (waits : Waits n.log n.entries task) :
    Sound context (n.suspend task) := by
  refine ⟨sound.kept, fun own among => ?_, sound.apart, fun opened => ?_, sound.warranted⟩
  · rcases List.mem_append.mp among with among | among
    · exact sound.waits own among
    · exact List.mem_singleton.mp among ▸ waits
  · have remembers := sound.remembers opened
    exact ⟨remembers.known, remembers.fresh, remembers.resolved, remembers.deleted, remembers.unclosed⟩

theorem Sound.resumed {k : Nat} (sound : Sound context n) :
    Sound context { n with tasks := n.tasks.eraseIdx k } := by
  refine ⟨sound.kept, fun own among => sound.waits own (List.mem_of_mem_eraseIdx among), sound.apart,
    fun opened => ?_, sound.warranted⟩
  have remembers := sound.remembers opened
  exact ⟨remembers.known, remembers.fresh, remembers.resolved, remembers.deleted, remembers.unclosed⟩

theorem belongs_iff {event : Value} {session : Option FormSession}
    (belongs : formBelongsToInstance context event session = true) : ∃ own, locationDirectory context = .string own ∧
      own ≠ [] ∧ firstText (eventDirectory event) (session.bind (·.directory)) = some own := by
  unfold formBelongsToInstance at belongs
  dsimp only at belongs
  split at belongs
  · rename_i own directory named located
    rw [Bool.and_eq_true, decide_eq_true_eq] at belongs
    obtain ⟨text, filled⟩ : (locationDirectory context).asString = some own ∧ own ≠ [] := by
      simpa [firstText, Option.filter_eq_some_iff] using named
    exact ⟨own, Value.asString_eq_some.mp text, filled, belongs.1 ▸ located⟩
  · cases belongs

theorem Sound.conclude (sound : Sound context n) : Sound context (conclude i n) := by
  unfold Plugin.conclude
  split
  · exact sound
  · split
    · exact sound.settleForm
    · exact sound

end Soundness

section Turns

variable {context : Value} {n : Notifier} {i : Nat} {now : Int}

theorem Sound.notify {enriched : Option FormSession} (sound : Sound context n)
    (ready : ∀ entry, n.active i = some entry → Due n.log entry ∧ entry.isLocal = true) :
    Sound context (notify context now i enriched n) := by
  unfold Plugin.notify
  split
  · exact sound.conclude
  · rename_i entry active
    obtain ⟨due, isLocal⟩ := ready entry active
    dsimp only
    split
    · exact sound.settleForm.conclude
    · have named := (sound.kept entry (List.mem_of_getElem? (active_eq_some.mp active).1)).named
      have allowed : Allowed context (n.settleForm entry.id) now (.spawned entry.id) := by
        refine ⟨mem_settled_settleForm named, ?_⟩
        rw [settling_settleForm.log]
        exact ⟨_, _, _, sound.warrant active due isLocal now⟩
      rw [record_settleForm]
      exact (sound.settleForm.record allowed).conclude

theorem Sound.deliver (sound : Sound context n)
    (ready : ∀ entry, n.active i = some entry → Due n.log entry ∧ entry.isLocal = true) :
    Sound context (deliver context now i n) := by
  unfold Plugin.deliver
  split
  · exact sound
  · rename_i entry active
    obtain ⟨due, isLocal⟩ := ready entry active
    have found := (active_eq_some.mp active).1
    have alike : ∀ own, n.entries[i]? = some own → Alike context n.log own { own with delivering := true } :=
      fun _ _ => ⟨rfl, rfl, rfl, rfl, fun stays => stays, Or.inl⟩
    have sound' := sound.change alike
    have begun : ∀ entry', (n.change i fun entry => { entry with delivering := true }).entries[i]? = some entry' →
        Due n.log entry' ∧ entry'.isLocal = true := by
      intro entry' found'
      obtain ⟨_, same, alike⟩ := changed_alike alike found'
      cases found.symm.trans same
      exact ⟨due.alike alike, alike.stays isLocal⟩
    split
    · exact sound
    dsimp only
    split
    · exact sound'.notify fun entry' active' => begun entry' (active_eq_some.mp active').1
    · refine sound'.suspend ?_
      have found' := getElem?_change (n := n) (i := i) (f := fun entry => { entry with delivering := true }) (j := i)
      rw [found, Option.map_some, if_pos rfl] at found'
      exact ⟨_, found', begun _ found'⟩

theorem Sound.deliverLocal (sound : Sound context n) (ready : ∀ entry, n.active i = some entry → Due n.log entry) :
    Sound context (deliverLocal context now i n) := by
  unfold Plugin.deliverLocal
  split
  · exact sound
  · rename_i entry active
    split
    · rename_i isLocal
      refine sound.deliver fun own active' => ?_
      cases active.symm.trans active'
      exact ⟨ready _ active, isLocal⟩
    · exact sound

theorem due_of_fired (log : List Note) {entry : PendingEntry} (late : entry.deadline ≤ now) :
    Due (⟨now, .fired entry.id⟩ :: log) entry :=
  ⟨now, by rw [since_cons rfl]; exact List.mem_cons_self, late⟩

theorem Sound.onTimer (sound : Sound context n) : Sound context (onTimer context now i n) := by
  unfold Plugin.onTimer
  have sound' : Sound context (n.change i fun entry => { entry with timer := false }) :=
    sound.change fun _ _ => ⟨rfl, rfl, rfl, rfl, fun stays => stays, Or.inl⟩
  dsimp only
  split
  · exact sound'
  · rename_i entry active
    have noted : Sound context (Notifier.record now (.fired entry.id) (n.change i fun entry => { entry with timer := false })) :=
      sound'.record trivial
    split
    · exact noted.change fun _ _ => ⟨rfl, rfl, rfl, rfl, fun stays => stays, Or.inl⟩
    · rename_i late
      have due := due_of_fired (n.change i fun entry => { entry with timer := false }).log
        (show entry.deadline ≤ now by omega)
      split
      · exact noted.suspend ⟨entry, (active_eq_some.mp active).1, due⟩
      · refine noted.deliverLocal fun own active' => ?_
        cases active.symm.trans active'
        exact due

theorem Sound.resolveLocation {answer : Option Value} (sound : Sound context n)
    (unlocated : ∀ entry, n.entries[i]? = some entry → eventDirectory entry.event = none) :
    Sound context (resolveLocation context now i answer n) := by
  unfold Plugin.resolveLocation
  split
  · exact sound
  · rename_i entry active
    dsimp only
    generalize readFormSession (entry.form.get "sessionID") answer = session
    have noted : Sound context (n.record now (.located entry.id (session.bind (·.directory)))) := sound.record trivial
    have found := (active_eq_some.mp active).1
    split
    · rename_i belongs
      refine noted.change fun own found' => ⟨rfl, rfl, rfl, rfl, fun _ => rfl, fun _ => Or.inr ?_⟩
      cases found.symm.trans found'
      obtain ⟨directory, located, named, first⟩ := belongs_iff belongs
      refine ⟨directory, located, named, Or.inr ⟨unlocated _ found, ⟨now, .located entry.id (session.bind (·.directory))⟩, ?_, ?_⟩⟩
      · rw [Notifier.record, since_cons rfl]
        exact List.mem_cons_self
      · rw [unlocated _ found] at first
        have fetched : session.bind (·.directory) = some directory := by
          simpa [firstText, Option.filter_eq_some_iff, named] using first
        rw [fetched]
    · exact noted.settleForm

theorem Sound.resume {answer : Option Value} {task : Task} (sound : Sound context n)
    (waits : Waits n.log n.entries task) : Sound context (resume context now answer n task) := by
  cases task with
  | locate i =>
      obtain ⟨entry, found, unlocated⟩ := waits
      refine sound.resolveLocation fun own found' => ?_
      cases found.symm.trans found'
      exact unlocated
  | await i =>
      obtain ⟨entry, found, due⟩ := waits
      refine sound.deliverLocal fun own active => ?_
      cases found.symm.trans (active_eq_some.mp active).1
      exact due
  | enrich i =>
      obtain ⟨entry, found, due, isLocal⟩ := waits
      refine sound.notify fun own active => ?_
      cases found.symm.trans (active_eq_some.mp active).1
      exact ⟨due, isLocal⟩

theorem lookup_append_fresh {pending : List (List Char × Nat)} {id own : List Char} (other : own ≠ id) :
    (pending ++ [(id, i)]).lookup own = pending.lookup own := by
  rw [List.lookup_append]
  have differ : (own == id) = false := by simpa using other
  simp [List.lookup_cons, differ]

theorem Sound.track {event form : Value} (sound : Sound context n) (opened : n.isClosed = false)
    (named : textOf (form.get "id") ≠ [])
    (kept : ∀ sessionID ∈ n.deletedSessions, (form.get "sessionID").asString ≠ some sessionID)
    (belongs : (eventDirectory event).isSome = true → formBelongsToInstance context event none = true) :
    Sound context (track now event form n) := by
  unfold Plugin.track
  dsimp only
  generalize textOf (form.get "id") = id at named ⊢
  split
  · exact sound
  rename_i unknown
  simp only [isSettledOrPending, Bool.or_eq_true, List.contains_iff_mem, not_or, Option.not_isSome_iff_eq_none] at unknown
  obtain ⟨unpended, unsettled⟩ := unknown
  have remembers := sound.remembers opened
  have untracked : ∀ note ∈ n.log, note.what.tracks id = false := by
    intro note noted
    by_contra tracks
    rcases remembers.fresh note noted id (Bool.of_not_eq_false tracks) with settled | pending
    · exact unsettled settled
    · simp [unpended] at pending
  have other : ∀ entry ∈ n.entries, entry.id ≠ id := by
    intro entry among same
    obtain ⟨j, found⟩ := List.mem_iff_getElem?.mp among
    rcases remembers.known j entry found with settled | pending
    · exact unsettled (same ▸ settled)
    · simp [same, unpended] at pending
  generalize made : (⟨id, textOf (form.get "sessionID"), form, event, none, (eventDirectory event).isSome, false, false,
    now + questionNotifyDelayMs, true, !(eventDirectory event).isSome⟩ : PendingEntry) = entry
  generalize note : (⟨now, .tracked id (textOf (form.get "sessionID")) (eventDirectory event)⟩ : Note) = tracking
  have elsewhere : ∀ own, own ≠ id → tracking.what.tracks own = false := by
    intro own differs
    simpa [← note, Occurrence.tracks] using fun same : id = own => differs same.symm
  have here : Kept context (tracking :: n.log) entry := by
    subst made note
    refine ⟨named, ?_, fun located => ?_⟩
    · have empty : n.log.filter (·.what.tracks id) = [] := by
        rw [List.filter_eq_nil_iff]
        exact fun note noted => Bool.eq_false_iff.mp (untracked note noted)
      rw [List.filter_cons_of_pos (by simp [Occurrence.tracks]), empty, Int.add_sub_cancel]
    · obtain ⟨own, directory, filled, first⟩ := belongs_iff (belongs located)
      obtain ⟨given, text⟩ := Option.isSome_iff_exists.mp located
      refine ⟨own, directory, filled, Or.inl ?_⟩
      dsimp only at text ⊢
      rw [text] at first ⊢
      have same : given = own ∧ own ≠ [] := by simpa [firstText, Option.filter_eq_some_iff] using first
      rw [same.1]
  have sound' : Sound context { n with
      entries := n.entries ++ [entry], pending := n.pending ++ [(id, n.entries.length)], log := tracking :: n.log } := by
    have ofNew : entry.id = id ∧ entry.sessionID = textOf (form.get "sessionID") := by
      subst made
      exact ⟨rfl, rfl⟩
    refine ⟨?_, fun task among => ?_, fun own settled => ?_, fun _ => ⟨?_, ?_, ?_, ?_, ?_⟩, sound.warranted.cons ?_⟩
    · intro own among
      rcases List.mem_append.mp among with among | among
      · exact (sound.kept own among).cons (elsewhere _ (other own among))
      · exact List.mem_singleton.mp among ▸ here
    · have waits : Waits (tracking :: n.log) n.entries task :=
        (sound.waits task among).cons fun own among => elsewhere _ (other own among)
      have later : ∀ (j : Nat) (own : PendingEntry), n.entries[j]? = some own → (n.entries ++ [entry])[j]? = some own := by
        intro j own found
        rw [List.getElem?_append_left (List.getElem?_eq_some_iff.mp found).1, found]
      cases task with
      | locate j => exact waits.imp fun own found => ⟨later j own found.1, found.2⟩
      | await j => exact waits.imp fun own found => ⟨later j own found.1, found.2⟩
      | enrich j => exact waits.imp fun own found => ⟨later j own found.1, found.2⟩
    · dsimp only
      rw [lookup_append_fresh fun same : own = id => unsettled (same ▸ settled)]
      exact sound.apart own settled
    · intro j own found
      rcases Nat.lt_or_ge j n.entries.length with older | newest
      · rw [List.getElem?_append_left older] at found
        refine (remembers.known j own found).imp_right fun pending => ?_
        dsimp only
        rw [lookup_append_fresh (other own (List.mem_of_getElem? found))]
        exact pending
      · rw [List.getElem?_append_right newest] at found
        obtain ⟨zero, rfl⟩ : j - n.entries.length = 0 ∧ own = entry := by
          rcases below : j - n.entries.length with _ | more
          · rw [below] at found
            exact ⟨rfl, (Option.some.inj found).symm⟩
          · simp [below] at found
        refine Or.inr ?_
        dsimp only
        rw [List.lookup_append, ofNew.1, unpended, show j = n.entries.length by omega]
        simp
    · intro own noted id' tracks
      by_cases same : id' = id
      · refine Or.inr ?_
        dsimp only
        rw [List.lookup_append, same, unpended]
        simp
      · rcases List.mem_cons.mp noted with rfl | noted
        · simp [elsewhere id' same] at tracks
        · dsimp only
          rw [lookup_append_fresh same]
          exact remembers.fresh own noted id' tracks
    · intro own noted id' ended
      rcases List.mem_cons.mp noted with rfl | noted
      · subst note
        simp at ended
      · exact remembers.resolved own noted id' ended
    · intro own noted sessionID deleted
      rcases List.mem_cons.mp noted with rfl | noted
      · subst note
        cases deleted
      · rcases remembers.deleted own noted sessionID deleted with empty | ⟨told, settled⟩
        · exact Or.inl empty
        · by_cases empty : sessionID = []
          · exact Or.inl empty
          refine Or.inr ⟨told, fun own' among ownSession => ?_⟩
          rcases List.mem_append.mp among with among | among
          · exact settled own' among ownSession
          · rw [List.mem_singleton.mp among, ofNew.2, textOf] at ownSession
            cases text : (form.get "sessionID").asString with
            | none => exact absurd (by simpa [text] using ownSession.symm) empty
            | some given =>
                rw [text, Option.getD_some] at ownSession
                exact absurd (text.trans (congrArg some ownSession)) (kept sessionID told)
    · intro own noted
      rcases List.mem_cons.mp noted with rfl | noted
      · subst note
        simp
      · exact remembers.unclosed own noted
    · subst note
      simp
  have placed : (n.entries ++ [entry])[n.entries.length]? = some entry := by simp
  subst made note
  split
  · exact sound'
  · rename_i unlocated
    exact sound'.suspend ⟨_, placed, Option.not_isSome_iff_eq_none.mp unlocated⟩

theorem Sound.created {event form : Value} (sound : Sound context n) (opened : n.isClosed = false) :
    Sound context (created context now event form n) := by
  unfold Plugin.created
  split
  · exact sound
  rename_i question
  split
  · exact sound
  split
  · exact sound
  rename_i kept
  split
  · exact sound
  rename_i belongs
  refine sound.track opened ?_ ?_ ?_
  · simp only [isQuestionForm, Bool.not_eq_true, Bool.not_eq_false', Bool.and_eq_true, decide_eq_true_eq] at question
    exact question.1.1.2
  · intro sessionID deleted same
    simp [same, deleted] at kept
  · intro located
    simpa [located] using belongs

theorem Sound.handleEvent {event : Value} (sound : Sound context n) : Sound context (handleEvent context now event n) := by
  unfold Plugin.handleEvent
  dsimp only
  split
  · exact sound
  rename_i proper
  have opened : n.isClosed = false := by
    simp only [Bool.or_eq_true, not_or, Bool.not_eq_true] at proper
    exact proper.1
  split
  · rw [record_settleForm]
    refine sound.settleForm.record ?_
    by_cases named : textOf ((event.get "data").get "id") = []
    · exact Or.inl named
    · exact Or.inr (mem_settled_settleForm named)
  split
  · obtain ⟨sound', allowed⟩ := sound.settleSession opened
    rw [record_settleSession]
    exact sound'.record (allowed now)
  split
  · exact sound
  · exact sound.created opened

theorem Sound.closed {n' : Notifier} (sound : Sound context n) (closed : n'.isClosed = true)
    (same : n'.entries = n.entries ∧ n'.tasks = n.tasks ∧ n'.settled = n.settled ∧ n'.pending = n.pending ∧ n'.log = n.log) :
    Sound context (n'.record now .closed).clearPending := by
  obtain ⟨entries, tasks, settled, pending, log⟩ := same
  refine Sound.clearPending (Sound.record ⟨?_, ?_, ?_, fun opened => ?_, ?_⟩ closed) closed
  · rw [entries, log]
    exact sound.kept
  · rw [tasks, entries, log]
    exact sound.waits
  · rw [settled, pending]
    exact sound.apart
  · exact absurd (opened.symm.trans closed) (by decide)
  · rw [log]
    exact sound.warranted

theorem Sound.turn (sound : Sound context n) (next : Int × Turn) : Sound context (turn context n next) := by
  obtain ⟨now, turn⟩ := next
  cases turn with
  | event event => exact sound.handleEvent
  | timer i => exact sound.onTimer
  | resume k answer =>
      simp only [Plugin.turn]
      split
      · exact sound
      · rename_i task found
        split
        · exact sound
        · exact sound.resumed.resume (sound.waits task (List.mem_of_getElem? found))
  | endStream => exact sound.closed (by simp [isClosed]) ⟨rfl, rfl, rfl, rfl, rfl⟩
  | dispose =>
      simp only [Plugin.turn, Plugin.dispose]
      split
      · exact sound
      · have closed : ({ n with disposed := true } : Notifier).isClosed = true := by simp [isClosed]
        have cleared : Sound context (Notifier.record now .closed { n with disposed := true }).clearPending :=
          sound.closed closed ⟨rfl, rfl, rfl, rfl, rfl⟩
        refine ⟨cleared.kept, cleared.waits, nofun, fun opened => ?_, cleared.warranted⟩
        rw [isClosed, (clearPending_same _).1] at opened
        cases opened

theorem sound_run (turns : List (Int × Turn)) : Sound context (run context turns) := by
  induction turns using List.reverseRecOn with
  | nil => exact sound_initial
  | append_singleton turns next ih =>
      rw [run, List.foldl_concat]
      exact ih.turn next

/-- In every run, a form's child is spawned at most once, five minutes after the form was tracked at the earliest, in
the plugin's own directory, and never for a form that was resolved or whose session was deleted. -/
theorem reminders_punctual (context : Value) (turns : List (Int × Turn)) : Punctual context (run context turns).log :=
  ⟨fun _ => (sound_run turns).warranted.once, (sound_run turns).warranted⟩

end Turns

end Phasegent.Notify.Plugin
