import Phasegent.Interleaving.World

namespace Sql
open Interleaving (Pid)

/-- A database that at most one connection has open for writing, with what it wrote so far. -/
structure Locked (D : Type) where
  committed : D
  held : Option (Pid × D)

namespace Locked

variable {D : Type} {i j : Pid} {db db' : Locked D}

def blocked (db : Locked D) (i : Pid) : Bool := db.held.any (·.1 != i)

def sees (db : Locked D) (i : Pid) : D :=
  match db.held with
  | some (j, work) => if j = i then work else db.committed
  | none => db.committed

def put (db : Locked D) (i : Pid) (d : D) : Locked D :=
  match db.held with
  | some _ => { db with held := some (i, d) }
  | none => { db with committed := d }

def acquire (db : Locked D) (i : Pid) : Option (Locked D) :=
  match db.held with
  | some _ => none
  | none => some { db with held := some (i, db.committed) }

def commit (db : Locked D) (i : Pid) : Option (Locked D) :=
  match db.held with
  | some (j, work) => if j = i then some ⟨work, none⟩ else none
  | none => none

def release (db : Locked D) (i : Pid) : Locked D :=
  match db.held with
  | some (j, _) => if j = i then { db with held := none } else db
  | none => db

@[simp] theorem release_committed (db : Locked D) (i : Pid) :
    (db.release i).committed = db.committed := by
  unfold release
  split
  · split <;> rfl
  · rfl

/-- All that connection `i` can do in one step when its statements change what `writes` allows. -/
inductive Moves (writes : D → D → Prop) (i : Pid) : Locked D → Locked D → Prop
  | stay (db : Locked D) : Moves writes i db db
  | acquire (d : D) : Moves writes i ⟨d, none⟩ ⟨d, some (i, d)⟩
  | autocommit {d d' : D} (wrote : writes d d') : Moves writes i ⟨d, none⟩ ⟨d', none⟩
  | write {d work work' : D} (wrote : writes work work') :
      Moves writes i ⟨d, some (i, work)⟩ ⟨d, some (i, work')⟩
  | commit (d work : D) : Moves writes i ⟨d, some (i, work)⟩ ⟨work, none⟩
  | release (d work : D) : Moves writes i ⟨d, some (i, work)⟩ ⟨d, none⟩

theorem acquire_some (acquired : db.acquire i = some db') :
    db.held = none ∧ db' = ⟨db.committed, some (i, db.committed)⟩ := by
  unfold acquire at acquired
  split at acquired
  · cases acquired
  · next free =>
      cases acquired
      exact ⟨free, rfl⟩

theorem commit_some (committed : db.commit i = some db') :
    ∃ work, db.held = some (i, work) ∧ db' = ⟨work, none⟩ := by
  unfold commit at committed
  split at committed
  · next j work held =>
      split at committed
      · next same =>
          cases committed
          exact ⟨work, same ▸ held, rfl⟩
      · cases committed
  · cases committed

theorem sees_put {d : D} (free : db.blocked i = false) : (db.put i d).sees i = d := by
  obtain ⟨committed, held⟩ := db
  rcases held with _ | ⟨j, work⟩
  · rfl
  · simp [put, sees]

theorem sees_cases (db : Locked D) (i : Pid) :
    db.sees i = db.committed ∨ db.held = some (i, db.sees i) := by
  unfold sees
  split
  · next j work held =>
      split
      · next same => exact Or.inr (same ▸ held)
      · exact Or.inl rfl
  · exact Or.inl rfl

variable {writes : D → D → Prop}

theorem Moves.of_acquire (acquired : db.acquire i = some db') : Moves writes i db db' := by
  obtain ⟨free, rfl⟩ := acquire_some acquired
  obtain ⟨d, held⟩ := db
  cases free
  exact .acquire d

theorem Moves.of_commit (committed : db.commit i = some db') : Moves writes i db db' := by
  obtain ⟨work, held, rfl⟩ := commit_some committed
  obtain ⟨d, _⟩ := db
  cases held
  exact .commit d work

theorem Moves.of_release (db : Locked D) : Moves writes i db (db.release i) := by
  obtain ⟨d, held⟩ := db
  rcases held with _ | ⟨j, work⟩
  · exact .stay _
  · by_cases same : j = i
    · subst same
      simp only [Locked.release, if_true]
      exact .release d work
    · simp only [Locked.release, if_neg same]
      exact .stay _

theorem Moves.of_put {d' : D} (free : db.blocked i = false) (wrote : writes (db.sees i) d') :
    Moves writes i db (db.put i d') := by
  obtain ⟨d, held⟩ := db
  rcases held with _ | ⟨j, work⟩
  · exact .autocommit wrote
  · obtain rfl : j = i := by simpa [blocked] using free
    simp only [sees, if_true] at wrote
    exact .write wrote

theorem Moves.locked_out {work : D} (moves : Moves writes j db db') (held : db.held = some (i, work))
    (other : j ≠ i) : db' = db := by
  cases moves with
  | stay => rfl
  | acquire | autocommit => cases held
  | write | commit | release =>
      obtain ⟨rfl, -⟩ := Prod.mk.inj (Option.some.inj held)
      exact absurd rfl other

theorem Moves.sees_other (moves : Moves writes j db db') (other : i ≠ j) :
    db'.sees i = db.sees i ∨ db.sees i = db.committed ∧ db'.sees i = db'.committed := by
  cases moves with
  | stay => exact Or.inl rfl
  | autocommit => exact Or.inr ⟨rfl, rfl⟩
  | acquire | write | commit | release => simp [sees, Ne.symm other]

def Free (db : Locked D) (i : Pid) : Prop := ∀ work, db.held ≠ some (i, work)

theorem Free.sees (free : db.Free i) : db.sees i = db.committed :=
  (db.sees_cases i).resolve_right (free _)

theorem Free.release (free : db.Free i) : db.release i = db := by
  obtain ⟨d, held⟩ := db
  rcases held with _ | ⟨j, work⟩
  · rfl
  · have other : j ≠ i := by
      rintro rfl
      exact free work rfl
    simp [Locked.release, other]

theorem Free.put {d : D} (free : db.Free i) (unblocked : db.blocked i = false) :
    (db.put i d).Free i := by
  obtain ⟨committed, held⟩ := db
  rcases held with _ | ⟨j, work⟩
  · simp [Free, Locked.put]
  · obtain rfl : j = i := by simpa [blocked] using unblocked
    exact absurd rfl (free work)

theorem Moves.free_other (moves : Moves writes j db db') (other : i ≠ j) (free : db.Free i) :
    db'.Free i := by
  cases moves with
  | stay => exact free
  | acquire | write => simp [Free, Ne.symm other]
  | autocommit | commit | release => simp [Free]

section Law
variable (law : D → D → Prop)

/-- What is not yet committed is ahead of what is. -/
def Ahead (db : Locked D) : Prop := ∀ j work, db.held = some (j, work) → law db.committed work

variable {law}

theorem Moves.ahead (refl : ∀ d, law d d) (trans : ∀ {a b c}, law a b → law b c → law a c)
    (kept : ∀ {d d'}, writes d d' → law d d') (moves : Moves writes i db db')
    (ahead : db.Ahead law) : db'.Ahead law := by
  cases moves with
  | stay => exact ahead
  | acquire d =>
      rintro j work ⟨⟩
      exact refl d
  | write wrote =>
      rintro j work ⟨⟩
      exact trans (ahead _ _ rfl) (kept wrote)
  | autocommit | commit | release =>
      rintro j work ⟨⟩

theorem Moves.committed (refl : ∀ d, law d d) (kept : ∀ {d d'}, writes d d' → law d d')
    (moves : Moves writes i db db') (ahead : db.Ahead law) : law db.committed db'.committed := by
  cases moves with
  | autocommit wrote => exact kept wrote
  | commit d work => exact ahead _ _ rfl
  | stay | acquire | write | release => exact refl _

end Law

section Invariant
variable {Inv : D → Prop}

def Both (Inv : D → Prop) (db : Locked D) : Prop :=
  Inv db.committed ∧ ∀ j work, db.held = some (j, work) → Inv work

theorem Both.sees (both : db.Both Inv) (i : Pid) : Inv (db.sees i) := by
  rcases db.sees_cases i with same | held
  · rw [same]
    exact both.1
  · exact both.2 i _ held

theorem Moves.both (kept : ∀ {d d'}, writes d d' → Inv d → Inv d') (moves : Moves writes i db db')
    (both : db.Both Inv) : db'.Both Inv := by
  cases moves with
  | stay => exact both
  | acquire d =>
      refine ⟨both.1, ?_⟩
      rintro j work ⟨⟩
      exact both.1
  | autocommit wrote =>
      refine ⟨kept wrote both.1, ?_⟩
      rintro j work ⟨⟩
  | write wrote =>
      refine ⟨both.1, ?_⟩
      rintro j work ⟨⟩
      exact kept wrote (both.2 _ _ rfl)
  | commit d work =>
      refine ⟨both.2 _ _ rfl, ?_⟩
      rintro j work ⟨⟩
  | release d work =>
      refine ⟨both.1, ?_⟩
      rintro j work ⟨⟩

end Invariant

end Locked

end Sql
