import Mathlib.Data.List.Sort

namespace Sql

variable {α β κ D ε : Type}

/-- `UPDATE … SET … WHERE`. -/
def update (sel : α → Bool) (set : α → α) (rows : List α) : List α :=
  rows.map fun row => if sel row then set row else row

def orderDesc [LinearOrder κ] (key : α → κ) (rows : List α) : List α :=
  rows.insertionSort fun a b => key b ≤ key a

def orderAsc [LinearOrder κ] (key : α → κ) (rows : List α) : List α :=
  rows.insertionSort fun a b => key a ≤ key b

@[simp] theorem mem_orderDesc [LinearOrder κ] {key : α → κ} {rows : List α} {row : α} :
    row ∈ orderDesc key rows ↔ row ∈ rows :=
  List.mem_insertionSort _

@[simp] theorem mem_orderAsc [LinearOrder κ] {key : α → κ} {rows : List α} {row : α} :
    row ∈ orderAsc key rows ↔ row ∈ rows :=
  List.mem_insertionSort _

@[simp] theorem length_update (sel : α → Bool) (set : α → α) (rows : List α) :
    (update sel set rows).length = rows.length := by
  simp [update]

theorem mem_update {sel : α → Bool} {set : α → α} {rows : List α} {row : α} :
    row ∈ update sel set rows ↔ ∃ old ∈ rows, (if sel old then set old else old) = row :=
  List.mem_map

theorem map_update {sel : α → Bool} {set : α → α} {key : α → β} (kept : ∀ row, key (set row) = key row)
    (rows : List α) : (update sel set rows).map key = rows.map key := by
  rw [update, List.map_map]
  apply List.map_congr_left
  intro row _
  by_cases chosen : sel row <;> simp [chosen, kept]

theorem update_ext {sel sel' : α → Bool} {set set' : α → α} {rows : List α}
    (same : ∀ row ∈ rows, (if sel row then set row else row) = if sel' row then set' row else row) :
    update sel set rows = update sel' set' rows :=
  List.map_congr_left same

theorem update_congr {sel sel' : α → Bool} {set : α → α} {rows : List α}
    (same : ∀ row ∈ rows, sel row = sel' row) : update sel set rows = update sel' set rows := by
  apply update_ext
  intro row member
  rw [same row member]

theorem update_update {sel sel' : α → Bool} {set : α → α} (done : ∀ row, sel' (set row) = false)
    (rows : List α) :
    update sel' set (update sel set rows) = update (fun row => sel row || sel' row) set rows := by
  rw [update, update, update, List.map_map]
  apply List.map_congr_left
  intro row _
  cases chosen : sel row with
  | true => simp [chosen, done]
  | false => simp [chosen]

theorem update_again {sel sel' : α → Bool} {set : α → α} (once : ∀ row, set (set row) = set row)
    (kept : ∀ row, sel' (set row) = sel' row) (rows : List α) :
    update sel' set (update sel set rows) = update (fun row => sel row || sel' row) set rows := by
  rw [update, update, update, List.map_map]
  apply List.map_congr_left
  intro row _
  cases chosen : sel row with
  | true => cases later : sel' row <;> simp [chosen, kept, later, once]
  | false => simp [chosen]

theorem length_filter_update {sel sel' : α → Bool} {set : α → α}
    (done : ∀ row, sel' (set row) = false) (rows : List α) :
    (rows.filter sel).length + ((update sel set rows).filter sel').length =
      (rows.filter fun row => sel row || sel' row).length := by
  induction rows with
  | nil => rfl
  | cons row rest ih =>
      rw [update, List.map_cons]
      unfold update at ih
      cases chosen : sel row with
      | true =>
          simp only [List.filter_cons, chosen, done, Bool.true_or, if_true, List.length_cons]
          simp only [Bool.false_eq_true, if_false]
          omega
      | false =>
          cases later : sel' row <;> simp [chosen, later] <;> omega

/-- Statements over a database that run whole or not at all. -/
abbrev Tx (ε D : Type) := StateT D (Except ε)

def Tx.commit (tx : Tx ε D α) (db : D) : Except ε α × D :=
  match tx db with
  | .ok (a, db') => (.ok a, db')
  | .error e => (.error e, db)

theorem Tx.commit_ok {tx : Tx ε D α} {db : D} {a : α} (committed : (tx.commit db).1 = .ok a) :
    tx db = .ok (a, (tx.commit db).2) := by
  unfold Tx.commit at committed ⊢
  split at committed
  · next b db' run =>
      cases committed
      rw [run]
  · cases committed

theorem Tx.commit_error {tx : Tx ε D α} {db : D} {e : ε} (failed : (tx.commit db).1 = .error e) :
    (tx.commit db).2 = db := by
  unfold Tx.commit at failed ⊢
  split at failed
  · cases failed
  · rfl

def Tx.read (query : D → Except ε α) : Tx ε D α := fun db => (query db).map fun a => (a, db)

def Tx.Keeps (law : D → D → Prop) (tx : Tx ε D α) : Prop :=
  ∀ db a db', tx db = .ok (a, db') → law db db'

section Keeps
variable {law : D → D → Prop}

theorem Tx.Keeps.pure (refl : ∀ db, law db db) (a : α) : Tx.Keeps law (pure a : Tx ε D α) := by
  intro db b db' run
  cases run
  exact refl db

theorem Tx.Keeps.read (refl : ∀ db, law db db) (query : D → Except ε α) :
    Tx.Keeps law (Tx.read query) := by
  intro db a db' run
  unfold Tx.read at run
  cases answer : query db with
  | error e =>
      rw [answer] at run
      cases run
  | ok b =>
      rw [answer] at run
      cases run
      exact refl db

theorem Tx.bind_ok {tx : Tx ε D α} {f : α → Tx ε D β} {db db'' : D} {b : β}
    (run : (tx >>= f) db = .ok (b, db'')) :
    ∃ a db', tx db = .ok (a, db') ∧ f a db' = .ok (b, db'') := by
  cases first : tx db with
  | error e =>
      simp [bind, StateT.bind, first, Except.bind] at run
  | ok result =>
      obtain ⟨a, db'⟩ := result
      refine ⟨a, db', rfl, ?_⟩
      simpa [bind, StateT.bind, first, Except.bind] using run

theorem Tx.bind_eq {tx : Tx ε D α} {f : α → Tx ε D β} {db db' : D} {a : α}
    (run : tx db = .ok (a, db')) : (tx >>= f) db = f a db' := by
  simp [bind, StateT.bind, run, Except.bind]

theorem Tx.Keeps.bind {tx : Tx ε D α} {f : α → Tx ε D β} (first : Tx.Keeps law tx)
    (rest : ∀ a, Tx.Keeps law (f a)) (trans : ∀ a b c, law a b → law b c → law a c) :
    Tx.Keeps law (tx >>= f) := by
  intro db b db'' run
  obtain ⟨a, db', before, after⟩ := Tx.bind_ok run
  exact trans db db' db'' (first db a db' before) (rest a db' b db'' after)

end Keeps

end Sql
