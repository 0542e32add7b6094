import Mathlib.Data.List.Basic

namespace Memo

variable {Q K V : Type}

inductive Call (Q K : Type) where
  | ask (question : Q)
  | drop (gone : K → Bool)

abbrev Table (K V : Type) := List (K × V)

section Runs
variable (key : Q → K) (answer : Q → V)

def fresh : Call Q K → Option V
  | .ask question => some (answer question)
  | .drop _ => none

/-- No question meets the entry of another one: between two questions with one key, a call drops
the key. -/
def Steady (calls : List (Call Q K)) : Prop :=
  ∀ before first between second after,
    calls = before ++ .ask first :: (between ++ .ask second :: after) → key first = key second →
      (∀ gone, .drop gone ∈ between → gone (key first) = false) → first = second

/-- An entry with the question that filled it, and nothing dropped it since. -/
def Filled (past : List (Call Q K)) (entry : K × V) : Prop :=
  ∃ before question between, past = before ++ .ask question :: between ∧
    entry = (key question, answer question) ∧
    ∀ gone, .drop gone ∈ between → gone (key question) = false

variable {key answer}

theorem Filled.later {past : List (Call Q K)} {entry : K × V} (filled : Filled key answer past entry)
    {call : Call Q K} (kept : ∀ gone, call = .drop gone → gone entry.1 = false) :
    Filled key answer (past ++ [call]) entry := by
  obtain ⟨before, question, between, rfl, rfl, stays⟩ := filled
  refine ⟨before, question, between ++ [call], by simp, rfl, fun gone among => ?_⟩
  cases List.mem_append.mp among with
  | inl old => exact stays gone old
  | inr new => exact kept gone (List.mem_singleton.mp new).symm

variable [DecidableEq K]

def consult (key : K) (answer : V) (table : Table K V) : V × Table K V :=
  match table.lookup key with
  | some known => (known, table)
  | none => (answer, (key, answer) :: table)

def forget (gone : K → Bool) (table : Table K V) : Table K V :=
  table.filter fun entry => !gone entry.1

variable (key answer) in
def perform (call : Call Q K) (table : Table K V) : Option V × Table K V :=
  match call with
  | .ask question => ((consult (key question) (answer question) table).map some id)
  | .drop gone => (none, forget gone table)

variable (key answer) in
def answers : List (Call Q K) → Table K V → List (Option V)
  | [], _ => []
  | call :: rest, table =>
      (perform key answer call table).1 :: answers rest (perform key answer call table).2

theorem mem_of_lookup {table : Table K V} {k : K} {v : V} (found : table.lookup k = some v) :
    (k, v) ∈ table := by
  induction table with
  | nil => cases found
  | cons entry rest ih =>
      rw [List.lookup_cons] at found
      cases same : k == entry.1 with
      | true =>
          rw [same] at found
          cases found
          rw [beq_iff_eq.mp same]
          exact List.mem_cons_self
      | false =>
          rw [same] at found
          exact .tail _ (ih found)

theorem filled_perform {past : List (Call Q K)} {table : Table K V}
    (filled : ∀ entry ∈ table, Filled key answer past entry) (call : Call Q K) :
    ∀ entry ∈ (perform key answer call table).2, Filled key answer (past ++ [call]) entry := by
  intro entry member
  cases call with
  | ask question =>
      have old : entry ∈ table → Filled key answer (past ++ [.ask question]) entry :=
        fun known => (filled entry known).later fun gone same => by cases same
      simp only [perform, consult, Prod.map_snd] at member
      split at member
      · exact old member
      · cases member with
        | head => exact ⟨past, question, [], rfl, rfl, by simp⟩
        | tail _ known => exact old known
  | drop gone =>
      obtain ⟨known, kept⟩ := List.mem_filter.mp member
      refine (filled entry known).later fun gone' same => ?_
      cases same
      simpa using kept

/-- A memoised function answers as the function itself. -/
theorem answers_eq {past calls : List (Call Q K)} (steady : Steady key (past ++ calls))
    {table : Table K V} (filled : ∀ entry ∈ table, Filled key answer past entry) :
    answers key answer calls table = calls.map (fresh answer) := by
  induction calls generalizing past table with
  | nil => rfl
  | cons call rest ih =>
      have here : (perform key answer call table).1 = fresh answer call := by
        cases call with
        | drop gone => rfl
        | ask question =>
            simp only [perform, consult, Prod.map_fst, fresh]
            split
            · next known found =>
                obtain ⟨before, earlier, between, rfl, same, stays⟩ := filled _ (mem_of_lookup found)
                obtain ⟨key', rfl⟩ := Prod.mk.inj same
                have asked := steady before earlier between question rest (by simp) key'.symm stays
                rw [asked]
            · rfl
      have onward : Steady key (past ++ [call] ++ rest) := by
        rwa [List.append_assoc, List.singleton_append]
      rw [answers, here, List.map_cons, ih onward (filled_perform filled call)]

theorem answers_nil {calls : List (Call Q K)} (steady : Steady key calls) :
    answers key answer calls [] = calls.map (fresh answer) := by
  have empty : ∀ entry ∈ ([] : Table K V), Filled key answer [] entry :=
    fun _ member => by cases member
  exact answers_eq steady empty

end Runs

end Memo
