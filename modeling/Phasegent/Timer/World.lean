import Phasegent.Sql.Locked
import Phasegent.Timer.Effects

namespace Phasegent.Timer
open Fallible Interleaving Sql

structure RemoteEntry where
  api : String
  id : Nat
  fields : RedmineNewTimeEntry
  deriving DecidableEq, Repr

structure TimerState (F : Type) where
  db : Locked Ledger
  remote : List RemoteEntry
  outside : F

section Remote

structure RemoteEntry.Shows (entry : RemoteEntry) (shown : RedmineTimeEntry) : Prop where
  id : shown.id = entry.id
  comments : shown.comments = some entry.fields.comments
  issue : shown.issue.all (· == entry.fields.issueId)
  spentOn : shown.spentOn.all (· == entry.fields.spentOn)

def entriesOf (api : String) (issue : Nat) (spentOn : String) (remote : List RemoteEntry) :
    List RemoteEntry :=
  remote.filter fun entry =>
    entry.api == api && entry.fields.issueId == issue && entry.fields.spentOn == spentOn

/-- A listing shows every matching entry once, in any order. -/
def Lists (api : String) (issue : Nat) (spentOn : String) (remote : List RemoteEntry)
    (listing : List RedmineTimeEntry) : Prop :=
  ∃ shown, List.Forall₂ RemoteEntry.Shows (entriesOf api issue spentOn remote) shown ∧
    shown.Perm listing

def namedId : Except PhasegentError (Option RedmineTimeEntryResponse) → Option Nat
  | .ok response => ((response.bind (·.timeEntry)).filter (·.id ≠ 0)).map (·.id)
  | .error _ => none

end Remote

def TimerOp.isExternal : TimerOp → Bool
  | .storageOpen | .openExistingLedger | .nowEpochSeconds | .generateRunId _
  | .generateProjectionToken | .resolveTimerRoute _ | .resolveKind _ | .redmineProvider ..
  | .listActivities _ => true
  | _ => false

def TimerOp.Fails : (op : TimerOp) → op.Ret → Prop
  | .beginImmediate, answer | .commit, answer | .rollback, answer => answer.toBool = false
  | .load _, answer => answer.toBool = false
  | .listRunning _, answer => answer.toBool = false
  | .write _, answer => answer.toBool = false
  | .listTimeEntries .., answer => answer.toBool = false
  | .postTimeEntry .., answer => namedId answer = none
  | _, _ => False

section World
variable {F : Type} (outside : F → (op : TimerOp) → op.Ret → F → Prop)

inductive TimerStep (i : Pid) : TimerState F → (op : TimerOp) → op.Ret → TimerState F → Prop
  | begin {s : TimerState F} {db : Locked Ledger} (acquired : s.db.acquire i = some db) :
      TimerStep i s .beginImmediate (.ok ()) { s with db := db }
  | commit {s : TimerState F} {db : Locked Ledger} (committed : s.db.commit i = some db) :
      TimerStep i s .commit (.ok ()) { s with db := db }
  | rollback {s : TimerState F} : TimerStep i s .rollback (.ok ()) { s with db := s.db.release i }
  | close {s : TimerState F} : TimerStep i s .closeStorage () { s with db := s.db.release i }
  | load {s : TimerState F} {runId : String} :
      TimerStep i s (.load runId) (.ok ((s.db.sees i).loadTimerRun runId)) s
  | listRunning {s : TimerState F} {issue : Nat} :
      TimerStep i s (.listRunning issue) (.ok ((s.db.sees i).listRunningRunsForIssue issue)) s
  | write {s : TimerState F} {statement : TimerWrite} (free : s.db.blocked i = false) :
      TimerStep i s (.write statement) (statement.tx.commit (s.db.sees i)).1
        { s with db := s.db.put i (statement.tx.commit (s.db.sees i)).2 }
  | listed {s : TimerState F} {api spentOn : String} {issue : Nat}
      {listing : List RedmineTimeEntry} (lists : Lists api issue spentOn s.remote listing) :
      TimerStep i s (.listTimeEntries api issue spentOn) (.ok listing) s
  -- The response may be lost, empty or without the id of the entry.
  | posted {s : TimerState F} {api : String} {fields : RedmineNewTimeEntry} {id : Nat}
      {answer : (TimerOp.postTimeEntry api fields).Ret}
      (named : ∀ shown, namedId answer = some shown → shown = id) :
      TimerStep i s (.postTimeEntry api fields) answer
        { s with remote := s.remote ++ [⟨api, id, fields⟩] }
  | fault {s : TimerState F} {op : TimerOp} {answer : op.Ret} (fails : op.Fails answer) :
      TimerStep i s op answer s
  | outside {s : TimerState F} {op : TimerOp} {answer : op.Ret} {f : F} (external : op.isExternal)
      (effect : outside s.outside op answer f) : TimerStep i s op answer { s with outside := f }

-- A crash takes the connection down, and with it whatever was not committed.
def timerWorld : World (TimerState F) TimerOp TimerOp.Ret where
  step i := TimerStep outside i
  crash i s s' := s' = { s with db := s.db.release i }

end World

section Steps
variable {F : Type} {outside : F → (op : TimerOp) → op.Ret → F → Prop} {i : Pid}
  {s s' : TimerState F} {op : TimerOp} {answer : op.Ret}

def TimerOp.Writes (op : TimerOp) (ledger ledger' : Ledger) : Prop :=
  ∃ statement n, op = .write statement ∧ statement.tx ledger = .ok (n, ledger')

theorem put_sees {db : Locked Ledger} (free : db.blocked i = false) : db.put i (db.sees i) = db := by
  obtain ⟨committed, held⟩ := db
  cases held with
  | none => rfl
  | some held =>
      obtain ⟨j, work⟩ := held
      obtain rfl : j = i := by simpa [Locked.blocked] using free
      simp [Locked.put, Locked.sees]

theorem TimerStep.moves (step : TimerStep outside i s op answer s') :
    s.db.Moves (fun d d' => d = s.db.sees i ∧ op.Writes d d') i s'.db := by
  cases step with
  | begin acquired => exact .of_acquire acquired
  | commit committed => exact .of_commit committed
  | rollback | close => exact .of_release s.db
  | @write statement free =>
      cases run : statement.tx (s.db.sees i) with
      | error e =>
          simp only [Tx.commit, run, put_sees free]
          exact .stay _
      | ok result =>
          apply Locked.Moves.of_put free
          exact ⟨rfl, statement, result.1, rfl, by simp [Tx.commit, run]⟩
  | load | listRunning | listed | posted | fault | outside => exact .stay _

theorem TimerStep.remote (step : TimerStep outside i s op answer s') :
    s'.remote = s.remote ∨
      ∃ api fields id, op = .postTimeEntry api fields ∧
        s'.remote = s.remote ++ [⟨api, id, fields⟩] := by
  cases step with
  | @posted api fields id => exact Or.inr ⟨api, fields, id, rfl, rfl⟩
  | begin | commit | rollback | close | load | listRunning | write | listed | fault | outside =>
      exact Or.inl rfl

theorem TimerStep.load_ok {runId : String} {found : Option TimerRun}
    (step : TimerStep outside i s (.load runId) (.ok found) s') :
    found = (s.db.sees i).loadTimerRun runId ∧ s' = s := by
  cases step with
  | load => exact ⟨rfl, rfl⟩
  | fault fails => cases fails
  | outside external => cases external

theorem TimerStep.write_ok {statement : TimerWrite} {n : Nat}
    (step : TimerStep outside i s (.write statement) (.ok n) s') :
    ∃ ledger, s.db.blocked i = false ∧ statement.tx (s.db.sees i) = .ok (n, ledger) ∧
      s' = { s with db := s.db.put i ledger } := by
  generalize written : (Except.ok n : Except String Nat) = answer at step
  cases step with
  | write free => exact ⟨_, free, Tx.commit_ok written.symm, rfl⟩
  | fault fails =>
      subst written
      cases fails
  | outside external => cases external

end Steps

section Oracle
variable {F : Type} (respond : F → (op : TimerOp) → op.Ret × F)

def answered (f : F) (op : TimerOp) (answer : op.Ret) (f' : F) : Prop := respond f op = (answer, f')

def RemoteEntry.shown (entry : RemoteEntry) : RedmineTimeEntry where
  id := entry.id
  issue := some entry.fields.issueId
  comments := some entry.fields.comments
  spentOn := some entry.fields.spentOn

/-- A remote that posts under the next number, and whose response may be lost. -/
def perform (lost : F → Bool) (i : Pid) (s : TimerState F) :
    (op : TimerOp) → op.Ret × TimerState F
  | .beginImmediate =>
      match s.db.acquire i with
      | some db => (.ok (), { s with db := db })
      | none => (.error "database is locked", s)
  | .commit =>
      match s.db.commit i with
      | some db => (.ok (), { s with db := db })
      | none => (.error "cannot commit - no transaction is active", s)
  | .rollback => (.ok (), { s with db := s.db.release i })
  | .closeStorage => ((), { s with db := s.db.release i })
  | .load runId => (.ok ((s.db.sees i).loadTimerRun runId), s)
  | .listRunning issue => (.ok ((s.db.sees i).listRunningRunsForIssue issue), s)
  | .write statement =>
      if s.db.blocked i = false then
        ((statement.tx.commit (s.db.sees i)).1,
          { s with db := s.db.put i (statement.tx.commit (s.db.sees i)).2 })
      else (.error "database is locked", s)
  | .listTimeEntries api issue spentOn =>
      (.ok ((entriesOf api issue spentOn s.remote).map RemoteEntry.shown), s)
  | .postTimeEntry api fields =>
      let entry : RemoteEntry := ⟨api, s.remote.length + 1, fields⟩
      (if lost s.outside then .error (.request "time entry create" "connection reset")
        else .ok (some ⟨some entry.shown⟩), { s with remote := s.remote ++ [entry] })
  | op => ((respond s.outside op).1, { s with outside := (respond s.outside op).2 })

theorem lists_shown (api : String) (issue : Nat) (spentOn : String) (remote : List RemoteEntry) :
    Lists api issue spentOn remote ((entriesOf api issue spentOn remote).map RemoteEntry.shown) := by
  refine ⟨_, ?_, .refl _⟩
  rw [List.forall₂_map_right_iff, List.forall₂_same]
  intro entry _
  exact ⟨rfl, rfl, by simp [RemoteEntry.shown], by simp [RemoteEntry.shown]⟩

theorem perform_sound (lost : F → Bool) (i : Pid) (s : TimerState F) (op : TimerOp) :
    (timerWorld (answered respond)).step i s op (perform respond lost i s op).1
      (perform respond lost i s op).2 := by
  cases op with
  | beginImmediate =>
      cases acquired : s.db.acquire i with
      | some db =>
          simp only [perform, acquired]
          exact .begin acquired
      | none =>
          simp only [perform, acquired]
          exact .fault rfl
  | commit =>
      cases committed : s.db.commit i with
      | some db =>
          simp only [perform, committed]
          exact .commit committed
      | none =>
          simp only [perform, committed]
          exact .fault rfl
  | rollback => exact .rollback
  | closeStorage => exact .close
  | load => exact .load
  | listRunning => exact .listRunning
  | write statement =>
      by_cases free : s.db.blocked i = false
      · simp only [perform, if_pos free]
        exact .write free
      · simp only [perform, if_neg free]
        exact .fault rfl
  | listTimeEntries api issue spentOn => exact .listed (lists_shown api issue spentOn s.remote)
  | postTimeEntry api fields =>
      apply TimerStep.posted
      intro shown named
      cases gone : lost s.outside with
      | true => simp [perform, gone, namedId] at named
      | false =>
          simp [perform, gone, namedId, RemoteEntry.shown] at named
          exact named.symm
  | storageOpen | openExistingLedger | nowEpochSeconds | generateRunId | generateProjectionToken
  | resolveTimerRoute | resolveKind | redmineProvider | listActivities =>
      exact .outside rfl rfl

def desk (clock : Nat) : (op : TimerOp) → op.Ret × Nat
  | .storageOpen => (.ok (), clock)
  | .openExistingLedger => (.ok true, clock)
  | .nowEpochSeconds => (clock, clock + 1)
  | .generateRunId head => (head ++ "-" ++ clock.repr, clock + 1)
  | .generateProjectionToken => ("proj-" ++ clock.repr, clock + 1)
  | .resolveTimerRoute _ => (.ok .legacy, clock)
  | .resolveKind _ => (.ok .redmine, clock)
  | .redmineProvider .. => (.ok "https://redmine.test", clock)
  | .listActivities _ => (.ok [⟨9, "Development", false⟩], clock)
  | .beginImmediate | .commit | .rollback => (.error "closed", clock)
  | .closeStorage => ((), clock)
  | .load _ => (.error "closed", clock)
  | .listRunning _ => (.error "closed", clock)
  | .write _ => (.error "closed", clock)
  | .listTimeEntries .. => (.error (.config "closed"), clock)
  | .postTimeEntry .. => (.error (.config "closed"), clock)

def emptyDesk : TimerState Nat where
  db := ⟨.empty, none⟩
  remote := []
  outside := 64

end Oracle

end Phasegent.Timer
