import Phasegent.Status.Accounting

namespace Phasegent.Status
open Fallible Interleaving Sql Workflow Redmine Local Timer

structure Site (S : Type) where
  server : S
  issues : LocalDb
  ledger : Nat × Ledger

/-- What one command meets: a server of any kind, and the machine it runs on. -/
structure Setting (S : Type) where
  serve : S → (op : IssueOp) → op.Ret × S
  scope : S → Nat → Except PhasegentError Unit
  now : Int
  machine : Machine

section Execution
variable {S : Type} (w : Setting S) (render : PhasegentError → String)

def Setting.respond (site : Site S) : (op : StatusOp) → op.Ret × Site S
  | .verifyRedmineScope number => (w.scope site.server number, site)
  | .issue op =>
      ((w.serve site.server op).1, { site with server := (w.serve site.server op).2 })
  | .store op =>
      ((Local.answer w.now site.issues op).1,
        { site with issues := (Local.answer w.now site.issues op).2 })
  | .timer op =>
      ((w.machine.answer site.ledger op).1, { site with ledger := (w.machine.answer site.ledger op).2 })

def Setting.run (provider : ProviderDispatcher) (command : StatusCommand) (site : Site S) :
    Except PhasegentError StatusReply × Site S :=
  execute w.respond (executeStatus render provider command).run site

def issuePart : Part w.serve w.respond issueEmbedding where
  view := Site.server
  place site server := { site with server := server }
  view_place _ _ := rfl
  place_view _ := rfl
  place_place _ _ _ := rfl
  answers _ _ := rfl
  changes _ _ := rfl

def storePart : Part (Local.answer w.now) w.respond storeEmbedding where
  view := Site.issues
  place site issues := { site with issues := issues }
  view_place _ _ := rfl
  place_view _ := rfl
  place_place _ _ _ := rfl
  answers _ _ := rfl
  changes _ _ := rfl

def timerPart : Part w.machine.answer w.respond timerEmbedding where
  view := Site.ledger
  place site ledger := { site with ledger := ledger }
  view_place _ _ := rfl
  place_view _ := rfl
  place_place _ _ _ := rfl
  answers _ _ := rfl
  changes _ _ := rfl

end Execution

section Steps
variable {S : Type} {w : Setting S} {render : PhasegentError → String} {site site' : Site S} {α : Type}

theorem ledger_of_issue {p : IssueM α} {a : α}
    (ran : execute w.respond (embed issueEmbedding p).run site = (.ok a, site')) :
    site'.ledger = site.ledger := by
  rw [(issuePart w).execute_embed] at ran
  rw [← (Prod.mk.inj ran).2]
  rfl

theorem ledger_of_store {p : LocalM PhasegentError α} {a : α}
    (ran : execute w.respond (embed storeEmbedding p).run site = (.ok a, site')) :
    site'.ledger = site.ledger := by
  rw [(storePart w).execute_embed] at ran
  rw [← (Prod.mk.inj ran).2]
  rfl

theorem ledger_of_guard {isRouted : Bool} {number : Nat} {u : Unit}
    (ran : execute w.respond (scopeGuard isRouted number).run site = (.ok u, site')) :
    site'.ledger = site.ledger := by
  cases isRouted with
  | true =>
      rw [scopeGuard, if_pos rfl, execute_pure] at ran
      rw [(Prod.mk.inj ran).2]
  | false =>
      rw [scopeGuard, if_neg Bool.false_ne_true, execute_request] at ran
      rw [← (Prod.mk.inj ran).2]
      rfl

theorem ledger_of_hook {number : Nat} {kind : ProviderKind} {statusName : String} {reply reply' : StatusReply}
    (ran : execute w.respond (do
      timerHook render number kind statusName
      return reply : StatusM StatusReply).run site = (.ok reply', site')) :
    site'.ledger =
      (execute w.machine.answer (autoTransitionTimer render number kind statusName).run site.ledger).2 := by
  have hooked : execute w.respond (timerHook render number kind statusName).run site =
      (.ok (), { site with ledger :=
        (execute w.machine.answer (autoTransitionTimer render number kind statusName).run site.ledger).2 }) := by
    rw [timerHook, execute_bind_ok (execute_outcome _ _), (timerPart w).execute_embed]
    rfl
  rw [execute_bind_ok hooked] at ran
  rw [← (Prod.mk.inj ran).2]

theorem effective_of_explicit {next : StatusM StatusNextReport} {status effective : String}
    (explicit : status ≠ "") (ran : execute w.respond (effectiveTarget next status).run site =
      (.ok effective, site')) : status = effective ∧ site = site' := by
  rw [effectiveTarget, if_neg explicit, execute_pure] at ran
  obtain ⟨chosen, same⟩ := Prod.mk.inj ran
  exact ⟨Except.ok.inj chosen, same⟩

/-- A command that succeeds with a selector hands that text to the timer, and only that. -/
theorem executeStatus_ledger {provider : ProviderDispatcher} {command : StatusCommand} {reply : StatusReply}
    (explicit : command.selector ≠ "") (ran : w.run render provider command site = (.ok reply, site')) :
    site'.ledger = (execute w.machine.answer
      (autoTransitionTimer render command.number provider.kind command.selector).run site.ledger).2 := by
  rw [Setting.run] at ran
  cases provider with
  | redmine provider isRouted =>
      cases command with
      | set number status =>
          rw [executeStatus, setRedmine] at ran
          obtain ⟨_, site₁, guarded, ran⟩ := execute_bind_eq_ok ran
          obtain ⟨statuses, site₂, listed, ran⟩ := execute_bind_eq_ok ran
          obtain ⟨target, site₃, selected, ran⟩ := execute_bind_eq_ok ran
          obtain ⟨summary, site₄, changed, ran⟩ := execute_bind_eq_ok ran
          rw [execute_fromExcept] at selected
          rw [← ledger_of_guard guarded, ← ledger_of_issue listed, (Prod.mk.inj selected).2,
            ← ledger_of_issue changed]
          exact ledger_of_hook ran
      | advance number status =>
          change status ≠ "" at explicit
          rw [executeStatus, advanceRedmine] at ran
          obtain ⟨_, site₁, guarded, ran⟩ := execute_bind_eq_ok ran
          obtain ⟨effective, site₂, chosen, ran⟩ := execute_bind_eq_ok ran
          obtain ⟨result, site₃, changed, ran⟩ := execute_bind_eq_ok ran
          obtain ⟨given, same⟩ := effective_of_explicit explicit chosen
          rw [← given] at ran
          rw [← ledger_of_guard guarded, same, ← ledger_of_issue changed]
          exact ledger_of_hook ran
  | localStore =>
      cases command with
      | set number status =>
          rw [executeStatus, setLocal] at ran
          obtain ⟨target, site₁, selected, ran⟩ := execute_bind_eq_ok ran
          obtain ⟨summary, site₂, changed, ran⟩ := execute_bind_eq_ok ran
          rw [execute_fromExcept] at selected
          rw [(Prod.mk.inj selected).2, ← ledger_of_store changed]
          exact ledger_of_hook ran
      | advance number status =>
          change status ≠ "" at explicit
          rw [executeStatus, advanceLocal] at ran
          obtain ⟨effective, site₁, chosen, ran⟩ := execute_bind_eq_ok ran
          obtain ⟨result, site₂, changed, ran⟩ := execute_bind_eq_ok ran
          obtain ⟨given, same⟩ := effective_of_explicit explicit chosen
          rw [← given] at ran
          rw [same, ← ledger_of_store changed]
          exact ledger_of_hook ran

end Steps

section Law
variable {S : Type} {w w' : Setting S} {render : PhasegentError → String}

/-- Two commands on one issue that both succeed account alike exactly when their selectors are one text,
or when neither opens a segment. -/
theorem accounting_agrees_iff {provider : ProviderDispatcher} {first second : StatusCommand}
    {ledger : Ledger} {server server' : S} {issues issues' : LocalDb} {reply reply' : StatusReply}
    {after after' : Site S} (same : second.number = first.number)
    (explicit : first.selector ≠ "") (explicit' : second.selector ≠ "")
    (alike : w.machine.Alike w'.machine ledger)
    (succeeds : w.run render provider first ⟨server, issues, (0, ledger)⟩ = (.ok reply, after))
    (succeeds' : w'.run render provider second ⟨server', issues', (0, ledger)⟩ = (.ok reply', after')) :
    after.ledger.2.Alike after'.ledger.2 ↔ first.selector = second.selector ∨
      (¬Opens w.machine ledger first.number first.selector ∧
        ¬Opens w'.machine ledger first.number second.selector) := by
  have timed : provider.kind ≠ .forgejo := by
    cases provider <;> simp [ProviderDispatcher.kind]
  rw [executeStatus_ledger explicit succeeds, executeStatus_ledger explicit' succeeds', same]
  exact transition_alike_iff render timed alike

end Law

section Desk

def openMachine (runId : String) (legible : Legible runId) (start : Int) : Machine where
  clock j := start + j
  runId := runId
  legible := legible
  route _ := .ok .legacy
  storage := .ok ()

theorem openMachine_alike {runId runId' : String} {legible : Legible runId} {legible' : Legible runId'}
    {start start' : Int} {ledger : Ledger}
    (earlier : ∀ run ∈ ledger.runs, run.runId ≠ runId ∧ run.startedAt ≤ start)
    (earlier' : ∀ run ∈ ledger.runs, run.runId ≠ runId' ∧ run.startedAt ≤ start') :
    (openMachine runId legible start).Alike (openMachine runId' legible' start') ledger where
  storage := rfl
  route := rfl
  fresh := iff_of_true (fun run among => (earlier' run among).1) fun run among => (earlier run among).1
  clock j run among := by
    have begun := (earlier run among).2
    have begun' := (earlier' run among).2
    simp only [openMachine]
    omega

-- No server: the commands here are those of the local provider.
def localSetting (runId : String) (legible : Legible runId) (start : Int) : Setting Unit where
  serve _ _ := (.error (.config "no server"), ())
  scope _ _ := .ok ()
  now := 900
  machine := openMachine runId legible start

def oneIssue (status : String) : LocalDb where
  issues := [⟨7, "Bug", "", status, none⟩]
  lastIssue := 7
  comments := []
  lastComment := 0

def morning : Setting Unit := localSetting "auto-1" (by decide) 64

def evening : Setting Unit := localSetting "auto-2" (by decide) 900

def accounted (w : Setting Unit) (ledger : Ledger) (command : StatusCommand) :
    Except PhasegentError StatusReply × Site Unit :=
  w.run (fun error => error.message) .localStore command ⟨(), oneIssue "In Progress", (0, ledger)⟩

def pastRun (runId : String) (issue : Nat) (phase role : String) (status : RunStatus) : TimerRun where
  runId := runId
  issue := issue
  phase := phase
  role := role
  attempt := 1
  startedAt := 10
  finishedAt := if status = .running then none else some 40
  status := status
  elapsedSeconds := if status = .running then none else some 30
  roundedHours := none
  activityId := none
  timeEntryId := none
  syncStatus := .pending
  syncError := none
  ownerSessionId := none
  ownerCallId := none
  projectionToken := none
  projectionClaimedAt := none

def underWork : Ledger where
  runs := [pastRun "past-1" 3 "In Review" "reviewer" (.finished .done), pastRun "past-2" 7 "In Progress" "executor" .running]
  unique := by decide

theorem Alike.phases {rows rows' : List TimerRun} (alike : List.Forall₂ TimerRun.Alike rows rows') :
    rows'.map (fun run => (run.phase, run.role)) = rows.map fun run => (run.phase, run.role) := by
  induction alike with
  | nil => rfl
  | cons first _ ih => rw [List.map_cons, List.map_cons, first.same, ih]

theorem id_and_name_account_apart :
    selectStatusByValue localStatuses "3" = selectStatusByValue localStatuses "In Review" ∧
      (accounted morning .empty (.set 7 "3")).1.isOk ∧ (accounted evening .empty (.set 7 "In Review")).1.isOk ∧
      ¬(accounted morning .empty (.set 7 "3")).2.ledger.2.Alike (accounted evening .empty (.set 7 "In Review")).2.ledger.2 := by
  refine ⟨by decide, by decide, by decide, fun alike => ?_⟩
  have first : ((accounted morning .empty (.set 7 "3")).2.ledger.2.runs.map fun run => (run.phase, run.role)) =
      [("3", "executor")] := by decide
  have second : ((accounted evening .empty (.set 7 "In Review")).2.ledger.2.runs.map fun run => (run.phase, run.role)) =
      [("In Review", "reviewer")] := by decide
  have same := Alike.phases alike
  rw [first, second] at same
  exact absurd same (by decide)

theorem one_text_accounts_alike :
    (accounted morning underWork (.set 7 "In Review")).2.ledger.2.Alike
      (accounted evening underWork (.advance 7 "In Review")).2.ledger.2 := by
  have succeeds : (accounted morning underWork (.set 7 "In Review")).1.isOk := by decide
  have succeeds' : (accounted evening underWork (.advance 7 "In Review")).1.isOk := by decide
  rcases ran : accounted morning underWork (.set 7 "In Review") with ⟨reply | reply, after⟩
  · simp [ran, Except.isOk, Except.toBool] at succeeds
  rcases ran' : accounted evening underWork (.advance 7 "In Review") with ⟨reply' | reply', after'⟩
  · simp [ran', Except.isOk, Except.toBool] at succeeds'
  have alike : morning.machine.Alike evening.machine underWork :=
    openMachine_alike (by decide) (by decide)
  have iff := @accounting_agrees_iff Unit morning evening (fun error => error.message) .localStore
    (.set 7 "In Review") (.advance 7 "In Review") underWork () () (oneIssue "In Progress") (oneIssue "In Progress")
    reply reply' after after' rfl (by decide) (by decide) alike ran ran'
  exact iff.mpr (Or.inl rfl)

end Desk

end Phasegent.Status
