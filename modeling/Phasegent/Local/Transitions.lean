import Phasegent.Interleaving.Adversary
import Phasegent.Interleaving.Replay
import Phasegent.Local.Issues

namespace Phasegent.Local
open Fallible Interleaving Workflow

def statusNames : List String := localStatuses.map (·.name)

section Statements

namespace Statement

def sets : Statement → Option (Nat × String)
  | .closeIssue _ _ id => some (id, "Closed")
  | .updateIssueStatus status _ _ id => some (id, status)
  | _ => none

def writes : Statement → Bool
  | .getIssueById _ | .getIssueStatus _ | .listComments _ => false
  | _ => true

def Sound : Statement → Prop
  | .insertIssue _ _ status _ => status = "New"
  | .updateIssueStatus status _ closedAt _ =>
      status ∈ statusNames ∧ closedAt.isSome = isClosedStatus status
  | _ => True

end Statement

def LocalDb.statusOf (db : LocalDb) (id : Nat) : Option String :=
  (db.issues.find? fun row => row.id = id).map (·.status)

/-- Every stored status is one of the local statuses, and just the closed ones have a closing time. -/
def LocalDb.Sound (db : LocalDb) : Prop :=
  ∀ row ∈ db.issues, row.status ∈ statusNames ∧ row.closedAt.isSome = isClosedStatus row.status

theorem LocalDb.Sound.statusOf {db : LocalDb} (sound : db.Sound) {id : Nat} {status : String}
    (stored : db.statusOf id = some status) : status ∈ statusNames := by
  obtain ⟨row, found, rfl⟩ := Option.map_eq_some_iff.mp stored
  exact (sound row (List.mem_of_find?_eq_some found)).1

variable {db db' : LocalDb} {statement : Statement} {value : statement.Value} {id : Nat} {status : String}

structure Edits (statement : Statement) (target : Nat) (set : IssueRow → IssueRow) : Prop where
  ids : ∀ row, (set row).id = row.id
  status : (statement.sets = none ∧
      ∀ row, (set row).status = row.status ∧ (set row).closedAt = row.closedAt) ∨
    ∃ goal, statement.sets = some (target, goal) ∧ ∀ row, (set row).status = goal ∧
      (statement.Sound → goal ∈ statusNames ∧ (set row).closedAt.isSome = isClosedStatus goal)

theorem run_cases (ran : statement.run db = .ok (value, db')) :
    db'.issues = db.issues ∨
    (∃ title body text now, statement = .insertIssue title body text now ∧
      db'.issues = db.issues ++ [⟨db.lastIssue + 1, title, body, text, none⟩]) ∨
    ∃ id set, Edits statement id set ∧ db'.issues = Sql.update (fun row => row.id = id) set db.issues := by
  cases statement with
  | getIssueById n =>
      simp only [Statement.run, bind_eq_ok, pure_eq, Except.ok.injEq, Prod.mk.injEq] at ran
      obtain ⟨_, _, _, rfl⟩ := ran
      exact .inl rfl
  | getIssueStatus n =>
      simp only [Statement.run, bind_eq_ok, pure_eq, Except.ok.injEq, Prod.mk.injEq] at ran
      obtain ⟨_, _, _, rfl⟩ := ran
      exact .inl rfl
  | insertIssue title body text now =>
      simp only [Statement.run, bind_eq_ok, pure_eq, Except.ok.injEq, Prod.mk.injEq] at ran
      obtain ⟨_, _, _, _, _, _, _, rfl⟩ := ran
      exact .inr (.inl ⟨title, body, text, now, rfl, rfl⟩)
  | updateIssueBody body now n =>
      simp only [Statement.run, bind_eq_ok, pure_eq, Except.ok.injEq, Prod.mk.injEq] at ran
      obtain ⟨_, _, _, rfl⟩ := ran
      exact .inr (.inr ⟨n, fun row => { row with body := body },
        ⟨fun _ => rfl, .inl ⟨rfl, fun _ => ⟨rfl, rfl⟩⟩⟩, rfl⟩)
  | closeIssue now closedAt n =>
      simp only [Statement.run, bind_eq_ok, pure_eq, Except.ok.injEq, Prod.mk.injEq] at ran
      obtain ⟨_, _, _, rfl⟩ := ran
      have closed : "Closed" ∈ statusNames ∧ true = isClosedStatus "Closed" := by decide
      exact .inr (.inr ⟨n, fun row => { row with status := "Closed", closedAt := some closedAt },
        ⟨fun _ => rfl, .inr ⟨"Closed", rfl, fun _ => ⟨rfl, fun _ => closed⟩⟩⟩, rfl⟩)
  | updateIssueStatus text now closedAt n =>
      simp only [Statement.run, bind_eq_ok, pure_eq, Except.ok.injEq, Prod.mk.injEq] at ran
      obtain ⟨_, _, _, rfl⟩ := ran
      exact .inr (.inr ⟨n, fun row => { row with status := text, closedAt := closedAt },
        ⟨fun _ => rfl, .inr ⟨text, rfl, fun _ => ⟨rfl, fun sound => sound⟩⟩⟩, rfl⟩)
  | insertComment issue role phase attempt marker body now =>
      simp only [Statement.run, bind_eq_ok, pure_eq, Except.ok.injEq, Prod.mk.injEq] at ran
      obtain ⟨_, _, _, _, _, _, _, _, _, rfl⟩ := ran
      exact .inl rfl
  | listComments issue =>
      simp only [Statement.run, pure_eq, Except.ok.injEq, Prod.mk.injEq] at ran
      obtain ⟨_, rfl⟩ := ran
      exact .inl rfl

theorem Edits.statusOf {target : Nat} {set : IssueRow → IssueRow} (edits : Edits statement target set)
    (rows : db'.issues = Sql.update (fun row => row.id = target) set db.issues) :
    db'.statusOf id = (db.issues.find? fun row => row.id = id).map fun row =>
      if id = target then (set row).status else row.status := by
  have same : ((fun row : IssueRow => decide (row.id = id)) ∘ fun row =>
      if decide (row.id = target) = true then set row else row) = fun row => decide (row.id = id) := by
    funext row
    by_cases selected : row.id = target <;> simp [selected, edits.ids]
  rw [LocalDb.statusOf, rows, Sql.update, List.find?_map, same]
  cases found : db.issues.find? fun row => row.id = id with
  | none => rfl
  | some row =>
      have named : row.id = id := by simpa using List.find?_some found
      by_cases selected : id = target <;> simp [named, selected]

theorem run_status (ran : statement.run db = .ok (value, db')) (stored : db.statusOf id = some status) :
    db'.statusOf id = some status ∨
      ∃ goal, statement.sets = some (id, goal) ∧ db'.statusOf id = some goal := by
  obtain ⟨row, found, own⟩ := Option.map_eq_some_iff.mp stored
  obtain rows | ⟨_, _, _, _, _, rows⟩ | ⟨target, set, edits, rows⟩ := run_cases ran
  · exact .inl (by rw [LocalDb.statusOf, rows]; exact stored)
  · exact .inl (by simp [LocalDb.statusOf, rows, List.find?_append, found, own])
  · rw [edits.statusOf rows, found]
    by_cases same : id = target
    · subst same
      obtain ⟨_, kept⟩ | ⟨goal, sets, put⟩ := edits.status
      · exact .inl (by simp [kept, own])
      · exact .inr ⟨goal, sets, by simp [put]⟩
    · exact .inl (by simp [same, own])

theorem run_sound (ran : statement.run db = .ok (value, db')) (fine : statement.Sound)
    (sound : db.Sound) : db'.Sound := by
  intro row' member
  obtain rows | ⟨_, _, text, _, rfl, rows⟩ | ⟨target, set, edits, rows⟩ := run_cases ran
  · exact sound row' (rows ▸ member)
  · obtain rfl : text = "New" := fine
    rw [rows] at member
    obtain old | new := List.mem_append.mp member
    · exact sound row' old
    · have fresh : "New" ∈ statusNames ∧ false = isClosedStatus "New" := by decide
      rw [List.mem_singleton.mp new]
      exact fresh
  · rw [rows] at member
    obtain ⟨row, among, rfl⟩ := List.mem_map.mp member
    split
    · obtain ⟨_, kept⟩ | ⟨goal, _, put⟩ := edits.status
      · rw [(kept row).1, (kept row).2]
        exact sound row among
      · rw [(put row).1]
        exact (put row).2 fine
    · exact sound row among

end Statements

section Histories

abbrev LocalHistory := History LocalOp LocalOp.Ret

def tells (id : Nat) : (op : LocalOp) → op.Ret → Option String
  | .sql (.getIssueById n), .ok row => if n = id then some row.status else none
  | .sql (.getIssueStatus n), .ok status => if n = id then some status else none
  | _, _ => none

def Told (h : LocalHistory) (id : Nat) (status : String) : Prop :=
  ∃ act ∈ h, tells id act.effect act.answer = some status

/-- A status is set only after a read that showed one with an edge to it. -/
def Justified (h : LocalHistory) : LocalOp → Prop
  | .now => True
  | .sql statement => statement.Sound ∧ ∀ id goal, statement.sets = some (id, goal) →
      ∃ origin, Told h id origin ∧ (origin ∈ statusNames → (origin, goal) ∈ statusTransitionSeed)

def Idle : (op : LocalOp) → op.Ret → Prop
  | .sql statement, .ok _ => statement.writes = false
  | _, _ => True

def Unwritten (h : LocalHistory) : Prop := ∀ act ∈ h, Idle act.effect act.answer

def Quiet : LocalOp → Prop
  | .now => True
  | .sql statement => statement.writes = false

def Forbids (error : PhasegentError) : Prop :=
  (∃ status, error = closeForbidden status) ∨
    ∃ number current target allowedNext, error = advanceForbidden number current target allowedNext

def Harmless (error : PhasegentError) (h : LocalHistory) : Prop := Forbids error → Unwritten h

variable {P : LocalHistory → Prop} {h : LocalHistory} {id number : Nat} {status operation : String}
  {statement : Statement}

theorem Told.cons (told : Told h id status) (op : LocalOp) (r : op.Ret) : Told (⟨op, r⟩ :: h) id status :=
  ⟨told.choose, List.mem_cons_of_mem _ told.choose_spec.1, told.choose_spec.2⟩

theorem Unwritten.cons {op : LocalOp} {r : op.Ret} (unwritten : Unwritten h) (idle : Idle op r) :
    Unwritten (⟨op, r⟩ :: h) :=
  List.forall_mem_cons.mpr ⟨idle, unwritten⟩

theorem idle_of_quiet {op : LocalOp} (quiet : Quiet op) (r : op.Ret) : Idle op r := by
  cases op with
  | now => trivial
  | sql statement => cases r with
      | ok value => exact quiet
      | error text => trivial

theorem justified_of_quiet {op : LocalOp} (quiet : Quiet op) : Justified h op := by
  cases op with
  | now => trivial
  | sql statement => cases statement with
      | getIssueById n => exact ⟨trivial, nofun⟩
      | getIssueStatus n => exact ⟨trivial, nofun⟩
      | listComments issue => exact ⟨trivial, nofun⟩
      | _ => cases quiet

theorem not_forbids_of_operation {message : String} (own : operation ≠ "issue close")
    (own' : operation ≠ "issue status advance") : ¬Forbids (.request operation message) := by
  rintro (⟨status, same⟩ | ⟨number, current, target, allowedNext, same⟩)
  · cases same
    exact own rfl
  · cases same
    exact own' rfl

theorem not_forbids_notFound {message : String} : ¬Forbids (.notFound operation message) := by
  rintro (⟨status, same⟩ | ⟨number, current, target, allowedNext, same⟩) <;> cases same

theorem not_forbids_config {message : String} : ¬Forbids (.config message) := by
  rintro (⟨status, same⟩ | ⟨number, current, target, allowedNext, same⟩) <;> cases same

theorem not_forbids_matchNotFound {error : PhasegentError} (other : ¬Forbids error) :
    ¬Forbids (matchNotFound operation number error) := by
  unfold matchNotFound
  split
  · exact not_forbids_notFound
  · exact other

theorem traced_unwritten {ε α : Type} {p : LocalM ε α} (performs : Performs Quiet p) :
    Traced Justified Unwritten p (fun _ => Unwritten) fun _ => Unwritten :=
  traced_performs (fun _ _ _ quiet => justified_of_quiet quiet)
    (fun _ _ r unwritten quiet => unwritten.cons (idle_of_quiet quiet r)) performs

theorem performs_now : Performs Quiet nowEpochSeconds := performs_request trivial

theorem traced_getIssue : Traced Justified P (getIssue number) (fun _ _ => True) Harmless := by
  apply traced_bind
  · exact traced_fromExcept fun h e failed _ forbids => by
      obtain rfl : e = issueNumberError := by
        unfold refuse at failed
        split at failed <;> cases failed
        rfl
      exact absurd forbids not_forbids_config
  intro _
  apply traced_bind (M := fun _ _ => True)
  · apply traced_renameFailure (F := fun e _ => ¬Forbids e)
    · exact fun e h other forbids => absurd forbids (not_forbids_matchNotFound other)
    · apply traced_request fun h _ =>
      (justified_of_quiet rfl : Justified h (.sql (.getIssueById number)))
      intro h r _
      cases r with
      | ok row => exact trivial
      | error text => exact not_forbids_of_operation (by decide) (by decide)
  · exact fun row => traced_pure fun _ _ => trivial

theorem noRows_of_expectChange {changed : Nat} {error : PhasegentError}
    (failed : expectChange operation changed = .error error) : isNoRows error := by
  have phrase : isNoRows (.request "" Statement.queryReturnedNoRows) := by decide
  unfold expectChange refuse at failed
  split at failed
  · cases failed
    exact phrase
  · cases failed

theorem traced_changeIssue {rows : statement.Value → Nat}
    (allowed : ∀ h, P h → Justified h (.sql statement)) (unwritten : ∀ h, P h → Unwritten h) :
    Traced Justified P (changeIssue operation statement rows number) (fun _ _ => True) Harmless := by
  apply traced_renameFailure (F := fun e h => Unwritten h ∨ isNoRows e)
  · intro e h ended forbids
    obtain idle | missing := ended
    · exact idle
    · rw [matchNotFound, if_pos missing] at forbids
      exact absurd forbids not_forbids_notFound
  apply traced_bind (M := fun _ _ => True)
  · apply traced_request allowed
    intro h r holds
    cases r with
    | ok value => exact trivial
    | error text => exact .inl ((unwritten h holds).cons trivial)
  intro changed
  exact (traced_fromExcept fun h e failed _ => .inr (noRows_of_expectChange failed)).weaken
    (fun _ _ _ => trivial) fun _ _ ended => ended

theorem harmless_of_unwritten {α : Type} {Q : α → LocalHistory → Prop} {p : LocalM PhasegentError α}
    (traced : Traced Justified P p Q fun _ => Unwritten) : Traced Justified P p Q Harmless :=
  traced.weaken (fun _ _ post => post) fun _ _ unwritten _ => unwritten

theorem traced_createIssue (title body : String) :
    Traced Justified Unwritten (createIssue title body) (fun _ _ => True) Harmless := by
  unfold createIssue
  dsimp only
  apply traced_bind (harmless_of_unwritten (traced_unwritten (performs_fromExcept _)))
  intro _
  apply traced_bind (harmless_of_unwritten (traced_unwritten (performs_fromExcept _)))
  intro _
  apply traced_bind (harmless_of_unwritten (traced_unwritten performs_now))
  intro now
  apply traced_bind (M := fun _ _ => True)
  · apply traced_request fun h _ => ⟨rfl, nofun⟩
    intro h r _
    cases r with
    | ok id => exact trivial
    | error text => exact fun forbids => absurd forbids (not_forbids_of_operation (by decide) (by decide))
  · exact fun id => traced_getIssue

theorem traced_updateBody (body : String) :
    Traced Justified Unwritten (updateBody number body) (fun _ _ => True) Harmless := by
  unfold updateBody
  apply traced_bind (harmless_of_unwritten (traced_unwritten (performs_fromExcept _)))
  intro _
  apply traced_bind (harmless_of_unwritten (traced_unwritten performs_now))
  intro now
  have justified : ∀ h, Unwritten h → Justified h (.sql (.updateIssueBody body now number)) :=
    fun h _ => ⟨trivial, fun _ _ sets => nomatch sets⟩
  apply traced_bind (traced_changeIssue justified fun h unwritten => unwritten)
  exact fun _ => traced_getIssue

theorem traced_closeIssue : Traced Justified Unwritten (closeIssue number) (fun _ _ => True) Harmless := by
  unfold closeIssue
  apply traced_bind (harmless_of_unwritten (traced_unwritten (performs_fromExcept _)))
  intro _
  apply traced_bind (M := fun row h => Unwritten h ∧ Told h number row.status)
  · apply traced_renameFailure (F := fun _ => Unwritten) fun _ _ unwritten _ => unwritten
    apply traced_request fun h _ =>
      (justified_of_quiet rfl : Justified h (.sql (.getIssueById number)))
    intro h r holds
    cases r with
    | ok row =>
        have told : Told (⟨.sql (.getIssueById number), .ok row⟩ :: h) number row.status :=
          ⟨_, List.mem_cons_self, by simp [tells]⟩
        exact ⟨holds.cons rfl, told⟩
    | error text => exact holds.cons trivial
  intro current
  split
  · exact traced_pure fun _ _ => trivial
  next open' =>
  apply traced_bind
  · exact traced_fromExcept fun h e _ holds _ => holds.1
  intro _
  apply Traced.of_pure
  intro allowed
  have edge : (current.status, "Closed") ∈ statusTransitionSeed := by
    simpa [isTransitionAllowed, open'] using allowed
  apply traced_bind (M := fun _ h => Unwritten h ∧ Told h number current.status)
  · apply traced_request fun h _ => trivial
    exact fun h r holds => ⟨holds.1.cons trivial, holds.2.cons _ _⟩
  intro now
  have justified : ∀ h, Unwritten h ∧ Told h number current.status →
      Justified h (.sql (.closeIssue now now number)) := by
    intro h holds
    refine ⟨trivial, fun id goal sets => ?_⟩
    cases sets
    exact ⟨current.status, holds.2, fun _ => edge⟩
  apply traced_bind (traced_changeIssue justified fun h holds => holds.1)
  exact fun _ => traced_getIssue

theorem traced_currentStatusName (known : LocalHistory → Prop)
    (lasting : ∀ h op r, known h → known (⟨op, r⟩ :: h)) :
    Traced Justified (fun h => Unwritten h ∧ known h) (currentStatusName number)
      (fun name h => (Unwritten h ∧ known h) ∧ Told h number name) fun _ => Unwritten := by
  unfold currentStatusName
  apply traced_bind (traced_fromExcept fun _ _ _ holds => holds.1)
  intro _
  apply traced_renameFailure (F := fun _ => Unwritten) fun _ _ unwritten => unwritten
  apply traced_request fun h _ =>
    (justified_of_quiet rfl : Justified h (.sql (.getIssueStatus number)))
  intro h r holds
  cases r with
  | ok name =>
      have told : Told (⟨.sql (.getIssueStatus number), .ok name⟩ :: h) number name :=
        ⟨_, List.mem_cons_self, by simp [tells]⟩
      exact ⟨⟨holds.2.1.cons rfl, lasting h _ _ holds.2.2⟩, told⟩
  | error text => exact holds.2.1.cons trivial

def Leads (id : Nat) (goal : String) (h : LocalHistory) : Prop :=
  ∃ origin, Told h id origin ∧ (origin ∈ statusNames → (origin, goal) ∈ statusTransitionSeed)

theorem Leads.cons {goal : String} (leads : Leads id goal h) (op : LocalOp) (r : op.Ret) :
    Leads id goal (⟨op, r⟩ :: h) := by
  obtain ⟨origin, told, edge⟩ := leads
  exact ⟨origin, told.cons op r, edge⟩

theorem find_status : ∀ status ∈ localStatuses,
    localStatuses.find? (fun other => other.id = status.id) = some status := by
  decide

theorem closing_status : ∀ status ∈ localStatuses, status.name ∈ statusNames ∧
    ∀ now, (closedAtFor status.isClosed now).isSome = isClosedStatus status.name := by
  intro status member
  have fixed : status.name ∈ statusNames ∧ status.isClosed = isClosedStatus status.name := by
    revert status
    decide
  refine ⟨fixed.1, fun now => ?_⟩
  rw [← fixed.2]
  cases status.isClosed <;> rfl

theorem traced_setIssueStatus {target : IssueStatus} (member : target ∈ localStatuses) :
    Traced Justified (fun h => Unwritten h ∧ Leads number target.name h)
      (setIssueStatus number target.id) (fun _ _ => True) Harmless := by
  unfold setIssueStatus
  rw [find_status target member]
  have quiet : ∀ h op r, Unwritten h ∧ Leads number target.name h → Quiet op →
      Unwritten (⟨op, r⟩ :: h) ∧ Leads number target.name (⟨op, r⟩ :: h) :=
    fun h op r holds quiet => ⟨holds.1.cons (idle_of_quiet quiet r), holds.2.cons op r⟩
  have passes : ∀ {α : Type} {p : LocalM PhasegentError α}, Performs Quiet p →
      Traced Justified (fun h => Unwritten h ∧ Leads number target.name h) p
        (fun _ h => Unwritten h ∧ Leads number target.name h) Harmless := fun performs =>
    harmless_of_unwritten ((traced_performs (fun _ _ _ => justified_of_quiet) quiet performs).weaken
      (fun _ _ post => post) fun _ _ holds => holds.1)
  apply traced_bind (passes (performs_fromExcept _))
  intro _
  apply traced_bind (traced_fromExcept (F := Harmless) fun _ _ _ holds _ => holds.1)
  intro found
  apply Traced.of_pure
  intro same
  cases same
  apply traced_bind (harmless_of_unwritten (traced_renameFailure (fun _ _ unwritten => unwritten)
    (traced_currentStatusName _ fun h op r leads => leads.cons op r)))
  intro _
  apply traced_bind ((passes performs_now).pre fun h holds => holds.1)
  intro now
  obtain ⟨listed, closing⟩ := closing_status target member
  have justified : ∀ h, Unwritten h ∧ Leads number target.name h → Justified h
      (.sql (.updateIssueStatus target.name now (closedAtFor target.isClosed now) number)) := by
    intro h holds
    refine ⟨⟨listed, closing now⟩, fun id goal sets => ?_⟩
    cases sets
    exact holds.2
  apply traced_bind (traced_changeIssue justified fun h holds => holds.1)
  exact fun _ => traced_getIssue

theorem verdict_local : ∀ origin ∈ statusNames, ∀ goal ∈ statusNames,
    (evaluateTransition origin goal = .allowed → (origin, goal) ∈ statusTransitionSeed) ∧
      (evaluateTransition origin goal).isAdvisory = false := by
  decide

theorem traced_advanceIssueStatus (targetValue : String) :
    Traced Justified Unwritten (advanceIssueStatus number targetValue) (fun _ _ => True) Harmless := by
  unfold advanceIssueStatus
  apply traced_bind (traced_fromExcept (F := Harmless) fun _ _ _ unwritten _ => unwritten)
  intro target
  apply Traced.of_pure
  intro selected
  have member := selectStatusByValue_mem selected
  have listed := (closing_status target member).1
  apply traced_bind ((harmless_of_unwritten (traced_renameFailure (fun _ _ unwritten => unwritten)
    (traced_currentStatusName (fun _ => True) fun _ _ _ _ => trivial))).pre
      fun h unwritten => ⟨unwritten, trivial⟩)
  intro name
  have leads : ∀ h, (name ∈ statusNames → (name, target.name) ∈ statusTransitionSeed) →
      (Unwritten h ∧ True) ∧ Told h number name → Unwritten h ∧ Leads number target.name h :=
    fun h edge holds => ⟨holds.1.1, name, holds.2, edge⟩
  cases verdict : evaluateTransition name target.name with
  | noOp => exact traced_pure fun _ _ => trivial
  | forbidden allowedNext => exact traced_throw fun h holds _ => holds.1.1
  | allowed =>
      apply traced_bind ((traced_setIssueStatus member).pre fun h =>
        leads h fun known => (verdict_local name known target.name listed).1 verdict)
      exact fun _ => traced_pure fun _ _ => trivial
  | advisory reason =>
      apply traced_bind ((traced_setIssueStatus member).pre fun h => leads h fun known => by
        have judged := (verdict_local name known target.name listed).2
        rw [verdict] at judged
        cases judged)
      exact fun _ => traced_pure fun _ _ => trivial

end Histories

section Runs

inductive Command where
  | createIssue (title body : String)
  | closeIssue (number : Nat)
  | advanceIssueStatus (number : Nat) (target : String)
  | updateBody (number : Nat) (body : String)
  | getIssue (number : Nat)
  | statusNext (number : Nat)

inductive Reply where
  | summary (issue : IssueSummary)
  | outcome (outcome : StatusTransitionOutcome)
  | report (report : StatusNextReport)
  deriving DecidableEq, Repr

def program : Command → LocalM PhasegentError Reply
  | .createIssue title body => do return .summary (← createIssue title body)
  | .closeIssue number => do return .summary (← closeIssue number)
  | .advanceIssueStatus number target => do return .outcome (← advanceIssueStatus number target)
  | .updateBody number body => do return .summary (← updateBody number body)
  | .getIssue number => do return .summary (← getIssue number)
  | .statusNext number => do return .report (← statusNext number)

theorem traced_program (command : Command) :
    Traced Justified (· = []) (program command) (fun _ _ => True) Harmless := by
  have replied : ∀ {α : Type} {p : LocalM PhasegentError α} (wrap : α → Reply),
      Traced Justified Unwritten p (fun _ _ => True) Harmless →
      Traced Justified (· = []) (do return wrap (← p)) (fun _ _ => True) Harmless := by
    intro α p wrap traced
    have start : ∀ h : LocalHistory, h = [] → Unwritten h := by
      rintro _ rfl act among
      cases among
    apply traced_bind (traced.pre start)
    exact fun _ => traced_pure fun _ _ => trivial
  cases command with
  | createIssue title body => exact replied _ (traced_createIssue title body)
  | closeIssue number => exact replied _ traced_closeIssue
  | advanceIssueStatus number target => exact replied _ (traced_advanceIssueStatus target)
  | updateBody number body => exact replied _ (traced_updateBody body)
  | getIssue number => exact replied _ traced_getIssue
  | statusNext number =>
      apply replied
      apply traced_bind ((harmless_of_unwritten (traced_currentStatusName (fun _ => True)
        fun _ _ _ _ => trivial)).pre fun h unwritten => ⟨unwritten, trivial⟩)
      exact fun _ => traced_pure fun _ _ => trivial

abbrev Reported := Except PhasegentError Reply

def callers (commands : Pid → Option Command) (db : LocalDb) :
    Config LocalDb LocalOp LocalOp.Ret Reported where
  shared := db
  procs i := (commands i).map fun command => (program command).run

abbrev LocalPast := List (Event LocalDb LocalOp LocalOp.Ret)

/-- At a status write the issue still has every status that the call has read of it. -/
def NotOvertaken (i : Pid) (s : LocalDb × LocalPast) : (op : LocalOp) → op.Ret → Prop
  | .now, _ => True
  | .sql statement, _ => ∀ write ∈ statement.sets, ∀ event ∈ s.2, event.pid = i →
      ∀ status ∈ tells write.1 event.effect event.answer, s.1.statusOf write.1 = some status

instance (i : Pid) (s : LocalDb × LocalPast) (op : LocalOp) (answer : op.Ret) :
    Decidable (NotOvertaken i s op answer) := by
  cases op with
  | now => exact inferInstanceAs (Decidable True)
  | sql statement => exact inferInstanceAs (Decidable (∀ write ∈ statement.sets, _))

variable {commands : Pid → Option Command} {db : LocalDb}
  {c : Config (LocalDb × LocalPast) LocalOp LocalOp.Ret Reported}

theorem step_unwritten {s s' : LocalDb} {op : LocalOp} {answer : op.Ret}
    (step : LocalStep s op answer s') (idle : Idle op answer) : s' = s := by
  cases step with
  | now clock => rfl
  | failed text => rfl
  | @done _ statement value ran =>
      cases statement with
      | getIssueById n =>
          simp only [Statement.run, bind_eq_ok, pure_eq, Except.ok.injEq, Prod.mk.injEq] at ran
          obtain ⟨_, _, _, rfl⟩ := ran
          rfl
      | getIssueStatus n =>
          simp only [Statement.run, bind_eq_ok, pure_eq, Except.ok.injEq, Prod.mk.injEq] at ran
          obtain ⟨_, _, _, rfl⟩ := ran
          rfl
      | listComments issue =>
          simp only [Statement.run, pure_eq, Except.ok.injEq, Prod.mk.injEq] at ran
          obtain ⟨_, rfl⟩ := ran
          rfl
      | _ => cases idle

theorem callers_along (commands : Pid → Option Command) (db : LocalDb) (i : Pid)
    (p : Prog LocalOp LocalOp.Ret Reported) (started : (callers commands db).procs i = some p) :
    p.Along Justified (Ends (fun _ _ => True) Harmless) [] := by
  obtain ⟨command, -, rfl⟩ := Option.map_eq_some_iff.mp started
  exact ((traced_program command).reaches .start).2

theorem told_event {i : Pid} {past : LocalPast} {id : Nat} {status : String}
    (told : Told (historyOf i past) id status) :
    ∃ event ∈ past, event.pid = i ∧ tells id event.effect event.answer = some status := by
  obtain ⟨act, among, tells⟩ := told
  obtain ⟨event, member, rfl⟩ := List.mem_map.mp among
  obtain ⟨inside, own⟩ := List.mem_filter.mp member
  exact ⟨event, inside, by simpa using own, tells⟩

theorem step_sound {s s' : LocalDb} {op : LocalOp} {answer : op.Ret} {h : LocalHistory}
    (step : LocalStep s op answer s') (justified : Justified h op) (sound : s.Sound) : s'.Sound := by
  cases step with
  | now clock => exact sound
  | done ran => exact run_sound ran justified.1 sound
  | failed text => exact sound

theorem sound_always (sound : db.Sound) (run : Run localWorld.record (callers commands db).record c) :
    c.shared.1.Sound := by
  induction run with
  | refl => exact sound
  | @tail c c' before step ih =>
      cases step with
      | @perform i op next r s' running effect =>
          obtain ⟨p₀, started, reached⟩ := Run.reached before running
          have justified := ((callers_along commands db i p₀ started).reaches reached).2.1
          exact step_sound effect.1 justified ih
      | crash running effect =>
          have same : _ = _ := effect.1
          exact same ▸ ih

def Moves (event : Event LocalDb LocalOp LocalOp.Ret) : Prop :=
  ∀ id origin, event.before.statusOf id = some origin →
    ∃ goal, event.after.statusOf id = some goal ∧
      (origin = goal ∨ (origin, goal) ∈ statusTransitionSeed)

theorem event_moves {event : Event LocalDb LocalOp LocalOp.Ret} {past : LocalPast}
    (genuine : LocalStep event.before event.effect event.answer event.after)
    (justified : Justified (historyOf event.pid past) event.effect) (sound : event.before.Sound)
    (current : NotOvertaken event.pid (event.before, past) event.effect event.answer) :
    Moves event := by
  obtain ⟨pid, op, answer, before, after⟩ := event
  intro id origin stored
  cases genuine with
  | now clock => exact ⟨origin, stored, .inl rfl⟩
  | failed text => exact ⟨origin, stored, .inl rfl⟩
  | done ran =>
      obtain kept | ⟨goal, sets, moved⟩ := run_status ran stored
      · exact ⟨origin, kept, .inl rfl⟩
      · obtain ⟨seen, told, edge⟩ := justified.2 id goal sets
        obtain ⟨event, among, own, tells⟩ := told_event told
        have still := current (id, goal) sets event among own seen tells
        obtain rfl : seen = origin := Option.some.inj (still.symm.trans stored)
        exact ⟨goal, moved, .inr (edge (sound.statusOf stored))⟩

/-- What the workflow promises of a run: statuses move along edges, closing times go with the closed
statuses, and a call that was told that its transition is forbidden has changed nothing. -/
structure Enforced (c : Config (LocalDb × LocalPast) LocalOp LocalOp.Ret Reported) : Prop where
  moves : ∀ event ∈ c.shared.2, Moves event
  sound : c.shared.1.Sound
  forbidden : ∀ i error, c.result i = some (.error error) → Forbids error →
    ∀ event ∈ c.shared.2, event.pid = i → event.after = event.before

/-- The workflow is enforced in every run where no status write finds a status changed since the
call read it. -/
theorem local_workflow_enforced (sound : db.Sound)
    (run : Run (localWorld.record.guard NotOvertaken) (callers commands db).record c) : Enforced c := by
  have recorded := run.unguard
  have genuine := Run.genuine recorded
  refine ⟨fun event among => ?_, sound_always sound recorded, ?_⟩
  · obtain ⟨later, earlier, split⟩ := List.append_of_mem among
    have before := Run.always (I := LocalDb.Sound)
      (fun c run => sound_always sound run) recorded event among
    exact event_moves (genuine event among) (Run.needs recorded (callers_along commands db) split)
      before (run.admitted split)
  · intro i error finished forbids event among own
    have unwritten := Run.ended recorded (callers_along commands db) finished forbids
    have idle : Idle event.effect event.answer :=
      unwritten event.act (List.mem_map_of_mem (List.mem_filter.mpr ⟨among, by simpa using own⟩))
    exact step_unwritten (genuine event among) idle

section Sample

def sampleDb : LocalDb := ⟨[⟨1, "t", "", "New", none⟩], 1, [], 0⟩

def rivals : Pid → Option Command
  | 0 => some (.advanceIssueStatus 1 "Cancelled")
  | 1 => some (.advanceIssueStatus 1 "In Progress")
  | _ => none

def rivalRun (schedule : List Pid) : Config (LocalDb × LocalPast) LocalOp LocalOp.Ret Reported :=
  (callers rivals sampleDb).record.replay (recording fun _ => answer 100) schedule

theorem sampleDb_sound : sampleDb.Sound := by
  intro row member
  rw [List.mem_singleton.mp member]
  decide

theorem in_turn_enforced : (rivalRun [0, 0, 0, 0, 0, 1]).shared.1.statusOf 1 = some "Cancelled" ∧
    Enforced (rivalRun [0, 0, 0, 0, 0, 1]) := by
  have sound : ∀ (i : Pid) db op, localWorld.step i db op (answer 100 db op).1 (answer 100 db op).2 :=
    fun _ => answer_sound 100
  have run : Run (localWorld.record.guard NotOvertaken) (callers rivals sampleDb).record
      (rivalRun [0, 0, 0, 0, 0, 1]) :=
    .replay_guard (recording_sound sound) _ [0, 0, 0, 0, 0, 1] (by decide +kernel)
  exact ⟨by decide, local_workflow_enforced sampleDb_sound run⟩

/-- Both calls read the new issue; the one that writes last reopens what the other cancelled. -/
theorem cancelled_issue_reopened :
    Run localWorld.record (callers rivals sampleDb).record (rivalRun [1, 0, 0, 0, 0, 0, 1, 1, 1]) ∧
      ¬Enforced (rivalRun [1, 0, 0, 0, 0, 0, 1, 1, 1]) := by
  have sound : ∀ (i : Pid) db op, localWorld.step i db op (answer 100 db op).1 (answer 100 db op).2 :=
    fun _ => answer_sound 100
  refine ⟨.replay (recording_sound sound) _ _, fun enforced => ?_⟩
  have reopened : ∃ event ∈ (rivalRun [1, 0, 0, 0, 0, 0, 1, 1, 1]).shared.2,
      event.before.statusOf 1 = some "Cancelled" ∧ event.after.statusOf 1 = some "In Progress" := by
    decide
  obtain ⟨event, among, before, after⟩ := reopened
  obtain ⟨goal, moved, edge⟩ := enforced.moves event among 1 "Cancelled" before
  obtain rfl : "In Progress" = goal := Option.some.inj (after.symm.trans moved)
  exact absurd edge (by decide)

end Sample

end Runs

end Phasegent.Local
