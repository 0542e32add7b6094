import Phasegent.Interleaving.Adversary
import Phasegent.Redmine.Status

namespace Phasegent.Redmine
open Fallible Interleaving Workflow

abbrev IssueHistory := History IssueOp IssueOp.Ret

section Observations

def reads : (op : IssueOp) → op.Ret → Option RedmineIssue
  | .getIssue _ _, .ok issue => some issue
  | _, _ => none

def shows : (op : IssueOp) → op.Ret → Option RedmineIssue
  | .getIssue _ _, .ok issue => some issue
  | .putStatus .., .ok response => response
  | _, _ => none

def lists : (op : IssueOp) → op.Ret → List IssueStatus
  | .listIssueStatuses, .ok statuses => statuses
  | _, _ => []

def listsOpenChild : (op : IssueOp) → op.Ret → Bool
  | .listChildren .., .ok page => page.issues.any RedmineIssue.matchesOpen
  | _, _ => false

def isPut : IssueOp → Bool
  | .putStatus .. => true
  | _ => false

def isListing : IssueOp → Bool
  | .listChildren .. => true
  | _ => false

def operationOf : IssueOp → String
  | .listIssueStatuses => "issue status list"
  | .listChildren _ operation | .getIssue _ operation | .putStatus _ _ operation => operation

def RedmineIssue.reportedClosed (issue : RedmineIssue) : Bool :=
  issue.status.any fun status => status.isClosed == some true

variable (h : IssueHistory)

def readIssues : List RedmineIssue := h.filterMap fun act => reads act.effect act.answer

def readClosed : Bool := (readIssues h).any RedmineIssue.reportedClosed

def lastRead : Option RedmineIssue := (readIssues h).head?

def lastShown : Option RedmineIssue := (h.filterMap fun act => shows act.effect act.answer).head?

def catalogue : List IssueStatus := h.flatMap fun act => lists act.effect act.answer

def markedOpen (statusId : Nat) : Bool :=
  (catalogue h).any fun status => status.id == statusId && !status.isClosed

def putCount : Nat := h.countP fun act => isPut act.effect

/-- After every listing of an open child the parent was read closed, or at the close status. -/
def cleared (closeId : Nat) : IssueHistory → Bool
  | [] => true
  | act :: before =>
      (cleared closeId before && !listsOpenChild act.effect act.answer) ||
        ((reads act.effect act.answer).any fun issue => RedmineProvider.parentClosed closeId (.ok issue))

end Observations

section Laws
variable (closeId : Nat)

-- The policy lets the issue move, or leaves it to the server.
def Moves (current target : String) : Prop :=
  Edge current target ∨ canonicalStatusName current = none ∨ canonicalStatusName target = none

/-- What each status write of a close needs in the history before it. -/
def Justified (h : IssueHistory) : IssueOp → Prop
  | .putStatus _ statusId operation =>
      (readClosed h → markedOpen h statusId = false) ∧
        (operation ≠ "issue close" → ∃ issue ∈ lastRead h, ∃ status ∈ issue.status,
          ∃ target ∈ catalogue h, target.id = statusId ∧ Moves status.name target.name) ∧
        cleared closeId h ∧ putCount h < 5
  | _ => True

def closes (status : RedmineStatus) : Bool := status.id == closeId || status.isClosed == some true

def silent (status : RedmineStatus) : Bool := status.knownId.isNone && status.isClosed.isNone

def Concluded (h : IssueHistory) : Prop :=
  ∃ issue ∈ lastShown h, ∀ status ∈ issue.status, closes closeId status ∨ silent status

end Laws

section Assumptions
variable (closeId : Nat)

def climbTargets : List String := ["In Progress", "In Review", "Resolved"]

def movesOn : TransitionVerdict → Bool
  | .allowed | .advisory _ => true
  | _ => false

def settled (name : String) : Bool :=
  climbTargets.all fun target => !movesOn (evaluateTransition name target)

-- An open status without an id, which the verification takes for no signal.
def misread (status : RedmineStatus) : Bool := status.knownId.isNone && status.isClosed == some false

@[mk_iff] structure Steady (h : IssueHistory) (op : IssueOp) (answer : op.Ret) : Prop where
  catalogue : ∀ status ∈ lists op answer, status.id = closeId → status.isClosed
  stays : ∀ issue ∈ reads op answer, readClosed h → issue.reportedClosed
  settled : ∀ issue ∈ reads op answer, operationOf op = "issue status advance" →
    issue.reportedClosed → ∀ status ∈ issue.status, settled status.name
  parent : ∀ issue ∈ reads op answer, operationOf op = "issue status update" →
    (h.head?.any fun act => isListing act.effect) →
    ∀ before ∈ lastRead h, issue.status.map RedmineStatus.name = before.status.map RedmineStatus.name
  echo : ∀ issue ∈ shows op answer, operationOf op = "issue close" →
    (isPut op ∨ h.head?.any fun act => isPut act.effect) → ∀ status ∈ issue.status, misread status = false
  reread : ∀ issue ∈ reads op answer, operationOf op = "issue close" →
    (h.head?.any fun act => (reads act.effect act.answer).isSome) →
    ∀ status ∈ issue.status, closes closeId status ∨ silent status

instance (h : IssueHistory) (op : IssueOp) (answer : op.Ret) : Decidable (Steady closeId h op answer) :=
  decidable_of_iff' _ (steady_iff closeId h op answer)

def Steadily : IssueHistory → Prop
  | [] => True
  | act :: before => Steadily before ∧ Steady closeId before act.effect act.answer

instance decidableSteadily : (h : IssueHistory) → Decidable (Steadily closeId h)
  | [] => .isTrue trivial
  | act :: before =>
      have := decidableSteadily before
      inferInstanceAs (Decidable (_ ∧ Steady closeId before act.effect act.answer))

def Given (P : IssueHistory → Prop) (h : IssueHistory) : Prop := Steadily closeId h → P h

def Lawful (h : IssueHistory) (op : IssueOp) : Prop := Steadily closeId h → Justified closeId h op

end Assumptions

section Requests
variable {closeId : Nat} {α : Type} {P : IssueHistory → Prop}

theorem traced_ask {op : IssueOp} {Q : op.Value → IssueHistory → Prop}
    {F : PhasegentError → IssueHistory → Prop} (allowed : ∀ h, Steadily closeId h → P h → Justified closeId h op)
    (answered : ∀ h value, Steadily closeId h → Steady closeId h op (.ok value) → P h →
      Q value (⟨op, .ok value⟩ :: h))
    (failed : ∀ h error, P h → F error (⟨op, .error error⟩ :: h)) :
    Traced (Lawful closeId) (Given closeId P) (ask op) (fun value => Given closeId (Q value))
      fun error => Given closeId (F error) := by
  apply traced_request
  · exact fun h given steady => allowed h steady (given steady)
  · intro h answer given
    cases answer with
    | ok value => exact fun steady => answered h value steady.1 steady.2 (given steady.1)
    | error error => exact fun steady => failed h error (given steady.1)

end Requests

section Facts
variable {closeId k id : Nat} {h : IssueHistory} {op : IssueOp} {answer : op.Ret} {operation : String}
  {number : Nat} {issue : RedmineIssue}

/-- No child is known to be open, and at most `k` statuses have been written. -/
structure Ready (closeId k : Nat) (h : IssueHistory) : Prop where
  cleared : cleared closeId h
  puts : putCount h ≤ k

theorem Ready.read (ready : Ready closeId k h) (read : isPut op = false)
    (childless : listsOpenChild op answer = false) : Ready closeId k (⟨op, answer⟩ :: h) where
  cleared := by simp [Redmine.cleared, ready.cleared, childless]
  puts := by simpa [putCount, read] using ready.puts

theorem Ready.got (ready : Ready closeId k h) (answer : IssueOp.Ret (.getIssue number operation)) :
    Ready closeId k (⟨.getIssue number operation, answer⟩ :: h) :=
  ready.read rfl rfl

theorem Ready.listed (ready : Ready closeId k h) (answer : IssueOp.Ret .listIssueStatuses) :
    Ready closeId k (⟨.listIssueStatuses, answer⟩ :: h) :=
  ready.read rfl rfl

theorem Ready.put (ready : Ready closeId k h) (answer : IssueOp.Ret (.putStatus number id operation)) :
    Ready closeId (k + 1) (⟨.putStatus number id operation, answer⟩ :: h) where
  cleared := by simp [Redmine.cleared, ready.cleared, listsOpenChild]
  puts := by simpa [putCount, isPut] using ready.puts

theorem Ready.parent (ready : Ready closeId k h)
    (closed : RedmineProvider.parentClosed closeId (.ok issue)) {answer : IssueOp.Ret (.listChildren number operation)} :
    Ready closeId k (⟨.getIssue number operation, .ok issue⟩ ::
      ⟨.listChildren number operation, answer⟩ :: h) where
  cleared := by simp [Redmine.cleared, reads, closed]
  puts := by simpa [putCount, isPut] using ready.puts

theorem markedOpen_close (steady : Steadily closeId h) : markedOpen h closeId = false := by
  induction h with
  | nil => rfl
  | cons act before ih =>
      have earlier := ih steady.1
      have own := steady.2.catalogue
      simp only [markedOpen, catalogue, List.flatMap_cons, List.any_append, Bool.or_eq_false_iff] at earlier ⊢
      refine ⟨?_, earlier⟩
      rw [List.any_eq_false]
      intro status among
      by_cases same : status.id = closeId
      · simp [own status among same]
      · simp [same]

theorem justified_close (steady : Steadily closeId h) (ready : Ready closeId k h) (few : k < 5) :
    Justified closeId h (.putStatus number closeId "issue close") :=
  ⟨fun _ => markedOpen_close steady, fun other => absurd rfl other, ready.cleared,
    ready.puts.trans_lt few⟩

end Facts

section Reads
variable {closeId number : Nat} {operation : String}

theorem lawful_of_read {h : IssueHistory} {op : IssueOp} (read : isPut op = false) : Lawful closeId h op := by
  intro _
  cases op with
  | putStatus n id operation => cases read
  | _ => trivial

theorem appends_ask {op : IssueOp} (read : isPut op = false) :
    Appends (Lawful closeId) (ask op) (fun value part => part = [⟨op, .ok value⟩])
      fun error part => part = [⟨op, .error error⟩] := by
  apply appends_request fun h => lawful_of_read read
  intro answer
  cases answer <;> rfl

theorem appends_currentStatus : Appends (Lawful closeId) (RedmineProvider.currentStatus number operation)
    (fun status part => ∃ issue, issue.status = some status ∧
      part = [⟨.getIssue number operation, .ok issue⟩]) fun _ _ => True := by
  unfold RedmineProvider.currentStatus RedmineProvider.issueWithJournals
  apply appends_bind ((appends_ask rfl).weaken (fun _ _ same => same) fun _ _ _ => trivial)
  intro issue part same
  apply appends_fromExcept
  · intro status known
    cases present : issue.status with
    | none => simp [RedmineProvider.requireStatus, present] at known
    | some own =>
        obtain rfl : own = status := by simpa [RedmineProvider.requireStatus, present] using known
        exact ⟨issue, present, same⟩
  · exact fun _ _ => trivial

def Preflighted (closeId number : Nat) (operation : String) (part : IssueHistory) : Prop :=
  (∃ answer : IssueOp.Ret (.listChildren number operation),
    listsOpenChild (.listChildren number operation) answer = false ∧
      part = [⟨.listChildren number operation, answer⟩]) ∨
  ∃ (issue : RedmineIssue) (answer : IssueOp.Ret (.listChildren number operation)),
    RedmineProvider.parentClosed closeId (.ok issue) ∧
      part = [⟨.getIssue number operation, .ok issue⟩, ⟨.listChildren number operation, answer⟩]

theorem appends_failOnOpenChildren :
    Appends (Lawful closeId) (RedmineProvider.failOnOpenChildren number closeId operation)
      (fun _ part => Preflighted closeId number operation part) fun _ _ => True := by
  have listed : Appends (Lawful closeId) (RedmineProvider.listOpenChildren number operation)
      (fun page part => ∃ answer, part = [⟨.listChildren number operation, .ok answer⟩] ∧
        page.1 = answer.issues.filter RedmineIssue.matchesOpen)
      fun error part => part = [⟨.listChildren number operation, .error error⟩] := by
    unfold RedmineProvider.listOpenChildren
    apply appends_bind (appends_ask rfl)
    rintro page part rfl
    exact appends_pure ⟨page, rfl, rfl⟩
  unfold RedmineProvider.failOnOpenChildren
  apply appends_bind (appends_outcome listed)
  intro page part found
  cases page with
  | error error =>
      obtain rfl : part = _ := found
      exact appends_pure (.inl ⟨.error error, rfl, rfl⟩)
  | ok page =>
      obtain ⟨children, total⟩ := page
      obtain ⟨answer, rfl, same⟩ := found
      obtain rfl : children = answer.issues.filter RedmineIssue.matchesOpen := same
      simp only [RedmineProvider.refuseOpenChildren]
      split
      · next empty =>
          refine appends_pure (.inl ⟨.ok answer, ?_, rfl⟩)
          simpa [listsOpenChild, List.isEmpty_iff, List.filter_eq_nil_iff] using empty
      · apply appends_bind (appends_outcome (appends_ask rfl))
        intro parent part' read
        apply appends_fromExcept
        · intro _ passed
          cases parent with
          | error error => simp [RedmineProvider.parentClosed] at passed
          | ok issue =>
              obtain rfl : part' = _ := read
              exact .inr ⟨issue, .ok answer, by simpa using passed, rfl⟩
        · exact fun _ _ => trivial

end Reads

section Direct
variable {closeId k number : Nat} {provider : RedmineProvider} {issue : RedmineIssue}

theorem closes_of_concludeClose {summary : IssueSummary}
    (believed : provider.concludeClose closeId issue = .ok summary)
    (signal : ∀ status ∈ issue.status, misread status = false) :
    ∀ status ∈ issue.status, closes closeId status ∨ silent status := by
  intro status own
  have read := signal status own
  rw [Option.mem_def] at own
  simp only [RedmineProvider.concludeClose, own, verifyCloseStatus] at believed
  cases known : status.knownId with
  | some observed =>
      obtain rfl : status.id = observed := by
        unfold RedmineStatus.knownId at known
        split at known <;> simp_all
      by_cases same : status.id = closeId
      · exact .inl (by simp [closes, same])
      · simp [known, same] at believed
  | none =>
      cases flag : status.isClosed with
      | none => exact .inr (by simp [silent, known, flag])
      | some closed =>
          cases closed with
          | true => exact .inl (by simp [closes, flag])
          | false => simp [misread, known, flag] at read

theorem traced_concludeClose {P F : IssueHistory → Prop}
    (believed : ∀ h, P h → lastShown h = some issue ∧ ∀ status ∈ issue.status, misread status = false)
    (failed : ∀ h, P h → F h) :
    Traced (Lawful closeId) (Given closeId P) (fromExcept (provider.concludeClose closeId issue))
      (fun _ => Given closeId (Concluded closeId)) fun _ => Given closeId F := by
  apply (traced_fromExcept (F := fun _ => Given closeId F)
    fun h e _ given steady => failed h (given steady)).weaken
  · rintro summary h ⟨concluded, given⟩ steady
    obtain ⟨shown, signal⟩ := believed h (given steady)
    exact ⟨issue, shown, closes_of_concludeClose concluded signal⟩
  · exact fun _ _ ready => ready

theorem traced_tryDirectClose (few : k < 5) :
    Traced (Lawful closeId) (Given closeId (Ready closeId k)) (provider.tryDirectClose number closeId)
      (fun _ => Given closeId (Concluded closeId)) fun _ => Given closeId (Ready closeId (k + 1)) := by
  unfold RedmineProvider.tryDirectClose
  apply traced_bind (M := fun response => Given closeId fun h => Ready closeId (k + 1) h ∧
    (h.head?.any fun act => isPut act.effect) ∧ ∀ issue ∈ response,
      lastShown h = some issue ∧ ∀ status ∈ issue.status, misread status = false)
  · apply traced_ask
    · exact fun h steady ready => justified_close steady ready few
    · intro h response _ steady ready
      refine ⟨ready.put _, rfl, ?_⟩
      rintro issue ⟨⟩
      exact ⟨rfl, steady.echo issue rfl rfl (.inl rfl)⟩
    · exact fun h error ready => ready.put _
  intro response
  cases response with
  | some issue =>
      exact traced_concludeClose (fun h holds => holds.2.2 issue rfl) fun h holds => holds.1
  | none =>
      apply traced_bind (M := fun issue => Given closeId fun h => Ready closeId (k + 1) h ∧
        lastShown h = some issue ∧ ∀ status ∈ issue.status, misread status = false)
      · apply traced_ask
        · exact fun h _ _ => trivial
        · intro h issue _ steady holds
          exact ⟨holds.1.got _, rfl, steady.echo issue rfl rfl (.inr holds.2.1)⟩
        · exact fun h error holds => holds.1.got _
      · exact fun issue => traced_concludeClose (fun h holds => holds.2) fun h holds => holds.1

end Direct

theorem Steadily.before {closeId : Nat} {part h : IssueHistory} (steady : Steadily closeId (part ++ h)) :
    Steadily closeId h := by
  induction part with
  | nil => exact steady
  | cons act rest ih => exact ih steady.1

section Steps
variable {closeId k number : Nat} {provider : RedmineProvider} {current : RedmineStatus}
  {target : IssueStatus}

theorem Ready.mono {h : IssueHistory} {more : Nat} (ready : Ready closeId k h) (le : k ≤ more) :
    Ready closeId more h :=
  ⟨ready.cleared, ready.puts.trans le⟩

structure Stepping (closeId k : Nat) (current : RedmineStatus) (target : IssueStatus)
    (h : IssueHistory) : Prop where
  ready : Ready closeId k h
  origin : ∃ issue ∈ lastRead h, issue.status.map RedmineStatus.name = some current.name
  open' : readClosed h = false ∨ target.id = closeId
  listed : target ∈ catalogue h

theorem Stepping.justified {h : IssueHistory} (steady : Steadily closeId h)
    (stepping : Stepping closeId k current target h) (moves : Moves current.name target.name)
    (few : k < 5) : Justified closeId h (.putStatus number target.id "issue status update") := by
  obtain ⟨issue, last, named⟩ := stepping.origin
  obtain ⟨status, own, same⟩ := Option.map_eq_some_iff.mp named
  refine ⟨?_, fun _ => ⟨issue, last, status, own, target, stepping.listed, rfl, same ▸ moves⟩,
    stepping.ready.cleared, stepping.ready.puts.trans_lt few⟩
  intro closed
  obtain other | same := stepping.open'
  · rw [other] at closed
    cases closed
  · rw [same]
    exact markedOpen_close steady

theorem Stepping.preflighted {h part : IssueHistory} (stepping : Stepping closeId k current target h)
    (own : target.id = closeId) (steady : Steadily closeId (part ++ h))
    (passed : Preflighted closeId number "issue status update" part) :
    Stepping closeId k current target (part ++ h) := by
  obtain ⟨answer, childless, rfl⟩ | ⟨issue, answer, closed, rfl⟩ := passed
  · exact ⟨stepping.ready.read rfl childless, stepping.origin, .inr own, stepping.listed⟩
  · refine ⟨stepping.ready.parent closed, ⟨issue, rfl, ?_⟩, .inr own, stepping.listed⟩
    obtain ⟨before, last, named⟩ := stepping.origin
    exact (steady.2.parent issue rfl rfl rfl before last).trans named

theorem stepping_of_read {h : IssueHistory} {issue : RedmineIssue} (ready : Ready closeId k h)
    (listed : target ∈ catalogue h) (known : issue.status = some current)
    (climbing : target.name ∈ climbTargets)
    (steady : Steady closeId h (.getIssue number "issue status advance") (.ok issue))
    (moves : movesOn (evaluateTransition current.name target.name)) :
    Stepping closeId k current target (⟨.getIssue number "issue status advance", .ok issue⟩ :: h) := by
  have still : issue.reportedClosed = false := by
    by_contra closed
    have final := steady.settled issue rfl rfl (by simpa using closed) current known
    rw [settled, List.all_eq_true] at final
    have stays := final target.name climbing
    simp [moves] at stays
  have earlier : readClosed h = false := by
    by_contra closed
    have later := steady.stays issue rfl (by simpa using closed)
    rw [still] at later
    cases later
  refine ⟨ready.got _, ⟨issue, rfl, by simp [known]⟩, .inl ?_, ?_⟩
  · simpa [readClosed, readIssues, reads, still] using earlier
  · simpa [catalogue, lists] using listed

section
variable (close : provider.closeStatusId.getD 0 = closeId)
include close

theorem traced_preflight : Traced (Lawful closeId) (Given closeId (Stepping closeId k current target))
    (provider.preflight number target.id)
    (fun _ => Given closeId (Stepping closeId k current target)) fun _ _ => True := by
  unfold RedmineProvider.preflight
  split
  · next configured =>
      have own : target.id = closeId := by rw [← close, configured, Option.getD_some]
      rw [own]
      apply appends_failOnOpenChildren.after.weaken
      · rintro _ h ⟨before, part, rfl, given, passed⟩ steady
        exact (given steady.before).preflighted own steady passed
      · exact fun _ _ _ => trivial
  · exact traced_pure fun _ given => given

theorem traced_setIssueStatus (moves : Moves current.name target.name) (few : k < 5) :
    Traced (Lawful closeId) (Given closeId (Stepping closeId k current target))
      (provider.setIssueStatus number target.id)
      (fun _ => Given closeId (Ready closeId (k + 1))) fun _ _ => True := by
  unfold RedmineProvider.setIssueStatus
  apply traced_bind (traced_preflight close)
  intro _
  apply traced_bind (M := fun _ => Given closeId (Ready closeId (k + 1)))
  · apply (traced_ask (F := fun _ _ => True) ?_ ?_ ?_).weaken (fun _ _ post => post) fun _ _ _ => trivial
    · exact fun h steady stepping => stepping.justified steady moves few
    · exact fun h response _ _ stepping => stepping.ready.put _
    · exact fun _ _ _ => trivial
  intro response
  have confirmed : ∀ issue, Traced (Lawful closeId) (Given closeId (Ready closeId (k + 1)))
      (fromExcept (provider.confirmStatus target.id issue))
      (fun _ => Given closeId (Ready closeId (k + 1))) fun _ _ => True := fun issue =>
    (traced_fromExcept fun _ _ _ _ => trivial).weaken (fun _ _ post => post.2) fun _ _ _ => trivial
  cases response with
  | some issue => exact confirmed issue
  | none =>
      apply traced_bind (M := fun _ => Given closeId (Ready closeId (k + 1))) ?_ confirmed
      apply (traced_ask (F := fun _ _ => True) ?_ ?_ ?_).weaken (fun _ _ post => post) fun _ _ _ => trivial
      · exact fun h _ _ => trivial
      · exact fun h issue _ _ ready => ready.got _
      · exact fun _ _ _ => trivial

theorem traced_moveIssue {verdict : TransitionVerdict}
    (judged : evaluateTransition current.name target.name = verdict) (few : k < 5) :
    Traced (Lawful closeId)
      (Given closeId fun h => Ready closeId k h ∧ (movesOn verdict → Stepping closeId k current target h))
      (provider.moveIssue number current target verdict)
      (fun _ => Given closeId (Ready closeId (k + 1))) fun _ _ => True := by
  have moved : Moves current.name target.name → movesOn verdict → Traced (Lawful closeId)
      (Given closeId fun h => Ready closeId k h ∧ (movesOn verdict → Stepping closeId k current target h))
      (do
        let summary ← renameFailure (annotateTransitionError current.name target.name number)
          (provider.setIssueStatus number target.id)
        return RedmineProvider.transitionOutcome number current target verdict.isAdvisory (some summary))
      (fun _ => Given closeId (Ready closeId (k + 1))) fun _ _ => True := by
    intro moves on
    apply traced_bind
    · apply traced_renameFailure (F := fun _ _ => True) fun _ _ _ => trivial
      exact (traced_setIssueStatus close moves few).pre fun h given steady => (given steady).2 on
    · exact fun summary => traced_pure fun _ post => post
  cases verdict with
  | noOp => exact traced_pure fun h given steady => (given steady).1.mono (Nat.le_succ k)
  | forbidden allowedNext => exact traced_throw fun _ _ => trivial
  | allowed => exact moved (.inl (evaluateTransition_allowed judged)) rfl
  | advisory reason => exact moved (.inr (evaluateTransition_advisory judged)) rfl

theorem traced_advanceIssueStatus {step : String} (climbing : step ∈ climbTargets) (few : k < 5) :
    Traced (Lawful closeId) (Given closeId (Ready closeId k)) (provider.advanceIssueStatus number step)
      (fun _ => Given closeId (Ready closeId (k + 1))) fun _ _ => True := by
  unfold RedmineProvider.advanceIssueStatus
  apply traced_bind (M := fun statuses => Given closeId fun h =>
    Ready closeId k h ∧ ∀ status ∈ statuses, status ∈ catalogue h)
  · apply (traced_ask (F := fun _ _ => True) ?_ ?_ ?_).weaken (fun _ _ post => post) fun _ _ _ => trivial
    · exact fun h _ _ => trivial
    · intro h statuses _ _ ready
      refine ⟨ready.listed _, fun status among => ?_⟩
      simp [catalogue, lists, among]
    · exact fun _ _ _ => trivial
  intro statuses
  apply traced_bind (traced_fromExcept fun _ _ _ _ => trivial)
  intro target
  apply Traced.of_pure
  intro selected
  have member := selectStatusByValue_mem selected
  have unnumbered : ∀ name ∈ climbTargets, Text.parseU64 name.toList = none := by decide
  have named := selectStatusByValue_name (unnumbered step climbing) selected
  apply traced_bind (appends_currentStatus.after.weaken (fun _ _ post => post) fun _ _ _ => trivial)
  intro current
  apply (traced_moveIssue close rfl few).pre
  rintro h ⟨before, part, rfl, given, issue, known, rfl⟩ steady
  obtain ⟨ready, listed⟩ := given steady.1
  exact ⟨ready.got _, stepping_of_read ready (listed target member) known (named ▸ climbing) steady.2⟩

theorem traced_climbSteps {steps : List String} (climbing : ∀ step ∈ steps, step ∈ climbTargets)
    (few : k + steps.length < 5) :
    Traced (Lawful closeId) (Given closeId (Ready closeId k)) (provider.climbSteps number steps)
      (fun _ => Given closeId (Ready closeId (k + steps.length))) fun _ _ => True := by
  induction steps generalizing k with
  | nil => exact traced_pure fun _ ready => ready
  | cons step rest ih =>
      obtain ⟨own, later⟩ := List.forall_mem_cons.mp climbing
      rw [List.length_cons] at few ⊢
      unfold RedmineProvider.climbSteps
      apply traced_bind (traced_advanceIssueStatus close own (by omega))
      intro _
      have climbed := ih later (k := k + 1) (by omega)
      have count : k + 1 + rest.length = k + (rest.length + 1) := by omega
      rwa [count] at climbed

end

end Steps

section Climb

theorem closeClimbSteps_targets (current : String) :
    (∀ step ∈ closeClimbSteps current, step ∈ climbTargets) ∧ (closeClimbSteps current).length ≤ 3 := by
  unfold closeClimbSteps
  split
  · split_ifs <;> decide
  · decide

variable {closeId number : Nat} {provider : RedmineProvider}
  (close : provider.closeStatusId.getD 0 = closeId)
include close

theorem traced_climbFrom {statuses : List IssueStatus} {current : RedmineStatus} {error : PhasegentError} :
    Traced (Lawful closeId) (Given closeId (Ready closeId 1))
      (provider.climbFrom number closeId statuses current error)
      (fun _ => Given closeId (Concluded closeId)) fun _ _ => True := by
  obtain ⟨climbing, short⟩ := closeClimbSteps_targets current.name
  unfold RedmineProvider.climbFrom
  dsimp only
  apply traced_bind ((traced_fromExcept fun _ _ _ _ => trivial).weaken (fun _ _ post => post.2)
    fun _ _ _ => trivial)
  intro _
  apply traced_bind (traced_renameFailure (fun _ _ _ => trivial)
    (traced_climbSteps close climbing (by omega)))
  intro _
  apply traced_renameFailure (F := fun _ => Given closeId (Ready closeId 5)) fun _ _ _ => trivial
  apply ((traced_tryDirectClose (k := 4) (by omega)).pre ?_).weaken (fun _ _ post => post)
    fun _ _ ready => ready
  exact fun h ready steady => (ready steady).mono (by omega)

theorem traced_climbClose {error : PhasegentError} :
    Traced (Lawful closeId) (Given closeId (Ready closeId 1)) (provider.climbClose number closeId error)
      (fun _ => Given closeId (Concluded closeId)) fun _ _ => True := by
  unfold RedmineProvider.climbClose
  apply traced_bind (M := fun _ => Given closeId (Ready closeId 1))
  · apply traced_renameFailure (F := fun _ => Given closeId fun _ => True) fun _ _ _ => trivial
    apply traced_ask
    · exact fun h _ _ => trivial
    · exact fun h statuses _ _ ready => ready.listed _
    · exact fun _ _ _ => trivial
  intro statuses
  apply traced_bind (M := fun current => Given closeId fun h => Ready closeId 1 h ∧
    (h.head?.any fun act => (reads act.effect act.answer).isSome))
  · apply traced_renameFailure (F := fun _ _ => True) fun _ _ _ => trivial
    apply appends_currentStatus.after.weaken
    · rintro current h ⟨before, part, rfl, given, issue, known, rfl⟩ steady
      exact ⟨(given steady.1).got _, rfl⟩
    · exact fun _ _ _ => trivial
  intro current
  split
  · apply traced_bind (M := fun issue => Given closeId (Concluded closeId))
    · apply traced_renameFailure (F := fun _ => Given closeId fun _ => True) fun _ _ _ => trivial
      apply traced_ask
      · exact fun h _ _ => trivial
      · exact fun h issue _ steady holds => ⟨issue, rfl, steady.reread issue rfl rfl holds.2⟩
      · exact fun _ _ _ => trivial
    · exact fun issue => traced_pure fun _ post => post
  · exact (traced_climbFrom close).pre fun h holds steady => (holds steady).1

end Climb

section Close
variable {number : Nat} {provider : RedmineProvider}

theorem traced_closeIssue :
    Traced (Lawful (provider.closeStatusId.getD 0)) (· = []) (provider.closeIssue number)
      (fun _ => Given (provider.closeStatusId.getD 0) (Concluded (provider.closeStatusId.getD 0)))
      fun _ _ => True := by
  generalize close : provider.closeStatusId.getD 0 = closeId
  unfold RedmineProvider.closeIssue
  apply traced_bind (traced_fromExcept fun _ _ _ _ => trivial)
  intro statusId
  apply Traced.of_pure
  intro configured
  obtain rfl : closeId = statusId := by
    rw [← close]
    cases own : provider.closeStatusId with
    | none => simp [RedmineProvider.requireCloseStatusId, own] at configured
    | some value =>
        simp only [RedmineProvider.requireCloseStatusId, own] at configured
        split at configured
        · simpa using configured
        · cases configured
  apply traced_bind (M := fun _ => Given closeId (Ready closeId 0))
  · apply (appends_failOnOpenChildren.after.pre fun h own => own).weaken
    · rintro _ h ⟨before, part, rfl, rfl, passed⟩ _
      have start : Ready closeId 0 [] := ⟨rfl, le_rfl⟩
      obtain ⟨answer, childless, rfl⟩ | ⟨issue, answer, closed, rfl⟩ := passed
      · exact start.read rfl childless
      · exact start.parent closed
    · exact fun _ _ _ => trivial
  intro _
  apply traced_bind (traced_outcome (traced_tryDirectClose (by omega)))
  intro direct
  cases direct with
  | ok summary => exact traced_pure fun _ post => post
  | error error =>
      simp only [RedmineProvider.recoverClose]
      split
      · exact traced_climbClose close
      · exact traced_throw fun _ _ => trivial

/-- On every server whose answers are steady, a close of an issue never reopens it: each status
write has what it needs, and a success shows the issue closed. -/
theorem close_never_reopens {h : IssueHistory} {q : Prog IssueOp IssueOp.Ret (Except PhasegentError IssueSummary)}
    (reaches : Reaches (provider.closeIssue number).run h q)
    (steady : Steadily (provider.closeStatusId.getD 0) h) :
    Guarded (Justified (provider.closeStatusId.getD 0)) h ∧
      ∀ summary, q = .done (.ok summary) → Concluded (provider.closeStatusId.getD 0) h := by
  obtain ⟨guarded, along⟩ := traced_closeIssue.reaches reaches
  refine ⟨?_, ?_⟩
  · clear along reaches
    induction h with
    | nil => trivial
    | cons act before ih => exact ⟨guarded.1 steady.1, ih steady.1 guarded.2⟩
  · rintro summary rfl
    exact along steady

end Close

section Servers

def sampleCatalogue : List IssueStatus :=
  [⟨1, "New", false⟩, ⟨2, "In Progress", false⟩, ⟨3, "In Review", false⟩, ⟨4, "Resolved", false⟩,
    ⟨5, "Closed", true⟩, ⟨9, "Archived", true⟩]

def sampleIssue (statusId : Nat) : RedmineIssue :=
  let status := (sampleCatalogue.find? fun status => status.id = statusId).map fun status =>
    (⟨status.id, status.name, some status.isClosed⟩ : RedmineStatus)
  ⟨7, "Search", "", status, none⟩

def sampleProvider : RedmineProvider := ⟨"https://redmine", some 5, PhasegentError.message⟩

def statusAfter (start : Nat) : IssueHistory → Nat
  | [] => start
  | ⟨.putStatus _ statusId _, .ok _⟩ :: _ => statusId
  | _ :: before => statusAfter start before

-- A server whose workflow closes an issue only from `Resolved`.
def server (start : Nat) (h : IssueHistory) : (op : IssueOp) → op.Ret
  | .listIssueStatuses => .ok sampleCatalogue
  | .listChildren .. => .ok ⟨[], some 0⟩
  | .getIssue .. => .ok (sampleIssue (statusAfter start h))
  | .putStatus _ statusId _ =>
      if statusId = 5 ∧ statusAfter start h ≠ 4 then
        .error (.http "issue close" 422 "Status is invalid")
      else .ok (some (sampleIssue statusId))

def serverRun (start : Nat) : Except PhasegentError IssueSummary × IssueHistory :=
  (sampleProvider.closeIssue 7).run.against (server start) []

theorem new_issue_climbs : Guarded (Justified 5) (serverRun 1).2 ∧ Concluded 5 (serverRun 1).2 := by
  have reached := Prog.reaches_against (server 1) (sampleProvider.closeIssue 7).run
  have steady : Steadily 5 (serverRun 1).2 := by decide
  obtain ⟨guarded, concluded⟩ := close_never_reopens reached steady
  exact ⟨guarded, concluded _ (congrArg Prog.done (by rfl : (serverRun 1).1 = .ok _))⟩

/-- An issue at another closed status than the configured one is moved to `Resolved`. -/
theorem archived_issue_reopened :
    Reaches (sampleProvider.closeIssue 7).run (serverRun 9).2 (.done (serverRun 9).1) ∧
      ¬Guarded (Justified 5) (serverRun 9).2 := by
  refine ⟨Prog.reaches_against _ _, fun guarded => ?_⟩
  have split : (serverRun 9).2 = (serverRun 9).2.take 1 ++
      ⟨.putStatus 7 4 "issue status update", .ok (some (sampleIssue 4))⟩ :: (serverRun 9).2.drop 2 := by
    rfl
  rw [split] at guarded
  have reopened : readClosed ((serverRun 9).2.drop 2) ∧
      markedOpen ((serverRun 9).2.drop 2) 4 = true := by decide
  exact absurd (guarded.needs.1 reopened.1) (by simp [reopened.2])

end Servers

end Phasegent.Redmine
