import Phasegent.Closure.Source

namespace Phasegent.Closure
open Fallible Phasegent.Task

theorem of_closed {result : Except String Unit} (closed : IssueClosure.of result = .closed) :
    result = .ok () := by
  cases result with
  | ok => rfl
  | error reason => cases closed

theorem mem_distinctScopes {scopes : List LinkScope} {provider project : String} :
    (provider, project) ∈ distinctScopes scopes ↔
      ∃ scope ∈ scopes, scope.provider = provider ∧ scope.project = project := by
  simp only [distinctScopes, List.mem_map, Ordered.mem_dedup, List.mem_insertionSort]
  constructor
  · rintro ⟨key, ⟨scope, member, same⟩, pair⟩
    subst same
    exact ⟨scope, member, Prod.mk.inj pair⟩
  · rintro ⟨scope, member, provider, project⟩
    exact ⟨toLex (scope.provider, scope.project), ⟨scope, member, rfl⟩, by simp [provider, project]⟩

/-- The scopes agree on one provider and project, and on the number of the issue. -/
structure Uniform (scopes : List LinkScope) (provider : String) (issue : Nat) : Prop where
  provider : ∀ scope ∈ scopes, scope.provider = provider
  single : ∀ scope ∈ scopes, ∀ other ∈ scopes, scope.project = other.project
  numbered : ∀ scope ∈ scopes, Text.parseU64 scope.externalId.toList = some issue

theorem numbered_of_checked {issue : Nat} {scopes : List LinkScope}
    (checked : (match scopes.find? fun scope =>
        Text.parseU64 scope.externalId.toList != some issue with
      | some scope => throw ("issue " ++ issue.repr ++ " link external id '" ++ scope.externalId ++
          "' does not match the lease number")
      | none => pure () : Except String Unit) = .ok ()) :
    ∀ scope ∈ scopes, Text.parseU64 scope.externalId.toList = some issue := by
  intro scope member
  split at checked
  · cases checked
  · next nothing => simpa using List.find?_eq_none.mp nothing scope member

theorem uniform_of_checked {route : ClosureRoute} {issue : Nat} {provider : String}
    {project : Option String} {scopes : List LinkScope}
    (checked : checkScopes route issue provider project scopes = .ok ()) :
    Uniform scopes provider issue := by
  unfold checkScopes at checked
  simp only [bind_eq_ok, refuse_eq_ok] at checked
  obtain ⟨_, few, rest⟩ := checked
  have pairs : ∀ scope ∈ scopes, (scope.provider, scope.project) ∈ distinctScopes scopes :=
    fun scope member => mem_distinctScopes.mpr ⟨scope, member, rfl, rfl⟩
  cases distinct : distinctScopes scopes with
  | nil =>
      have nothing : ∀ scope ∈ scopes, False := by
        intro scope member
        simpa [distinct] using pairs scope member
      exact ⟨fun scope member => (nothing scope member).elim,
        fun scope member => (nothing scope member).elim,
        fun scope member => (nothing scope member).elim⟩
  | cons first others =>
      rw [distinct] at few rest pairs
      obtain rfl : others = [] := by
        cases others with
        | nil => rfl
        | cons second more => simp at few
      have same : ∀ scope ∈ scopes, (scope.provider, scope.project) = first :=
        fun scope member => List.mem_singleton.mp (pairs scope member)
      simp only [List.head?_cons, bind_eq_ok, refuse_eq_ok, not_not] at rest
      obtain ⟨_, named, _, -, numbered⟩ := rest
      refine ⟨fun scope member => ?_, fun scope member other member' => ?_,
        numbered_of_checked numbered⟩
      · rw [← named, ← same scope member]
      · exact congrArg Prod.snd ((same scope member).trans (same other member').symm)

theorem closed_of_checkFact {issue : Nat} {scopes : List LinkScope} {fact : IssueStateFact}
    (checked : checkFact issue scopes fact = .ok ()) : sameIgnoringCase fact.state "closed" := by
  unfold checkFact at checked
  cases head : (distinctScopes scopes).head? with
  | none =>
      simp only [head, refuse_eq_ok] at checked
      exact Bool.eq_true_of_not_eq_false (by simpa using checked)
  | some pair =>
      simp only [head, bind_eq_ok, refuse_eq_ok] at checked
      obtain ⟨_, -, closed⟩ := checked
      exact Bool.eq_true_of_not_eq_false closed

section Closed
variable {P : Type} (world : ClosureWorld P)

def LiveLink (path : P) (issue : Nat) (row : LinkRow) : Prop :=
  ∃ key, world.linkKey path = .ok key ∧ row ∈ world.links ∧ row.repoKey = key ∧
    row.issueNumber = storedNumber issue ∧ row.status = .linked

/-- No live link of the number names another provider, a second scope or another external id. -/
structure LinksAgree (path : P) (issue : Nat) (provider : String) : Prop where
  provider : ∀ row, LiveLink world path issue row → row.provider = provider
  single : ∀ row other, LiveLink world path issue row → LiveLink world path issue other →
    row.project = other.project
  numbered : ∀ row, LiveLink world path issue row →
    Text.parseU64 row.externalId.toList = some issue

variable {world}

theorem mem_scopes {path : P} {issue : Nat} {found : List LinkScope}
    (read : scopes world path issue = .ok found) {row : LinkRow}
    (live : LiveLink world path issue row) : ⟨row.provider, row.project, row.externalId⟩ ∈ found := by
  obtain ⟨key, known, stored, owner, number, status⟩ := live
  simp only [scopes, known, bind_eq_ok, Except.ok.injEq] at read
  obtain ⟨_, rfl, read⟩ := read
  cases read
  apply List.mem_map_of_mem (f := fun row : LinkRow =>
    (⟨row.provider, row.project, row.externalId⟩ : LinkScope))
  rw [branchesForNumber, Sql.mem_orderAsc, List.mem_filter]
  exact ⟨stored, by simp [owner, number, status]⟩

theorem decideWith_closed {route : ClosureRoute} {path : P} {issue : Nat} {provider : String}
    {project : Option String} {read : Except String (Option IssueStateFact)}
    (closed : decideWith world route path issue provider project read = .closed) :
    (∃ fact, read = .ok (some fact) ∧ sameIgnoringCase fact.state "closed") ∧
      LinksAgree world path issue provider := by
  have passed := of_closed closed
  simp only [bind_eq_ok] at passed
  obtain ⟨found, listed, _, checked, answer, answered, rest⟩ := passed
  have uniform := uniform_of_checked checked
  constructor
  · cases answer with
    | none => cases rest
    | some fact => exact ⟨fact, answered, closed_of_checkFact rest⟩
  · constructor
    · exact fun row live => uniform.provider _ (mem_scopes listed live)
    · exact fun row other live live' => uniform.single _ (mem_scopes listed live) _ (mem_scopes listed live')
    · intro row live
      have numbered := uniform.numbered _ (mem_scopes listed live)
      exact numbered

end Closed

section Questions
variable {P : Type}

inductive Question (P : Type) where
  | closure (path : P) (issue : Nat)
  | ownTask (path : P) (task : TaskScopeRef) (issue : Nat)
  | associated (path : P) (issue : Nat)
  deriving DecidableEq

def Question.path : Question P → P
  | .closure path _ => path
  | .ownTask path _ _ => path
  | .associated path _ => path

def Question.issue : Question P → Nat
  | .closure _ issue => issue
  | .ownTask _ _ issue => issue
  | .associated _ issue => issue

def Question.tag : Question P → Nat
  | .closure _ _ => routeLegacy
  | .ownTask _ _ _ => routeOwn
  | .associated _ _ => routeAssociated

inductive SourceCall (P : Type) where
  | ask (question : Question P)
  | invalidate (path : P) (issues : List Nat)
  | refresh

inductive Dispatch where
  | configured | taskAware

variable (world : ClosureWorld P) (urls : UrlLibrary) (lossy : P → String) (reader : IssueStateReader P)

def readerOf : Dispatch → IssueStateReader P
  | .configured => configuredReader world
  | .taskAware => taskAwareReader world urls

def Question.verdict : Question P → IssueClosure
  | .closure path issue => decide world reader path issue
  | .ownTask path task issue => ownTaskVerdict world reader path task issue
  | .associated path issue => associatedVerdict world reader path issue

def Question.key (question : Question P) : CacheKey := (lossy question.path, question.tag, question.issue)

def SourceCall.perform : SourceCall P → Cache → Option IssueClosure × Cache
  | .ask (.closure path issue) => fun cache => (closure lossy world reader path issue cache).map some id
  | .ask (.ownTask path task issue) => fun cache =>
      (ownTaskClosure lossy world reader path task issue cache).map some id
  | .ask (.associated path issue) => fun cache =>
      (associatedClosure lossy world reader path issue cache).map some id
  | .invalidate path issues => fun cache => (none, Closure.invalidate lossy path issues cache)
  | .refresh => fun cache => (none, Closure.refresh cache)

def answers : List (SourceCall P) → Cache → List (Option IssueClosure)
  | [], _ => []
  | call :: rest, cache =>
      let (answer, cache) := call.perform world lossy reader cache
      answer :: answers rest cache

def SourceCall.fresh : SourceCall P → Option IssueClosure
  | .ask question => some (question.verdict world reader)
  | .invalidate _ _ => none
  | .refresh => none

def SourceCall.drops (path : P) (issue : Nat) : SourceCall P → Bool
  | .ask _ => false
  | .invalidate gone issues => lossy gone == lossy path && issues.contains issue
  | .refresh => true

/-- The paths asked about differ in their text, and the number of one task is not asked for another
task of the same number and path before it was invalidated. -/
structure Distinguished (calls : List (SourceCall P)) : Prop where
  paths : ∀ first second, .ask first ∈ calls → .ask second ∈ calls →
    lossy first.path = lossy second.path → first.path = second.path
  tasks : ∀ before path first issue between second after,
    calls = before ++ .ask (.ownTask path first issue) ::
      (between ++ .ask (.ownTask path second issue) :: after) →
    (∀ call ∈ between, call.drops lossy path issue = false) → first = second

/-- The provider that the route of a question names, and its way to read an issue. -/
inductive Route : Dispatch → Question P → String → GetIssue → Prop where
  | configured {dispatch path issue provider getIssue}
      (read : world.configured = .ok (provider, getIssue)) :
      Route dispatch (.closure path issue) provider getIssue
  | task {path task issue rows members binding getIssue} (stored : world.store = .ok (rows, members))
      (bound : bindingForTaskId urls rows task.taskId = .ok (some binding))
      (provider : binding.key.provider = task.provider) (project : binding.key.project = task.project)
      (inst : binding.key.inst = task.inst) (pinned : world.pinned binding = .ok getIssue) :
      Route .taskAware (.ownTask path task issue) task.provider getIssue
  | single {path issue key rows members task binding getIssue} (known : world.repoKey path = .ok key)
      (stored : world.store = .ok (rows, members))
      (one : bindingsForRepoNumber urls rows members key issue = .ok [task])
      (bound : bindingForTaskId urls rows task.taskId = .ok (some binding))
      (same : binding.key.provider = task.key.provider) (pinned : world.pinned binding = .ok getIssue) :
      Route .taskAware (.associated path issue) task.key.provider getIssue
  | unbound {path issue key rows members provider getIssue} (known : world.repoKey path = .ok key)
      (stored : world.store = .ok (rows, members))
      (none : bindingsForRepoNumber urls rows members key issue = .ok [])
      (read : world.configured = .ok (provider, getIssue)) :
      Route .taskAware (.associated path issue) provider getIssue
  | plain {path issue provider getIssue} (read : world.configured = .ok (provider, getIssue)) :
      Route .configured (.associated path issue) provider getIssue

section Memo
variable {world urls lossy reader}

def SourceCall.memo (lossy : P → String) : SourceCall P → Memo.Call (Question P) CacheKey
  | .ask question => .ask question
  | .invalidate path issues => .drop fun key => key.1 == lossy path && issues.contains key.2.2
  | .refresh => .drop fun _ => true

theorem perform_eq (call : SourceCall P) (cache : Cache) :
    call.perform world lossy reader cache =
      Memo.perform (Question.key lossy) (Question.verdict world reader) (call.memo lossy) cache := by
  cases call with
  | ask question => cases question <;> rfl
  | invalidate path issues =>
      simp only [SourceCall.perform, SourceCall.memo, Memo.perform, Memo.forget, Closure.invalidate,
        Bool.not_and]
      rfl
  | refresh => simp [SourceCall.perform, SourceCall.memo, Memo.perform, Memo.forget, Closure.refresh]

theorem answers_eq_memo (calls : List (SourceCall P)) (cache : Cache) :
    answers world lossy reader calls cache = Memo.answers (Question.key lossy)
      (Question.verdict world reader) (calls.map (SourceCall.memo lossy)) cache := by
  induction calls generalizing cache with
  | nil => rfl
  | cons call rest ih => simp only [answers, List.map_cons, Memo.answers, perform_eq, ih]

theorem fresh_eq_memo (call : SourceCall P) :
    call.fresh world reader = Memo.fresh (Question.verdict world reader) (call.memo lossy) := by
  cases call <;> rfl

theorem memo_ask {call : SourceCall P} {question : Question P}
    (same : call.memo lossy = .ask question) : call = .ask question := by
  cases call with
  | ask asked => cases same; rfl
  | invalidate path issues => cases same
  | refresh => cases same

theorem drops_eq {call : SourceCall P} {gone : CacheKey → Bool} (same : call.memo lossy = .drop gone)
    (path : P) (tag issue : Nat) : gone (lossy path, tag, issue) = call.drops lossy path issue := by
  cases call with
  | ask question => cases same
  | invalidate away issues =>
      cases same
      simp only [SourceCall.drops, Bool.beq_comm]
  | refresh => cases same; rfl

theorem same_question {first second : Question P} (path : first.path = second.path)
    (tag : first.tag = second.tag) (issue : first.issue = second.issue) :
    first = second ∨ ∃ path issue task task',
      first = .ownTask path task issue ∧ second = .ownTask path task' issue := by
  cases first with
  | closure path₁ issue₁ =>
      cases second with
      | closure path₂ issue₂ => cases path; cases issue; exact .inl rfl
      | ownTask path₂ task₂ issue₂ => cases tag
      | associated path₂ issue₂ => cases tag
  | ownTask path₁ task₁ issue₁ =>
      cases second with
      | closure path₂ issue₂ => cases tag
      | ownTask path₂ task₂ issue₂ => cases path; cases issue; exact .inr ⟨_, _, _, _, rfl, rfl⟩
      | associated path₂ issue₂ => cases tag
  | associated path₁ issue₁ =>
      cases second with
      | closure path₂ issue₂ => cases tag
      | ownTask path₂ task₂ issue₂ => cases tag
      | associated path₂ issue₂ => cases path; cases issue; exact .inl rfl

theorem Distinguished.steady {calls : List (SourceCall P)} (distinguished : Distinguished lossy calls) :
    Memo.Steady (Question.key lossy) (calls.map (SourceCall.memo lossy)) := by
  intro before first between second after split same kept
  obtain ⟨early, _, rfl, rfl, fromFirst⟩ := List.map_eq_append_iff.mp split
  obtain ⟨asked, _, rfl, asked', afterFirst⟩ := List.map_eq_cons_iff.mp fromFirst
  obtain ⟨middle, _, rfl, rfl, fromSecond⟩ := List.map_eq_append_iff.mp afterFirst
  obtain ⟨again, rest, rfl, again', rfl⟩ := List.map_eq_cons_iff.mp fromSecond
  obtain rfl := memo_ask asked'
  obtain rfl := memo_ask again'
  simp only [Question.key, Prod.mk.injEq] at same
  obtain ⟨text, tag, issue⟩ := same
  have path := distinguished.paths first second (by simp) (by simp) text
  cases same_question path tag issue with
  | inl same => exact same
  | inr tasks =>
      obtain ⟨place, number, task, task', rfl, rfl⟩ := tasks
      have one : task = task' := by
        refine distinguished.tasks early place task number middle task' rest rfl fun call among => ?_
        cases dropped : call.memo lossy with
        | ask question =>
            obtain rfl := memo_ask dropped
            rfl
        | drop gone =>
            rw [← drops_eq dropped place routeOwn number]
            exact kept gone (dropped ▸ List.mem_map_of_mem among)
      rw [one]

end Memo

section Routes
variable {world urls} {dispatch : Dispatch}

/-- The provider of the question's route read the issue as closed, and no live link disagrees. -/
def ClosedBy (world : ClosureWorld P) (urls : UrlLibrary) (dispatch : Dispatch)
    (question : Question P) : Prop :=
  ∃ provider getIssue fact, Route world urls dispatch question provider getIssue ∧
    getIssue question.issue = .ok fact ∧ sameIgnoringCase fact.state "closed" ∧
      LinksAgree world question.path question.issue provider

theorem readerOf_provider : (readerOf world urls dispatch).provider = world.configured.map Prod.fst := by
  cases dispatch <;> rfl

theorem readerOf_state : (readerOf world urls dispatch).state = configuredState world := by
  cases dispatch <;> rfl

theorem decide_closed {path : P} {issue : Nat}
    (closed : decide world (readerOf world urls dispatch) path issue = .closed) :
    ∃ provider getIssue fact, world.configured = .ok (provider, getIssue) ∧
      getIssue issue = .ok fact ∧ sameIgnoringCase fact.state "closed" ∧
        LinksAgree world path issue provider := by
  unfold decide at closed
  rw [readerOf_provider, readerOf_state] at closed
  cases configured : world.configured with
  | error reason =>
      rw [configured] at closed
      cases closed
  | ok chosen =>
      obtain ⟨provider, getIssue⟩ := chosen
      rw [configured] at closed
      obtain ⟨⟨fact, read, state⟩, agree⟩ := decideWith_closed closed
      simp only [configuredState, configured, ok_bind, bind_eq_ok, mapError_eq_ok] at read
      obtain ⟨fact', answered, same⟩ := read
      cases same
      exact ⟨provider, getIssue, fact, rfl, answered, state, agree⟩

theorem readTask_ok {rows : List BindingRow} {task : TaskScopeRef} {issue : Nat}
    {routed : TaskRouteFact} (read : readTask world urls rows task issue = .ok routed) :
    ∃ binding getIssue, bindingForTaskId urls rows task.taskId = .ok (some binding) ∧
      binding.key.provider = task.provider ∧ binding.key.project = task.project ∧
        binding.key.inst = task.inst ∧ world.pinned binding = .ok getIssue ∧
          getIssue issue = .ok routed.fact ∧ routed.provider = task.provider := by
  simp only [readTask, bind_eq_ok, mapError_eq_ok] at read
  obtain ⟨found, bound, rest⟩ := read
  cases found with
  | none => cases rest
  | some binding =>
      simp only [bind_eq_ok, mapError_eq_ok, refuse_eq_ok, not_or, not_not] at rest
      obtain ⟨_, ⟨provider, project, inst⟩, getIssue, pinned, fact, answered, same⟩ := rest
      cases same
      exact ⟨binding, getIssue, bound, provider, project, inst, pinned, answered, provider⟩

theorem ownTask_closed {path : P} {task : TaskScopeRef} {issue : Nat}
    (closed : ownTaskVerdict world (readerOf world urls dispatch) path task issue = .closed) :
    ClosedBy world urls dispatch (.ownTask path task issue) := by
  obtain ⟨⟨fact, read, state⟩, agree⟩ := decideWith_closed closed
  simp only [ownTaskRead, bind_eq_ok, refuse_eq_ok] at read
  obtain ⟨routed, answered, _, -, same⟩ := read
  cases same
  cases dispatch with
  | configured => cases answered
  | taskAware =>
      simp only [readerOf, taskAwareReader, bind_eq_ok] at answered
      obtain ⟨⟨rows, members⟩, stored, read⟩ := answered
      obtain ⟨binding, getIssue, bound, provider, project, inst, pinned, fact, -⟩ := readTask_ok read
      exact ⟨task.provider, getIssue, routed.fact,
        .task stored bound provider project inst pinned, fact, state, agree⟩

theorem associatedTaskState_ok {path : P} {issue : Nat} {found : Option TaskRouteFact}
    (read : associatedTaskState world urls path issue = .ok found) :
    ∃ key rows members, world.repoKey path = .ok key ∧ world.store = .ok (rows, members) ∧
      ((found = none ∧ bindingsForRepoNumber urls rows members key issue = .ok []) ∨
        ∃ single routed, found = some routed ∧
          bindingsForRepoNumber urls rows members key issue = .ok [single] ∧
            readTask world urls rows (taskRef single) issue = .ok routed) := by
  simp only [associatedTaskState, bind_eq_ok, mapError_eq_ok] at read
  obtain ⟨key, known, ⟨rows, members⟩, stored, tasks, listed, rest⟩ := read
  refine ⟨key, rows, members, known, stored, ?_⟩
  split at rest
  · cases rest
    exact .inl ⟨rfl, listed⟩
  · next single =>
      simp only [bind_eq_ok] at rest
      obtain ⟨routed, read, same⟩ := rest
      cases same
      exact .inr ⟨single, routed, rfl, listed, read⟩
  · cases rest

theorem associated_closed {path : P} {issue : Nat}
    (closed : associatedVerdict world (readerOf world urls dispatch) path issue = .closed) :
    ClosedBy world urls dispatch (.associated path issue) := by
  unfold associatedVerdict at closed
  cases dispatch with
  | configured =>
      obtain ⟨provider, getIssue, fact, configured, rest⟩ := decide_closed closed
      exact ⟨provider, getIssue, fact, .plain configured, rest⟩
  | taskAware =>
      split at closed
      · cases closed
      · next nothing =>
          obtain ⟨provider, getIssue, fact, configured, rest⟩ := decide_closed closed
          obtain ⟨key, rows, members, known, stored, found⟩ := associatedTaskState_ok nothing
          cases found with
          | inl empty => exact ⟨provider, getIssue, fact, .unbound known stored empty.2 configured, rest⟩
          | inr single =>
              obtain ⟨_, _, some, _⟩ := single
              cases some
      · next routed read =>
          obtain ⟨⟨fact, same, state⟩, agree⟩ := decideWith_closed closed
          cases same
          obtain ⟨key, rows, members, known, stored, found⟩ := associatedTaskState_ok read
          cases found with
          | inl empty => cases empty.1
          | inr single =>
              obtain ⟨single, _, some, one, read⟩ := single
              cases some
              obtain ⟨binding, getIssue, bound, provider, -, -, pinned, fact, named⟩ := readTask_ok read
              rw [named] at agree
              exact ⟨single.key.provider, getIssue, routed.fact,
                .single known stored one bound provider pinned, fact, state, agree⟩

theorem verdict_closed {question : Question P}
    (closed : question.verdict world (readerOf world urls dispatch) = .closed) :
    ClosedBy world urls dispatch question := by
  cases question with
  | closure path issue =>
      obtain ⟨provider, getIssue, fact, configured, rest⟩ := decide_closed closed
      exact ⟨provider, getIssue, fact, .configured configured, rest⟩
  | ownTask path task issue => exact ownTask_closed closed
  | associated path issue => exact associated_closed closed

/-- Over calls whose questions are told apart, a source answers as a fresh one does, and closes only
what the provider of the question's route reports closed. -/
theorem memo_transparent {calls : List (SourceCall P)} (distinguished : Distinguished lossy calls) :
    answers world lossy (readerOf world urls dispatch) calls [] =
        calls.map (SourceCall.fresh world (readerOf world urls dispatch)) ∧
      ∀ (i : Nat) question, calls[i]? = some (.ask question) →
        (answers world lossy (readerOf world urls dispatch) calls [])[i]? = some (some .closed) →
          ClosedBy world urls dispatch question := by
  have same : answers world lossy (readerOf world urls dispatch) calls [] =
      calls.map (SourceCall.fresh world (readerOf world urls dispatch)) := by
    rw [answers_eq_memo, Memo.answers_nil distinguished.steady, List.map_map]
    exact List.map_congr_left fun call _ => (fresh_eq_memo call).symm
  refine ⟨same, fun i question asked closed => ?_⟩
  rw [same, List.getElem?_map, asked] at closed
  exact verdict_closed (Option.some.inj (Option.some.inj closed))

end Routes

end Questions

section Forked

def forkedRow (taskId : Int) (project : String) : BindingRow :=
  ⟨taskId, "forgejo", "https://forgejo.test", project, "7", 1⟩

def forkedTask (taskId : Int) (project : String) : TaskScopeRef :=
  ⟨taskId, "forgejo", project, "https://forgejo.test"⟩

def forkedWorld : ClosureWorld String where
  linkKey _ := .ok "repo"
  repoKey _ := .ok "repo"
  links := []
  store := .ok ([forkedRow 1 "owner/repo", forkedRow 2 "owner/other"], [⟨"repo", 1, 1⟩, ⟨"repo", 2, 1⟩])
  configured := .error "no provider is configured"
  pinned binding := .ok fun _ =>
    .ok ⟨if binding.key.project = "owner/repo" then "closed" else "open", none, none⟩

def forkedCalls (between : List (SourceCall String)) : List (SourceCall String) :=
  .ask (.ownTask "." (forkedTask 1 "owner/repo") 7) ::
    (between ++ [.ask (.ownTask "." (forkedTask 2 "owner/other") 7)])

def forkedAnswers (between : List (SourceCall String)) : List (Option IssueClosure) :=
  answers forkedWorld id (readerOf forkedWorld forgejoTest .taskAware) (forkedCalls between) []

/-- The second task of a number is answered by the memo of the first. -/
theorem own_task_memo_stale :
    forkedAnswers [] = [some .closed, some .closed] ∧
      (forkedCalls []).map (SourceCall.fresh forkedWorld (readerOf forkedWorld forgejoTest .taskAware)) =
        [some .closed, some (.keep "issue 7 state 'open' is not closed")] := by
  decide +kernel

theorem forked_distinguished : Distinguished id (forkedCalls [.invalidate "." [7]]) where
  paths first second _ _ same := same
  tasks before path first issue between second after split kept := by
    cases before with
    | nil =>
        cases between with
        | nil => simp [forkedCalls] at split
        | cons call more =>
            simp only [forkedCalls, List.nil_append, List.cons_append, List.cons.injEq,
              SourceCall.ask.injEq, Question.ownTask.injEq] at split
            obtain ⟨⟨rfl, -, rfl⟩, rfl, -⟩ := split
            exact absurd (kept _ List.mem_cons_self) (by decide)
    | cons call before =>
        simp only [forkedCalls, List.cons_append, List.nil_append, List.cons.injEq] at split
        obtain ⟨-, split⟩ := split
        have short := congrArg List.length split
        simp only [List.length_cons, List.length_nil, List.length_append] at short
        obtain rfl : before = [] := List.eq_nil_of_length_eq_zero (by omega)
        simp at split

theorem forked_invalidated :
    Distinguished id (forkedCalls [.invalidate "." [7]]) ∧
      forkedAnswers [.invalidate "." [7]] =
        (forkedCalls [.invalidate "." [7]]).map
          (SourceCall.fresh forkedWorld (readerOf forkedWorld forgejoTest .taskAware)) ∧
        ClosedBy forkedWorld forgejoTest .taskAware (.ownTask "." (forkedTask 1 "owner/repo") 7) := by
  have transparent := @memo_transparent String forkedWorld forgejoTest id .taskAware _ forked_distinguished
  exact ⟨forked_distinguished, transparent.1, transparent.2 0 _ rfl (by decide)⟩

end Forked

end Phasegent.Closure
