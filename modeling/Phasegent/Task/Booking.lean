import Phasegent.Task.Routing

namespace Phasegent.Task
open Fallible Sql Phasegent.Lease

section Booking
variable (urls : UrlLibrary)

-- As `readReference`, with the other spacing of its last message.
def readBranchReference (bindings : List BindingRow) (number : Nat) (taskId : Int) :
    Except PhasegentError TaskBinding := do
  let found ← (bindingForTaskId urls bindings taskId).mapError .config
  match found with
  | none =>
      throw (.config ("branch task reference " ++ toString taskId ++ " has no durable task binding"))
  | some binding => do
      refuse (binding.key.externalNumber ≠ some number)
        (.config ("branch link for number " ++ toString number ++ " references a different " ++
          "durable task; refusing to redirect the requested number"))
      return binding

-- The first reference of the branch under the number decides.
def resolveTaskForRepoIn (store : IdentityStore) (repo : Option (String × String)) (number : Nat) :
    Except PhasegentError (Option TaskBinding) :=
  match store.bindings, repo with
  | some bindings, some (repoKey, branch) =>
      match branchNumberRefs store.links repoKey branch number with
      | taskId :: _ => do
          let binding ← readBranchReference urls bindings number taskId
          return some binding
      | [] =>
          match store.memberships with
          | none => return none
          | some memberships => do
              let candidates ← (bindingsForRepoNumber urls bindings memberships repoKey number).mapError .config
              match candidates with
              | [] => return none
              | [binding] => return some binding
              | _ => throw ambiguous
  | _, _ => return none

end Booking

section Agreement
variable {urls : UrlLibrary} {store : IdentityStore} {repo : Option (String × String)} {number : Nat}
  {rows : List BindingRow} {repoKey branch : String}

inductive SameAnswer : Except PhasegentError (Option TaskBinding) →
    Except PhasegentError (Option TaskBinding) → Prop
  | answered (answer : Option TaskBinding) : SameAnswer (.ok answer) (.ok answer)
  | failed (first second : PhasegentError) : SameAnswer (.error first) (.error second)

theorem SameAnswer.iff {first second : Except PhasegentError (Option TaskBinding)} :
    SameAnswer first second ↔ ∀ answer, first = .ok answer ↔ second = .ok answer := by
  constructor
  · intro same answer
    cases same <;> simp
  · intro agrees
    cases first with
    | ok answer =>
        rw [(agrees answer).mp rfl]
        exact .answered answer
    | error failure =>
        cases second with
        | ok answer => cases (agrees answer).mpr rfl
        | error failure' => exact .failed failure failure'

variable (urls store repo number) in
/-- The branch has one reference under the number at most, or the first of them is no task of the number. -/
def Unequivocal : Prop :=
  ∀ rows repoKey branch taskId others, store.bindings = some rows → repo = some (repoKey, branch) →
    branchNumberRefs store.links repoKey branch number = taskId :: others → others ≠ [] →
      ∀ binding, readBranchReference urls rows number taskId ≠ .ok binding

theorem matches_unselected (binding : TaskBinding) : bindingMatchesContext urls unselected binding = .ok true := by
  simp [bindingMatchesContext, fieldsMatchContext, unselected, endpointMatches, refuse]

theorem confirm_unselected (candidates : List TaskBinding) :
    confirmCandidate urls unselected candidates = .ok candidates.head? := by
  cases candidates with
  | nil => rfl
  | cons binding rest => simp [confirmCandidate, matches_unselected, refuse]

variable (urls) in
theorem selectOne_unselected (candidates : List TaskBinding) : ∃ e, selectOne urls unselected candidates = .error e := by
  cases selected : keep (bindingMatchesContext urls unselected) candidates with
  | error e => exact ⟨e, by simp [selectOne, selected]⟩
  | ok chosen =>
      refine ⟨ambiguous, ?_⟩
      have implicit : unselected.explicit = false := rfl
      simp only [selectOne, selected, ok_bind, implicit, true_or, refuse, if_true, error_bind]

theorem readBranchReference_ok {taskId : Int} {binding : TaskBinding} :
    readBranchReference urls rows number taskId = .ok binding ↔
      readReference urls rows number taskId = .ok binding := by
  simp only [readBranchReference, readReference, bind_eq_ok, mapError_eq_ok]
  apply exists_congr
  intro found
  cases found with
  | none => simp
  | some binding => simp [bind_eq_ok]

theorem resolveNumberBinding_eq (tables : store.bindings = some rows) :
    resolveNumberBinding urls (some store) repo unselected number = (do
      let referenced ← branchCandidates urls rows store.links repo number
      let candidates ← (if referenced = [] then
        memberCandidates urls rows store.memberships repo unselected number else .ok referenced)
      return candidates.head?) := by
  simp only [resolveNumberBinding, tables, confirm_unselected]
  rfl

theorem several_fail {taskId : Int} {others : List Int} (tables : store.bindings = some rows)
    (refs : branchNumberRefs store.links repoKey branch number = taskId :: others) (several : others ≠ []) :
    ∃ e, resolveNumberBinding urls (some store) (some (repoKey, branch)) unselected number = .error e := by
  rw [resolveNumberBinding_eq tables]
  cases chosen : branchCandidates urls rows store.links (some (repoKey, branch)) number with
  | error e => exact ⟨e, rfl⟩
  | ok candidates =>
      obtain ⟨read, few⟩ := branchCandidates_ok.mp chosen
      have length := (mapM_eq_ok.mp read).length_eq
      rw [refs, List.length_cons] at length
      have more := List.length_pos_of_ne_nil several
      omega

theorem single_agrees {taskId : Int} (tables : store.bindings = some rows)
    (refs : branchNumberRefs store.links repoKey branch number = [taskId]) :
    SameAnswer (resolveTaskForRepoIn urls store (some (repoKey, branch)) number)
      (resolveNumberBinding urls (some store) (some (repoKey, branch)) unselected number) := by
  rw [SameAnswer.iff, resolveNumberBinding_eq tables]
  intro answer
  simp only [resolveTaskForRepoIn, tables, refs, bind_eq_ok, readBranchReference_ok, branchCandidates_ok,
    List.mapM_cons, List.mapM_nil, Fallible.pure_eq, Except.ok.injEq]
  constructor
  · rintro ⟨binding, read, rfl⟩
    exact ⟨[binding], ⟨⟨binding, read, [], rfl, rfl⟩, by simp⟩, [binding], by simp, rfl⟩
  · rintro ⟨_, ⟨⟨binding, read, _, rfl, rfl⟩, -⟩, chosen, same, rfl⟩
    rw [if_neg (List.cons_ne_nil _ _)] at same
    cases same
    exact ⟨binding, read, rfl⟩

theorem members_agree (tables : store.bindings = some rows)
    (refs : branchNumberRefs store.links repoKey branch number = []) :
    SameAnswer (resolveTaskForRepoIn urls store (some (repoKey, branch)) number)
      (resolveNumberBinding urls (some store) (some (repoKey, branch)) unselected number) := by
  rw [resolveNumberBinding_eq tables]
  have unreferenced : branchCandidates urls rows store.links (some (repoKey, branch)) number = .ok [] := by
    simp [branchCandidates, refs, refuse]
  simp only [resolveTaskForRepoIn, tables, refs, unreferenced, ok_bind, if_true, memberCandidates]
  cases store.memberships with
  | none => exact .answered none
  | some members =>
      cases read : bindingsForRepoNumber urls rows members repoKey number with
      | error failure =>
          simp only [read, Except.mapError, error_bind]
          exact .failed _ _
      | ok found =>
          simp only [read, Except.mapError, ok_bind]
          cases found with
          | nil => exact .answered none
          | cons first rest =>
              cases rest with
              | nil => exact .answered (some first)
              | cons second rest =>
                  obtain ⟨e, failed⟩ := selectOne_unselected urls (first :: second :: rest)
                  have several : 1 < (first :: second :: rest).length := by simp
                  rw [if_pos several, failed]
                  exact .failed _ _

theorem first_answers {taskId : Int} {others : List Int} {binding : TaskBinding} (tables : store.bindings = some rows)
    (refs : branchNumberRefs store.links repoKey branch number = taskId :: others) :
    resolveTaskForRepoIn urls store (some (repoKey, branch)) number = .ok (some binding) ↔
      readBranchReference urls rows number taskId = .ok binding := by
  simp [resolveTaskForRepoIn, tables, refs, bind_eq_ok]

theorem unequivocal_iff (tables : store.bindings = some rows) :
    Unequivocal urls store (some (repoKey, branch)) number ↔
      ∀ taskId others, branchNumberRefs store.links repoKey branch number = taskId :: others → others ≠ [] →
        ∀ binding, readBranchReference urls rows number taskId ≠ .ok binding := by
  constructor
  · intro unequivocal taskId others
    exact unequivocal rows repoKey branch taskId others tables rfl
  · intro read rows' repoKey' branch' taskId others tables' located refs
    obtain rfl := Option.some.inj (tables.symm.trans tables')
    cases located
    exact read taskId others refs

theorem several_agree_iff {taskId : Int} {others : List Int} (tables : store.bindings = some rows)
    (refs : branchNumberRefs store.links repoKey branch number = taskId :: others) (several : others ≠ []) :
    SameAnswer (resolveTaskForRepoIn urls store (some (repoKey, branch)) number)
        (resolveNumberBinding urls (some store) (some (repoKey, branch)) unselected number) ↔
      ∀ binding, readBranchReference urls rows number taskId ≠ .ok binding := by
  obtain ⟨e, failed⟩ : ∃ e, resolveNumberBinding urls (some store) (some (repoKey, branch)) unselected number =
      .error e := several_fail tables refs several
  rw [failed]
  constructor
  · intro same binding read
    rw [(first_answers tables refs).mpr read] at same
    cases same
  · intro unread
    cases answer : resolveTaskForRepoIn urls store (some (repoKey, branch)) number with
    | error e' => exact .failed e' e
    | ok found =>
        simp only [resolveTaskForRepoIn, tables, refs, bind_eq_ok] at answer
        obtain ⟨binding, read, -⟩ := answer
        exact absurd read (unread binding)

/-- The timer and the numbered commands take the same task exactly where no branch has several references
of the number of which the first is read. -/
theorem booked_iff : SameAnswer (resolveTaskForRepoIn urls store repo number)
    (resolveNumberBinding urls (some store) repo unselected number) ↔ Unequivocal urls store repo number := by
  cases tables : store.bindings with
  | none =>
      have first : resolveTaskForRepoIn urls store repo number = .ok none := by simp [resolveTaskForRepoIn, tables]
      have second : resolveNumberBinding urls (some store) repo unselected number = .ok none := by
        simp [resolveNumberBinding, tables]
      rw [first, second]
      simp [SameAnswer.answered, Unequivocal, tables]
  | some rows =>
      cases located : repo with
      | none =>
          have first : resolveTaskForRepoIn urls store none number = .ok none := by
            simp [resolveTaskForRepoIn, tables]
          have second : resolveNumberBinding urls (some store) none unselected number = .ok none := by
            simp [resolveNumberBinding_eq tables, branchCandidates, memberCandidates]
          rw [first, second]
          simp [SameAnswer.answered, Unequivocal]
      | some place =>
          obtain ⟨repoKey, branch⟩ := place
          rw [unequivocal_iff tables]
          cases refs : branchNumberRefs store.links repoKey branch number with
          | nil => simp [members_agree tables refs]
          | cons taskId others =>
              by_cases several : others = []
              · rw [several] at refs
                simp [single_agrees tables refs, several]
              · simp [several_agree_iff tables refs several, several]

/-- The branch references two tasks of the number: the timer takes the first, the commands refuse. -/
theorem first_reference_booked : ¬SameAnswer
    (resolveTaskForRepoIn forgejoTest (twoTasks [linkTo forgejoTask, linkTo redmineTask]) (some ("repo", "work")) 7)
    (resolveNumberBinding forgejoTest (some (twoTasks [linkTo forgejoTask, linkTo redmineTask]))
      (some ("repo", "work")) unselected 7) := by
  have booked : resolveTaskForRepoIn forgejoTest (twoTasks [linkTo forgejoTask, linkTo redmineTask])
      (some ("repo", "work")) 7 = .ok (some forgejoTask) := by decide
  have refused : resolveNumberBinding forgejoTest (some (twoTasks [linkTo forgejoTask, linkTo redmineTask]))
      (some ("repo", "work")) unselected 7 = .error ambiguous := by decide
  rw [booked, refused]
  intro same
  cases same

end Agreement

end Phasegent.Task
