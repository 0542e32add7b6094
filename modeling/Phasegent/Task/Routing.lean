import Phasegent.Task.Canonical
import Phasegent.Task.Route

namespace Phasegent.Task
open Fallible Sql Phasegent.Lease

section Selection
variable (urls : UrlLibrary)

/-- Every explicit selector names what the task carries: its provider, the repository of a Forgejo
task, the project of a Redmine task, the instance of either. -/
structure Agrees (context : ProviderContext) (key : TaskKey) : Prop where
  provider : ∀ kind, context.provider = some kind → key.provider = kind.asStr
  repository : ∀ repository, context.repository = some repository →
    key.provider = "forgejo" ∧ key.project = repository
  project : ∀ project, context.projectId = some project →
    key.provider = "redmine" ∧ key.project = project
  endpoint : ∀ base, context.apiBase = some base → ∃ kind ∈ [ProviderKind.forgejo, .redmine],
    key.provider = kind.asStr ∧ canonicalInstance urls kind (some base) key.project = .ok key.inst

variable (store : IdentityStore) (repo : Option (String × String)) (number : Nat)

def References (row : LinkRow) : Prop :=
  ∃ links repoKey branch, store.links = some links ∧ repo = some (repoKey, branch) ∧ row ∈ links ∧
    row.repoKey = repoKey ∧ row.branch = branch ∧ row.taskId.isSome ∧ asU64 row.issueNumber = number

def Bound (binding : TaskBinding) : Prop :=
  ∃ rows row, store.bindings = some rows ∧ row ∈ rows ∧ decodeBinding urls row = .ok binding

def MemberOf (binding : TaskBinding) : Prop :=
  ∃ members member repoKey branch, store.memberships = some members ∧ repo = some (repoKey, branch) ∧
    member ∈ members ∧ member.repoKey = repoKey ∧ member.taskId = binding.taskId

def ReferencedByBranch (binding : TaskBinding) : Prop :=
  ∃ row, References store repo number row ∧ row.taskId = some binding.taskId

/-- The tasks that may own the number: those the branch references under it, and those of the
repository when the branch references none. -/
structure Candidate (binding : TaskBinding) : Prop where
  bound : Bound urls store binding
  numbered : binding.key.externalNumber = some number
  source : ReferencedByBranch store repo number binding ∨
    (∀ row, ¬References store repo number row) ∧ MemberOf store repo binding

/-- Several candidates, of which the selectors agree with this one only. -/
structure Decisive (context : ProviderContext) (binding : TaskBinding) : Prop where
  candidate : Candidate urls store repo number binding
  several : ∃ other, other ≠ binding ∧ Candidate urls store repo number other
  agrees : Agrees urls context binding.key
  only : ∀ other, Candidate urls store repo number other → Agrees urls context other.key →
    other = binding

def ProviderOpen (context : ProviderContext) (key : TaskKey) : Prop :=
  ∀ kind, context.provider = some kind → key.provider = kind.asStr

def EndpointIs (kind : ProviderKind) (context : ProviderContext) (key : TaskKey) : Prop :=
  ∀ base, context.apiBase = some base → canonicalInstance urls kind (some base) key.project = .ok key.inst

def EndpointOther (kind : ProviderKind) (context : ProviderContext) (key : TaskKey) : Prop :=
  ∃ base inst, context.apiBase = some base ∧
    canonicalInstance urls kind (some base) key.project = .ok inst ∧ inst ≠ key.inst

/-- The selectors accept the task. A Forgejo task wants its repository and endpoint and neither a
project nor a close status, a Redmine task its project and endpoint, whatever the repository, and a
Local task no remote selector. -/
structure TakesUp (context : ProviderContext) (key : TaskKey) : Prop where
  provider : ProviderOpen context key
  forgejo : key.provider = "forgejo" → context.projectId = none ∧ context.closeStatusId = none ∧
    (∀ repository, context.repository = some repository → repository = key.project) ∧
    EndpointIs urls .forgejo context key
  redmine : key.provider = "redmine" →
    (∀ project, context.projectId = some project → project = key.project) ∧
    EndpointIs urls .redmine context key
  localStore : key.provider = "local" →
    context.apiBase = none ∧ context.repository = none ∧ context.projectId = none

/-- The selectors turn the task away without an error: they name another provider; for a Forgejo
task, without a project or a close status, another repository or an endpoint that settles on another
instance; for a Redmine task another project or such an endpoint; for a Local task anything
remote. -/
def TurnsAway (context : ProviderContext) (key : TaskKey) : Prop :=
  ¬ProviderOpen context key ∨
    (key.provider = "forgejo" ∧ context.projectId = none ∧ context.closeStatusId = none ∧
      ((∃ repository, context.repository = some repository ∧ repository ≠ key.project) ∨
        EndpointOther urls .forgejo context key)) ∨
    (key.provider = "redmine" ∧
      ((∃ project, context.projectId = some project ∧ project ≠ key.project) ∨
        EndpointOther urls .redmine context key)) ∨
    (key.provider = "local" ∧
      (context.apiBase ≠ none ∨ context.repository ≠ none ∨ context.projectId ≠ none))

-- A task of the repository that is recorded under the plain decimal text of the number.
structure Listed (binding : TaskBinding) : Prop where
  bound : Bound urls store binding
  member : MemberOf store repo binding
  text : binding.key.externalId = toString number

/-- The memberships of the number can be read: the tables are there, the repository key is a valid
one, the number fits, and every row that a membership leads to decodes. -/
def MembersRead : Prop :=
  ∃ rows members repoKey branch, store.bindings = some rows ∧ store.memberships = some members ∧
    repo = some (repoKey, branch) ∧ validateRepoKey repoKey = .ok repoKey ∧ 0 < number ∧
    number ≤ i64Max ∧ ∀ row ∈ rows, row.externalId = toString number →
      (∃ member ∈ members, member.repoKey = repoKey ∧ member.taskId = row.taskId) →
      ∃ binding, decodeBinding urls row = .ok binding

def Unreferenced : Prop := ∀ row, ¬References store repo number row

/-- The one reference of the branch under the number leads to the task, and the selectors accept
it. -/
structure SoleReference (context : ProviderContext) (binding : TaskBinding) : Prop where
  here : ∃ repoKey branch, repo = some (repoKey, branch) ∧
    branchNumberRefs store.links repoKey branch number = [binding.taskId]
  bound : Bound urls store binding
  numbered : binding.key.externalNumber = some number
  taken : TakesUp urls context binding.key

/-- The memberships decide and can be read, and the selectors accept this task and turn every other
one away. -/
structure SoleMember (context : ProviderContext) (binding : TaskBinding) : Prop where
  unreferenced : Unreferenced store repo number
  readable : MembersRead urls store repo number
  listed : Listed urls store repo number binding
  taken : TakesUp urls context binding.key
  others : ∀ other, Listed urls store repo number other → other ≠ binding →
    TurnsAway urls context other.key

/-- What it takes for the one task that the selectors agree with to be found. -/
structure Followed (context : ProviderContext) (binding : TaskBinding) : Prop where
  unreferenced : Unreferenced store repo number
  readable : MembersRead urls store repo number
  text : binding.key.externalId = toString number
  status : binding.key.provider = "forgejo" → context.closeStatusId = none
  others : ∀ other, Listed urls store repo number other → other ≠ binding →
    TurnsAway urls context other.key

end Selection

section Matching
variable {urls : UrlLibrary} {context : ProviderContext}

theorem endpointMatches_ok {kind : ProviderKind} {apiBase : Option String} {project inst : String} :
    endpointMatches urls kind apiBase project inst = .ok true ↔
      ∀ base, apiBase = some base → canonicalInstance urls kind (some base) project = .ok inst := by
  cases apiBase with
  | none => simp [endpointMatches]
  | some base => simp [endpointMatches, normalizeInstance]

theorem endpointMatches_mismatch {kind : ProviderKind} {key : TaskKey} :
    endpointMatches urls kind context.apiBase key.project key.inst = .ok false ↔
      EndpointOther urls kind context key := by
  unfold EndpointOther
  cases context.apiBase with
  | none => simp [endpointMatches]
  | some base => simp [endpointMatches, normalizeInstance]

theorem providerOpen_iff {key : TaskKey} :
    ProviderOpen context key ↔ context.provider.any (·.asStr != key.provider) = false := by
  unfold ProviderOpen
  cases context.provider with
  | none => simp
  | some kind =>
      simp only [Option.some.injEq, forall_eq', Option.any_some, bne_eq_false_iff_eq]
      exact eq_comm

section Screening
variable {selected : Option String} {project : String} {rest : Except PhasegentError Bool}

theorem screened_ok : (if selected.any (· != project) then return false else rest) = .ok true ↔
    (∀ text, selected = some text → text = project) ∧ rest = .ok true := by
  cases selected with
  | none => simp
  | some text => by_cases same : text = project <;> simp [same]

theorem screened_mismatch : (if selected.any (· != project) then return false else rest) = .ok false ↔
    (∃ text, selected = some text ∧ text ≠ project) ∨ rest = .ok false := by
  cases selected with
  | none => simp
  | some text => by_cases same : text = project <;> simp [same]

end Screening

section Kinds
variable {key : TaskKey}

theorem matches_closed (closed : ¬ProviderOpen context key) :
    fieldsMatchContext urls key.provider key.inst key.project context = .ok false := by
  rw [fieldsMatchContext, if_pos (by simpa [providerOpen_iff] using closed)]
  rfl

theorem matches_forgejo (opened : ProviderOpen context key) (forgejo : key.provider = "forgejo")
    {answer : Bool} :
    fieldsMatchContext urls key.provider key.inst key.project context = .ok answer ↔
      (context.projectId = none ∧ context.closeStatusId = none) ∧
        (if context.repository.any (· != key.project) then return false
          else endpointMatches urls .forgejo context.apiBase key.project key.inst) = .ok answer := by
  rw [fieldsMatchContext, if_neg (by simp [providerOpen_iff.mp opened]), if_pos forgejo]
  simp only [bind_eq_ok, refuse_eq_ok, not_or, Bool.not_eq_true, Option.isSome_eq_false_iff,
    Option.isNone_iff_eq_none]
  constructor
  · rintro ⟨_, silent, rest⟩
    exact ⟨silent, rest⟩
  · rintro ⟨silent, rest⟩
    exact ⟨(), silent, rest⟩

theorem matches_redmine (opened : ProviderOpen context key) (redmine : key.provider = "redmine") :
    fieldsMatchContext urls key.provider key.inst key.project context =
      if context.projectId.any (· != key.project) then return false
      else endpointMatches urls .redmine context.apiBase key.project key.inst := by
  rw [fieldsMatchContext, if_neg (by simp [providerOpen_iff.mp opened]),
    if_neg (by simp [redmine]), if_pos redmine]

theorem matches_local (opened : ProviderOpen context key) (here : key.provider = "local") :
    fieldsMatchContext urls key.provider key.inst key.project context =
      .ok (context.apiBase.isNone && context.repository.isNone && context.projectId.isNone) := by
  rw [fieldsMatchContext, if_neg (by simp [providerOpen_iff.mp opened]),
    if_neg (by simp [here]), if_neg (by simp [here]), if_pos here]
  rfl

end Kinds

theorem matches_iff {key : TaskKey} {kind : ProviderKind} (kinded : key.provider = kind.asStr) :
    fieldsMatchContext urls key.provider key.inst key.project context = .ok true ↔
      TakesUp urls context key := by
  by_cases opened : ProviderOpen context key
  · cases kind with
    | forgejo =>
        have forgejo : key.provider = "forgejo" := kinded
        rw [matches_forgejo opened forgejo, screened_ok, endpointMatches_ok]
        constructor
        · rintro ⟨silent, named, endpoint⟩
          exact ⟨opened, fun _ => ⟨silent.1, silent.2, named, endpoint⟩, by simp [forgejo],
            by simp [forgejo]⟩
        · intro taken
          obtain ⟨project, status, named, endpoint⟩ := taken.forgejo forgejo
          exact ⟨⟨project, status⟩, named, endpoint⟩
    | redmine =>
        have redmine : key.provider = "redmine" := kinded
        rw [matches_redmine opened redmine, screened_ok, endpointMatches_ok]
        constructor
        · intro accepted
          exact ⟨opened, by simp [redmine], fun _ => accepted, by simp [redmine]⟩
        · exact fun taken => taken.redmine redmine
    | localStore =>
        have here : key.provider = "local" := kinded
        rw [matches_local opened here]
        simp only [Except.ok.injEq, Bool.and_eq_true, Option.isNone_iff_eq_none]
        constructor
        · intro silent
          exact ⟨opened, by simp [here], by simp [here], fun _ => ⟨silent.1.1, silent.1.2, silent.2⟩⟩
        · intro taken
          obtain ⟨base, repository, project⟩ := taken.localStore here
          exact ⟨⟨base, repository⟩, project⟩
  · rw [matches_closed opened]
    constructor
    · intro accepted
      cases accepted
    · exact fun taken => absurd taken.provider opened

theorem mismatches_iff {key : TaskKey} {kind : ProviderKind} (kinded : key.provider = kind.asStr) :
    fieldsMatchContext urls key.provider key.inst key.project context = .ok false ↔
      TurnsAway urls context key := by
  by_cases opened : ProviderOpen context key
  · cases kind with
    | forgejo =>
        have forgejo : key.provider = "forgejo" := kinded
        rw [matches_forgejo opened forgejo, screened_mismatch, endpointMatches_mismatch]
        simp [TurnsAway, opened, forgejo, and_assoc]
    | redmine =>
        have redmine : key.provider = "redmine" := kinded
        rw [matches_redmine opened redmine, screened_mismatch, endpointMatches_mismatch]
        simp [TurnsAway, opened, redmine]
    | localStore =>
        have here : key.provider = "local" := kinded
        rw [matches_local opened here]
        simp only [TurnsAway, opened, here, not_true_eq_false, String.reduceEq, false_and, true_and,
          false_or, Except.ok.injEq, Bool.and_eq_false_iff, Option.isNone_eq_false_iff,
          Option.isSome_iff_ne_none, or_assoc]
  · rw [matches_closed opened]
    simp [TurnsAway, opened]

theorem takesUp_of_agrees {key : TaskKey} (agrees : Agrees urls context key) :
    TakesUp urls context key ↔ (key.provider = "forgejo" → context.closeStatusId = none) := by
  have endpoint : ∀ own ∈ [ProviderKind.forgejo, .redmine], key.provider = own.asStr →
      EndpointIs urls own context key := by
    intro own _ named base given
    obtain ⟨kind', among, named', settles⟩ := agrees.endpoint base given
    have same : kind'.asStr = own.asStr := named'.symm.trans named
    obtain rfl : kind' = own := by
      revert same
      cases kind' <;> cases own <;> decide
    exact settles
  constructor
  · exact fun taken forgejo => (taken.forgejo forgejo).2.1
  · intro status
    constructor
    · exact agrees.provider
    · intro forgejo
      have unset : context.projectId = none := by
        rw [Option.eq_none_iff_forall_ne_some]
        intro project given
        simpa [forgejo] using (agrees.project project given).1
      exact ⟨unset, status forgejo, fun repository given => (agrees.repository repository given).2.symm,
        endpoint .forgejo (by simp) forgejo⟩
    · intro redmine
      exact ⟨fun project given => (agrees.project project given).2.symm,
        endpoint .redmine (by simp) redmine⟩
    · intro here
      refine ⟨?_, ?_, ?_⟩ <;> rw [Option.eq_none_iff_forall_ne_some]
      · intro base given
        obtain ⟨kind', among, named, -⟩ := agrees.endpoint base given
        rw [here] at named
        cases kind' <;> simp [ProviderKind.asStr] at named among
      · intro repository given
        simpa [here] using (agrees.repository repository given).1
      · intro project given
        simpa [here] using (agrees.project project given).1

theorem agrees_of_takesUp {key : TaskKey} {kind : ProviderKind} (kinded : key.provider = kind.asStr)
    (taken : TakesUp urls context key) :
    Agrees urls context key ↔ (key.provider = "redmine" → context.repository = none) := by
  cases kind with
  | forgejo =>
      have forgejo : key.provider = "forgejo" := kinded
      obtain ⟨project, status, named, endpoint⟩ := taken.forgejo forgejo
      simp only [forgejo, String.reduceEq, false_implies, iff_true]
      exact ⟨taken.provider, fun _ given => ⟨forgejo, (named _ given).symm⟩,
        fun _ given => by simp [project] at given,
        fun base given => ⟨.forgejo, by simp, forgejo, endpoint base given⟩⟩
  | redmine =>
      have redmine : key.provider = "redmine" := kinded
      obtain ⟨named, endpoint⟩ := taken.redmine redmine
      constructor
      · intro agrees _
        by_contra given
        obtain ⟨repository, given⟩ := Option.ne_none_iff_exists'.mp given
        simpa [redmine] using (agrees.repository repository given).1
      · intro silent
        exact ⟨taken.provider, fun _ given => by simp [silent redmine] at given,
          fun _ given => ⟨redmine, (named _ given).symm⟩,
          fun base given => ⟨.redmine, by simp, redmine, endpoint base given⟩⟩
  | localStore =>
      have here : key.provider = "local" := kinded
      obtain ⟨base, repository, project⟩ := taken.localStore here
      simp only [here, String.reduceEq, false_implies, iff_true]
      exact ⟨taken.provider, by simp [repository], by simp [project], by simp [base]⟩

theorem explicit_of_mismatch {provider inst project : String}
    (mismatched : fieldsMatchContext urls provider inst project context = .ok false) :
    context.explicit = true := by
  by_contra silent
  simp only [ProviderContext.explicit, Bool.not_eq_true, Bool.or_eq_false_iff,
    Option.isSome_eq_false_iff, Option.isNone_iff_eq_none] at silent
  obtain ⟨⟨⟨provider', repository⟩, project'⟩, apiBase⟩ := silent
  simp only [fieldsMatchContext, provider', repository, project', apiBase, endpointMatches] at mismatched
  simp only [Option.any_none, Bool.false_eq_true, if_false] at mismatched
  split at mismatched
  · simp at mismatched
  split at mismatched
  · simp at mismatched
  split at mismatched
  · simp at mismatched
  · simp at mismatched

theorem selectOne_ok {candidates selected : List TaskBinding} :
    selectOne urls context candidates = .ok selected ↔ context.explicit = true ∧
      (∀ candidate ∈ candidates, ∃ b, bindingMatchesContext urls context candidate = .ok b) ∧
      candidates.filter (accepts (bindingMatchesContext urls context)) = selected ∧
      selected.length = 1 := by
  simp only [selectOne, bind_eq_ok, refuse_eq_ok, keep_eq_ok, Fallible.pure_eq, Except.ok.injEq]
  constructor
  · rintro ⟨_, ⟨judged, rfl⟩, -, told, -, single, rfl⟩
    have filled := List.length_pos_iff.mpr fun empty => told (.inr empty)
    exact ⟨by simpa using fun silent => told (.inl silent), judged, rfl, by omega⟩
  · rintro ⟨told, judged, rfl, single⟩
    refine ⟨_, ⟨judged, rfl⟩, (), ?_, (), by omega, rfl⟩
    have filled := List.length_pos_iff.mp (by omega : 0 < (candidates.filter
      (accepts (bindingMatchesContext urls context))).length)
    simp [told, filled]

theorem confirmCandidate_ok {candidates : List TaskBinding} {binding : TaskBinding} :
    confirmCandidate urls context candidates = .ok (some binding) ↔
      ∃ rest, candidates = binding :: rest ∧ bindingMatchesContext urls context binding = .ok true := by
  cases candidates with
  | nil => simp [confirmCandidate]
  | cons first rest =>
      simp only [confirmCandidate, bind_eq_ok, refuse_eq_ok, Fallible.pure_eq, Except.ok.injEq,
        Option.some.injEq, Bool.not_eq_false, List.cons.injEq]
      constructor
      · rintro ⟨_, matched, -, rfl, rfl⟩
        exact ⟨rest, ⟨rfl, rfl⟩, matched⟩
      · rintro ⟨_, ⟨rfl, rfl⟩, matched⟩
        exact ⟨true, matched, (), rfl, rfl⟩

end Matching

section Reading
variable {urls : UrlLibrary} {context : ProviderContext}

theorem readReference_ok {rows : List BindingRow} {number : Nat} {taskId : Int}
    {binding : TaskBinding} :
    readReference urls rows number taskId = .ok binding ↔ 0 < taskId ∧
      (∃ row, rows.find? (·.taskId == taskId) = some row ∧ decodeBinding urls row = .ok binding) ∧
      binding.key.externalNumber = some number := by
  simp only [readReference, bindingForTaskId, bind_eq_ok, mapError_eq_ok, refuse_eq_ok]
  cases found : rows.find? (·.taskId == taskId) with
  | none => simp
  | some row =>
      simp only [bind_eq_ok, Fallible.pure_eq, Except.ok.injEq, not_le]
      constructor
      · rintro ⟨_, ⟨-, positive, decoded, read, rfl⟩, agreed⟩
        simp only [bind_eq_ok, refuse_eq_ok, not_not, Except.ok.injEq] at agreed
        obtain ⟨-, numbered, rfl⟩ := agreed
        exact ⟨positive, ⟨row, rfl, read⟩, numbered⟩
      · rintro ⟨positive, ⟨_, ⟨rfl⟩, read⟩, numbered⟩
        exact ⟨some binding, ⟨(), positive, binding, read, rfl⟩, by simp [numbered]⟩

theorem mem_branchNumberRefs {store : IdentityStore} {repoKey branch : String} {number : Nat}
    {taskId : Int} : taskId ∈ branchNumberRefs store.links repoKey branch number ↔
      ∃ row, References store (some (repoKey, branch)) number row ∧ row.taskId = some taskId := by
  simp only [branchNumberRefs, branchTaskRefs, List.mem_map, List.mem_filter, mem_orderAsc,
    List.mem_filterMap, References]
  constructor
  · rintro ⟨_, ⟨⟨⟨issue, id⟩, ⟨row, inside, chosen⟩, rfl⟩, numbered⟩, rfl⟩
    split at chosen
    · next located =>
        obtain ⟨id', given, pair⟩ := Option.map_eq_some_iff.mp chosen
        cases pair
        cases tables : store.links with
        | none => simp [tables] at inside
        | some links =>
            rw [tables] at inside
            exact ⟨row, ⟨links, repoKey, branch, rfl, rfl, inside, located.1, located.2,
              by simp [given], by simpa using numbered⟩, given⟩
    · cases chosen
  · rintro ⟨row, ⟨links, _, _, tables, ⟨rfl⟩, inside, rfl, rfl, -, numbered⟩, given⟩
    refine ⟨(asU64 row.issueNumber, taskId), ⟨⟨(row.issueNumber, taskId), ⟨row, ?_, ?_⟩, rfl⟩, ?_⟩, rfl⟩
    · simpa [tables] using inside
    · simp [given]
    · simpa using numbered

theorem mem_repoNumberRows {rows : List BindingRow} {members : List MembershipRow} {repoKey : String}
    {number : Nat} {row : BindingRow} : row ∈ repoNumberRows rows members repoKey number ↔
      row ∈ rows ∧ row.externalId = toString number ∧
        ∃ member ∈ members, member.repoKey = repoKey ∧ member.taskId = row.taskId := by
  simp only [repoNumberRows, mem_orderAsc, List.mem_flatMap, List.mem_filter, Bool.and_eq_true,
    beq_iff_eq]
  constructor
  · rintro ⟨member, inside, bound, ⟨located, joined⟩, numbered⟩
    exact ⟨bound, numbered, member, inside, located, joined.symm⟩
  · rintro ⟨bound, numbered, member, inside, located, joined⟩
    exact ⟨member, inside, bound, ⟨located, joined.symm⟩, numbered⟩

theorem nodup_repoNumberRows {rows : List BindingRow} {members : List MembershipRow}
    (ids : (rows.map (·.taskId)).Nodup)
    (keys : (members.map fun row => (row.repoKey, row.taskId)).Nodup) (repoKey : String)
    (number : Nat) : ((repoNumberRows rows members repoKey number).map (·.taskId)).Nodup := by
  have order := (List.perm_insertionSort (fun a b : BindingRow => a.taskId ≤ b.taskId)
    (members.flatMap fun member => rows.filter fun row => member.repoKey == repoKey &&
      row.taskId == member.taskId && row.externalId == toString number)).map (·.taskId)
  refine order.nodup_iff.mpr ?_
  rw [List.map_flatMap, List.nodup_flatMap]
  constructor
  · intro member _
    exact ids.sublist (List.filter_sublist.map _)
  · refine (List.pairwise_map.mp keys).imp ?_
    intro first second apart id left right
    simp only [List.mem_map, List.mem_filter, Bool.and_eq_true, beq_iff_eq] at left right
    obtain ⟨row, ⟨-, ⟨located, joined⟩, -⟩, rfl⟩ := left
    obtain ⟨row', ⟨-, ⟨located', joined'⟩, -⟩, same⟩ := right
    exact apart (Prod.ext (located.trans located'.symm) (joined.symm.trans (same.symm.trans joined')))

theorem bindingsForRepoNumber_ok {rows : List BindingRow} {members : List MembershipRow}
    {repoKey : String} {number : Nat} {found : List TaskBinding}
    (read : bindingsForRepoNumber urls rows members repoKey number = .ok found) :
    0 < number ∧ number ≤ i64Max ∧ List.Forall₂ (fun row binding => decodeBinding urls row = .ok binding)
      (repoNumberRows rows members repoKey number) found := by
  simp only [bindingsForRepoNumber, bind_eq_ok, refuse_eq_ok, mapM_eq_ok] at read
  obtain ⟨text, valid, -, range, decoded⟩ := read
  rw [validateRepoKey_ok valid] at decoded
  exact ⟨by omega, by omega, decoded⟩

theorem mem_bindingsForRepoNumber {rows : List BindingRow} {members : List MembershipRow}
    {repoKey : String} {number : Nat} {found : List TaskBinding} {binding : TaskBinding}
    (read : bindingsForRepoNumber urls rows members repoKey number = .ok found) :
    binding ∈ found ↔ ∃ row ∈ repoNumberRows rows members repoKey number,
      decodeBinding urls row = .ok binding := by
  obtain ⟨-, -, decoded⟩ := bindingsForRepoNumber_ok read
  constructor
  · intro member
    obtain ⟨i, within, rfl⟩ := List.getElem_of_mem member
    have row := (List.forall₂_iff_get.mp decoded).2 i (by rw [decoded.length_eq]; exact within) within
    exact ⟨_, List.getElem_mem _, row⟩
  · rintro ⟨row, member, decodes⟩
    obtain ⟨i, within, rfl⟩ := List.getElem_of_mem member
    have length := decoded.length_eq
    have row := (List.forall₂_iff_get.mp decoded).2 i within (by omega)
    obtain rfl := Except.ok.inj (decodes.symm.trans row)
    exact List.getElem_mem _

theorem decoded_taskIds {rows : List BindingRow} {found : List TaskBinding}
    (decoded : List.Forall₂ (fun row binding => decodeBinding urls row = .ok binding) rows found) :
    found.map (·.taskId) = rows.map (·.taskId) := by
  induction decoded with
  | nil => rfl
  | cons first rest ih =>
      rw [List.map_cons, List.map_cons, ih, (decodeBinding_ok.mp first).2.2.2]
      rfl

theorem nodup_bindingsForRepoNumber {rows : List BindingRow} {members : List MembershipRow}
    (ids : (rows.map (·.taskId)).Nodup)
    (keys : (members.map fun row => (row.repoKey, row.taskId)).Nodup) {repoKey : String} {number : Nat}
    {found : List TaskBinding}
    (read : bindingsForRepoNumber urls rows members repoKey number = .ok found) : found.Nodup := by
  obtain ⟨-, -, decoded⟩ := bindingsForRepoNumber_ok read
  have distinct := nodup_repoNumberRows ids keys repoKey number
  rw [← decoded_taskIds decoded] at distinct
  exact distinct.of_map _

end Reading

section Routing
variable {urls : UrlLibrary} {store : IdentityStore} {repo : Option (String × String)} {number : Nat}
  {context : ProviderContext}

theorem bound_unique {a b : TaskBinding} (first : Bound urls store a) (second : Bound urls store b)
    (same : a.taskId = b.taskId) : a = b := by
  obtain ⟨rows, row, tables, inside, read⟩ := first
  obtain ⟨_, row', tables', inside', read'⟩ := second
  obtain rfl := Option.some.inj (tables.symm.trans tables')
  have ids := store.bindingIds
  rw [tables] at ids
  have equal : row.taskId = row'.taskId := by
    rw [(decodeBinding_ok.mp read).2.2.2, (decodeBinding_ok.mp read').2.2.2]
    exact same
  obtain rfl := List.inj_on_of_nodup_map ids inside inside' equal
  exact Except.ok.inj (read.symm.trans read')

theorem kind_of_bound {binding : TaskBinding} (bound : Bound urls store binding) :
    ∃ kind : ProviderKind, binding.key.provider = kind.asStr := by
  obtain ⟨_, _, -, -, decoded⟩ := bound
  obtain ⟨_, kind, -, parsed, -⟩ := new_ok.mp (decodeBinding_ok.mp decoded).2.2.1
  exact ⟨kind, ProviderKind.fromStr_ok parsed⟩

theorem unreferenced_iff {repoKey branch : String} :
    branchNumberRefs store.links repoKey branch number = [] ↔
      Unreferenced store (some (repoKey, branch)) number := by
  rw [List.eq_nil_iff_forall_not_mem]
  constructor
  · intro empty row references
    obtain ⟨taskId, given⟩ : ∃ taskId, row.taskId = some taskId := by
      obtain ⟨_, _, _, -, -, -, -, -, given, -⟩ := references
      exact Option.isSome_iff_exists.mp given
    exact empty taskId (mem_branchNumberRefs.mpr ⟨row, references, given⟩)
  · intro unreferenced taskId listed
    obtain ⟨row, references, -⟩ := mem_branchNumberRefs.mp listed
    exact unreferenced row references

section Members
variable {rows : List BindingRow} {members : List MembershipRow} {repoKey branch : String}
  {found : List TaskBinding}

theorem membersRead_iff (tables : store.bindings = some rows) (tables' : store.memberships = some members) :
    (∃ found, bindingsForRepoNumber urls rows members repoKey number = .ok found) ↔
      MembersRead urls store (some (repoKey, branch)) number := by
  have decodes : (∃ found, (repoNumberRows rows members repoKey number).mapM (decodeBinding urls) =
      .ok found) ↔ ∀ row ∈ rows, row.externalId = toString number →
        (∃ member ∈ members, member.repoKey = repoKey ∧ member.taskId = row.taskId) →
        ∃ binding, decodeBinding urls row = .ok binding := by
    rw [exists_mapM_eq_ok]
    constructor
    · exact fun all row inside text joined => all row (mem_repoNumberRows.mpr ⟨inside, text, joined⟩)
    · intro all row listed
      obtain ⟨inside, text, joined⟩ := mem_repoNumberRows.mp listed
      exact all row inside text joined
  constructor
  · rintro ⟨found, read⟩
    simp only [bindingsForRepoNumber, bind_eq_ok, refuse_eq_ok] at read
    obtain ⟨text, valid, -, range, decoded⟩ := read
    obtain rfl := validateRepoKey_ok valid
    exact ⟨rows, members, text, branch, tables, tables', rfl, valid, by omega, by omega,
      decodes.mp ⟨found, decoded⟩⟩
  · rintro ⟨_, _, _, _, same, same', here, valid, positive, bounded, all⟩
    obtain rfl := Option.some.inj (tables.symm.trans same)
    obtain rfl := Option.some.inj (tables'.symm.trans same')
    cases here
    obtain ⟨found, decoded⟩ := decodes.mpr all
    refine ⟨found, ?_⟩
    simp only [bindingsForRepoNumber, bind_eq_ok, refuse_eq_ok]
    exact ⟨repoKey, valid, (), by omega, decoded⟩

theorem listed_iff (branch : String) (tables : store.bindings = some rows)
    (tables' : store.memberships = some members)
    (read : bindingsForRepoNumber urls rows members repoKey number = .ok found)
    {binding : TaskBinding} :
    binding ∈ found ↔ Listed urls store (some (repoKey, branch)) number binding := by
  rw [mem_bindingsForRepoNumber read]
  constructor
  · rintro ⟨row, listed, decoded⟩
    obtain ⟨inside, text, member, joined, located, id⟩ := mem_repoNumberRows.mp listed
    have shape := (decodeBinding_ok.mp decoded).2.2.2
    rw [shape] at text id
    exact ⟨⟨rows, row, tables, inside, decoded⟩,
      ⟨members, member, repoKey, branch, tables', rfl, joined, located, id⟩, text⟩
  · intro listed
    obtain ⟨_, row, same, inside, decoded⟩ := listed.bound
    obtain ⟨_, member, _, _, same', here, joined, located, id⟩ := listed.member
    obtain rfl := Option.some.inj (tables.symm.trans same)
    obtain rfl := Option.some.inj (tables'.symm.trans same')
    cases here
    have shape := (decodeBinding_ok.mp decoded).2.2.2
    have text := listed.text
    refine ⟨row, mem_repoNumberRows.mpr ⟨inside, ?_, member, joined, located, ?_⟩, decoded⟩
    · rw [shape]
      exact text
    · rw [shape]
      exact id

end Members

theorem SoleReference.candidate {binding : TaskBinding}
    (sole : SoleReference urls store repo number context binding) :
    Candidate urls store repo number binding ∧
      ∀ other, Candidate urls store repo number other → other = binding := by
  obtain ⟨repoKey, branch, rfl, one⟩ := sole.here
  obtain ⟨link, references, given⟩ := mem_branchNumberRefs.mp (one ▸ List.mem_singleton_self _)
  refine ⟨⟨sole.bound, sole.numbered, .inl ⟨link, references, given⟩⟩, ?_⟩
  intro other candidate
  rcases candidate.source with ⟨link', references', given'⟩ | ⟨unreferenced, -⟩
  · have listed := mem_branchNumberRefs.mpr ⟨link', references', given'⟩
    rw [one, List.mem_singleton] at listed
    exact bound_unique candidate.bound sole.bound listed
  · exact absurd references (unreferenced link)

theorem SoleMember.candidate {binding : TaskBinding}
    (sole : SoleMember urls store repo number context binding) :
    Candidate urls store repo number binding := by
  obtain ⟨_, _, _, _, -, -, -, -, positive, bounded, -⟩ := sole.readable
  refine ⟨sole.listed.bound, ?_, .inr ⟨sole.unreferenced, sole.listed.member⟩⟩
  rw [TaskKey.externalNumber, sole.listed.text]
  exact Text.parseU64_toString (by unfold i64Max at bounded; omega)

theorem memberCandidates_ok {rows : List BindingRow} {repoKey branch : String}
    {members : List MembershipRow} {candidates : List TaskBinding} :
    memberCandidates urls rows (some members) (some (repoKey, branch)) context number =
        .ok candidates ↔
      ∃ found, bindingsForRepoNumber urls rows members repoKey number = .ok found ∧
        if 1 < found.length then selectOne urls context found = .ok candidates
        else found = candidates := by
  simp only [memberCandidates, bind_eq_ok, mapError_eq_ok]
  constructor
  · rintro ⟨found, read, chosen⟩
    refine ⟨found, read, ?_⟩
    split at chosen
    · next several => rwa [if_pos several]
    · next few => rwa [if_neg few, ← Except.ok.injEq]
  · rintro ⟨found, read, chosen⟩
    refine ⟨found, read, ?_⟩
    split at chosen
    · next several => rwa [if_pos several]
    · next few => rw [if_neg few, chosen, Fallible.pure_eq]

theorem filter_accepts_singleton {α ε : Type} {check : α → Except ε Bool} {xs : List α} {x : α}
    (nodup : xs.Nodup) (judged : ∀ y ∈ xs, ∃ b, check y = .ok b) :
    xs.filter (accepts check) = [x] ↔
      x ∈ xs ∧ check x = .ok true ∧ ∀ y ∈ xs, y ≠ x → check y = .ok false := by
  constructor
  · intro single
    have chosen : ∀ y, y ∈ xs ∧ check y = .ok true ↔ y = x := by
      intro y
      rw [← accepts_iff, ← List.mem_filter, single, List.mem_singleton]
    obtain ⟨inside, accepted⟩ := (chosen x).mpr rfl
    refine ⟨inside, accepted, fun y member other => ?_⟩
    obtain ⟨verdict, answer⟩ := judged y member
    cases verdict with
    | false => exact answer
    | true => exact absurd ((chosen y).mp ⟨member, answer⟩) other
  · rintro ⟨inside, accepted, refused⟩
    apply List.perm_singleton.mp
    apply (List.perm_ext_iff_of_nodup (nodup.filter _) (List.nodup_singleton x)).mpr
    intro y
    rw [List.mem_filter, accepts_iff, List.mem_singleton]
    constructor
    · rintro ⟨member, answer⟩
      by_contra other
      simp [refused y member other] at answer
    · rintro rfl
      exact ⟨inside, accepted⟩

theorem branchCandidates_ok {rows : List BindingRow} {links : Option (List LinkRow)}
    {repoKey branch : String} {candidates : List TaskBinding} :
    branchCandidates urls rows links (some (repoKey, branch)) number = .ok candidates ↔
      (branchNumberRefs links repoKey branch number).mapM (readReference urls rows number) =
        .ok candidates ∧ candidates.length ≤ 1 := by
  simp only [branchCandidates, bind_eq_ok, refuse_eq_ok, Fallible.pure_eq, Except.ok.injEq, not_lt]
  constructor
  · rintro ⟨_, read, -, few, rfl⟩
    exact ⟨read, few⟩
  · rintro ⟨read, few⟩
    exact ⟨candidates, read, (), few, rfl⟩

section Choice
variable {rows : List BindingRow} {members : List MembershipRow} {repoKey branch : String}
  {binding : TaskBinding} {found : List TaskBinding}

theorem nodup_found (tables : store.bindings = some rows) (tables' : store.memberships = some members)
    (read : bindingsForRepoNumber urls rows members repoKey number = .ok found) : found.Nodup := by
  have ids := store.bindingIds
  have keys := store.membershipKeys
  rw [tables] at ids
  rw [tables'] at keys
  exact nodup_bindingsForRepoNumber ids keys read

theorem accepts_iff_takesUp (bound : Bound urls store binding) :
    bindingMatchesContext urls context binding = .ok true ↔ TakesUp urls context binding.key := by
  obtain ⟨kind, kinded⟩ := kind_of_bound bound
  exact matches_iff kinded

theorem refuses_iff_turnsAway (bound : Bound urls store binding) :
    bindingMatchesContext urls context binding = .ok false ↔ TurnsAway urls context binding.key := by
  obtain ⟨kind, kinded⟩ := kind_of_bound bound
  exact mismatches_iff kinded

theorem chosen_iff (nodup : found.Nodup) (accepted : bindingMatchesContext urls context binding = .ok true) :
    (if 1 < found.length then selectOne urls context found = .ok [binding] else found = [binding]) ↔
      binding ∈ found ∧ ∀ other ∈ found, other ≠ binding →
        bindingMatchesContext urls context other = .ok false := by
  split
  · next several =>
      constructor
      · intro chosen
        obtain ⟨-, judged, filtered, -⟩ := selectOne_ok.mp chosen
        obtain ⟨inside, -, refused⟩ := (filter_accepts_singleton nodup judged).mp filtered
        exact ⟨inside, refused⟩
      · rintro ⟨inside, refused⟩
        have judged : ∀ candidate ∈ found, ∃ b, bindingMatchesContext urls context candidate = .ok b := by
          intro candidate member
          by_cases same : candidate = binding
          · exact ⟨true, by rw [same, accepted]⟩
          · exact ⟨false, refused candidate member same⟩
        obtain ⟨other, member, different⟩ : ∃ other ∈ found, other ≠ binding := by
          by_contra alone
          simp only [not_exists, not_and, not_not] at alone
          rw [List.eq_replicate_of_mem alone, List.nodup_replicate] at nodup
          omega
        have told : context.explicit = true := explicit_of_mismatch (refused other member different)
        exact selectOne_ok.mpr ⟨told, judged,
          (filter_accepts_singleton nodup judged).mpr ⟨inside, accepted, refused⟩, rfl⟩
  · next few =>
      constructor
      · rintro rfl
        simp
      · rintro ⟨inside, _⟩
        obtain ⟨only, rfl⟩ : ∃ only, found = [only] :=
          List.length_eq_one_iff.mp (by have := List.length_pos_of_mem inside; omega)
        rw [List.mem_singleton.mp inside]

theorem soleMember_iff (tables : store.bindings = some rows) (tables' : store.memberships = some members) :
    SoleMember urls store (some (repoKey, branch)) number context binding ↔
      branchNumberRefs store.links repoKey branch number = [] ∧
        ∃ found, bindingsForRepoNumber urls rows members repoKey number = .ok found ∧
          bindingMatchesContext urls context binding = .ok true ∧ binding ∈ found ∧
          ∀ other ∈ found, other ≠ binding → bindingMatchesContext urls context other = .ok false := by
  constructor
  · intro sole
    obtain ⟨found, read⟩ := (membersRead_iff tables tables').mpr sole.readable
    refine ⟨unreferenced_iff.mpr sole.unreferenced, found, read,
      (accepts_iff_takesUp sole.listed.bound).mpr sole.taken,
      (listed_iff branch tables tables' read).mpr sole.listed, ?_⟩
    intro other member different
    have listed := (listed_iff branch tables tables' read).mp member
    exact (refuses_iff_turnsAway listed.bound).mpr (sole.others other listed different)
  · rintro ⟨unreferenced, found, read, accepted, inside, refused⟩
    have listed := (listed_iff branch tables tables' read).mp inside
    refine ⟨unreferenced_iff.mp unreferenced, (membersRead_iff tables tables').mp ⟨found, read⟩, listed,
      (accepts_iff_takesUp listed.bound).mp accepted, ?_⟩
    intro other listed' different
    have member := (listed_iff branch tables tables' read).mpr listed'
    exact (refuses_iff_turnsAway listed'.bound).mp (refused other member different)

theorem soleReference_iff (tables : store.bindings = some rows) :
    SoleReference urls store (some (repoKey, branch)) number context binding ↔
      (branchNumberRefs store.links repoKey branch number).mapM (readReference urls rows number) =
        .ok [binding] ∧ bindingMatchesContext urls context binding = .ok true := by
  constructor
  · intro sole
    obtain ⟨_, _, here, one⟩ := sole.here
    cases here
    obtain ⟨_, row, same, inside, decoded⟩ := sole.bound
    obtain rfl := Option.some.inj (tables.symm.trans same)
    have id : row.taskId = binding.taskId := by
      rw [(decodeBinding_ok.mp decoded).2.2.2]
      rfl
    have positive := (decodeBinding_ok.mp decoded).1
    rw [id] at positive
    have ids := store.bindingIds
    rw [tables] at ids
    have found : rows.find? (·.taskId == binding.taskId) = some row := by
      cases first : rows.find? (·.taskId == binding.taskId) with
      | none => exact absurd (beq_iff_eq.mpr id) (List.find?_eq_none.mp first row inside)
      | some other =>
          have same : other.taskId = binding.taskId := by simpa using List.find?_some first
          rw [List.inj_on_of_nodup_map ids (List.mem_of_find?_eq_some first) inside (same.trans id.symm)]
    refine ⟨?_, (accepts_iff_takesUp sole.bound).mpr sole.taken⟩
    rw [one, mapM_eq_ok]
    exact .cons (readReference_ok.mpr ⟨positive, ⟨row, found, decoded⟩, sole.numbered⟩) .nil
  · rintro ⟨read, accepted⟩
    obtain ⟨taskId, refs, first, done, one⟩ := List.forall₂_cons_right_iff.mp (mapM_eq_ok.mp read)
    obtain rfl := List.forall₂_nil_right_iff.mp done
    obtain ⟨-, ⟨row, found, decoded⟩, numbered⟩ := readReference_ok.mp first
    have bound : Bound urls store binding :=
      ⟨rows, row, tables, List.mem_of_find?_eq_some found, decoded⟩
    have id : binding.taskId = taskId := by
      have joined := List.find?_some found
      rw [(decodeBinding_ok.mp decoded).2.2.2] at joined
      simpa [TaskKey.row] using joined
    rw [← id] at one
    exact ⟨⟨repoKey, branch, rfl, one⟩, bound, numbered, (accepts_iff_takesUp bound).mp accepted⟩

end Choice

theorem resolve_eq_some {binding : TaskBinding} :
    resolveNumberBinding urls (some store) repo context number = .ok (some binding) ↔
      SoleReference urls store repo number context binding ∨
        SoleMember urls store repo number context binding := by
  cases tables : store.bindings with
  | none =>
      simp only [resolveNumberBinding, tables, Fallible.pure_eq, Except.ok.injEq, reduceCtorEq, false_iff]
      rintro (sole | sole)
      · obtain ⟨_, _, same, -⟩ := sole.bound
        rw [tables] at same
        cases same
      · obtain ⟨_, _, same, -⟩ := sole.listed.bound
        rw [tables] at same
        cases same
  | some rows =>
      cases repo with
      | none =>
          simp only [resolveNumberBinding, tables, branchCandidates, memberCandidates, confirmCandidate]
          constructor
          · intro resolved
            simp at resolved
          · rintro (sole | sole)
            · obtain ⟨_, _, here, -⟩ := sole.here
              cases here
            · obtain ⟨_, _, _, _, -, here, -⟩ := sole.listed.member
              cases here
      | some here =>
          obtain ⟨repoKey, branch⟩ := here
          rw [soleReference_iff tables]
          simp only [resolveNumberBinding, tables, bind_eq_ok, branchCandidates_ok,
            confirmCandidate_ok]
          constructor
          · rintro ⟨referenced, ⟨read, few⟩, candidates, source, rest, rfl, accepted⟩
            split at source
            · next unreferenced =>
                rw [unreferenced, mapM_eq_ok, List.forall₂_nil_right_iff] at read
                cases tables' : store.memberships with
                | none => simp [memberCandidates, tables'] at source
                | some members =>
                    rw [tables', memberCandidates_ok] at source
                    obtain ⟨found, readAll, choice⟩ := source
                    have nodup := nodup_found tables tables' readAll
                    have alone : rest = [] := by
                      split at choice
                      · have single := (selectOne_ok.mp choice).2.2.2
                        exact List.eq_nil_of_length_eq_zero (by simpa using single)
                      · next few =>
                          rw [choice] at few
                          exact List.eq_nil_of_length_eq_zero (by simpa using few)
                    rw [alone] at choice
                    obtain ⟨inside, refused⟩ := (chosen_iff nodup accepted).mp choice
                    exact .inr ((soleMember_iff tables tables').mpr
                      ⟨read, found, readAll, accepted, inside, refused⟩)
            · cases source
              have alone : rest = [] := List.eq_nil_of_length_eq_zero (by simpa using few)
              rw [alone] at read
              exact .inl ⟨read, accepted⟩
          · rintro (⟨read, accepted⟩ | sole)
            · exact ⟨[binding], ⟨read, by simp⟩, [binding], by simp, [], rfl, accepted⟩
            · obtain ⟨_, members, _, _, -, tables', -⟩ := sole.readable
              obtain ⟨unreferenced, found, read, accepted, inside, refused⟩ :=
                (soleMember_iff tables tables').mp sole
              refine ⟨[], ⟨by simp [unreferenced], by simp⟩, [binding], ?_, [], rfl, accepted⟩
              rw [if_pos rfl, tables', memberCandidates_ok]
              exact ⟨found, read, (chosen_iff (nodup_found tables tables' read) accepted).mpr
                ⟨inside, refused⟩⟩

theorem decisive_followed {binding : TaskBinding}
    (decisive : Decisive urls store repo number context binding) :
    resolveNumberBinding urls (some store) repo context number = .ok (some binding) ↔
      Followed urls store repo number context binding := by
  have taken := takesUp_of_agrees decisive.agrees
  rw [resolve_eq_some]
  constructor
  · rintro (sole | sole)
    · obtain ⟨other, different, candidate⟩ := decisive.several
      exact absurd (sole.candidate.2 other candidate) different
    · exact ⟨sole.unreferenced, sole.readable, sole.listed.text, taken.mp sole.taken, sole.others⟩
  · intro followed
    have member : MemberOf store repo binding := by
      rcases decisive.candidate.source with ⟨row, references, -⟩ | ⟨-, member⟩
      · exact absurd references (followed.unreferenced row)
      · exact member
    exact .inr ⟨followed.unreferenced, followed.readable,
      ⟨decisive.candidate.bound, member, followed.text⟩, taken.mpr followed.status, followed.others⟩

/-- A number is never guessed and an explicit selection always decides, exactly when no Redmine task
stands alone against a repository selector and nothing stands in the way of the one task that the
selectors agree with among several candidates. -/
theorem number_routing_iff :
    ((∀ binding,
        resolveNumberBinding urls (some store) repo context number = .ok (some binding) →
          Candidate urls store repo number binding ∧ Agrees urls context binding.key) ∧
      ∀ binding, Decisive urls store repo number context binding →
        resolveNumberBinding urls (some store) repo context number = .ok (some binding)) ↔
    ((context.repository ≠ none → ∀ binding, binding.key.provider = "redmine" →
        ¬SoleReference urls store repo number context binding ∧
          ¬SoleMember urls store repo number context binding) ∧
      ∀ binding, Decisive urls store repo number context binding →
        Followed urls store repo number context binding) := by
  have faithful : ∀ binding, SoleReference urls store repo number context binding ∨
      SoleMember urls store repo number context binding →
        Candidate urls store repo number binding ∧
          (Agrees urls context binding.key ↔
            (binding.key.provider = "redmine" → context.repository = none)) := by
    rintro binding (sole | sole)
    · obtain ⟨kind, kinded⟩ := kind_of_bound sole.bound
      exact ⟨sole.candidate.1, agrees_of_takesUp kinded sole.taken⟩
    · obtain ⟨kind, kinded⟩ := kind_of_bound sole.listed.bound
      exact ⟨sole.candidate, agrees_of_takesUp kinded sole.taken⟩
  constructor
  · rintro ⟨sound, decides⟩
    constructor
    · intro given binding redmine
      have refuted : ¬(SoleReference urls store repo number context binding ∨
          SoleMember urls store repo number context binding) := by
        intro sole
        have agreed := (sound binding (resolve_eq_some.mpr sole)).2
        exact given ((faithful binding sole).2.mp agreed redmine)
      exact not_or.mp refuted
    · exact fun binding decisive => (decisive_followed decisive).mp (decides binding decisive)
  · rintro ⟨loyal, followed⟩
    constructor
    · intro binding resolved
      have sole := resolve_eq_some.mp resolved
      obtain ⟨candidate, agreed⟩ := faithful binding sole
      refine ⟨candidate, agreed.mpr fun redmine => ?_⟩
      by_contra given
      exact not_or.mpr (loyal given binding redmine) sole
    · exact fun binding decisive => (decisive_followed decisive).mpr (followed binding decisive)

end Routing

section Sample

def forgejoTask : TaskBinding := ⟨1, ⟨"forgejo", "https://forgejo.test", "owner/repo", "7"⟩, 1⟩

def redmineTask : TaskBinding := ⟨2, ⟨"redmine", "https://forgejo.test", "3", "7"⟩, 1⟩

def linkTo (binding : TaskBinding) : LinkRow :=
  ⟨"repo", "work", binding.key.provider, binding.key.project, binding.key.externalId,
    some binding.taskId, 7, .linked, "cli-bind", 1, 1, none, none⟩

-- The number 7 of two trackers in one repository, with what its branch references.
def twoTasks (links : List LinkRow) : IdentityStore where
  bindings := some [forgejoTask.key.row 1 1, redmineTask.key.row 2 1]
  memberships := some [⟨"repo", 1, 1⟩, ⟨"repo", 2, 1⟩]
  links := some links
  bindingIds := by decide
  membershipKeys := by decide

def unselected : ProviderContext := ⟨none, none, none, none, none⟩

section Candidates
variable {links : List LinkRow} {repo : Option (String × String)} {number : Nat}

theorem bound_forgejoTask : Bound forgejoTest (twoTasks links) forgejoTask :=
  ⟨_, _, rfl, List.mem_cons_self, by decide⟩

theorem bound_redmineTask : Bound forgejoTest (twoTasks links) redmineTask :=
  ⟨_, _, rfl, List.mem_cons_of_mem _ List.mem_cons_self, by decide⟩

theorem candidate_twoTasks {binding : TaskBinding}
    (candidate : Candidate forgejoTest (twoTasks links) repo number binding) :
    binding = forgejoTask ∨ binding = redmineTask := by
  obtain ⟨rows, row, ⟨rfl⟩, inside, decoded⟩ := candidate.bound
  have first : decodeBinding forgejoTest (forgejoTask.key.row 1 1) = .ok forgejoTask := by decide
  have second : decodeBinding forgejoTest (redmineTask.key.row 2 1) = .ok redmineTask := by decide
  simp only [List.mem_cons, List.not_mem_nil, or_false] at inside
  rcases inside with rfl | rfl
  · exact .inl (Except.ok.inj (decoded.symm.trans first))
  · exact .inr (Except.ok.inj (decoded.symm.trans second))

theorem decisive_twoTasks {context : ProviderContext} {chosen other : TaskBinding}
    (tasks : chosen ≠ other ∧ ∀ task, task = forgejoTask ∨ task = redmineTask →
      task = chosen ∨ task = other)
    (candidate : Candidate forgejoTest (twoTasks links) repo number chosen)
    (candidate' : Candidate forgejoTest (twoTasks links) repo number other)
    (agrees : Agrees forgejoTest context chosen.key)
    (disagrees : ¬Agrees forgejoTest context other.key) :
    Decisive forgejoTest (twoTasks links) repo number context chosen where
  candidate := candidate
  several := ⟨other, tasks.1.symm, candidate'⟩
  agrees := agrees
  only task found agreed := by
    rcases tasks.2 task (candidate_twoTasks found) with same | same
    · exact same
    · exact absurd (same ▸ agreed) disagrees

theorem candidate_member {binding : TaskBinding} (bound : Bound forgejoTest (twoTasks []) binding)
    (member : binding.taskId = 1 ∨ binding.taskId = 2)
    (numbered : binding.key.externalNumber = some 7) :
    Candidate forgejoTest (twoTasks []) (some ("repo", "work")) 7 binding where
  bound := bound
  numbered := numbered
  source := by
    refine .inr ⟨?_, ?_⟩
    · rintro row ⟨links, _, _, ⟨rfl⟩, -, inside, -⟩
      simp at inside
    · rcases member with id | id
      · exact ⟨_, ⟨"repo", 1, 1⟩, _, _, rfl, rfl, by simp, rfl, id.symm⟩
      · exact ⟨_, ⟨"repo", 2, 1⟩, _, _, rfl, rfl, by simp, rfl, id.symm⟩

theorem candidate_linked {binding : TaskBinding} (inside : linkTo binding ∈ links)
    (bound : Bound forgejoTest (twoTasks links) binding)
    (numbered : binding.key.externalNumber = some 7) :
    Candidate forgejoTest (twoTasks links) (some ("repo", "work")) 7 binding where
  bound := bound
  numbered := numbered
  source := .inl ⟨linkTo binding, ⟨links, "repo", "work", rfl, rfl, inside, rfl, rfl, rfl, rfl⟩, rfl⟩

end Candidates

/-- A project selector, a provider selector and a repository selector that each name one of two
tasks, and none of them is followed: the first meets an argument error, the others an ambiguity. -/
theorem selectors_not_followed :
    (Decisive forgejoTest (twoTasks []) (some ("repo", "work")) 7
        { unselected with projectId := some "3" } redmineTask ∧
      resolveNumberBinding forgejoTest (some (twoTasks [])) (some ("repo", "work"))
          { unselected with projectId := some "3" } 7 =
        .error (.config "Forgejo does not support --project-id or --close-status-id")) ∧
    (Decisive forgejoTest (twoTasks [linkTo forgejoTask, linkTo redmineTask])
        (some ("repo", "work")) 7 { unselected with provider := some .redmine } redmineTask ∧
      resolveNumberBinding forgejoTest (some (twoTasks [linkTo forgejoTask, linkTo redmineTask]))
          (some ("repo", "work")) { unselected with provider := some .redmine } 7 =
        .error ambiguous) ∧
    Decisive forgejoTest (twoTasks []) (some ("repo", "work")) 7
        { unselected with repository := some "owner/repo" } forgejoTask ∧
      resolveNumberBinding forgejoTest (some (twoTasks [])) (some ("repo", "work"))
          { unselected with repository := some "owner/repo" } 7 = .error ambiguous := by
  have apart : redmineTask ≠ forgejoTask := by decide
  have both : redmineTask ≠ forgejoTask ∧ ∀ task, task = forgejoTask ∨ task = redmineTask →
      task = redmineTask ∨ task = forgejoTask := ⟨apart, fun _ => Or.symm⟩
  have forgejo : Candidate forgejoTest (twoTasks []) (some ("repo", "work")) 7 forgejoTask :=
    candidate_member bound_forgejoTask (.inl rfl) (by decide)
  have redmine : Candidate forgejoTest (twoTasks []) (some ("repo", "work")) 7 redmineTask :=
    candidate_member bound_redmineTask (.inr rfl) (by decide)
  refine ⟨⟨?_, by decide⟩, ⟨?_, by decide⟩, ?_, by decide⟩
  · refine decisive_twoTasks both redmine forgejo ?_ ?_
    · exact ⟨by simp [unselected], by simp [unselected], by simp [redmineTask],
        by simp [unselected]⟩
    · intro agrees
      simpa [forgejoTask] using (agrees.project "3" rfl).1
  · refine decisive_twoTasks both (candidate_linked (by simp) bound_redmineTask (by decide))
      (candidate_linked (by simp) bound_forgejoTask (by decide)) ?_ ?_
    · exact ⟨by simp [redmineTask, ProviderKind.asStr], by simp [unselected],
        by simp [unselected], by simp [unselected]⟩
    · intro agrees
      simpa [forgejoTask, ProviderKind.asStr] using agrees.provider .redmine rfl
  · refine decisive_twoTasks ⟨apart.symm, fun _ => id⟩ forgejo redmine ?_ ?_
    · exact ⟨by simp [unselected], by simp [forgejoTask], by simp [unselected],
        by simp [unselected]⟩
    · intro agrees
      simpa [redmineTask] using (agrees.repository "owner/repo" rfl).1

end Sample

end Phasegent.Task
