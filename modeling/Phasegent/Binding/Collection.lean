import Phasegent.Binding.Leases
import Phasegent.Ordered.Windows

namespace Phasegent.Binding
open Js Interleaving Ordered

variable {leases rows : List Value} {ids : List (List Char)} {field : ContextField} {page : Nat}
  {walk : Walk} {fields : PageFields} {result : CommandResult} {parsed : Value}

structure Distinct (leases : List Value) : Prop where
  valid : ∀ lease ∈ leases, validLease lease
  nodup : (leases.map leaseId).Nodup

structure Seen (leases : List Value) (ids : List (List Char)) : Prop extends Distinct leases where
  ids : ∀ id, id ∈ ids ↔ id ∈ leases.map leaseId

theorem seen_nil : Seen [] [] := ⟨⟨by simp, by simp⟩, by simp⟩

theorem Distinct.take {before : List Value} (distinct : Distinct leases) (part : before <+: leases) :
    Distinct before :=
  ⟨fun lease member => distinct.valid lease (part.subset member),
    distinct.nodup.sublist (part.sublist.map leaseId)⟩

theorem Seen.add {lease : Value} (seen : Seen leases ids) (valid : validLease lease)
    (fresh : leaseId lease ∉ ids) : Seen (leases ++ [lease]) (leaseId lease :: ids) := by
  have unread : leaseId lease ∉ leases.map leaseId := fun read => fresh ((seen.ids _).mpr read)
  constructor
  · constructor
    · intro row member
      rcases List.mem_append.mp member with earlier | last
      · exact seen.valid row earlier
      · rwa [List.mem_singleton.mp last]
    · rw [List.map_append, List.nodup_append]
      refine ⟨seen.nodup, by simp, ?_⟩
      intro id read other last same
      rw [List.map_singleton, List.mem_singleton] at last
      rw [same, last] at read
      exact unread read
  · intro id
    simp [seen.ids id, or_comm]

theorem addRows_eq_some (seen : Seen leases ids) {leases' : List Value} {ids' : List (List Char)}
    (added : addRows leases ids rows = some (leases', ids')) :
    leases' = leases ++ rows ∧ Seen leases' ids' := by
  induction rows generalizing leases ids with
  | nil =>
      simp only [addRows, Option.some.injEq, Prod.mk.injEq] at added
      obtain ⟨rfl, rfl⟩ := added
      exact ⟨by simp, seen⟩
  | cons lease rest ih =>
      rw [addRows] at added
      split at added
      · cases added
      · next accepted =>
          simp only [Bool.or_eq_true, Bool.not_eq_true', List.contains_iff_mem, not_or,
            Bool.not_eq_false] at accepted
          obtain ⟨whole, seen'⟩ := ih (seen.add accepted.1 accepted.2) added
          exact ⟨by simp [whole], seen'⟩

theorem addRows_distinct (seen : Seen leases ids) (distinct : Distinct (leases ++ rows)) :
    ∃ ids', addRows leases ids rows = some (leases ++ rows, ids') ∧ Seen (leases ++ rows) ids' := by
  induction rows generalizing leases ids with
  | nil => exact ⟨ids, by simp [addRows], by simpa using seen⟩
  | cons lease rest ih =>
      have valid : validLease lease := distinct.valid lease (by simp)
      have fresh : leaseId lease ∉ ids := by
        intro read
        have apart := distinct.nodup
        rw [List.map_append, List.nodup_append] at apart
        exact apart.2.2 _ ((seen.ids _).mp read) _ (by simp) rfl
      obtain ⟨ids', added, seen'⟩ := ih (seen.add valid fresh) (by simpa using distinct)
      refine ⟨ids', ?_, by simpa using seen'⟩
      rw [addRows, if_neg (by simp [valid, fresh]), added]
      simp

theorem distinct_of_validUniqueLeases (unique : validUniqueLeases leases) : Distinct leases := by
  obtain ⟨⟨leases', ids⟩, added⟩ := Option.isSome_iff_exists.mp unique
  obtain ⟨rfl, seen⟩ := addRows_eq_some seen_nil added
  simpa using seen.toDistinct

def reportedTotal (result : CommandResult) : Option Value :=
  match result.value with
  | .json parsed => if parsed.hasOwn "total_count" then some (parsed.get "total_count") else none
  | _ => none

def Legacy (result : CommandResult) : Prop :=
  ∃ parsed, result.value = .json parsed ∧ isLegacyLeaseResult parsed

/-- What a walk holds once `page` pages were read. -/
structure Walked (walk : Walk) (page : Nat) (history : History PageCommand fun _ => CommandResult) :
    Prop where
  seen : Seen walk.leases walk.leaseIds
  asked : history.length = page
  reported : ∀ act ∈ history, reportedTotal act.answer = some (.ofInt walk.totalCount)

theorem walked_start : Walked .start 0 [] := ⟨seen_nil, rfl, by simp⟩

theorem pageFields_eq_some (read : pageFields page parsed = some fields) :
    parsed.get "total_count" = .ofInt fields.totalCount := by
  unfold pageFields at read
  split at read
  · cases read
  · split at read
    · next items more total _ _ found =>
        split at read
        · cases read
        · next accepted =>
            cases read
            simp only [Bool.or_eq_true, decide_eq_true_eq, not_or, not_lt] at accepted
            have written := (Value.asSafeInteger_eq_some.mp found).1
            have counted : 0 ≤ total := by simpa using accepted.1.2
            rw [written, Int.toNat_of_nonneg counted]
    · cases read

theorem hasOwn_of_get {v : Value} {name : String} (some : v.get name ≠ .undefined) :
    v.hasOwn name := by
  cases v with
  | object members =>
      simp only [Value.get, Value.hasOwn] at *
      cases found : members.lookup name with
      | none => simp [found] at some
      | some member => rfl
  | _ => exact absurd rfl some

theorem reportedTotal_of_pageFields (ok : Bool) (read : pageFields page parsed = some fields) :
    reportedTotal ⟨ok, .json parsed⟩ = some (.ofInt fields.totalCount) := by
  have total := pageFields_eq_some read
  have own : parsed.hasOwn "total_count" := hasOwn_of_get (by simp [total, Value.ofInt])
  simp [reportedTotal, own, total]

theorem expectations_eq_some {context : Value} {total : Nat} {walk' : Walk}
    (expected : expectations field page walk context total = some walk') :
    walk'.leases = walk.leases ∧ walk'.leaseIds = walk.leaseIds ∧ walk'.totalCount = total ∧
      (page ≠ 1 → walk.totalCount = total) := by
  unfold expectations at expected
  split at expected
  · next first =>
      dsimp only at expected
      split at expected
      · cases expected
      · cases expected
        exact ⟨rfl, rfl, rfl, fun later => absurd first later⟩
  · split at expected
    · cases expected
    · next same =>
        cases expected
        simp only [Bool.or_eq_true, decide_eq_true_eq, not_or, ne_eq, not_not] at same
        exact ⟨rfl, rfl, same.2.symm, fun _ => same.2.symm⟩

def Verdict.Meets (ends : List Value → Prop) (onward : Walk → Prop) : Verdict → Prop
  | .refused => True
  | .complete leases => ends leases
  | .more walk => onward walk

variable (page fields) in
theorem addPage_meets (seen : Seen walk.leases walk.leaseIds) : (addPage page walk fields).Meets
    (fun leases => Distinct leases ∧ leases.length = walk.totalCount)
    fun walk' => Seen walk'.leases walk'.leaseIds ∧ walk'.totalCount = walk.totalCount := by
  unfold addPage
  split
  · trivial
  · split
    · trivial
    · split
      · trivial
      · split
        · trivial
        · next leases ids added =>
            obtain ⟨_, seen'⟩ := addRows_eq_some seen added
            split
            · exact ⟨seen', rfl⟩
            · split
              · next whole => exact ⟨seen'.toDistinct, whole.1⟩
              · trivial

variable (field parsed) in
theorem legacyLeases_meets : (legacyLeases field parsed).Meets Distinct fun _ => False := by
  unfold legacyLeases
  split
  · trivial
  · split
    · trivial
    · next unique =>
        have distinct := distinct_of_validUniqueLeases (by simpa using unique)
        cases field with
        | issue expected =>
            dsimp only
            split
            · exact distinct
            · trivial
        | repoIdentity =>
            dsimp only
            split
            · exact distinct
            · trivial

variable {history : History PageCommand fun _ => CommandResult} {command : PageCommand}

/-- Every page of the reading reported the number of rows, but for one unpaged answer. -/
def Reported (leases : List Value) (history : History PageCommand fun _ => CommandResult) : Prop :=
  (∃ act, history = [act] ∧ Legacy act.answer) ∨
    ∀ act ∈ history, reportedTotal act.answer = some (.ofInt leases.length)

variable (field command result) in
theorem judge_meets (walked : Walked walk (page - 1) history) (counted : 0 < page) :
    (judge field page walk result).Meets
      (fun leases => Distinct leases ∧ Reported leases (⟨command, result⟩ :: history))
      fun walk' => Walked walk' page (⟨command, result⟩ :: history) := by
  obtain ⟨ok, output⟩ := result
  unfold judge
  split
  · next parsed printed read =>
      cases printed
      cases read
      split
      · trivial
      · split
        · next legacy =>
            simp only [Bool.and_eq_true, decide_eq_true_eq] at legacy
            have nothing : history = [] := List.length_eq_zero_iff.mp (by simp [walked.asked, legacy.1])
            have meets := legacyLeases_meets field parsed
            cases verdict : legacyLeases field parsed with
            | refused => trivial
            | complete leases =>
                rw [verdict] at meets
                exact ⟨meets, Or.inl ⟨_, by rw [nothing], parsed, rfl, legacy.2⟩⟩
            | more walk =>
                rw [verdict] at meets
                exact meets.elim
        · split
          · trivial
          · next fields read =>
              dsimp only
              split
              · trivial
              · split
                · trivial
                · next walk' expected =>
                    have reported := reportedTotal_of_pageFields true read
                    obtain ⟨rows, ids, total, before⟩ := expectations_eq_some expected
                    have seen : Seen walk'.leases walk'.leaseIds := by
                      rw [rows, ids]
                      exact walked.seen
                    have all : ∀ act ∈ (⟨command, ⟨true, .json parsed⟩⟩ :: history :
                        History PageCommand fun _ => CommandResult),
                        reportedTotal act.answer = some (.ofInt walk'.totalCount) := by
                      rw [total]
                      refine List.forall_mem_cons.mpr ⟨reported, fun act member => ?_⟩
                      have later : page ≠ 1 := by
                        intro first
                        have some := List.length_pos_of_mem member
                        rw [walked.asked] at some
                        omega
                      rw [walked.reported act member, before later]
                    have meets := addPage_meets page fields seen
                    cases verdict : addPage page walk' fields with
                    | refused => trivial
                    | complete leases =>
                        rw [verdict] at meets
                        refine ⟨meets.1, Or.inr ?_⟩
                        rw [meets.2]
                        exact all
                    | more onward =>
                        rw [verdict] at meets
                        refine ⟨meets.1, ?_, ?_⟩
                        · rw [List.length_cons, walked.asked]
                          omega
                        · rw [meets.2]
                          exact all
  · trivial

theorem readPages_along (args : List String) (left : Nat) (counted : 0 < page)
    (ceiling : page + left = maxLeasePages + 1) (walked : Walked walk (page - 1) history) :
    (readPages args field left page walk).Along (fun h _ => h.length < maxLeasePages)
      (fun leases? h => ∀ leases ∈ leases?, Distinct leases ∧ Reported leases h) history := by
  induction left generalizing page walk history with
  | zero => simp [readPages, Prog.Along]
  | succ left ih =>
      refine ⟨?_, fun result => ?_⟩
      · have asked := walked.asked
        change history.length < maxLeasePages
        omega
      · have meets := judge_meets field result ⟨args, page, leasePageLimit⟩ walked counted
        cases verdict : judge field page walk result with
        | refused =>
            simp only [verdict]
            intro leases none
            cases none
        | complete leases =>
            rw [verdict] at meets
            simp only [verdict]
            intro rows same
            cases same
            exact meets
        | more onward =>
            rw [verdict] at meets
            simp only [verdict]
            exact ih (by omega) (by omega) meets

variable {issue : Int}

/-- A page as the command prints it, where it knows all the leases. -/
structure WindowOf (issue : Int) (leases : List Value) (page : Nat) (parsed : Value) : Prop where
  object : parsed.isObject
  number : parsed.get "page" = .ofInt page
  limited : parsed.get "limit" = .ofInt leasePageLimit
  items : parsed.get "items" = .array (window leases ((page - 1) * leasePageLimit) leasePageLimit)
  total : parsed.get "total_count" = .ofInt leases.length
  more : parsed.get "has_more" = .boolean (page * leasePageLimit < leases.length)
  scope : parsed.get "issue" = .ofInt issue

def Serves (issue : Int) (leases : List Value) (command : PageCommand → CommandResult) : Prop :=
  ∀ page, 0 < page → ∃ parsed,
    command ⟨statusArgs issue, page, leasePageLimit⟩ = ⟨true, .json parsed⟩ ∧ WindowOf issue leases page parsed

theorem safeInteger_of_le {n : Nat} (small : n ≤ leasePageLimit * maxLeasePages) :
    Value.safeInteger n := by
  simp only [leasePageLimit, maxLeasePages] at small
  simp only [Value.safeInteger, Value.maxSafeInteger, Bool.and_eq_true]
  constructor <;> apply decide_eq_true <;> omega

theorem pageFields_window (of : WindowOf issue leases page parsed)
    (few : leases.length ≤ leasePageLimit * maxLeasePages) : pageFields page parsed =
      some ⟨window leases ((page - 1) * leasePageLimit) leasePageLimit,
        page * leasePageLimit < leases.length, leases.length⟩ := by
  have short : ¬leasePageLimit < (window leases ((page - 1) * leasePageLimit) leasePageLimit).length := by
    rw [length_window]
    omega
  have within : (leases.length : Int) ≤ leasePageLimit * maxLeasePages := by exact_mod_cast few
  have whole : ¬(leases.length : Int) < 0 := by omega
  simp only [pageFields, of.number, of.limited, of.items, of.more, of.total, Value.isNumber_ofInt,
    Value.asArray_array, Value.asBoolean_boolean, Value.asSafeInteger_ofInt (safeInteger_of_le few)]
  simp [short, within, whole]

theorem not_legacy_of_window (of : WindowOf issue leases page parsed) : isLegacyLeaseResult parsed = false := by
  have paged : parsed.hasOwn "page" := hasOwn_of_get (by simp [of.number, Value.ofInt])
  simp [isLegacyLeaseResult, pagingFields, paged]

structure Held (issue : Int) (leases : List Value) (page : Nat) (walk : Walk) : Prop where
  rows : walk.leases = leases.take ((page - 1) * leasePageLimit)
  seen : Seen walk.leases walk.leaseIds
  expected : page ≠ 1 → walk.expectedContext = .ofInt issue ∧ walk.totalCount = leases.length ∧
    walk.pageCount = pagesOf leases.length

theorem held_start : Held issue leases 1 .start := ⟨by simp [Walk.start], seen_nil, by simp⟩

theorem pagesOf_le {n : Nat} (few : n ≤ leasePageLimit * maxLeasePages) : pagesOf n ≤ maxLeasePages := by
  simp only [pagesOf, leasePageLimit, maxLeasePages] at *
  omega

theorem expectations_held (held : Held issue leases page walk)
    (few : leases.length ≤ leasePageLimit * maxLeasePages) :
    expectations (.issue issue) page walk (.ofInt issue) leases.length =
      some ⟨walk.leases, walk.leaseIds, .ofInt issue, leases.length, pagesOf leases.length⟩ := by
  unfold expectations
  by_cases first : page = 1
  · have below : ¬maxLeasePages < pagesOf leases.length := Nat.not_lt.mpr (pagesOf_le few)
    simp [first, below]
  · obtain ⟨context, total, pages⟩ := held.expected first
    rw [if_neg first, context, total, if_neg (by simp [sameContext])]
    cases walk
    simp_all

theorem take_window (pages : 0 < page) :
    leases.take ((page - 1) * leasePageLimit) ++ window leases ((page - 1) * leasePageLimit) leasePageLimit =
      leases.take (page * leasePageLimit) := by
  obtain ⟨before, rfl⟩ := Nat.exists_eq_succ_of_ne_zero (Nat.pos_iff_ne_zero.mp pages)
  rw [Nat.succ_sub_one, Nat.succ_mul, List.take_add, window]

theorem addPage_held (held : Held issue leases page walk) (distinct : Distinct leases)
    (counted : 0 < page) (within : page ≤ pagesOf leases.length) : ∃ ids,
    Seen (leases.take (page * leasePageLimit)) ids ∧
    addPage page ⟨walk.leases, walk.leaseIds, .ofInt issue, leases.length, pagesOf leases.length⟩
        ⟨window leases ((page - 1) * leasePageLimit) leasePageLimit,
          page * leasePageLimit < leases.length, leases.length⟩ =
      if page * leasePageLimit < leases.length then
        .more ⟨leases.take (page * leasePageLimit), ids, .ofInt issue, leases.length, pagesOf leases.length⟩
      else .complete leases := by
  have rows : walk.leases ++ window leases ((page - 1) * leasePageLimit) leasePageLimit =
      leases.take (page * leasePageLimit) := by rw [held.rows, take_window counted]
  have part : Distinct (walk.leases ++ window leases ((page - 1) * leasePageLimit) leasePageLimit) := by
    rw [rows]
    exact distinct.take (List.take_prefix _ _)
  obtain ⟨ids, added, seen⟩ := addRows_distinct held.seen part
  rw [rows] at added seen
  have before : walk.leases.length = (page - 1) * leasePageLimit := by
    rw [held.rows, List.length_take]
    simp only [pagesOf, leasePageLimit] at *
    omega
  have after : walk.leases.length + (window leases ((page - 1) * leasePageLimit) leasePageLimit).length =
      min (page * leasePageLimit) leases.length := by
    rw [← List.length_append, rows, List.length_take]
  refine ⟨ids, seen, ?_⟩
  rw [addPage, if_neg (Nat.not_lt.mpr within), if_neg, if_neg]
  · rw [added]
    by_cases more : page * leasePageLimit < leases.length
    · simp [more]
    · have last : leases.take (page * leasePageLimit) = leases := List.take_of_length_le (by omega)
      have final : page = pagesOf leases.length := by
        simp only [pagesOf, leasePageLimit] at *
        omega
      simp [more, last, ← final]
  · rw [after]
    simp only [ne_eq, decide_eq_decide, not_not]
    omega
  · rw [length_window, before, not_not]

theorem judge_held {parsed : Value} (of : WindowOf issue leases page parsed)
    (held : Held issue leases page walk) (distinct : Distinct leases)
    (few : leases.length ≤ leasePageLimit * maxLeasePages) (safe : Value.safeInteger issue)
    (counted : 0 < page) (within : page ≤ pagesOf leases.length) :
    judge (.issue issue) page walk ⟨true, .json parsed⟩ = .complete leases ∨
      page < pagesOf leases.length ∧ ∃ walk', Held issue leases (page + 1) walk' ∧
        judge (.issue issue) page walk ⟨true, .json parsed⟩ = .more walk' := by
  obtain ⟨ids, seen, added⟩ := addPage_held held distinct counted within
  have judged : judge (.issue issue) page walk ⟨true, .json parsed⟩ =
      addPage page ⟨walk.leases, walk.leaseIds, .ofInt issue, leases.length, pagesOf leases.length⟩
        ⟨window leases ((page - 1) * leasePageLimit) leasePageLimit,
          page * leasePageLimit < leases.length, leases.length⟩ := by
    simp [judge, of.object, not_legacy_of_window of, pageFields_window of few, ContextField.name, of.scope,
      validContext, Value.asSafeInteger_ofInt safe, expectations_held held few]
  rw [judged, added]
  by_cases more : page * leasePageLimit < leases.length
  · right
    rw [if_pos more]
    refine ⟨?_, _, ⟨rfl, seen, fun _ => ⟨rfl, rfl, rfl⟩⟩, rfl⟩
    simp only [pagesOf, leasePageLimit] at *
    omega
  · left
    rw [if_neg more]

theorem readPages_serves {command : PageCommand → CommandResult} (serves : Serves issue leases command)
    (distinct : Distinct leases) (few : leases.length ≤ leasePageLimit * maxLeasePages)
    (safe : Value.safeInteger issue) (left : Nat) (counted : 0 < page)
    (within : page ≤ pagesOf leases.length) (enough : pagesOf leases.length < page + left)
    (held : Held issue leases page walk) :
    ((readPages (statusArgs issue) (.issue issue) left page walk).against (fun _ => command) history).1 =
      some leases := by
  induction left generalizing page walk history with
  | zero => omega
  | succ left ih =>
      obtain ⟨parsed, answered, of⟩ := serves page counted
      rw [readPages, Prog.against_call, answered]
      rcases judge_held of held distinct few safe counted within with ended | ⟨before, walk', held', onward⟩
      · rw [ended]
        rfl
      · rw [onward]
        exact ih (by omega) (by omega) (by omega) held'

end Phasegent.Binding
