import Phasegent.Forgejo.Link
import Phasegent.Interleaving.Adversary
import Phasegent.Ordered.Windows

namespace Phasegent.Forgejo
open Fallible Interleaving Ordered Text

structure PageAnswer (α : Type) where
  items : List α
  headers : Headers
  fingerprint : Option String

abbrev PageRet (α : Type) : Nat → Type := fun _ => Except PhasegentError (PageAnswer α)

abbrev CollectM (α : Type) := Attempt Nat (PageRet α) PhasegentError

def pageLimit : Nat := 100
def maxPages : Nat := 1000

section Collect
variable {α : Type} (operation : String) (validUrl : List Char → Bool)

structure Progress (α : Type) where
  result : List α
  observed : List String
  expectedTotal : Option Nat
  expectedMore : Bool

def Progress.start : Progress α := ⟨[], [], none, false⟩

variable (page : Nat)

def pageText (text : String) : PhasegentError := .pagination operation ("page " ++ page.repr ++ text)

def debugTotal : Option Nat → String
  | none => "None"
  | some total => "Some(" ++ total.repr ++ ")"

def establishTotal (expected reported : Option Nat) : Except PhasegentError (Option Nat) :=
  match reported with
  | none => return expected
  | some total => do
      refuse (expected.any (· ≠ total) = true) (.pagination operation
        ("server changed the reported total from " ++ debugTotal expected ++ " to " ++ total.repr))
      return some total

def checkTotal (accumulated : Nat) (empty : Bool) (linkedNext : Option Bool) :
    Option Nat → Except PhasegentError Unit
  | none => return ()
  | some total => do
      refuse (total < accumulated) (pageText operation page (" exceeds the reported total " ++ total.repr))
      refuse (empty = true ∧ accumulated < total)
        (pageText operation page (" is empty before the reported total " ++ total.repr))
      refuse (linkedNext.any (· ≠ decide (accumulated < total)) = true) (pageText operation page
        (" total " ++ total.repr ++ " and Link next=" ++ (if linkedNext = some true then "true" else "false") ++
          " disagree about completion"))

def observe (observed : List String) (answer : PageAnswer α) : Except PhasegentError (List String) :=
  if answer.items.isEmpty then return observed
  else do
    let some fingerprint := answer.fingerprint
      | throw (.pagination operation "page could not be normalized for progress checking")
    refuse (fingerprint ∈ observed) (pageText operation page " repeats an earlier page without progress")
    return fingerprint :: observed

def isLast (accumulated : Nat) (empty : Bool) (linkedNext : Option Bool) : Option Nat → Except PhasegentError Bool
  | some total =>
      if accumulated = total then return true
      else do
        refuse (empty = true) (pageText operation page " is empty before completion")
        return false
  | none =>
      match linkedNext with
      | some true => do
          refuse (empty = true) (pageText operation page " is empty while Link advertises more")
          return false
      | some false => return true
      | none => return empty

def expectsMore (accumulated : Nat) (linkedNext : Option Bool) : Option Nat → Bool
  | some total => accumulated < total
  | none => linkedNext = some true

/-- What a page makes of the progress so far: the whole list, or the progress to go on with. -/
def judge (progress : Progress α) (answer : PageAnswer α) : Except PhasegentError (List α ⊕ Progress α) := do
  let empty := answer.items.isEmpty
  refuse (pageLimit < answer.items.length) (.pagination operation "server exceeded page limit")
  refuse (progress.expectedMore = true ∧ empty = true)
    (pageText operation page " is empty after an earlier page reported more")
  let metadata ← pageMetadata operation validUrl answer.headers
  let total ← establishTotal operation progress.expectedTotal metadata.total
  let result := progress.result ++ answer.items
  checkTotal operation page result.length empty metadata.linkedNext total
  let observed ← observe operation page progress.observed answer
  if ← isLast operation page result.length empty metadata.linkedNext total then return .inl result
  else return .inr ⟨result, observed, total, expectsMore result.length metadata.linkedNext total⟩

def collectFrom : Nat → Nat → Progress α → CollectM α (List α)
  | 0, _, _ => throw (.pagination operation "Forgejo page limit exceeded")
  | pages + 1, page, progress => do
      let answer ← request page id
      match ← fromExcept (judge operation validUrl page progress answer) with
      | .inl result => return result
      | .inr progress => collectFrom pages (page + 1) progress

def reservedKeys : List (List Char) := ["page".toList, "limit".toList]

def collect (query : List String) : CollectM α (List α) :=
  match query.find? fun key => reservedKeys.contains (toAsciiLower key.toList) with
  | some key => throw (.pagination operation ("caller must not supply reserved pagination key '" ++ key ++ "'"))
  | none => collectFrom operation validUrl maxPages 1 .start

end Collect

section Judgement

variable {α : Type} {operation : String} {validUrl : List Char → Bool} {page : Nat} {progress : Progress α}
  {answer : PageAnswer α}

theorem establishTotal_ok {expected reported total : Option Nat}
    (established : establishTotal operation expected reported = .ok total) :
    (∀ own ∈ reported, total = some own) ∧ (∀ own ∈ expected, total = some own) ∧
      ∀ own ∈ total, reported = some own ∨ expected = some own := by
  cases reported with
  | none =>
      cases established
      exact ⟨nofun, fun _ => id, fun _ => Or.inr⟩
  | some own =>
      simp only [establishTotal, bind_eq_ok, refuse_eq_ok, pure_eq, Except.ok.injEq] at established
      obtain ⟨-, agrees, rfl⟩ := established
      refine ⟨fun _ same => same, fun other known => ?_, fun _ => Or.inl⟩
      cases known
      have same : other = own := by simpa using agrees
      rw [same]

/-- What the total and the link of a page say of the entries read so far. -/
def Consistent (accumulated : Nat) (linkedNext : Option Bool) (total : Option Nat) : Prop :=
  ∀ own ∈ total, accumulated ≤ own ∧ ∀ next ∈ linkedNext, next = decide (accumulated < own)

theorem checkTotal_ok {accumulated : Nat} {empty : Bool} {linkedNext : Option Bool} {total : Option Nat}
    (checked : checkTotal operation page accumulated empty linkedNext total = .ok ()) :
    Consistent accumulated linkedNext total := by
  rintro own rfl
  simp only [checkTotal, bind_eq_ok, refuse_eq_ok] at checked
  obtain ⟨-, within, -, -, agrees⟩ := checked
  refine ⟨Nat.not_lt.mp within, ?_⟩
  rintro next rfl
  simpa using agrees

theorem isLast_ok {accumulated : Nat} {empty : Bool} {linkedNext : Option Bool} {total : Option Nat} {last : Bool}
    (found : isLast operation page accumulated empty linkedNext total = .ok last) :
    if last then (∀ own ∈ total, accumulated = own) ∧ (total = none → linkedNext = some false ∨ linkedNext = none ∧ empty = true)
    else empty = false ∧ (∀ own ∈ total, accumulated ≠ own) ∧ (total = none → linkedNext ≠ some false) := by
  cases total with
  | some own =>
      by_cases reached : accumulated = own
      · simp only [isLast, if_pos reached, pure_eq, Except.ok.injEq] at found
        subst found
        simpa using reached
      · simp only [isLast, if_neg reached, bind_eq_ok, refuse_eq_ok, pure_eq, Except.ok.injEq] at found
        obtain ⟨-, filled, rfl⟩ := found
        simpa [reached] using filled
  | none =>
      rcases linkedNext with _ | _ | _
      · cases found
        cases empty <;> simp
      · cases found
        simp
      · simp only [isLast, bind_eq_ok, refuse_eq_ok, pure_eq, Except.ok.injEq] at found
        obtain ⟨-, filled, rfl⟩ := found
        simpa using filled

theorem observe_ok {observed observed' : List String} (fresh : observe operation page observed answer = .ok observed') :
    if answer.items = [] then observed' = observed
    else ∃ fingerprint, answer.fingerprint = some fingerprint ∧ fingerprint ∉ observed ∧ observed' = fingerprint :: observed := by
  unfold observe at fresh
  by_cases empty : answer.items = []
  · simp [empty] at fresh
    simp [empty, fresh]
  · rw [if_neg empty]
    cases printed : answer.fingerprint with
    | none => simp [empty, printed] at fresh
    | some fingerprint =>
        simp [empty, printed] at fresh
        exact ⟨fingerprint, rfl, fresh.1, fresh.2.symm⟩

structure Judged (operation : String) (validUrl : List Char → Bool) (progress : Progress α) (answer : PageAnswer α)
    (metadata : PageMetadata) (total : Option Nat) (observed : List String) : Prop where
  read : pageMetadata operation validUrl answer.headers = .ok metadata
  limited : answer.items.length ≤ pageLimit
  expected : progress.expectedMore = true → answer.items ≠ []
  established : (∀ own ∈ metadata.total, total = some own) ∧ (∀ own ∈ progress.expectedTotal, total = some own) ∧
    ∀ own ∈ total, metadata.total = some own ∨ progress.expectedTotal = some own
  consistent : Consistent (progress.result ++ answer.items).length metadata.linkedNext total
  fresh : if answer.items = [] then observed = progress.observed
    else ∃ fingerprint, answer.fingerprint = some fingerprint ∧ fingerprint ∉ progress.observed ∧
      observed = fingerprint :: progress.observed

theorem judge_ok {judged : List α ⊕ Progress α} (accepted : judge operation validUrl page progress answer = .ok judged) :
    ∃ metadata total observed, Judged operation validUrl progress answer metadata total observed ∧
      ((judged = .inl (progress.result ++ answer.items) ∧
          (∀ own ∈ total, (progress.result ++ answer.items).length = own) ∧
          (total = none → metadata.linkedNext = some false ∨ metadata.linkedNext = none ∧ answer.items = [])) ∨
        (answer.items ≠ [] ∧ (∀ own ∈ total, (progress.result ++ answer.items).length ≠ own) ∧
          (total = none → metadata.linkedNext ≠ some false) ∧
          judged = .inr ⟨progress.result ++ answer.items, observed, total,
            expectsMore (progress.result ++ answer.items).length metadata.linkedNext total⟩)) := by
  simp only [judge, bind_eq_ok, refuse_eq_ok] at accepted
  obtain ⟨_, limited, _, expected, metadata, read, total, established, _, checked, observed, fresh, last, found, decided⟩ := accepted
  refine ⟨metadata, total, observed, ⟨read, Nat.not_lt.mp limited, ?_, establishTotal_ok established, checkTotal_ok checked,
    observe_ok fresh⟩, ?_⟩
  · simpa using expected
  have told := isLast_ok found
  cases last with
  | true =>
      cases decided
      exact Or.inl ⟨rfl, by simpa using told⟩
  | false =>
      cases decided
      refine Or.inr ⟨?_, told.2.1, told.2.2, rfl⟩
      simpa using told.1

end Judgement

section Accounting

variable {α : Type} {operation : String} {validUrl : List Char → Bool} {progress : Progress α}

abbrev PageHistory (α : Type) := History Nat (PageRet α)

def asked (seen : List (PageAnswer α)) : PageHistory α :=
  (seen.mapIdx fun k answer => (⟨k + 1, .ok answer⟩ : Act Nat (PageRet α))).reverse

theorem asked_concat (seen : List (PageAnswer α)) (answer : PageAnswer α) :
    asked (seen ++ [answer]) = ⟨seen.length + 1, .ok answer⟩ :: asked seen := by
  simp [asked, List.mapIdx_append]

theorem length_asked (seen : List (PageAnswer α)) : (asked seen).length = seen.length := by
  simp [asked]

/-- The signals of a page, when the whole list has so many entries. -/
structure Admits (operation : String) (validUrl : List Char → Bool) (count : Nat) (more : Bool) (answer : PageAnswer α) :
    Prop where
  limited : answer.items.length ≤ pageLimit
  filled : more = true → answer.items ≠ []
  signals : ∃ metadata, pageMetadata operation validUrl answer.headers = .ok metadata ∧
    (∀ own ∈ metadata.total, own = count) ∧ ∀ next ∈ metadata.linkedNext, next = more

def Reports (operation : String) (validUrl : List Char → Bool) (own : Nat) (answer : PageAnswer α) : Prop :=
  ∃ metadata, pageMetadata operation validUrl answer.headers = .ok metadata ∧ metadata.total = some own

/-- Why a page is the last one, unless a page has reported the total. -/
def Ends (operation : String) (validUrl : List Char → Bool) (answer : PageAnswer α) : Prop :=
  ∃ metadata, pageMetadata operation validUrl answer.headers = .ok metadata ∧
    (metadata.linkedNext = some false ∨ metadata.linkedNext = none ∧ answer.items = [])

structure Complete (operation : String) (validUrl : List Char → Bool) (result : List α) (seen : List (PageAnswer α)) :
    Prop where
  whole : result = seen.flatMap (·.items)
  earlier : ∀ answer ∈ seen.dropLast, Admits operation validUrl result.length true answer
  last : ∃ answer, seen.getLast? = some answer ∧ Admits operation validUrl result.length false answer ∧
    ((∃ answer ∈ seen, Reports operation validUrl result.length answer) ∨ Ends operation validUrl answer)
  distinct : ((seen.filter fun answer => !answer.items.isEmpty).map (·.fingerprint)).Nodup

def Accounted (operation : String) (validUrl : List Char → Bool) (seen : List (PageAnswer α)) :
    Except PhasegentError (List α) × PageHistory α → Prop
  | (.ok result, h) => h = asked seen ∧ Complete operation validUrl result seen
  | (.error e, h) => h = asked seen ∨ h = ⟨seen.length + 1, .error e⟩ :: asked seen

structure Tallied (operation : String) (validUrl : List Char → Bool) (progress : Progress α) (seen : List (PageAnswer α)) :
    Prop where
  whole : progress.result = seen.flatMap (·.items)
  observed : seen.map (·.fingerprint) = progress.observed.reverse.map some
  distinct : progress.observed.Nodup
  filled : ∀ answer ∈ seen, answer.items ≠ []
  reported : ∀ own ∈ progress.expectedTotal, ∃ answer ∈ seen, Reports operation validUrl own answer
  earlier : ∀ count, (∀ own ∈ progress.expectedTotal, own = count) →
    ∀ answer ∈ seen, Admits operation validUrl count true answer

variable {seen : List (PageAnswer α)} {answer : PageAnswer α} {metadata : PageMetadata} {total : Option Nat}
  {observed : List String}

theorem Tallied.later (tallied : Tallied operation validUrl progress seen)
    (judged : Judged operation validUrl progress answer metadata total observed) {count : Nat}
    (known : ∀ own ∈ total, own = count) : ∀ answer ∈ seen, Admits operation validUrl count true answer :=
  tallied.earlier count fun own expected => known own (judged.established.2.1 own expected)

theorem Tallied.reports (tallied : Tallied operation validUrl progress seen)
    (judged : Judged operation validUrl progress answer metadata total observed) :
    ∀ own ∈ total, ∃ reporter ∈ seen ++ [answer], Reports operation validUrl own reporter := by
  intro own known
  rcases judged.established.2.2 own known with told | expected
  · exact ⟨answer, by simp, metadata, judged.read, told⟩
  · obtain ⟨earlier, among, reports⟩ := tallied.reported own expected
    exact ⟨earlier, List.mem_append_left _ among, reports⟩

theorem Tallied.next (tallied : Tallied operation validUrl progress seen)
    (judged : Judged operation validUrl progress answer metadata total observed) (filled : answer.items ≠ [])
    (more : (∀ own ∈ total, (progress.result ++ answer.items).length ≠ own))
    (onward : total = none → metadata.linkedNext ≠ some false) (expects : Bool) :
    Tallied operation validUrl ⟨progress.result ++ answer.items, observed, total, expects⟩ (seen ++ [answer]) := by
  have fresh := judged.fresh
  rw [if_neg filled] at fresh
  obtain ⟨fingerprint, printed, fresh, rfl⟩ := fresh
  refine ⟨by simp [tallied.whole], by simp [tallied.observed, printed], List.nodup_cons.mpr ⟨fresh, tallied.distinct⟩,
    List.forall_mem_append.mpr ⟨tallied.filled, by simpa using filled⟩, tallied.reports judged, fun count known => ?_⟩
  refine List.forall_mem_append.mpr ⟨tallied.later judged known, ?_⟩
  rw [List.forall_mem_singleton]
  refine ⟨judged.limited, fun _ => filled, metadata, judged.read, fun own told => known own (judged.established.1 own told), ?_⟩
  intro next linked
  cases established : total with
  | none =>
      have onward := onward established
      rw [Option.mem_def.mp linked] at onward
      simpa using onward
  | some own =>
      have consistent := judged.consistent own established
      rw [consistent.2 next linked, decide_eq_true_eq]
      exact Nat.lt_of_le_of_ne consistent.1 (more own established)

theorem Tallied.complete (tallied : Tallied operation validUrl progress seen)
    (judged : Judged operation validUrl progress answer metadata total observed)
    (ended : ∀ own ∈ total, (progress.result ++ answer.items).length = own)
    (final : total = none → metadata.linkedNext = some false ∨ metadata.linkedNext = none ∧ answer.items = []) :
    Complete operation validUrl (progress.result ++ answer.items) (seen ++ [answer]) := by
  have known : ∀ own ∈ total, own = (progress.result ++ answer.items).length := fun own among => (ended own among).symm
  refine ⟨by simp [tallied.whole], ?_, ⟨answer, by simp, ⟨judged.limited, nofun, metadata, judged.read,
    fun own told => known own (judged.established.1 own told), fun next linked => ?_⟩, ?_⟩, ?_⟩
  · rw [List.dropLast_concat]
    exact tallied.later judged known
  · cases established : total with
    | none =>
        have final := final established
        rw [Option.mem_def.mp linked] at final
        simpa using final
    | some own =>
        rw [(judged.consistent own established).2 next linked, known own established]
        simp
  · cases established : total with
    | none => exact Or.inr ⟨metadata, judged.read, final established⟩
    | some own =>
        rw [ended own established]
        exact Or.inl (tallied.reports judged own established)
  · have all : (seen.filter fun answer => !answer.items.isEmpty) = seen := by
      rw [List.filter_eq_self]
      intro own among
      simpa using tallied.filled own among
    have older : (seen.map (·.fingerprint)).Nodup := by
      rw [tallied.observed]
      exact (List.nodup_reverse.mpr tallied.distinct).map (Option.some_injective _)
    rw [List.filter_append, all]
    by_cases empty : answer.items = []
    · simpa [empty] using older
    · have fresh := judged.fresh
      rw [if_neg empty] at fresh
      obtain ⟨fingerprint, printed, fresh, -⟩ := fresh
      have absent : some fingerprint ∉ seen.map (·.fingerprint) := by
        rw [tallied.observed]
        simpa using fresh
      rw [List.filter_cons_of_pos (by simpa using empty), List.filter_nil, List.map_append, List.map_singleton, printed]
      refine List.nodup_append.mpr ⟨older, List.nodup_singleton _, ?_⟩
      rintro own among own' here rfl
      exact absent (List.mem_singleton.mp here ▸ among)

theorem collectFrom_accounted (respond : PageHistory α → (page : Nat) → PageRet α page) (pages : Nat)
    (tallied : Tallied operation validUrl progress seen) :
    let ended := (collectFrom operation validUrl pages (seen.length + 1) progress).run.against respond (asked seen)
    ended.2.length ≤ seen.length + pages ∧ ∃ seen', Accounted operation validUrl seen' ended := by
  induction pages generalizing progress seen with
  | zero => exact ⟨(length_asked seen).le, seen, Or.inl rfl⟩
  | succ pages ih =>
      simp only [collectFrom, run_bind, Interleaving.request, ExceptT.run_mk, Prog.bind_call, Prog.bind_done,
        Prog.against_call, id, fromExcept]
      cases answered : respond (asked seen) (seen.length + 1) with
      | error e =>
          refine ⟨?_, seen, Or.inr rfl⟩
          have same := length_asked seen
          simp only [Prog.against_done, List.length_cons]
          omega
      | ok answer =>
          rw [← asked_concat]
          dsimp only
          cases judged : judge operation validUrl (seen.length + 1) progress answer with
          | error e =>
              refine ⟨?_, seen ++ [answer], Or.inl rfl⟩
              simp only [Prog.against_done, length_asked, List.length_append, List.length_singleton]
              omega
          | ok outcome =>
              obtain ⟨metadata, total, observed, agreed, decided⟩ := judge_ok judged
              rcases decided with ⟨rfl, ended, final⟩ | ⟨filled, more, onward, rfl⟩
              · refine ⟨?_, seen ++ [answer], rfl, tallied.complete agreed ended final⟩
                simp only [ExceptT.run_pure, Prog.pure_eq, Prog.against_done, length_asked, List.length_append, List.length_singleton]
                omega
              · have next := ih (tallied.next agreed filled more onward
                  (expectsMore (progress.result ++ answer.items).length metadata.linkedNext total))
                rw [List.length_append, List.length_singleton] at next
                refine ⟨?_, next.2⟩
                have := next.1
                dsimp only at this ⊢
                omega

theorem tallied_start (operation : String) (validUrl : List Char → Bool) : Tallied operation validUrl (.start : Progress α) [] :=
  ⟨rfl, rfl, List.nodup_nil, nofun, nofun, fun _ _ => nofun⟩

/-- Whatever the server answers: the pages are asked for in order, a thousand at most, and a list that is returned is all
of them, with as many entries as every reported total says. -/
theorem collect_accounted (operation : String) (validUrl : List Char → Bool) (query : List String)
    (respond : PageHistory α → (page : Nat) → PageRet α page) :
    let ended := (collect operation validUrl query).run.against respond []
    ended.2.length ≤ maxPages ∧ ∃ seen, Accounted operation validUrl seen ended := by
  unfold collect
  split
  · exact ⟨Nat.zero_le _, [], Or.inl rfl⟩
  · have ended := collectFrom_accounted respond maxPages (tallied_start operation validUrl)
    rw [List.length_nil, Nat.zero_add] at ended
    exact ended

end Accounting

section Truth

variable {α : Type} {operation : String} {validUrl : List Char → Bool} {items : List α} {answer : PageAnswer α}

structure Tells (operation : String) (validUrl : List Char → Bool) (items : List α) (size k : Nat) (answer : PageAnswer α) :
    Prop where
  slice : answer.items = window items (k * size) size
  total : ∀ metadata, pageMetadata operation validUrl answer.headers = .ok metadata → ∀ own ∈ metadata.total, own = items.length
  next : ∀ metadata, pageMetadata operation validUrl answer.headers = .ok metadata →
    ∀ next ∈ metadata.linkedNext, next = decide ((k + 1) * size < items.length)

/-- A server with pages of one size that answers truthfully where it answers. -/
structure Truthful (operation : String) (validUrl : List Char → Bool) (items : List α) where
  size : Nat
  positive : 0 < size
  respond : PageHistory α → (page : Nat) → PageRet α page
  tells : ∀ h k answer, respond h (k + 1) = .ok answer → Tells operation validUrl items size k answer

theorem take_window {size : Nat} (k : Nat) : items.take (k * size) ++ window items (k * size) size = items.take ((k + 1) * size) := by
  rw [take_append_window, length_window, Nat.succ_mul, List.take_eq_take_iff]
  omega

/-- A truthful server that answers every request for a list that is not too long, with the pages as they are told apart. -/
structure Steady (operation : String) (validUrl : List Char → Bool) (items : List α) extends
    Truthful operation validUrl items where
  limited : size ≤ pageLimit
  short : items.length ≤ (maxPages - 1) * size
  distinct : items.Nodup
  print : List α → String
  told : Function.Injective print
  answers : ∀ h k, ∃ answer metadata, respond h (k + 1) = .ok answer ∧
    pageMetadata operation validUrl answer.headers = .ok metadata ∧ answer.fingerprint = some (print answer.items)

theorem window_ne {size j k : Nat} (distinct : items.Nodup) (earlier : j < k) (filled : window items (k * size) size ≠ []) :
    window items (j * size) size ≠ window items (k * size) size := by
  intro same
  obtain ⟨x, rest, first⟩ := List.exists_cons_of_ne_nil filled
  have here : x ∈ window items (k * size) size := first ▸ List.mem_cons_self
  have before : x ∈ items.take ((j + 1) * size) := by
    rw [← take_window j]
    exact List.mem_append_right _ (same ▸ here)
  have bound : (j + 1) * size ≤ k * size := Nat.mul_le_mul_right _ earlier
  exact List.disjoint_take_drop distinct bound before (List.mem_of_mem_take here)

section Accepted

variable (operation : String) (page : Nat) {accumulated count : Nat} {empty : Bool} {linkedNext : Option Bool} {total : Option Nat}

theorem establishTotal_accepts {expected reported : Option Nat} (expects : ∀ own ∈ expected, own = count)
    (reports : ∀ own ∈ reported, own = count) : ∃ total, establishTotal operation expected reported = .ok total ∧
      ∀ own ∈ total, own = count := by
  cases reported with
  | none => exact ⟨expected, rfl, expects⟩
  | some own =>
      have agrees : ¬expected.any (· ≠ own) = true := by
        cases expected with
        | none => simp
        | some other => simp [expects other rfl, reports own rfl]
      exact ⟨some own, by rw [establishTotal, refuse_of_not agrees]; rfl, reports⟩

theorem checkTotal_accepts (known : ∀ own ∈ total, own = count) (within : accumulated ≤ count)
    (ended : empty = true → accumulated = count) (next : ∀ next ∈ linkedNext, next = decide (accumulated < count)) :
    checkTotal operation page accumulated empty linkedNext total = .ok () := by
  cases total with
  | none => rfl
  | some own =>
      cases known own rfl
      have unfinished : ¬(empty = true ∧ accumulated < count) := fun early => absurd (ended early.1) (Nat.ne_of_lt early.2)
      have agrees : ¬linkedNext.any (· ≠ decide (accumulated < count)) = true := by
        cases linkedNext with
        | none => simp
        | some link => simp [next link rfl]
      rw [checkTotal, refuse_of_not (Nat.not_lt.mpr within), refuse_of_not unfinished, refuse_of_not agrees]
      rfl

theorem observe_accepts {observed : List String} {fingerprint : String} (printed : answer.fingerprint = some fingerprint)
    (fresh : answer.items ≠ [] → fingerprint ∉ observed) :
    ∃ observed', observe operation page observed answer = .ok observed' := by
  by_cases empty : answer.items = []
  · exact ⟨observed, by simp [observe, empty]⟩
  · exact ⟨fingerprint :: observed, by simp [observe, empty, printed, refuse_of_not (fresh empty)]⟩

theorem isLast_accepts (known : ∀ own ∈ total, own = count) (ended : empty = true → accumulated = count)
    (next : empty = true → linkedNext ≠ some true) :
    ∃ last, isLast operation page accumulated empty linkedNext total = .ok last := by
  cases total with
  | some own =>
      cases known own rfl
      by_cases reached : accumulated = count
      · exact ⟨true, by simp [isLast, reached]⟩
      · exact ⟨false, by rw [isLast, if_neg reached, refuse_of_not (mt ended reached)]; rfl⟩
  | none =>
      rcases linkedNext with _ | _ | _
      · exact ⟨empty, rfl⟩
      · exact ⟨true, rfl⟩
      · exact ⟨false, by simp only [isLast, refuse_of_not fun early => next early rfl]; rfl⟩

end Accepted

structure Advanced (server : Steady operation validUrl items) (k : Nat) (progress : Progress α) : Prop where
  read : progress.result = items.take (k * server.size)
  observed : ∀ print ∈ progress.observed, ∃ j < k, print = server.print (window items (j * server.size) server.size)
  expected : ∀ own ∈ progress.expectedTotal, own = items.length
  more : progress.expectedMore = true → k * server.size < items.length
  begun : k = 0 ∨ (k - 1) * server.size < items.length

variable {server : Steady operation validUrl items} {k : Nat} {progress : Progress α} {metadata : PageMetadata}

theorem Advanced.judged (advanced : Advanced server k progress) (tells : Tells operation validUrl items server.size k answer)
    (parsed : pageMetadata operation validUrl answer.headers = .ok metadata)
    (printed : answer.fingerprint = some (server.print answer.items)) :
    judge operation validUrl (k + 1) progress answer = .ok (.inl items) ∨ ∃ progress', Advanced server (k + 1) progress' ∧
      judge operation validUrl (k + 1) progress answer = .ok (.inr progress') := by
  have positive := server.positive
  have next : (k + 1) * server.size = k * server.size + server.size := Nat.succ_mul k server.size
  have read : progress.result ++ answer.items = items.take ((k + 1) * server.size) := by
    rw [advanced.read, tells.slice, take_window]
  have count : (progress.result ++ answer.items).length = min ((k + 1) * server.size) items.length := by
    rw [read, List.length_take]
  have ends : answer.items = [] ↔ items.length ≤ k * server.size := by rw [tells.slice, window_eq_nil positive]
  have empty : answer.items.isEmpty = true ↔ items.length ≤ k * server.size := List.isEmpty_iff.trans ends
  have limited : ¬pageLimit < answer.items.length := by
    rw [tells.slice, length_window]
    have := server.limited
    omega
  have expected : ¬(progress.expectedMore = true ∧ answer.items.isEmpty = true) := fun both =>
    absurd (advanced.more both.1) (Nat.not_lt.mpr (empty.mp both.2))
  have onward : ∀ next ∈ metadata.linkedNext, next = decide ((progress.result ++ answer.items).length < items.length) := by
    intro next linked
    rw [tells.next metadata parsed next linked, decide_eq_decide, count]
    omega
  have finished : answer.items.isEmpty = true → (progress.result ++ answer.items).length = items.length := by
    intro none
    have := empty.mp none
    omega
  obtain ⟨total, established, known⟩ := establishTotal_accepts operation advanced.expected (tells.total metadata parsed)
  have checked := checkTotal_accepts operation (k + 1) known
    (count ▸ Nat.min_le_right _ _ : (progress.result ++ answer.items).length ≤ items.length) finished onward
  have fresh : answer.items ≠ [] → server.print answer.items ∉ progress.observed := by
    intro filled repeated
    obtain ⟨j, earlier, same⟩ := advanced.observed _ repeated
    rw [tells.slice] at filled same
    exact window_ne server.distinct earlier filled (server.told same).symm
  obtain ⟨observed, seen⟩ := observe_accepts operation (k + 1) printed fresh
  have unlinked : answer.items.isEmpty = true → metadata.linkedNext ≠ some true := by
    intro none linked
    have := onward true linked
    simp [finished none] at this
  obtain ⟨last, found⟩ := isLast_accepts operation (k + 1) known finished unlinked
  have accepted : ∃ judged, judge operation validUrl (k + 1) progress answer = .ok judged := by
    simp only [judge, refuse_of_not limited, refuse_of_not expected, parsed, established, checked, seen, found, ok_bind]
    cases last
    · exact ⟨_, rfl⟩
    · exact ⟨_, rfl⟩
  obtain ⟨judged, accepted⟩ := accepted
  obtain ⟨metadata', total', observed', agreed, ⟨rfl, ended, final⟩ | ⟨filled, more, onward', rfl⟩⟩ := judge_ok accepted
  all_goals
    cases parsed.symm.trans agreed.read
    have known' : ∀ own ∈ total', own = items.length := fun own told =>
      (agreed.established.2.2 own told).elim (tells.total metadata parsed own) (advanced.expected own)
  · refine Or.inl (accepted.trans ?_)
    have all : (progress.result ++ answer.items).length = items.length := by
      cases established' : total' with
      | some own => exact (ended own established').trans (known' own established')
      | none =>
          rcases final established' with stops | ⟨-, none⟩
          · have := onward false stops
            rw [eq_comm, decide_eq_false_iff_not] at this
            omega
          · exact finished (List.isEmpty_iff.mpr none)
    rw [read, List.take_of_length_le (by omega)]
  · refine Or.inr ⟨_, ⟨read, ?_, known', ?_, Or.inr ?_⟩, accepted⟩
    · have fresh := agreed.fresh
      rw [if_neg filled] at fresh
      obtain ⟨fingerprint, same, -, rfl⟩ := fresh
      cases printed.symm.trans same
      refine List.forall_mem_cons.mpr ⟨⟨k, Nat.lt_succ_self k, by rw [tells.slice]⟩, fun print among => ?_⟩
      obtain ⟨j, earlier, own⟩ := advanced.observed print among
      exact ⟨j, Nat.lt_succ_of_lt earlier, own⟩
    · intro expects
      dsimp only at expects
      have further : (progress.result ++ answer.items).length < items.length := by
        cases established' : total' with
        | some own =>
            rw [established', expectsMore, decide_eq_true_eq, known' own established'] at expects
            exact expects
        | none =>
            rw [established', expectsMore, decide_eq_true_eq] at expects
            exact of_decide_eq_true (onward true expects).symm
      omega
    · rw [Nat.add_sub_cancel]
      exact Nat.lt_of_not_le (mt ends.mpr filled)

end Truth

section Sample

def letters : List Char := ['a', 'b', 'c']

end Sample

end Phasegent.Forgejo
