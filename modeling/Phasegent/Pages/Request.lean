import Mathlib
import Phasegent.Interleaving.Adversary
import Phasegent.Ordered.Windows

namespace Phasegent.Pages
open Fallible Interleaving Ordered

/-- A page that was asked for, at an offset that fits a signed 64-bit integer. -/
structure PageRequest where
  page : Nat
  limit : Nat
  offset : Nat
  counted : page ≠ 0
  bounded : 1 ≤ limit ∧ limit ≤ 100
  placed : offset = (page - 1) * limit
  fits : offset < 2 ^ 63

def PageRequest.new (page limit : Nat) : Except String PageRequest :=
  if counted : page = 0 then .error "--page must be greater than zero"
  else if bounded : 1 ≤ limit ∧ limit ≤ 100 then
    if fits : (page - 1) * limit < 2 ^ 63 then .ok ⟨page, limit, (page - 1) * limit, counted, bounded, rfl, fits⟩
    else .error "pagination offset is too large"
  else .error "--limit must be between 1 and 100 for pagination"

structure Paged (α : Type) where
  items : List α
  page : Nat
  limit : Nat
  totalCount : Option Nat
  hasMore : Bool
  deriving DecidableEq, Repr

/-- The lists of the source: none has more entries than an address can count. -/
structure Vec (α : Type) where
  entries : List α
  addressed : entries.length < 2 ^ 63

variable {α ε : Type}

section Pages

def usizeMax : Nat := 2 ^ 64 - 1

def Paged.known (items : List α) (request : PageRequest) (totalCount : Nat) : Paged α :=
  ⟨items, request.page, request.limit, some totalCount,
    decide (min (request.offset + items.length) usizeMax < totalCount)⟩

def slice (items : List α) (request : PageRequest) : Paged α :=
  .known (window items request.offset request.limit) request items.length

structure Fetch where
  offset : Nat
  limit : Nat
  deriving DecidableEq, Repr

abbrev Upstream (α ε : Type) : Fetch → Type := fun _ => Except ε (List α × Option Nat)

-- Whether more follows the items that end at `next`; without a total, one more item is looked for.
def moreAfter (request : PageRequest) (items : List α) (next : Nat) (invalid : String → ε) :
    Option Nat → Attempt Fetch (Upstream α ε) ε Bool
  | some total => do
      fromExcept (refuse (next < total ∧ items.length < request.limit)
        (invalid "upstream returned an incomplete page before its total"))
      return decide (next < total)
  | none => do
      let (lookahead, _) ← Interleaving.request ⟨next, 1⟩ id
      fromExcept (refuse (1 < lookahead.length) (invalid "upstream exceeded the lookahead limit"))
      fromExcept (refuse (lookahead ≠ [] ∧ items.length < request.limit)
        (invalid "upstream returned an incomplete page without a total"))
      return !lookahead.isEmpty

def nativePage (request : PageRequest) (invalid : String → ε) :
    Attempt Fetch (Upstream α ε) ε (Paged α) := do
  let (items, totalCount) ← Interleaving.request ⟨request.offset, request.limit⟩ id
  fromExcept (refuse (request.limit < items.length) (invalid "upstream exceeded the requested page limit"))
  let next := request.offset + items.length
  fromExcept (refuse (usizeMax < next) (invalid "page offset overflow"))
  let hasMore ← moreAfter request items next invalid totalCount
  return ⟨items, request.page, request.limit, totalCount, hasMore⟩

end Pages

section Upstream
variable {request : PageRequest} {respond : History Fetch (Upstream α ε) → (e : Fetch) → Upstream α ε e}
  {items : List α}

inductive ShowsMore (request : PageRequest) : History Fetch (Upstream α ε) → Prop
  | total {effect : Fetch} {items : List α} {total : Nat} (behind : request.offset + items.length < total) :
      ShowsMore request [⟨effect, .ok (items, some total)⟩]
  | lookahead {effect : Fetch} {first : Act Fetch (Upstream α ε)} {lookahead : List α} {total : Option Nat}
      (behind : lookahead ≠ []) : ShowsMore request [⟨effect, .ok (lookahead, total)⟩, first]

theorem moreAfter_reads (items : List α) (next : Nat) (invalid : String → ε) (totalCount : Option Nat) :
    Reads (fun _ => True) (moreAfter request items next invalid totalCount) fun more part => more = false →
      match totalCount with
      | some total => part = [] ∧ ¬next < total
      | none => ∃ effect total, part = [⟨effect, .ok ([], total)⟩] := by
  cases totalCount with
  | some total =>
      apply reads_bind (reads_fromExcept (Q := fun _ part => part = []) (by simp))
      intro _ part first
      apply reads_pure
      intro last
      exact ⟨by simp [first], by simpa using last⟩
  | none =>
      apply reads_bind (reads_request trivial (Q := fun answer part => part = [⟨⟨next, 1⟩, .ok answer⟩]) (by
        intro r a same
        cases same
        rfl))
      intro (lookahead, total) part looked
      apply reads_bind (reads_fromExcept (Q := fun _ part => part = []) (by simp))
      intro _ part₁ first
      apply reads_bind (reads_fromExcept (Q := fun _ part => part = []) (by simp))
      intro _ part₂ second
      apply reads_pure
      intro last
      have empty : lookahead = [] := by simpa using last
      exact ⟨⟨next, 1⟩, total, by simp [first, second, looked, empty]⟩

theorem native_reads (invalid : String → ε) : Reads (fun _ => True)
    (nativePage request invalid : Attempt Fetch (Upstream α ε) ε (Paged α)) fun paged part => paged.hasMore = false → ¬ShowsMore request part := by
  apply reads_bind (reads_request trivial (Q := fun answer part =>
    part = [⟨⟨request.offset, request.limit⟩, .ok answer⟩]) (by
      intro r a same
      cases same
      rfl))
  intro (items, totalCount) part asked
  apply reads_bind (reads_fromExcept (Q := fun _ part => part = []) (by simp))
  intro _ part₁ first
  apply reads_bind (reads_fromExcept (Q := fun _ part => part = []) (by simp))
  intro _ part₂ second
  apply reads_bind (moreAfter_reads items _ invalid totalCount)
  intro more part₃ settled
  apply reads_pure
  intro last shown
  cases totalCount with
  | some total =>
      obtain ⟨third, behind⟩ := settled last
      simp only [List.nil_append, first, second, third, asked] at shown
      cases shown with
      | total more => exact behind more
  | none =>
      obtain ⟨effect, total, third⟩ := settled last
      simp only [List.nil_append, List.cons_append, first, second, third, asked] at shown
      cases shown with
      | lookahead more => exact more rfl

/-- An upstream that answers with exactly the part of its list that was asked for, with or without the
true total, and each time as it likes. -/
def Windowed (items : List α) (respond : History Fetch (Upstream α ε) → (e : Fetch) → Upstream α ε e) : Prop :=
  ∀ h e, ∃ total, respond h e = .ok (window items e.offset e.limit, total) ∧
    (total = none ∨ total = some items.length)

theorem moreAfter_windowed (windowed : Windowed items respond) {page : List α} {next : Nat}
    {totalCount : Option Nat} (reported : totalCount = none ∨ totalCount = some items.length)
    (full : next < items.length → request.limit ≤ page.length) (invalid : String → ε)
    (h : History Fetch (Upstream α ε)) :
    ((moreAfter request page next invalid totalCount).run.against respond h).1 =
      .ok (decide (next < items.length)) := by
  cases totalCount with
  | some total =>
      obtain rfl : total = items.length := by simpa using reported
      have complete : ¬(next < items.length ∧ page.length < request.limit) := by omega
      simp [moreAfter, fromExcept, refuse_of_not complete]
  | none =>
      obtain ⟨total, looked, -⟩ := windowed h ⟨next, 1⟩
      have single : ¬1 < (window items next 1).length := by
        rw [length_window]
        omega
      have empty : window items next 1 = [] ↔ items.length ≤ next := window_eq_nil Nat.one_pos
      have complete : ¬(window items next 1 ≠ [] ∧ page.length < request.limit) := by
        rw [ne_eq, empty]
        omega
      have last : (!(window items next 1).isEmpty) = decide (next < items.length) := by
        rw [Bool.eq_iff_iff]
        simp [empty]
      simp only [moreAfter, run_bind, Interleaving.request, ExceptT.run_mk, Prog.bind_call, Prog.bind_done,
        Prog.against_call, looked, id, fromExcept, refuse_of_not single, refuse_of_not complete, last]
      rfl

theorem native_windowed (windowed : Windowed items respond) (invalid : String → ε) : ∃ total,
      ((nativePage request invalid).run.against respond []).1 =
        .ok ⟨window items request.offset request.limit, request.page, request.limit, total,
          decide (request.offset + request.limit < items.length)⟩ := by
  obtain ⟨total, asked, reported⟩ := windowed [] ⟨request.offset, request.limit⟩
  have size := length_window items request.offset request.limit
  have within : ¬request.limit < (window items request.offset request.limit).length := by omega
  have small : ¬usizeMax < request.offset + (window items request.offset request.limit).length := by
    have fits := request.fits
    have bounded := request.bounded
    unfold usizeMax
    omega
  have full : request.offset + (window items request.offset request.limit).length < items.length →
      request.limit ≤ (window items request.offset request.limit).length := by omega
  refine ⟨total, ?_⟩
  simp only [nativePage, run_bind, Interleaving.request, ExceptT.run_mk, Prog.bind_call, Prog.bind_done,
    Prog.against_call, Prog.against_bind, asked, id, fromExcept, refuse_of_not within, refuse_of_not small]
  rw [moreAfter_windowed windowed reported full]
  have same : request.offset + (window items request.offset request.limit).length < items.length ↔
      request.offset + request.limit < items.length := by omega
  simp [same]

end Upstream

section Walks
variable {limit : Nat} {first request : PageRequest}

theorem new_ok {page : Nat} (made : PageRequest.new page limit = .ok request) :
    request.page = page ∧ request.limit = limit := by
  unfold PageRequest.new at made
  split at made
  · cases made
  · split at made
    · split at made
      · cases made
        exact ⟨rfl, rfl⟩
      · cases made
    · cases made

theorem new_of_fits {k : Nat} (accepted : PageRequest.new 1 limit = .ok first) (fits : k * limit < 2 ^ 63) :
    ∃ request, PageRequest.new (k + 1) limit = .ok request ∧ request.offset = k * limit ∧
      request.limit = limit := by
  have bounded : 1 ≤ limit ∧ limit ≤ 100 := (new_ok accepted).2 ▸ first.bounded
  refine ⟨⟨k + 1, limit, k * limit, Nat.succ_ne_zero k, bounded, rfl, fits⟩, ?_, rfl, rfl⟩
  have same : (k + 1 - 1) * limit < 2 ^ 63 := fits
  rw [PageRequest.new, dif_neg (Nat.succ_ne_zero k), dif_pos bounded, dif_pos same]
  rfl

def askPage (refused : String → ε) (answer : PageRequest → Except ε (Paged α)) (limit page : Nat) :
    Except ε (List α × Bool) := do
  let request ← (PageRequest.new page limit).mapError refused
  let paged ← answer request
  return (paged.items, paged.hasMore)

variable {items : Vec α} {refused : String → ε} {answer : PageRequest → Except ε (Paged α)}

theorem askPage_exact (accepted : PageRequest.new 1 limit = .ok first)
    (answered : ∀ request : PageRequest, request.offset ≤ items.entries.length → ∃ paged, answer request = .ok paged ∧
      paged.items = window items.entries request.offset request.limit ∧
      paged.hasMore = decide (request.offset + request.limit < items.entries.length)) :
    Exact (askPage refused answer limit) items.entries limit := by
  intro k started
  obtain ⟨request, made, offset, same⟩ := new_of_fits accepted (Nat.lt_of_le_of_lt started items.addressed)
  obtain ⟨paged, given, listed, more⟩ := answered request (offset ▸ started)
  simp [askPage, made, given, listed, more, offset, same, Except.mapError]

theorem slice_hasMore (request : PageRequest) (begun : request.offset ≤ items.entries.length) :
    (slice items.entries request).hasMore = decide (request.offset + request.limit < items.entries.length) := by
  have size := length_window items.entries request.offset request.limit
  have addressed := items.addressed
  rw [slice, Paged.known, decide_eq_decide, usizeMax]
  omega

/-- Walking the pages of a list in memory or of an upstream ends and gives the whole list, and no upstream
makes a page the last one while it shows that entries follow. -/
theorem pages_complete (items : Vec α) (refused invalid : String → ε)
    (accepted : PageRequest.new 1 limit = .ok first) :
    (∀ fuel, items.entries.length < fuel →
      walk (askPage refused (fun request => .ok (slice items.entries request)) limit) fuel 1 =
        some (.ok items.entries)) ∧
    (∀ respond : Nat → History Fetch (Upstream α ε) → (e : Fetch) → Upstream α ε e,
      (∀ page, Windowed items.entries (respond page)) → ∀ fuel, items.entries.length < fuel →
        walk (askPage refused (fun request =>
          ((nativePage request invalid).run.against (respond request.page) []).1) limit) fuel 1 =
            some (.ok items.entries)) ∧
    ∀ (request : PageRequest) (h : History Fetch (Upstream α ε)) (paged : Paged α),
      Reaches (nativePage request invalid).run h (.done (.ok paged)) →
        paged.hasMore = false → ¬ShowsMore request h := by
  have positive : 0 < limit := (new_ok accepted).2 ▸ first.bounded.1
  refine ⟨fun fuel enough => ?_, fun respond windowed fuel enough => ?_, fun request h paged reached => ?_⟩
  · apply Exact.walk_all _ positive enough
    exact askPage_exact accepted fun request begun => ⟨_, rfl, rfl, slice_hasMore request begun⟩
  · apply Exact.walk_all _ positive enough
    apply askPage_exact accepted
    intro request _
    obtain ⟨total, page⟩ := native_windowed (windowed request.page) invalid
    exact ⟨_, page, rfl, rfl⟩
  · exact Reads.reached (native_reads invalid) reached

theorem odd_pages : walk (askPage id (fun request => .ok (slice [1, 2, 3] request)) 2) 4 1 = some (.ok [1, 2, 3]) := by
  have accepted : PageRequest.new 1 2 = .ok ⟨1, 2, 0, by decide, by decide, rfl, by decide⟩ := rfl
  exact (pages_complete ⟨[1, 2, 3], by decide⟩ id id accepted).1 4 (by decide)

end Walks

end Phasegent.Pages
