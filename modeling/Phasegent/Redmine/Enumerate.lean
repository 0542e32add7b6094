import Phasegent.Interleaving.Adversary
import Phasegent.Ordered.Windows
import Phasegent.Redmine.Provision

namespace Phasegent.Redmine
open Fallible Interleaving Ordered

variable {α β : Type}

structure Page (α : Type) where
  items : List α
  totalCount : Option Nat
  limit : Option Nat
  signature : String
  deriving DecidableEq, Repr

abbrev PageAnswer (α : Type) : Nat → Type := fun _ => Except PhasegentError (Page α)

def advance (operation : String) (offset : Nat) (previous : Option String) (page : Page α) :
    Except PhasegentError (Option Nat) := do
  refuse (previous = some page.signature ∧ page.items ≠ [])
    (.pagination operation "Redmine returned the same non-empty page repeatedly")
  let count := page.items.length
  let complete ← pageIsComplete operation offset count page.totalCount (max (page.limit.getD pageSize) 1)
  refuse (¬complete ∧ saturatingAdd offset count ≤ offset)
    (.pagination operation "Redmine pagination offset did not advance")
  return if complete then none else some (saturatingAdd offset count)

def paginateFrom (operation : String) :
    Nat → List α → Nat → Option String → Attempt Nat (PageAnswer α) PhasegentError (List α)
  | 0, _, _, _ => throw (.pagination operation "pagination exceeded the safety limit")
  | pages + 1, items, offset, previous => do
      let page ← request offset id
      match ← fromExcept (advance operation offset previous page) with
      | none => return items ++ page.items
      | some next => paginateFrom operation pages (items ++ page.items) next (some page.signature)

def paginate (operation : String) : Attempt Nat (PageAnswer α) PhasegentError (List α) :=
  paginateFrom operation maxPages [] 0 none

def RedmineUserCollection.page (answer : RedmineUserCollection) : Page RedmineUser :=
  ⟨answer.users, answer.totalCount, answer.limit, signatureOf answer.users⟩

theorem nextOffset_eq (offset : Nat) (previous : Option String) (answer : RedmineUserCollection) :
    nextOffset offset previous answer = advance "user list" offset previous answer.page := rfl

structure Tells (items : List α) (offset : Nat) (page : Page α) : Prop where
  slice : ∃ size ≤ pageSize, page.items = window items offset size
  signal : page.totalCount = some items.length ∨ page.totalCount = none ∧
    ((∃ most, 1 ≤ most ∧ page.limit = some most ∧ page.items = window items offset most) ∨
      page.limit = none ∧ page.items = window items offset pageSize)

variable {items : List α} {offset : Nat} {page : Page α} {operation : String} {previous : Option String}

theorem judged_error {count limit : Nat} {total : Option Nat} {e : PhasegentError}
    (judged : pageIsComplete operation offset count total limit = .error e) :
    ∃ text, e = .pagination operation text := by
  unfold pageIsComplete at judged
  repeat' split at judged
  all_goals cases judged
  exact ⟨_, rfl⟩

theorem Tells.limited (tells : Tells items offset page) (unknown : page.totalCount = none) :
    ∃ most, 1 ≤ most ∧ max (page.limit.getD pageSize) 1 = most ∧ page.items = window items offset most := by
  obtain known | ⟨-, ⟨most, positive, told, same⟩ | ⟨silent, same⟩⟩ := tells.signal
  · rw [unknown] at known
    cases known
  · exact ⟨most, positive, by simp [told, positive], same⟩
  · exact ⟨pageSize, by decide, by simp [silent, pageSize], same⟩

theorem Tells.judged (tells : Tells items offset page) (small : offset + pageSize < 2 ^ 63) {complete : Bool}
    (judged : pageIsComplete operation offset page.items.length page.totalCount
      (max (page.limit.getD pageSize) 1) = .ok complete) :
    if complete then items.length ≤ offset + page.items.length else page.items.length ≠ 0 := by
  obtain ⟨size, least, same⟩ := tells.slice
  have count : page.items.length = min size (items.length - offset) := same ▸ length_window items offset size
  have kept : saturatingAdd offset page.items.length = offset + page.items.length := by
    unfold saturatingAdd
    omega
  unfold pageIsComplete at judged
  rw [kept] at judged
  cases total : page.totalCount with
  | some total' =>
      have exactly : total' = items.length := by
        obtain known | ⟨unknown, -⟩ := tells.signal
        · exact Option.some.inj (total.symm.trans known)
        · rw [total] at unknown
          cases unknown
      simp only [total] at judged
      by_cases empty : page.items.length = 0
      · rw [if_pos empty] at judged
        split at judged
        · cases judged
        · cases judged
          simp only [if_true]
          omega
      · rw [if_neg empty] at judged
        cases judged
        subst exactly
        by_cases reached : items.length ≤ offset + page.items.length
        · simp [reached]
        · simpa [reached] using empty
  | none =>
      obtain ⟨most, positive, limit, full⟩ := tells.limited total
      have count' : page.items.length = min most (items.length - offset) := full ▸ length_window items offset most
      simp only [total, limit] at judged
      by_cases empty : page.items.length = 0
      · rw [if_pos empty] at judged
        cases judged
        simp only [if_true]
        omega
      · rw [if_neg empty] at judged
        cases judged
        by_cases short : page.items.length < most
        · simp only [short, decide_true, if_true]
          omega
        · simpa [short] using empty

theorem Tells.advance (tells : Tells items offset page) (small : offset + pageSize < 2 ^ 63)
    (operation : String) (previous : Option String) :
    (∃ text, advance operation offset previous page = .error (.pagination operation text)) ∨
      (advance operation offset previous page = .ok none ∧ items.length ≤ offset + page.items.length) ∨
      advance operation offset previous page = .ok (some (offset + page.items.length)) := by
  obtain ⟨size, least, same⟩ := tells.slice
  have count : page.items.length = min size (items.length - offset) := same ▸ length_window items offset size
  have kept : saturatingAdd offset page.items.length = offset + page.items.length := by
    unfold saturatingAdd
    omega
  unfold Redmine.advance
  by_cases repeated : previous = some page.signature ∧ page.items ≠ []
  · exact .inl ⟨_, by rw [refuse, if_pos repeated]; rfl⟩
  rw [refuse_of_not repeated, ok_bind]
  cases judged : pageIsComplete operation offset page.items.length page.totalCount (max (page.limit.getD pageSize) 1) with
  | error e =>
      obtain ⟨text, rfl⟩ := judged_error judged
      exact .inl ⟨text, by simp only [judged, error_bind]⟩
  | ok complete =>
      have told := tells.judged small judged
      cases complete with
      | true => exact .inr (.inl ⟨by simp [judged, refuse], told⟩)
      | false =>
          have onward : ¬(¬false = true ∧ offset + page.items.length ≤ offset) := by
            have more : page.items.length ≠ 0 := by simpa using told
            omega
          right; right
          simp only [judged, ok_bind, kept, refuse_of_not onward]
          rfl

theorem Tells.read (tells : Tells items offset page) :
    items.take offset ++ page.items = items.take (offset + page.items.length) := by
  obtain ⟨size, -, same⟩ := tells.slice
  rw [same]
  exact take_append_window items offset size

theorem Tells.short (tells : Tells items offset page) : page.items.length ≤ pageSize := by
  obtain ⟨size, least, same⟩ := tells.slice
  rw [same, length_window]
  omega

def Serves (items : List α) (respond : History Nat (PageAnswer α) → (offset : Nat) → PageAnswer α offset) : Prop :=
  ∀ h offset, ∃ page, respond h offset = .ok page ∧ Tells items offset page

def Enumerated (operation : String) (value : β) (result : Except PhasegentError β) : Prop :=
  result = .ok value ∨ ∃ text, result = .error (.pagination operation text)

theorem paginateFrom_complete {respond : History Nat (PageAnswer α) → (offset : Nat) → PageAnswer α offset}
    (serves : Serves items respond) {pages : Nat} (small : offset + pages * pageSize < 2 ^ 63)
    (h : History Nat (PageAnswer α)) : Enumerated operation items
      ((paginateFrom operation pages (items.take offset) offset previous).run.against respond h).1 := by
  induction pages generalizing offset previous h with
  | zero => exact .inr ⟨_, rfl⟩
  | succ pages ih =>
      obtain ⟨page, answered, tells⟩ := serves h offset
      have short := tells.short
      rw [Nat.succ_mul] at small
      simp only [paginateFrom, run_bind, Interleaving.request, ExceptT.run_mk, Prog.bind_call, Prog.bind_done,
        Prog.against_call, answered, id, fromExcept]
      obtain ⟨text, failed⟩ | ⟨ended, whole⟩ | onward :=
        tells.advance (by omega) operation previous
      · exact .inr ⟨text, by rw [failed]; rfl⟩
      · left
        rw [ended, tells.read, List.take_of_length_le whole]
        rfl
      · rw [onward, tells.read]
        exact ih (by omega) _

section Users
variable {users : List RedmineUser} {respond : History ProvisionOp ProvisionOp.Ret → (op : ProvisionOp) → op.Ret}

def ServesUsers (users : List RedmineUser)
    (respond : History ProvisionOp ProvisionOp.Ret → (op : ProvisionOp) → op.Ret) : Prop :=
  ∀ h offset, ∃ answer, respond h (.listUsers offset) = .ok answer ∧ Tells users offset answer.page

theorem find_take {target : String} {count : Nat} {found : RedmineUser}
    (among : (users.take count).find? (·.login = target) = some found) :
    users.find? (·.login = target) = some found := by
  rw [← List.take_append_drop count users, List.find?_append, among]
  rfl

theorem findUserFrom_complete (serves : ServesUsers users respond) {target : String} {pages : Nat}
    (small : offset + pages * pageSize < 2 ^ 63) (absent : (users.take offset).find? (·.login = target) = none)
    (h : History ProvisionOp ProvisionOp.Ret) :
    Enumerated "user list" (users.find? (·.login = target))
      ((findUserFrom target pages offset previous).run.against respond h).1 := by
  induction pages generalizing offset previous h with
  | zero => exact .inr ⟨_, rfl⟩
  | succ pages ih =>
      obtain ⟨answer, answered, tells⟩ := serves h offset
      have short := tells.short
      have read := congrArg (List.find? (·.login = target)) tells.read
      rw [List.find?_append, absent, Option.none_or] at read
      rw [Nat.succ_mul] at small
      simp only [findUserFrom, run_bind, Interleaving.request, ExceptT.run_mk, Prog.bind_call, Prog.bind_done,
        Prog.against_call, answered, id]
      cases found : answer.users.find? (·.login = target) with
      | some user =>
          left
          rw [find_take (read.symm.trans found)]
          rfl
      | none =>
          have none' : (users.take (offset + answer.page.items.length)).find? (·.login = target) = none :=
            read.symm.trans found
          simp only [run_bind, fromExcept, ExceptT.run_mk, Prog.bind_done, nextOffset_eq]
          obtain ⟨text, failed⟩ | ⟨ended, whole⟩ | onward :=
            tells.advance (by omega) "user list" previous
          · exact .inr ⟨text, by rw [failed]; rfl⟩
          · left
            rw [List.take_of_length_le whole] at none'
            rw [ended, none']
            rfl
          · rw [onward]
            exact ih (by omega) none' _

theorem enumeration_complete (operation : String) :
    (∀ (items : List α) (respond : History Nat (PageAnswer α) → (offset : Nat) → PageAnswer α offset),
      Serves items respond → Enumerated operation items ((paginate operation).run.against respond []).1) ∧
    ∀ (users : List RedmineUser) (respond : History ProvisionOp ProvisionOp.Ret → (op : ProvisionOp) → op.Ret)
        (login : String), ServesUsers users respond →
      if trimText login = "" then ((findUserByLogin login).run.against respond []).1 =
        .error (.config "Redmine user login cannot be empty")
      else Enumerated "user list" (users.find? (·.login = trimText login))
        ((findUserByLogin login).run.against respond []).1 := by
  refine ⟨fun items respond serves => ?_, fun users respond login serves => ?_⟩
  · exact paginateFrom_complete serves (by decide : 0 + maxPages * pageSize < 2 ^ 63) []
  · by_cases blank : trimText login = ""
    · simp [findUserByLogin, blank, fromExcept, refuse]
    · rw [if_neg blank]
      simp only [findUserByLogin, run_bind, fromExcept, refuse_of_not blank, ExceptT.run_mk, Prog.bind_done]
      exact findUserFrom_complete serves (by decide : 0 + maxPages * pageSize < 2 ^ 63) rfl []

end Users

section Examples

/-- What is said of a server whose answers need not agree with each other: one of the three signals is right. -/
structure Promises (items : List α) (offset : Nat) (page : Page α) : Prop where
  slice : ∃ size ≤ pageSize, page.items = window items offset size
  signal : page.totalCount = some items.length ∨
    (∃ most, page.limit = some most ∧ page.items = window items offset most) ∨
      page.items = window items offset pageSize

def reporting (items : List Nat) (size : Nat) (total limit : Option Nat) :
    History Nat (PageAnswer Nat) → (offset : Nat) → PageAnswer Nat offset := fun _ offset =>
  .ok ⟨window items offset size, total, limit, ",".intercalate ((window items offset size).map Nat.repr)⟩

def serving (users : List RedmineUser) :
    History ProvisionOp ProvisionOp.Ret → (op : ProvisionOp) → op.Ret := fun _ op =>
  match op with
  | .listUsers offset => .ok ⟨window users offset pageSize, some users.length, none⟩
  | .selectUser _ => .ok none
  | .selectCredential _ => .ok none
  | .upsertUser .. => .ok ()
  | .upsertCredential .. => .ok ()
  | .createUser _ => .error (.config "")
  | .getUser _ => .error (.config "")

theorem serving_serves (users : List RedmineUser) : ServesUsers users (serving users) :=
  fun _ _ => ⟨_, rfl, ⟨pageSize, Nat.le_refl _, rfl⟩, .inl rfl⟩

theorem shortened_pages : Enumerated "role list" [1, 2, 3]
    ((paginate "role list").run.against (reporting [1, 2, 3] 2 none (some 2)) []).1 := by
  apply (enumeration_complete "role list").1
  intro _ offset
  exact ⟨_, rfl, ⟨2, by decide, rfl⟩, .inr ⟨rfl, .inl ⟨2, by decide, rfl, rfl⟩⟩⟩

def spacedUser : RedmineUser := ⟨1, " a", "", "", "", none⟩

theorem reporting_promises {items : List Nat} {size : Nat} {total limit : Option Nat} (least : size ≤ pageSize)
    (right : limit = some size ∨ size = pageSize) (h : History Nat (PageAnswer Nat)) (offset : Nat) :
    ∃ page, reporting items size total limit h offset = .ok page ∧ Promises items offset page := by
  refine ⟨_, rfl, ⟨size, least, rfl⟩, .inr ?_⟩
  obtain rfl | rfl := right
  · exact .inl ⟨size, rfl, rfl⟩
  · exact .inr rfl

/-- A false total beside a right limit, a false limit beside a full page, a limit of zero, and a login that is
trimmed before it is looked for. -/
theorem trusted_signals :
    (∃ respond, (∀ h offset, ∃ page, respond h offset = .ok page ∧ Promises [1, 2] offset page) ∧
      ((paginate "role list").run.against respond []).1 = .ok [1]) ∧
    (∃ respond, (∀ h offset, ∃ page, respond h offset = .ok page ∧ Promises (List.range 101) offset page) ∧
      ((paginate "role list").run.against respond []).1 = .ok (List.range 100)) ∧
    (∃ respond, (∀ h offset, ∃ page, respond h offset = .ok page ∧ Promises [1] offset page) ∧
      ((paginate "role list").run.against respond []).1 = .ok []) ∧
    ServesUsers [spacedUser] (serving [spacedUser]) ∧
      ((findUserByLogin spacedUser.login).run.against (serving [spacedUser]) []).1 = .ok none := by
  refine ⟨⟨reporting [1, 2] 1 (some 1) (some 1), reporting_promises (by decide) (.inl rfl), ?_⟩,
    ⟨reporting (List.range 101) 100 none (some 500), reporting_promises (by decide) (.inr rfl), ?_⟩,
    ⟨reporting [1] 0 none (some 0), reporting_promises (by decide) (.inl rfl), ?_⟩,
    serving_serves [spacedUser], ?_⟩
  · decide
  · decide
  · decide
  · decide

end Examples

end Phasegent.Redmine
