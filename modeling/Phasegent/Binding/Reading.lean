import Phasegent.Binding.Collection
import Phasegent.Text.Decimal
import Mathlib.Data.Char
import Mathlib.Data.List.Lex
import Mathlib.Data.List.MinMax

namespace Phasegent.Binding
open Js Interleaving Ordered Text

variable {other : Value → List Char} {leases : List Value} {lease : Value}

def isActive (lease : Value) : Bool := (lease.get "status").isString "active".toList

def heartbeat (lease : Value) : Int := (lease.get "heartbeat_at").asSafeInteger.getD 0

def heartbeatText (lease : Value) : List Char := (toString (heartbeat lease)).toList

def activeLeases (leases : List Value) : List Value := leases.filter isActive

theorem heartbeat_of_valid (valid : validLease lease) :
    lease.get "heartbeat_at" = .ofInt (heartbeat lease) ∧ Value.safeInteger (heartbeat lease) := by
  simp only [validLease, Bool.and_eq_true] at valid
  obtain ⟨n, found⟩ := Option.isSome_iff_exists.mp valid.1.2
  have read := Value.asSafeInteger_eq_some.mp found
  simpa [heartbeat, found] using read

theorem printed_heartbeat (valid : validLease lease) :
    printed other (lease.get "heartbeat_at") = heartbeatText lease := by
  obtain ⟨written, safe⟩ := heartbeat_of_valid valid
  rw [written, Value.ofInt, printed]
  simp [safe, heartbeatText]

theorem isActiveLease_of_valid (valid : validLease lease) : isActiveLease lease = isActive lease := by
  simp only [validLease, Bool.and_eq_true] at valid
  simp [isActiveLease, isActive, valid]

theorem newer_eq_argAux {best : Option Value} (valid : validLease lease)
    (before : ∀ b ∈ best, validLease b) : newer other best lease =
      if isActive lease then
        List.argAux (fun b c => heartbeatText c < heartbeatText b) best lease
      else best := by
  unfold newer
  rw [isActiveLease_of_valid valid]
  cases isActive lease with
  | false => rfl
  | true =>
      cases best with
      | none => rfl
      | some b => simp [List.argAux, printed_heartbeat valid, printed_heartbeat (before b rfl)]

theorem foldl_newer (valid : ∀ lease ∈ leases, validLease lease) :
    leases.foldl (newer other) none = (activeLeases leases).argmax heartbeatText := by
  suffices onward : ∀ best, (∀ b ∈ best, validLease b) → leases.foldl (newer other) best =
      (activeLeases leases).foldl
        (List.argAux fun b c => heartbeatText c < heartbeatText b) best from onward none (by simp)
  induction leases with
  | nil => intro best _; rfl
  | cons lease rest ih =>
      intro best before
      have own := valid lease (by simp)
      have after : ∀ b ∈ newer other best lease, validLease b := by
        intro b picked
        rw [newer_eq_argAux own before] at picked
        split at picked
        · cases best with
          | none =>
              cases picked
              exact own
          | some a =>
              simp only [List.argAux] at picked
              split at picked
              · cases picked
                exact own
              · cases picked
                exact before _ rfl
        · exact before b picked
      rw [List.foldl_cons, ih (fun row member => valid row (by simp [member])) _ after,
        newer_eq_argAux own before, activeLeases, activeLeases, List.filter_cons]
      split <;> rfl

theorem pickActiveWorktreePath_eq (valid : ∀ lease ∈ leases, validLease lease) :
    pickActiveWorktreePath other leases =
      ((activeLeases leases).argmax heartbeatText).map (·.get "worktree_path") := by
  rw [pickActiveWorktreePath, foldl_newer valid]

def Latest (leases : List Value) (lease : Value) : Prop :=
  lease ∈ activeLeases leases ∧ ∀ rival ∈ activeLeases leases, heartbeat rival ≤ heartbeat lease

/-- Nothing is picked exactly where no lease is active; else a path of a latest one. -/
def PicksLatest (leases : List Value) (picked : Option Value) : Prop :=
  (picked = none ↔ activeLeases leases = []) ∧
    ∀ path ∈ picked, ∃ lease, Latest leases lease ∧ lease.get "worktree_path" = path

/-- The first active lease whose heartbeat reads greatest shares its worktree with a latest one. -/
def TextDecides (leases : List Value) : Prop :=
  ∀ first ∈ (activeLeases leases).argmax heartbeatText,
    ∃ lease, Latest leases lease ∧ lease.get "worktree_path" = first.get "worktree_path"

theorem picksLatest_iff (valid : ∀ lease ∈ leases, validLease lease) :
    PicksLatest leases (pickActiveWorktreePath other leases) ↔ TextDecides leases := by
  rw [pickActiveWorktreePath_eq valid, PicksLatest, TextDecides]
  simp [List.argmax_eq_none]

theorem heartbeatText_of_nonneg (positive : 0 ≤ heartbeat lease) :
    heartbeatText lease = Nat.toDigits 10 (heartbeat lease).toNat := by
  obtain ⟨n, number⟩ := Int.eq_ofNat_of_zero_le positive
  rw [heartbeatText, number]
  exact Nat.toList_repr

theorem textDecides_of_wide {width : Nat} (wide : ∀ lease ∈ activeLeases leases,
    0 ≤ heartbeat lease ∧ (heartbeatText lease).length = width) : TextDecides leases := by
  intro first picked
  have active := List.argmax_mem picked
  refine ⟨first, ⟨active, fun rival among => ?_⟩, rfl⟩
  obtain ⟨positive, size⟩ := wide first active
  obtain ⟨positive', size'⟩ := wide rival among
  by_contra later
  have digits : ∀ n, ∀ c ∈ Nat.toDigits 10 n, c.isDigit := fun n c member =>
    Nat.isDigit_of_mem_toDigits (by omega) (by omega) member
  have order : heartbeatText rival ≤ heartbeatText first :=
    not_lt.mp (List.not_lt_of_mem_argmax among picked)
  rw [heartbeatText_of_nonneg positive] at order size
  rw [heartbeatText_of_nonneg positive'] at order size'
  rcases lt_or_eq_of_le order with less | same
  · have value := decimalValue_lt (digits _) (digits _) (size'.trans size.symm) less
    rw [decimalValue_toDigits, decimalValue_toDigits] at value
    omega
  · have value := congrArg decimalValue same
    rw [decimalValue_toDigits, decimalValue_toDigits] at value
    omega

def windowed (issue : Int) (leases : List Value) (command : PageCommand) : CommandResult :=
  ⟨true, .json (.object [
    ("items", .array (window leases ((command.page - 1) * leasePageLimit) leasePageLimit)),
    ("page", .ofInt command.page), ("limit", .ofInt leasePageLimit),
    ("total_count", .ofInt leases.length),
    ("has_more", .boolean (command.page * leasePageLimit < leases.length)), ("issue", .ofInt issue)])⟩

theorem serves_windowed (issue : Int) (leases : List Value) : Serves issue leases (windowed issue leases) := by
  intro page _
  refine ⟨_, rfl, ?_⟩
  constructor <;> rfl

/-- The reading is whole or fails, for honest and hostile pages; what is then picked is a latest
lease exactly where comparing the heartbeats as text finds one. -/
theorem reading_is_whole (other : Value → List Char) :
    (∀ (issue : Int) (leases : List Value) (command : PageCommand → CommandResult),
      Value.safeInteger issue → 0 < issue → Distinct leases →
      leases.length ≤ leasePageLimit * maxLeasePages → Serves issue leases command →
      (((readIssueLeases issue).against (fun _ => command) []).1 = some leases ∧
        PicksLatest leases (pickActiveWorktreePath other leases) ↔ TextDecides leases)) ∧
    ∀ (args : List String) (field : ContextField),
      (readCompleteLeaseCollection args field).Along (fun h _ => h.length < maxLeasePages)
        (fun leases? h => ∀ leases ∈ leases?, Distinct leases ∧ Reported leases h) [] := by
  constructor
  · intro issue leases command safe positive distinct few serves
    have ceiling := pagesOf_le few
    have whole : ((readIssueLeases issue).against (fun _ => command) []).1 = some leases := by
      rw [readIssueLeases, if_neg (by simp [safe]; omega), readCompleteLeaseCollection]
      exact readPages_serves serves distinct few safe maxLeasePages (by omega)
        (by simp only [pagesOf]; omega) (by omega) held_start
    rw [picksLatest_iff distinct.valid]
    exact and_iff_right whole
  · intro args field
    exact readPages_along args maxLeasePages (by omega) (by omega) walked_start

def sampleLease (index : Nat) (worktree : String) (beat : Int) : Value :=
  .object [("lease_id", .string (toString index).toList), ("repo_identity", .string "/repo/.git".toList),
    ("issue", .ofInt 42), ("session", .string "ses".toList), ("checkout_path", .string "/repo".toList),
    ("worktree_path", .string worktree.toList), ("branch", .string "phasegent/42".toList),
    ("status", .string "active".toList), ("created_at", .ofInt 1), ("heartbeat_at", .ofInt beat)]

def twoDigits : List Value := [sampleLease 1 "/repo/old" 10, sampleLease 2 "/repo/new" 11]

theorem two_digits_read : ((readIssueLeases 42).against (fun _ => windowed 42 twoDigits) []).1 = some twoDigits ∧
    PicksLatest twoDigits (pickActiveWorktreePath (fun _ => []) twoDigits) :=
  ((reading_is_whole fun _ => []).1 42 twoDigits (windowed 42 twoDigits) (by decide) (by decide)
    ⟨by decide, by decide⟩ (by decide) (serves_windowed 42 twoDigits)).mpr
    (textDecides_of_wide (by decide : ∀ lease ∈ activeLeases twoDigits,
      0 ≤ heartbeat lease ∧ (heartbeatText lease).length = 2))

def nineAndTen : List Value := [sampleLease 1 "/repo/old" 9, sampleLease 2 "/repo/new" 10]

theorem nine_read_after_ten : Distinct nineAndTen ∧ Serves 42 nineAndTen (windowed 42 nineAndTen) ∧
    pickActiveWorktreePath (fun _ => []) nineAndTen = some (.string "/repo/old".toList) ∧
    ¬PicksLatest nineAndTen (pickActiveWorktreePath (fun _ => []) nineAndTen) := by
  have picked : pickActiveWorktreePath (fun _ => []) nineAndTen = some (.string "/repo/old".toList) := rfl
  refine ⟨⟨by decide, by decide⟩, serves_windowed 42 nineAndTen, picked, ?_⟩
  rw [picked]
  intro latest
  obtain ⟨lease, ⟨active, greatest⟩, same⟩ := latest.2 _ rfl
  have members : activeLeases nineAndTen = nineAndTen := rfl
  rw [members] at active greatest
  have newest := greatest (sampleLease 2 "/repo/new" 10) (by simp [nineAndTen])
  rcases List.mem_pair.mp active with rfl | rfl
  · exact absurd newest (by decide)
  · have path : Value.string "/repo/new".toList = .string "/repo/old".toList := same
    exact absurd (Value.string.inj path) (by decide)

end Phasegent.Binding
