import Mathlib.Data.List.Basic

namespace Ordered

variable {α ε : Type}

def window (items : List α) (offset limit : Nat) : List α := (items.drop offset).take limit

theorem window_append (items : List α) (offset limit : Nat) :
    window items offset limit ++ items.drop (offset + limit) = items.drop offset := by
  rw [← List.drop_drop]
  exact List.take_append_drop limit _

theorem length_window (items : List α) (offset limit : Nat) :
    (window items offset limit).length = min limit (items.length - offset) := by
  simp [window]

theorem window_eq_nil {items : List α} {offset limit : Nat} (positive : 0 < limit) :
    window items offset limit = [] ↔ items.length ≤ offset := by
  rw [← List.length_eq_zero_iff, length_window]
  omega

theorem window_last {items : List α} {offset limit : Nat} (last : items.length ≤ offset + limit) :
    window items offset limit = items.drop offset := by
  have nothing : items.drop (offset + limit) = [] := List.drop_eq_nil_of_le last
  simpa [nothing] using window_append items offset limit

theorem take_append_window (items : List α) (offset limit : Nat) :
    items.take offset ++ window items offset limit = items.take (offset + (window items offset limit).length) := by
  have part : window items offset limit = (items.drop offset).take (window items offset limit).length := by
    rw [length_window, ← List.length_drop, ← List.take_eq_take_min, window]
  rw [part, List.take_add]
  congr 1
  rw [← part]
  exact part

/-- Page after page until one is the last, none when the fuel runs out before that. -/
def walk (ask : Nat → Except ε (List α × Bool)) : Nat → Nat → Option (Except ε (List α))
  | 0, _ => none
  | fuel + 1, page =>
      match ask page with
      | .error e => some (.error e)
      | .ok (items, false) => some (.ok items)
      | .ok (items, true) => (walk ask fuel (page + 1)).map fun rest => rest.map (items ++ ·)

variable {ask : Nat → Except ε (List α × Bool)} {items : List α} {limit : Nat}

-- Pages are counted from one, and each says whether entries are left behind it.
def Exact (ask : Nat → Except ε (List α × Bool)) (items : List α) (limit : Nat) : Prop :=
  ∀ k, k * limit ≤ items.length →
    ask (k + 1) = .ok (window items (k * limit) limit, decide (k * limit + limit < items.length))

theorem Exact.walk_from (exact : Exact ask items limit) (positive : 0 < limit) {fuel k : Nat}
    (started : k * limit ≤ items.length) (enough : items.length < k * limit + fuel) :
    walk ask fuel (k + 1) = some (.ok (items.drop (k * limit))) := by
  induction fuel generalizing k with
  | zero => exact absurd enough (Nat.not_lt.mpr started)
  | succ fuel ih =>
      rw [walk, exact k started]
      by_cases more : k * limit + limit < items.length
      · have next : (k + 1) * limit = k * limit + limit := Nat.succ_mul k limit
        have rest := ih (by omega) (by omega) (k := k + 1)
        simp [more, rest, next, Except.map, window_append]
      · simp [more, window_last (Nat.not_lt.mp more)]

theorem Exact.walk_all (exact : Exact ask items limit) (positive : 0 < limit) {fuel : Nat}
    (enough : items.length < fuel) : walk ask fuel 1 = some (.ok items) := by
  simpa using exact.walk_from positive (k := 0) (by simp) (by simpa using enough)

end Ordered
