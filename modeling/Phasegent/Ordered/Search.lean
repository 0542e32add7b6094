import Mathlib.Data.List.Sort
import Mathlib.Order.Lex

namespace Ordered

variable {α : Type}

def dedup [DecidableEq α] : List α → List α
  | [] => []
  | [a] => [a]
  | a :: b :: rest => if a = b then dedup (b :: rest) else a :: dedup (b :: rest)

@[simp] theorem mem_dedup [DecidableEq α] {a : α} {xs : List α} : a ∈ dedup xs ↔ a ∈ xs := by
  induction xs using dedup.induct with
  | case1 => rfl
  | case2 b => rfl
  | case3 b rest ih => simp [dedup, ih]
  | case4 b c rest different ih => simp [dedup, different, ih]

theorem pairwise_dedup [DecidableEq α] {r : α → α → Prop} {xs : List α} (sorted : xs.Pairwise r) :
    (dedup xs).Pairwise r := by
  induction xs using dedup.induct with
  | case1 => exact sorted
  | case2 b => exact sorted
  | case3 b rest ih =>
      rw [dedup, if_pos rfl]
      exact ih (List.pairwise_cons.mp sorted).2
  | case4 b c rest different ih =>
      obtain ⟨before, later⟩ := List.pairwise_cons.mp sorted
      rw [dedup, if_neg different]
      exact List.pairwise_cons.mpr ⟨fun d member => before d (mem_dedup.mp member), ih later⟩

section
variable [LinearOrder α]

def binarySearch (x : α) : Nat → List α → Bool
  | 0, _ => false
  | fuel + 1, xs =>
      match xs.drop (xs.length / 2) with
      | [] => false
      | middle :: right =>
          if x = middle then true
          else if x < middle then binarySearch x fuel (xs.take (xs.length / 2))
          else binarySearch x fuel right

def contains (xs : List α) (x : α) : Bool := binarySearch x xs.length xs

theorem binarySearch_iff {x : α} {fuel : Nat} {xs : List α} (sorted : xs.Pairwise (· ≤ ·))
    (enough : xs.length ≤ fuel) : binarySearch x fuel xs ↔ x ∈ xs := by
  induction fuel generalizing xs with
  | zero =>
      obtain rfl : xs = [] := List.eq_nil_of_length_eq_zero (by omega)
      simp [binarySearch]
  | succ fuel ih =>
      rw [binarySearch]
      have size := congrArg List.length (List.take_append_drop (xs.length / 2) xs)
      have parts := List.take_append_drop (xs.length / 2) xs
      generalize xs.take (xs.length / 2) = front at size parts ⊢
      cases shape : xs.drop (xs.length / 2) with
      | nil =>
          have short := congrArg List.length shape
          rw [List.length_drop, List.length_nil] at short
          obtain rfl : xs = [] := List.eq_nil_of_length_eq_zero (by omega)
          simp
      | cons middle right =>
          rw [shape] at size parts
          rw [← parts] at sorted ⊢
          rw [List.length_append, List.length_cons] at size
          obtain ⟨below, above, across⟩ := List.pairwise_append.mp sorted
          obtain ⟨after, above⟩ := List.pairwise_cons.mp above
          rcases lt_trichotomy x middle with less | rfl | more
          · have right_free : x ∉ right := fun member => absurd (after x member) (not_le.mpr less)
            simp [less.ne, less, ih below (by omega), right_free]
          · simp
          · have left_free : x ∉ front := fun member =>
              absurd (across x member middle List.mem_cons_self) (not_le.mpr more)
            simp [more.ne', not_lt.mpr more.le, ih above (by omega), left_free]

theorem contains_iff {x : α} {xs : List α} (sorted : xs.Pairwise (· ≤ ·)) :
    contains xs x ↔ x ∈ xs :=
  binarySearch_iff sorted (Nat.le_refl _)

end

end Ordered
