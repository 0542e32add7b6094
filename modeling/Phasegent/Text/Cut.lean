import Mathlib

namespace Text.Cut

variable {α : Type} (weight : α → Nat)

def total (xs : List α) : Nat := (xs.map weight).sum

@[simp] theorem total_nil : total weight [] = 0 := rfl

@[simp] theorem total_cons (x : α) (xs : List α) :
    total weight (x :: xs) = weight x + total weight xs := by
  simp [total]

@[simp] theorem total_append (xs ys : List α) :
    total weight (xs ++ ys) = total weight xs + total weight ys := by
  simp [total]

theorem total_flatten (pieces : List (List α)) :
    total weight pieces.flatten = (pieces.map (total weight)).sum := by
  induction pieces with
  | nil => rfl
  | cons piece pieces ih => simp [ih]

variable {weight}

theorem total_pos (heavy : ∀ x, 0 < weight x) {xs : List α} (nonempty : xs ≠ []) :
    0 < total weight xs := by
  cases xs with
  | nil => exact absurd rfl nonempty
  | cons x xs =>
      have first := heavy x
      rw [total_cons]
      omega

theorem prefix_of_total_le (heavy : ∀ x, 0 < weight x) {xs front back : List α}
    (left : front <+: xs) (right : back <+: xs) (lighter : total weight front ≤ total weight back) :
    front <+: back := by
  cases List.prefix_or_prefix_of_prefix left right with
  | inl before => exact before
  | inr before =>
      obtain ⟨rest, rfl⟩ := before
      have none : rest = [] := by
        by_contra some
        have more := total_pos heavy some
        simp only [total_append] at lighter
        omega
      simp [none]

/-- At most `pieces` consecutive pieces of at most `bound` each make up the list. -/
def Cuttable (weight : α → Nat) (bound count : Nat) (xs : List α) : Prop :=
  ∃ pieces : List (List α), pieces.flatten = xs ∧ pieces.length ≤ count ∧
    ∀ piece ∈ pieces, total weight piece ≤ bound

variable {bound count : Nat}

@[simp] theorem cuttable_nil : Cuttable weight bound count [] :=
  ⟨[], rfl, Nat.zero_le _, by simp⟩

theorem cuttable_zero {xs : List α} : Cuttable weight bound 0 xs ↔ xs = [] := by
  constructor
  · intro ⟨pieces, whole, few, _⟩
    have none : pieces = [] := List.length_eq_zero_iff.mp (Nat.le_zero.mp few)
    rw [← whole, none, List.flatten_nil]
  · intro empty
    simp [empty]

theorem Cuttable.mono {more : Nat} {xs : List α} (cut : Cuttable weight bound count xs)
    (fewer : count ≤ more) : Cuttable weight bound more xs := by
  obtain ⟨pieces, whole, few, each⟩ := cut
  exact ⟨pieces, whole, Nat.le_trans few fewer, each⟩

theorem Cuttable.cons {front rest : List α} (light : total weight front ≤ bound)
    (after : Cuttable weight bound count rest) :
    Cuttable weight bound (count + 1) (front ++ rest) := by
  obtain ⟨pieces, whole, few, each⟩ := after
  exact ⟨front :: pieces, by simp [whole], by simpa using few,
    List.forall_mem_cons.mpr ⟨light, each⟩⟩

theorem Cuttable.length_le {size : Nat} {xs : List α} (cut : Cuttable weight bound count xs)
    (heavy : 0 < size) (same : ∀ x ∈ xs, weight x = size) : xs.length ≤ count * (bound / size) := by
  obtain ⟨pieces, whole, few, each⟩ := cut
  have most : (pieces.map List.length).sum ≤ (pieces.map List.length).length * (bound / size) := by
    apply List.sum_le_card_nsmul
    intro n member
    obtain ⟨piece, inside, rfl⟩ := List.mem_map.mp member
    have light := each piece inside
    have weighed : total weight piece = piece.length * size := by
      have each : piece.map weight = piece.map fun _ => size := by
        apply List.map_congr_left
        intro x here
        exact same x (by rw [← whole]; exact List.mem_flatten_of_mem inside here)
      simp [total, each]
    rw [weighed] at light
    exact (Nat.le_div_iff_mul_le heavy).mpr light
  have scaled := Nat.mul_le_mul_right (bound / size) few
  rw [List.length_map] at most
  rw [← whole, List.length_flatten]
  omega

theorem Cuttable.after (front : List α) {rest : List α} (cut : Cuttable weight bound count (front ++ rest)) :
    Cuttable weight bound count rest := by
  obtain ⟨pieces, whole, few, each⟩ := cut
  induction pieces generalizing front count with
  | nil =>
      have none : rest = [] := by simpa using (List.append_eq_nil_iff.mp whole.symm).2
      simp [none]
  | cons piece pieces ih =>
      rw [List.flatten_cons] at whole
      have light := each piece List.mem_cons_self
      have later : ∀ p ∈ pieces, total weight p ≤ bound :=
        fun p member => each p (List.mem_cons_of_mem _ member)
      cases List.append_eq_append_iff.mp whole with
      | inl within =>
          obtain ⟨skipped, -, tail⟩ := within
          rw [List.length_cons] at few
          exact ih skipped tail (by omega) later
      | inr within =>
          obtain ⟨kept, split, tail⟩ := within
          refine ⟨kept :: pieces, by simp [tail], by simpa using few, ?_⟩
          intro p member
          cases List.mem_cons.mp member with
          | inl here =>
              have parts : total weight piece = total weight front + total weight kept := by
                rw [split, total_append]
              rw [here]
              omega
          | inr there => exact later p there

theorem Cuttable.after_longest {front rest : List α}
    (longest : ∀ piece, piece <+: front ++ rest → total weight piece ≤ bound → piece <+: front)
    (cut : Cuttable weight bound (count + 1) (front ++ rest)) :
    Cuttable weight bound count rest := by
  obtain ⟨pieces, whole, few, each⟩ := cut
  cases pieces with
  | nil =>
      have none : rest = [] := by simpa using (List.append_eq_nil_iff.mp whole.symm).2
      simp [none]
  | cons piece pieces =>
      rw [List.flatten_cons] at whole
      obtain ⟨kept, split⟩ :=
        longest piece ⟨pieces.flatten, whole⟩ (each piece List.mem_cons_self)
      have tail : pieces.flatten = kept ++ rest := by
        rw [← split, List.append_assoc, List.append_cancel_left_eq] at whole
        exact whole
      refine Cuttable.after kept ⟨pieces, tail, by simpa using few, ?_⟩
      intro p member
      exact each p (List.mem_cons_of_mem _ member)

end Text.Cut
