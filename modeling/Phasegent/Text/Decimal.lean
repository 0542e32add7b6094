import Phasegent.Text.Slice
import Mathlib.Data.Nat.Digits.Lemmas

namespace Text

def digitValue (c : Char) : Nat := c.toNat - '0'.toNat

def decimalValue (digits : List Char) : Nat :=
  Nat.ofDigits 10 (digits.reverse.map digitValue)

def unsigned : List Char → List Char
  | '+' :: digits => digits
  | text => text

def parseU64 (text : List Char) : Option Nat :=
  let digits := unsigned text
  if digits.isEmpty || !digits.all Char.isDigit then none
  else if decimalValue digits < 2 ^ 64 then some (decimalValue digits) else none

def isPadding (c : Char) : Bool := c == '+' || c == '0'

/-- How many signs and zeros a number is written with before its first significant digit. -/
def padding (text : List Char) : Nat := (text.takeWhile isPadding).length

theorem isDigit_iff {c : Char} : c.isDigit ↔ 48 ≤ c.toNat ∧ c.toNat ≤ 57 := by
  simp [Char.isDigit, UInt32.le_iff_toNat_le]

theorem digitValue_lt {c : Char} (digit : c.isDigit) : digitValue c < 10 := by
  have bounds := isDigit_iff.mp digit
  have zero : '0'.toNat = 48 := rfl
  unfold digitValue
  omega

theorem digitValue_inj {c d : Char} (digit : c.isDigit) (digit' : d.isDigit)
    (same : digitValue c = digitValue d) : c = d := by
  have bounds := isDigit_iff.mp digit
  have bounds' := isDigit_iff.mp digit'
  have zero : '0'.toNat = 48 := rfl
  unfold digitValue at same
  have code : c.toNat = d.toNat := by omega
  exact Char.toNat_inj.mp code

theorem digits_decimalValue {text : List Char} (digits : ∀ c ∈ text, c.isDigit)
    (lead : text.head? ≠ some '0') :
    Nat.digits 10 (decimalValue text) = text.reverse.map digitValue := by
  refine Nat.digits_ofDigits 10 (by omega) _ ?_ ?_
  · intro value member
    obtain ⟨c, inside, rfl⟩ := List.mem_map.mp member
    exact digitValue_lt (digits c (List.mem_reverse.mp inside))
  · intro nonempty
    cases text with
    | nil => simp at nonempty
    | cons c rest =>
        have digit : c.isDigit := digits c List.mem_cons_self
        have other : c ≠ '0' := by simpa using lead
        intro zero
        have value : digitValue c = digitValue '0' := by simpa [digitValue] using zero
        exact other (digitValue_inj digit (by decide) value)

theorem digitValues_inj {a b : List Char} (digits : ∀ c ∈ a, c.isDigit)
    (digits' : ∀ c ∈ b, c.isDigit) (same : a.map digitValue = b.map digitValue) : a = b := by
  induction a generalizing b with
  | nil => simpa using same.symm
  | cons c rest ih =>
      cases b with
      | nil => simp at same
      | cons d rest' =>
          obtain ⟨value, values⟩ := List.cons_eq_cons.mp same
          rw [List.forall_mem_cons] at digits digits'
          rw [digitValue_inj digits.1 digits'.1 value, ih digits.2 digits'.2 values]

theorem decimalValue_inj {a b : List Char} (digits : ∀ c ∈ a, c.isDigit)
    (digits' : ∀ c ∈ b, c.isDigit) (lead : a.head? ≠ some '0') (lead' : b.head? ≠ some '0')
    (same : decimalValue a = decimalValue b) : a = b := by
  have values : a.reverse.map digitValue = b.reverse.map digitValue := by
    rw [← digits_decimalValue digits lead, same, digits_decimalValue digits' lead']
  have reversed : a.reverse = b.reverse :=
    digitValues_inj (by simpa using digits) (by simpa using digits') values
  exact List.reverse_inj.mp reversed

def significant (text : List Char) : List Char := text.dropWhile isPadding

theorem padding_significant (text : List Char) :
    text.takeWhile isPadding ++ significant text = text :=
  List.takeWhile_append_dropWhile

theorem significant_head (text : List Char) : (significant text).head? ≠ some '0' := by
  intro zero
  have dropped : significant (significant text) = significant text :=
    List.dropWhile_idempotent isPadding text
  obtain ⟨rest, shape⟩ := List.head?_eq_some_iff.mp zero
  rw [shape] at dropped
  have shorter := congrArg List.length dropped
  have bound := (List.dropWhile_suffix isPadding (l := rest)).length_le
  simp [significant, isPadding] at shorter
  omega

theorem decimalValue_zeros {text : List Char} (zeros : ∀ c ∈ text, c = '0') (rest : List Char) :
    decimalValue (text ++ rest) = decimalValue rest := by
  induction text with
  | nil => rfl
  | cons c more ih =>
      rw [List.forall_mem_cons] at zeros
      obtain ⟨rfl, zeros⟩ := zeros
      have front : decimalValue ('0' :: (more ++ rest)) = decimalValue (more ++ rest) := by
        simp [decimalValue, digitValue, Nat.ofDigits_append]
      rw [List.cons_append, front, ih zeros]

theorem padding_zeros {text : List Char} (digits : ∀ c ∈ text, c.isDigit) :
    ∀ c ∈ text.takeWhile isPadding, c = '0' := by
  intro c member
  have pad := List.mem_takeWhile_imp member
  have digit := digits c ((List.takeWhile_prefix _).subset member)
  rcases Bool.or_eq_true_iff.mp pad with plus | zero
  · rw [beq_iff_eq.mp plus] at digit
    exact absurd digit (by decide)
  · exact beq_iff_eq.mp zero

theorem parseU64_digits {text : List Char} {n : Nat} (parsed : parseU64 text = some n) :
    (∀ c ∈ unsigned text, c.isDigit) ∧ decimalValue (unsigned text) = n := by
  unfold parseU64 at parsed
  simp only at parsed
  split at parsed
  · cases parsed
  · next shape =>
      split at parsed
      · cases parsed
        have accepted : unsigned text ≠ [] ∧ ∀ c ∈ unsigned text, c.isDigit := by simpa using shape
        exact ⟨accepted.2, rfl⟩
      · cases parsed

theorem parseU64_lt {text : List Char} {n : Nat} (parsed : parseU64 text = some n) : n < 2 ^ 64 := by
  unfold parseU64 at parsed
  simp only at parsed
  split at parsed
  · cases parsed
  · split at parsed
    · next range =>
        cases parsed
        exact range
    · cases parsed

theorem significant_unsigned (text : List Char) : significant (unsigned text) = significant text := by
  unfold unsigned
  split
  · simp [significant, isPadding]
  · rfl

theorem parseU64_significant {text : List Char} {n : Nat} (parsed : parseU64 text = some n) :
    (∀ c ∈ significant text, c.isDigit) ∧ decimalValue (significant text) = n := by
  obtain ⟨digits, value⟩ := parseU64_digits parsed
  rw [← significant_unsigned]
  refine ⟨fun c member => digits c ((List.dropWhile_suffix _).subset member), ?_⟩
  rw [← padding_significant (unsigned text), decimalValue_zeros (padding_zeros digits)] at value
  exact value

theorem parseU64_padding {text : List Char} {n : Nat} (parsed : parseU64 text = some n)
    (positive : 0 < n) (plain : ¬(1 < text.length ∧ text.head? = some '0')) :
    text.takeWhile isPadding = [] ∨
      text.takeWhile isPadding = '+' :: List.replicate (padding text - 1) '0' := by
  obtain ⟨digits, value⟩ := parseU64_digits parsed
  cases text with
  | nil => exact Or.inl rfl
  | cons c rest =>
      by_cases plus : c = '+'
      · subst plus
        right
        have zeros : rest.takeWhile isPadding =
            List.replicate (rest.takeWhile isPadding).length '0' :=
          List.eq_replicate_of_mem (@padding_zeros rest digits)
        have size : padding ('+' :: rest) = (rest.takeWhile isPadding).length + 1 := by
          simp [padding, isPadding]
        rw [size, Nat.add_sub_cancel, ← zeros]
        simp [isPadding]
      · left
        have other : c ≠ '0' := by
          rintro rfl
          cases rest with
          | nil =>
              have zero : decimalValue (unsigned ['0']) = 0 := by decide
              exact positive.ne (zero.symm.trans value)
          | cons d more => exact plain ⟨by simp, rfl⟩
        simp [isPadding, plus, other]

theorem padding_unsigned {text : List Char} {n : Nat} (parsed : parseU64 text = some n)
    (positive : 0 < n) (plain : ¬(1 < text.length ∧ text.head? = some '0'))
    (sign : text.head? ≠ some '+') : padding text = 0 := by
  rcases parseU64_padding parsed positive plain with none | some
  · rw [padding, none, List.length_nil]
  · have front : text.takeWhile isPadding <+: text := List.takeWhile_prefix _
    rw [some] at front
    obtain ⟨rest, shape⟩ := front
    exact absurd (by rw [← shape]; rfl) sign

theorem parseU64_inj {a b : List Char} {n : Nat} (parsed : parseU64 a = some n)
    (parsed' : parseU64 b = some n) (positive : 0 < n)
    (plain : ¬(1 < a.length ∧ a.head? = some '0')) (plain' : ¬(1 < b.length ∧ b.head? = some '0'))
    (padded : padding a = padding b) : a = b := by
  obtain ⟨digits, value⟩ := parseU64_significant parsed
  obtain ⟨digits', value'⟩ := parseU64_significant parsed'
  have core : significant a = significant b :=
    decimalValue_inj digits digits' (significant_head a) (significant_head b)
      (value.trans value'.symm)
  have front : a.takeWhile isPadding = b.takeWhile isPadding := by
    rcases parseU64_padding parsed positive plain with none | some
    · have empty : (b.takeWhile isPadding).length = 0 := by
        rw [← padding, ← padded, padding, none, List.length_nil]
      rw [none, List.eq_nil_of_length_eq_zero empty]
    · rcases parseU64_padding parsed' positive plain' with none' | some'
      · have clash := padded
        rw [padding, padding, some, none'] at clash
        simp at clash
      · rw [some, some', padded]
  rw [← padding_significant a, ← padding_significant b, front, core]

theorem decimalValue_cons (c : Char) (digits : List Char) :
    decimalValue (c :: digits) = digitValue c * 10 ^ digits.length + decimalValue digits := by
  simp [decimalValue, Nat.ofDigits_append]
  ring

theorem decimalValue_lt_pow {digits : List Char} (all : ∀ c ∈ digits, c.isDigit) :
    decimalValue digits < 10 ^ digits.length := by
  induction digits with
  | nil => simp [decimalValue]
  | cons c rest ih =>
      have first := digitValue_lt (all c (by simp))
      have later := ih fun d member => all d (by simp [member])
      rw [decimalValue_cons, List.length_cons, Nat.pow_succ]
      nlinarith

theorem decimalValue_lt {a b : List Char} (digits : ∀ c ∈ a, c.isDigit) (digits' : ∀ c ∈ b, c.isDigit)
    (wide : a.length = b.length) (less : a < b) : decimalValue a < decimalValue b := by
  induction a generalizing b with
  | nil =>
      cases b with
      | nil => simp at less
      | cons d b => simp at wide
  | cons c a ih =>
      cases b with
      | nil => simp at wide
      | cons d b =>
          simp only [List.length_cons, Nat.add_right_cancel_iff] at wide
          have later := ih (fun e member => digits e (by simp [member]))
            (fun e member => digits' e (by simp [member])) wide
          rw [decimalValue_cons, decimalValue_cons, wide]
          rcases List.cons_lt_cons_iff.mp less with before | ⟨same, rest⟩
          · have small : decimalValue a < 10 ^ a.length :=
              decimalValue_lt_pow fun e member => digits e (by simp [member])
            have code : c.toNat < d.toNat := before
            have values : digitValue c + 1 ≤ digitValue d := by
              have low := (isDigit_iff.mp (digits c (by simp))).1
              have zero : '0'.toNat = 48 := rfl
              unfold digitValue
              omega
            rw [wide] at small
            nlinarith [Nat.mul_le_mul_right (10 ^ b.length) values]
          · rw [same]
            have := later rest
            omega

theorem decimalValue_append (digits : List Char) (c : Char) :
    decimalValue (digits ++ [c]) = digitValue c + 10 * decimalValue digits := by
  simp [decimalValue, Nat.ofDigits_cons]

theorem digitValue_digitChar {n : Nat} (digit : n < 10) : digitValue n.digitChar = n := by
  interval_cases n <;> decide

theorem decimalValue_toDigits (n : Nat) : decimalValue (Nat.toDigits 10 n) = n := by
  induction n using Nat.strongRecOn with
  | ind n ih =>
      by_cases digit : n < 10
      · rw [Nat.toDigits_of_lt_base digit]
        have value := digitValue_digitChar digit
        simpa [decimalValue, Nat.ofDigits_cons] using value
      · rw [Nat.toDigits_of_base_le (by omega) (by omega), decimalValue_append, ih (n / 10) (by omega),
          digitValue_digitChar (Nat.mod_lt n (by omega))]
        omega

theorem parseU64_toString {n : Nat} (range : n < 2 ^ 64) : parseU64 (toString n).toList = some n := by
  have text : (toString n).toList = Nat.toDigits 10 n := Nat.toList_repr
  have digits : ∀ c ∈ Nat.toDigits 10 n, c.isDigit := fun c member =>
    Nat.isDigit_of_mem_toDigits (by omega) (by omega) member
  have plain : unsigned (Nat.toDigits 10 n) = Nat.toDigits 10 n := by
    unfold unsigned
    split
    · next rest shape =>
        have sign := digits '+' (by simp [shape])
        exact absurd sign (by decide)
    · rfl
  have filled : (Nat.toDigits 10 n).isEmpty = false := by simp
  have decimal : (Nat.toDigits 10 n).all Char.isDigit = true := List.all_eq_true.mpr digits
  rw [text, parseU64, plain, decimalValue_toDigits]
  simpa [filled, decimal] using range

end Text
