import Mathlib
import Phasegent.Text.Slice

namespace Text

/-- The Unicode `White_Space` property. -/
def isWhitespace (c : Char) : Bool :=
  (0x9 ≤ c.toNat && c.toNat ≤ 0xD) || c.toNat == 0x20 || c.toNat == 0x85 || c.toNat == 0xA0 ||
    c.toNat == 0x1680 || (0x2000 ≤ c.toNat && c.toNat ≤ 0x200A) || c.toNat == 0x2028 ||
    c.toNat == 0x2029 || c.toNat == 0x202F || c.toNat == 0x205F || c.toNat == 0x3000

/-- The Unicode general category `Cc`. -/
def isControl (c : Char) : Bool :=
  c.toNat ≤ 0x1F || (0x7F ≤ c.toNat && c.toNat ≤ 0x9F)

def trim (text : List Char) : List Char :=
  trimEndMatches isWhitespace (text.dropWhile isWhitespace)

@[simp] theorem trim_trim (text : List Char) : trim (trim text) = trim text := by
  have before : trim text <+: text.dropWhile isWhitespace := List.rdropWhile_prefix _ _
  have front : (trim text).dropWhile isWhitespace = trim text :=
    dropWhile_eq_self_of_prefix before (List.dropWhile_idempotent isWhitespace text)
  rw [trim, front, trim, trimEndMatches_idem]

theorem trim_eq_self {text : List Char} (spaceless : ∀ c ∈ text, isWhitespace c = false) :
    trim text = text := by
  have front : text.dropWhile isWhitespace = text := by
    cases text with
    | nil => rfl
    | cons c rest => simp [spaceless c List.mem_cons_self]
  rw [trim, front, trimEndMatches, List.rdropWhile_eq_self_iff]
  intro nonempty
  simp [spaceless _ (List.getLast_mem nonempty)]

theorem isUpper_iff {c : Char} : c.isUpper ↔ 65 ≤ c.toNat ∧ c.toNat ≤ 90 := by
  simp [Char.isUpper, UInt32.le_iff_toNat_le]

theorem isLower_iff {c : Char} : c.isLower ↔ 97 ≤ c.toNat ∧ c.toNat ≤ 122 := by
  simp [Char.isLower, UInt32.le_iff_toNat_le]

theorem toNat_toLower {c : Char} (upper : c.isUpper) : c.toLower.toNat = c.toNat + 32 := by
  have small := (isUpper_iff.mp upper).2
  have within : c.val ≥ 'A'.val ∧ c.val ≤ 'Z'.val := by simpa [Char.isUpper] using upper
  have step : (32 : UInt32).toNat = 32 := rfl
  rw [Char.toLower, dif_pos within]
  change (c.val + 32).toNat = c.val.toNat + 32
  change c.val.toNat ≤ 90 at small
  rw [UInt32.toNat_add]
  omega

theorem toLower_of_not_isUpper {c : Char} (other : ¬c.isUpper) : c.toLower = c := by
  simp only [Char.isUpper, Char.toLower] at *
  split <;> grind [Char.toNat_val]

theorem isLower_or_isDigit_toLower {c : Char} (letter : c.isAlphanum) :
    c.toLower.isLower ∨ c.toLower.isDigit := by
  by_cases upper : c.isUpper
  · left
    have bounds := isUpper_iff.mp upper
    rw [isLower_iff, toNat_toLower upper]
    omega
  · rw [toLower_of_not_isUpper upper]
    simp only [Char.isAlphanum, Char.isAlpha, upper, Bool.false_or, Bool.or_eq_true] at letter
    exact letter

def toAsciiLower (text : List Char) : List Char := text.map Char.toLower

end Text
