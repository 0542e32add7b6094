import Mathlib.Data.Nat.Digits.Defs
import Phasegent.Text.Cut
import Phasegent.Text.Decimal

namespace Text

/-- A JSON document, with the natural numbers among its numbers. -/
inductive Json where
  | boolean (value : Bool)
  | number (value : Nat)
  | string (text : List Char)
  | array (items : List Json)
  | object (members : List (String × Json))

namespace Json

section Write

def hexDigit (n : Nat) : Char := if n < 10 then Char.ofNat (48 + n) else Char.ofNat (87 + n)

def escape (c : Char) : List Char :=
  if c = '"' then ['\\', '"']
  else if c = '\\' then ['\\', '\\']
  else if c = '\n' then ['\\', 'n']
  else if c = '\r' then ['\\', 'r']
  else if c = '\t' then ['\\', 't']
  else if c.toNat = 8 then ['\\', 'b']
  else if c.toNat = 12 then ['\\', 'f']
  else if c.toNat < 32 then ['\\', 'u', '0', '0', hexDigit (c.toNat / 16), hexDigit (c.toNat % 16)]
  else [c]

def quote (text : List Char) : List Char := '"' :: text.flatMap escape ++ ['"']

mutual

def write : Json → List Char
  | .boolean value => (toString value).toList
  | .number value => Nat.toDigits 10 value
  | .string text => quote text
  | .array items => '[' :: writeItems items ++ [']']
  | .object members => '\x7b' :: writeMembers members ++ ['\x7d']

def writeItems : List Json → List Char
  | [] => []
  | [item] => write item
  | item :: rest => write item ++ ',' :: writeItems rest

def writeMembers : List (String × Json) → List Char
  | [] => []
  | [(name, value)] => quote name.toList ++ ':' :: write value
  | (name, value) :: rest => quote name.toList ++ ':' :: write value ++ ',' :: writeMembers rest

end

end Write

section Size

def bytes (text : List Char) : Nat := Cut.total Char.utf8Size text

@[simp] theorem bytes_nil : bytes [] = 0 := rfl

@[simp] theorem bytes_cons (c : Char) (text : List Char) : bytes (c :: text) = c.utf8Size + bytes text :=
  Cut.total_cons _ c text

@[simp] theorem bytes_append (a b : List Char) : bytes (a ++ b) = bytes a + bytes b :=
  Cut.total_append _ a b

theorem utf8ByteSize_ofList (text : List Char) : (String.ofList text).utf8ByteSize = bytes text := by
  induction text with
  | nil => rfl
  | cons c text ih => simp [String.ofList_cons, ih]

def Plain (text : List Char) : Prop := ∀ c ∈ text, 32 ≤ c.toNat ∨ c = '\n'

theorem bytes_escape {c : Char} (plain : 32 ≤ c.toNat ∨ c = '\n') : bytes (escape c) ≤ 4 := by
  have width := c.utf8Size_le_four
  obtain wide | line := plain
  · by_cases mark : c = '"' ∨ c = '\\'
    · obtain rfl | rfl := mark <;> decide
    · rw [not_or] at mark
      have other : ∀ d : Char, d.toNat < 32 → c ≠ d := by
        intro d low same
        rw [same] at wide
        omega
      have shape : escape c = [c] := by
        simp only [escape, mark, other '\n' (by decide), other '\r' (by decide), other '\t' (by decide), if_false,
          Nat.not_lt.mpr wide]
        rw [if_neg (by omega), if_neg (by omega)]
      simpa [shape] using width
  · rw [line]
    decide

theorem bytes_quote {text : List Char} (plain : Plain text) : bytes (quote text) ≤ 4 * text.length + 2 := by
  have inner : bytes (text.flatMap escape) ≤ 4 * text.length := by
    induction text with
    | nil => rfl
    | cons c text ih =>
        have first := bytes_escape (plain c List.mem_cons_self)
        have rest := ih fun d member => plain d (List.mem_cons_of_mem c member)
        rw [List.flatMap_cons, bytes_append, List.length_cons]
        omega
  have mark : '"'.utf8Size = 1 := rfl
  simp only [quote, List.cons_append, bytes_cons, bytes_append, bytes_nil, mark]
  omega

theorem bytes_writeItems (items : List Json) :
    bytes (writeItems items) ≤ (items.map fun item => bytes (write item) + 1).sum := by
  induction items with
  | nil => simp [writeItems]
  | cons item rest ih =>
      have comma : ','.utf8Size = 1 := rfl
      cases rest with
      | nil => simp [writeItems]
      | cons next rest =>
          rw [writeItems, bytes_append, bytes_cons, comma, List.map_cons, List.sum_cons]
          · omega
          · simp

theorem bytes_write_number {n k : Nat} (small : n < 10 ^ k) (positive : 0 < k) : bytes (write (.number n)) ≤ k := by
  have ascii : ∀ c ∈ Nat.toDigits 10 n, c.utf8Size = 1 := by
    intro c member
    have digit := Nat.isDigit_of_mem_toDigits (by decide) (by decide) member
    have low := (isDigit_iff.mp digit).2
    rw [Char.utf8Size_eq_one_iff, UInt32.le_iff_toNat_le]
    exact Nat.le_trans low (by decide)
  have count : bytes (Nat.toDigits 10 n) = (Nat.toDigits 10 n).length := by
    simp [bytes, Cut.total, List.map_congr_left ascii]
  rw [write, count]
  exact Nat.toDigits_length 10 n k positive small

end Size

end Json

end Text
