import Phasegent.Hooks.Message
import Phasegent.Text.Decimal

namespace Phasegent.Hooks
open Text

section Keywords
variable {line rest a b : Bytes} {position : Nat}

theorem eqIgnoreAsciiCase_getElem? (same : eqIgnoreAsciiCase a b) (i : Nat) :
    a[i]?.map toLower = b[i]?.map toLower := by
  have mapped : a.map toLower = b.map toLower := by simpa [eqIgnoreAsciiCase] using same
  rw [← List.getElem?_map, mapped, List.getElem?_map]

theorem eqIgnoreAsciiCase_length (same : eqIgnoreAsciiCase a b) : a.length = b.length := by
  have mapped : a.map toLower = b.map toLower := by simpa [eqIgnoreAsciiCase] using same
  simpa using congrArg List.length mapped

def initials : Bytes := [114, 102, 99]

theorem keyword_initial {keyword : Bytes} (among : keyword ∈ keywords) :
    ∃ first, keyword[0]?.map toLower = some first ∧ first ∈ initials := by
  revert keyword
  decide

theorem keyword_plain {keyword : Bytes} (among : keyword ∈ keywords) : ∀ c ∈ keyword, toLower c ≠ cr := by
  revert keyword
  decide +kernel

theorem referencesAt_of_initial (other : ∀ c ∈ (line)[position]?, toLower c ∉ initials) :
    referencesAt line position = [] := by
  unfold referencesAt
  split
  · rfl
  · rw [List.filterMap_eq_nil_iff]
    intro keyword among
    rw [if_neg]
    intro same
    obtain ⟨first, initial, member⟩ := keyword_initial among
    have start := eqIgnoreAsciiCase_getElem? same 0
    rw [initial, List.getElem?_take, List.getElem?_drop] at start
    split at start
    · rw [Nat.add_zero] at start
      cases found : (line)[position]? with
      | none => simp [found] at start
      | some c =>
          rw [found, Option.map_some, Option.some.injEq] at start
          exact other c found (start ▸ member)
    · simp at start

theorem referencesAt_of_word (later : 0 < position) {c : UInt8} (before : (line)[position - 1]? = some c)
    (inside : word c) : referencesAt line position = [] := by
  simp [referencesAt, later, before, inside]

theorem dropWhile_append_cr (rest : Bytes) :
    (rest ++ [cr]).dropWhile isBlank = rest.dropWhile isBlank ++ [cr] := by
  induction rest with
  | nil => rfl
  | cons c rest ih =>
      rw [List.cons_append, List.dropWhile_cons, List.dropWhile_cons]
      split
      · exact ih
      · rfl

theorem takeWhile_append_cr (rest : Bytes) :
    (rest ++ [cr]).takeWhile isAsciiDigit = rest.takeWhile isAsciiDigit := by
  induction rest with
  | nil => rfl
  | cons c rest ih =>
      rw [List.cons_append, List.takeWhile_cons, List.takeWhile_cons, ih]

theorem head?_append_cr {c : UInt8} (other : c ≠ cr) (rest : Bytes) :
    ((rest ++ [cr]).head? = some c) ↔ rest.head? = some c := by
  cases rest with
  | nil => simp [Ne.symm other]
  | cons d rest => simp

theorem numberAfter_append_cr (tail : Bytes) : numberAfter (tail ++ [cr]) = numberAfter tail := by
  have within : (tail.takeWhile isAsciiDigit).length ≤ tail.length := (List.takeWhile_prefix _).length_le
  have after : ((tail ++ [cr]).drop (tail.takeWhile isAsciiDigit).length).head?.any word =
      (tail.drop (tail.takeWhile isAsciiDigit).length).head?.any word := by
    rw [List.drop_append_of_le_length within]
    cases tail.drop (tail.takeWhile isAsciiDigit).length with
    | nil => rfl
    | cons c rest => rfl
  simp only [numberAfter, takeWhile_append_cr, after]

theorem idAfter_append_cr (rest : Bytes) : idAfter (rest ++ [cr]) = idAfter rest := by
  have colon : ((rest ++ [cr]).head? == some 58) = (rest.head? == some 58) := by
    rw [Bool.eq_iff_iff, beq_iff_eq, beq_iff_eq, head?_append_cr (by decide)]
  have body : (if rest.head? == some 58 then (rest ++ [cr]).tail else rest ++ [cr]) =
      (if rest.head? == some 58 then rest.tail else rest) ++ [cr] := by
    split
    · next found =>
        cases rest with
        | nil => simp at found
        | cons c rest => rfl
    · rfl
  unfold idAfter
  simp only [colon, body]
  generalize (if (rest.head? == some 58) = true then rest.tail else rest) = after
  rw [dropWhile_append_cr]
  generalize after.dropWhile isBlank = spaced
  have size : ((spaced ++ [cr]).length == (after ++ [cr]).length) = (spaced.length == after.length) := by
    simp
  cases spaced with
  | nil => simp [cr]
  | cons c spaced =>
      rw [size, List.cons_append, List.head?_cons, List.head?_cons, List.tail_cons, List.tail_cons,
        numberAfter_append_cr]

theorem keyword_append_cr {keyword : Bytes} (among : keyword ∈ keywords) (text : Bytes) :
    eqIgnoreAsciiCase ((text ++ [cr]).take keyword.length) keyword =
      eqIgnoreAsciiCase (text.take keyword.length) keyword := by
  rcases Nat.lt_or_ge text.length keyword.length with short | long
  · have apart : ¬eqIgnoreAsciiCase (text.take keyword.length) keyword := by
      intro same
      have size := eqIgnoreAsciiCase_length same
      rw [List.length_take] at size
      omega
    have apart' : ¬eqIgnoreAsciiCase ((text ++ [cr]).take keyword.length) keyword := by
      intro same
      have last := eqIgnoreAsciiCase_getElem? same text.length
      rw [List.getElem?_take_of_lt short, List.getElem?_concat_length,
        List.getElem?_eq_getElem short] at last
      exact keyword_plain among _ (List.getElem_mem short) (Option.some.inj last).symm
    simp [apart, apart']
  · rw [List.take_append_of_le_length long]

theorem referencesAt_append_cr {line : Bytes} {position : Nat} (within : position < line.length) :
    referencesAt (line ++ [cr]) position = referencesAt line position := by
  have before : (line ++ [cr])[position - 1]? = (line)[position - 1]? :=
    List.getElem?_append_left (by omega)
  rw [referencesAt, referencesAt, before]
  split
  · rfl
  · apply List.filterMap_congr
    intro keyword among
    rw [List.drop_append_of_le_length (Nat.le_of_lt within), keyword_append_cr among]
    split
    · next same =>
        have size := eqIgnoreAsciiCase_length same
        rw [List.length_take] at size
        rw [List.drop_append_of_le_length (by omega), idAfter_append_cr]
    · rfl

theorem lineReferences_append_cr (line : Bytes) : lineReferences (line ++ [cr]) = lineReferences line := by
  have last : referencesAt (line ++ [cr]) line.length = [] := by
    apply referencesAt_of_initial
    simp
    decide
  rw [lineReferences, List.length_append, List.length_singleton, List.range_succ, List.flatMap_append,
    List.flatMap_singleton, last, List.append_nil, lineReferences]
  apply List.flatMap_congr
  intro position within
  exact referencesAt_append_cr (List.mem_range.mp within)

end Keywords

section Generated
variable {id : Nat}

def digitBytes (id : Nat) : Bytes := ascii (toString id)

theorem digitBytes_eq (id : Nat) :
    digitBytes id = (Nat.toDigits 10 id).map fun c => UInt8.ofNat c.toNat := by
  rw [digitBytes, ascii]
  congr 1
  exact Nat.toList_repr

theorem generated_eq (id : Nat) : generated id = ascii "Refs #" ++ digitBytes id := rfl

theorem toNat_digitByte {c : Char} (digit : c.isDigit) : (UInt8.ofNat c.toNat).toNat = c.toNat := by
  have bounds := isDigit_iff.mp digit
  rw [UInt8.toNat_ofNat']
  omega

theorem isAsciiDigit_iff {b : UInt8} : isAsciiDigit b ↔ 48 ≤ b.toNat ∧ b.toNat ≤ 57 := by
  simp [isAsciiDigit, UInt8.le_iff_toNat_le]

theorem isAsciiDigit_digitBytes : ∀ b ∈ digitBytes id, isAsciiDigit b := by
  intro b among
  rw [digitBytes_eq, List.mem_map] at among
  obtain ⟨c, member, rfl⟩ := among
  have digit : c.isDigit := Nat.isDigit_of_mem_toDigits (by omega) (by omega) member
  rw [isAsciiDigit_iff, toNat_digitByte digit]
  exact isDigit_iff.mp digit

theorem digitBytes_ne_nil : digitBytes id ≠ [] := by
  rw [digitBytes_eq]
  simp

theorem checkedDecimal_append (digits : Bytes) (b : UInt8) : checkedDecimal (digits ++ [b]) =
    (checkedDecimal digits).bind fun v =>
      if v * 10 + (b.toNat - 48) < 2 ^ 64 then some (v * 10 + (b.toNat - 48)) else none := by
  simp [checkedDecimal]

theorem checkedDecimal_digitBytes (small : id < 2 ^ 64) : checkedDecimal (digitBytes id) = some id := by
  rw [digitBytes_eq]
  induction id using Nat.strongRecOn with
  | ind n ih =>
      have value : ∀ d, d < 10 → (UInt8.ofNat d.digitChar.toNat).toNat - 48 = d := by decide
      by_cases digit : n < 10
      · rw [Nat.toDigits_of_lt_base digit]
        simp only [checkedDecimal, List.map_singleton, List.foldl_cons, List.foldl_nil, Option.bind_some,
          Nat.zero_mul, Nat.zero_add, value n digit, if_pos small]
      · rw [Nat.toDigits_of_base_le (by omega) (by omega), List.map_append, List.map_singleton,
          checkedDecimal_append, ih (n / 10) (by omega) (by omega), Option.bind_some,
          value (n % 10) (Nat.mod_lt n (by omega))]
        have same : n / 10 * 10 + n % 10 = n := by omega
        rw [same, if_pos small]

theorem takeWhile_digitBytes : (digitBytes id).takeWhile isAsciiDigit = digitBytes id := by
  rw [List.takeWhile_eq_self_iff]
  exact isAsciiDigit_digitBytes

theorem numberAfter_digitBytes (positive : 0 < id) (small : id < 2 ^ 64) :
    numberAfter (digitBytes id) = some id := by
  simp [numberAfter, takeWhile_digitBytes, digitBytes_ne_nil, checkedDecimal_digitBytes small,
    Option.filter, positive]

theorem generated_getElem? {position : Nat} (later : 5 ≤ position) :
    ∀ c ∈ (generated id)[position]?, c = 35 ∨ isAsciiDigit c := by
  intro c found
  rcases Nat.lt_or_ge position 6 with hash | digits
  · have place : position = 5 := by omega
    rw [place, generated_eq, List.getElem?_append_left (by decide)] at found
    left
    simpa [ascii] using found.symm
  · rw [generated_eq, List.getElem?_append_right (by simpa [ascii] using digits)] at found
    exact Or.inr (isAsciiDigit_digitBytes c (List.mem_of_getElem? found))

theorem referencesAt_generated_zero (positive : 0 < id) (small : id < 2 ^ 64) :
    referencesAt (generated id) 0 = [id] := by
  let number (keyword : Bytes) :=
    if eqIgnoreAsciiCase ((generated id).take keyword.length) keyword then
      idAfter ((generated id).drop keyword.length)
    else none
  have whole : number (ascii "refs") = some id := by
    have after : (generated id).drop (ascii "refs").length = 32 :: 35 :: digitBytes id := rfl
    have front : eqIgnoreAsciiCase ((generated id).take (ascii "refs").length) (ascii "refs") := by
      have part : (generated id).take (ascii "refs").length = [82, 101, 102, 115] := rfl
      rw [part]
      decide
    simp only [number, if_pos front, after]
    simpa [idAfter, isBlank] using numberAfter_digitBytes positive small
  have longer : number (ascii "references") = none := by
    apply if_neg
    intro same
    have fifth := eqIgnoreAsciiCase_getElem? same 4
    exact absurd (Option.some.inj fifth) (by decide)
  have shorter : number (ascii "ref") = none := by
    have after : (generated id).drop (ascii "ref").length = 115 :: 32 :: 35 :: digitBytes id := rfl
    simp only [number, after]
    simp [idAfter, isBlank]
  have fixes : number (ascii "fixes") = none := rfl
  have closes : number (ascii "closes") = none := rfl
  have closed : number (ascii "closed") = none := rfl
  change keywords.filterMap number = [id]
  rw [keywords]
  simp only [List.filterMap_cons, List.filterMap_nil, whole, longer, shorter, fixes, closes, closed]

theorem referencesAt_generated_later {position : Nat} (later : 0 < position) :
    referencesAt (generated id) position = [] := by
  rcases Nat.lt_or_ge position 5 with early | late
  · have before : ∃ c, (generated id)[position - 1]? = some c ∧ word c := by
      rw [generated_eq, List.getElem?_append_left (by simp [ascii]; omega)]
      interval_cases position <;> exact ⟨_, rfl, rfl⟩
    obtain ⟨c, found, inside⟩ := before
    exact referencesAt_of_word later found inside
  · apply referencesAt_of_initial
    intro c found
    rcases generated_getElem? late c found with rfl | digit
    · decide
    · intro initial
      have small := isAsciiDigit_iff.mp digit
      have lower : toLower c = c := by
        apply if_neg
        simp only [Bool.and_eq_true, decide_eq_true_eq, UInt8.le_iff_toNat_le, not_and]
        intro large
        exact absurd (show 65 ≤ c.toNat from large) (by omega)
      rw [lower] at initial
      have letter : ∀ b ∈ initials, 99 ≤ b.toNat := by simp [initials]
      have large := letter c initial
      omega

theorem lineReferences_generated (positive : 0 < id) (small : id < 2 ^ 64) :
    lineReferences (generated id) = [id] := by
  have size : (generated id).length = (5 + (digitBytes id).length) + 1 := by
    rw [generated_eq, List.length_append]
    have head : (ascii "Refs #").length = 6 := rfl
    omega
  rw [lineReferences, size, List.range_succ_eq_map, List.flatMap_cons,
    referencesAt_generated_zero positive small, List.flatMap_map]
  simp [referencesAt_generated_later]

theorem trimAscii_append_cr (line : Bytes) : trimAscii (line ++ [cr]) = trimAscii line := by
  unfold trimAscii
  induction line with
  | nil => rfl
  | cons c line ih =>
      rw [List.cons_append, List.dropWhile_cons, List.dropWhile_cons]
      split
      · exact ih
      · rw [← List.cons_append, List.rdropWhile_concat_pos _ _ _ (by decide)]

theorem trimAscii_generated : trimAscii (generated id) = generated id := by
  obtain ⟨front, last, digits⟩ := List.eq_nil_or_concat (digitBytes id) |>.resolve_left digitBytes_ne_nil
  have digit := isAsciiDigit_iff.mp (isAsciiDigit_digitBytes last (by rw [digits]; simp))
  have solid : isAsciiWhitespace last = false := by
    rw [Bool.eq_false_iff]
    intro blank
    simp only [isAsciiWhitespace, Bool.or_eq_true, beq_iff_eq] at blank
    rcases blank with (((rfl | rfl) | rfl) | rfl) | rfl <;> exact absurd digit.1 (by decide)
  have front' : (generated id).dropWhile isAsciiWhitespace = generated id := rfl
  rw [trimAscii, front', generated_eq, digits, List.concat_eq_append, ← List.append_assoc]
  exact List.rdropWhile_concat_neg _ _ _ (by simp [solid])

theorem generated_injective {other : Nat} (small : id < 2 ^ 64) (small' : other < 2 ^ 64)
    (same : generated id = generated other) : id = other := by
  rw [generated_eq, generated_eq, List.append_cancel_left_eq] at same
  have value := checkedDecimal_digitBytes small
  rw [same, checkedDecimal_digitBytes small'] at value
  exact (Option.some.inj value).symm

def generatedIn (id : Nat) (line : Bytes) : List Nat := if trimAscii line == generated id then [id] else []

theorem not_word_of_whitespace {b : UInt8} (blank : isAsciiWhitespace b) : word b = false := by
  simp only [isAsciiWhitespace, Bool.or_eq_true, beq_iff_eq] at blank
  rcases blank with (((rfl | rfl) | rfl) | rfl) | rfl <;> rfl

theorem numberAfter_digitBytes_append (positive : 0 < id) (small : id < 2 ^ 64) {after : Bytes}
    (blank : ∀ b ∈ after, isAsciiWhitespace b) : numberAfter (digitBytes id ++ after) = some id := by
  have front : (digitBytes id ++ after).takeWhile isAsciiDigit = digitBytes id := by
    rw [List.takeWhile_append_of_pos isAsciiDigit_digitBytes]
    cases after with
    | nil => simp
    | cons b after =>
        have other : isAsciiDigit b = false := by
          have letter := not_word_of_whitespace (blank b (by simp))
          simp only [word, Bool.or_eq_false_iff] at letter
          exact letter.1.2
        simp [other]
  have next : after.head?.any word = false := by
    cases after with
    | nil => rfl
    | cons b after => exact not_word_of_whitespace (blank b (by simp))
  simp [numberAfter, front, next, digitBytes_ne_nil, checkedDecimal_digitBytes small, Option.filter, positive]

theorem mem_lineReferences_of_trim (positive : 0 < id) (small : id < 2 ^ 64) {line : Bytes}
    (trimmed : trimAscii line = generated id) : id ∈ lineReferences line := by
  let before := line.takeWhile isAsciiWhitespace
  let after := (line.dropWhile isAsciiWhitespace).rtakeWhile isAsciiWhitespace
  have whole : line = before ++ (generated id ++ after) := by
    rw [← trimmed, trimAscii, List.rdropWhile_append_rtakeWhile]
    exact List.takeWhile_append_dropWhile.symm
  have blank : ∀ b ∈ after, isAsciiWhitespace b := fun b among => List.mem_rtakeWhile_imp among
  have blank' : ∀ b ∈ before, isAsciiWhitespace b := fun b among => List.mem_takeWhile_imp among
  rw [lineReferences, List.mem_flatMap]
  refine ⟨before.length, ?_, ?_⟩
  · rw [List.mem_range, whole]
    simp [generated_eq, ascii]
  · have outside : (0 < before.length && ((line)[before.length - 1]?).any word) = false := by
      rcases List.eq_nil_or_concat before with none | ⟨front, b, shape⟩
      · simp [none]
      · have last : (line)[before.length - 1]? = some b := by
          rw [whole, shape]
          simp
        have plain := not_word_of_whitespace (blank' b (by simp [shape]))
        simp [last, plain]
    have tail : line.drop before.length = 82 :: 101 :: 102 :: 115 :: 32 :: 35 :: (digitBytes id ++ after) := by
      rw [whole, List.drop_left]
      rfl
    rw [referencesAt, outside, if_neg (by simp), List.mem_filterMap]
    refine ⟨ascii "refs", by decide, ?_⟩
    rw [tail]
    have front : eqIgnoreAsciiCase ((82 :: 101 :: 102 :: 115 :: 32 :: 35 :: (digitBytes id ++ after) : Bytes).take
        (ascii "refs").length) (ascii "refs") := by
      change eqIgnoreAsciiCase [82, 101, 102, 115] (ascii "refs")
      decide
    rw [if_pos front]
    change idAfter (32 :: 35 :: (digitBytes id ++ after)) = some id
    simpa [idAfter, isBlank] using numberAfter_digitBytes_append positive small blank

end Generated

end Phasegent.Hooks
