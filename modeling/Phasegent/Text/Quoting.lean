import Mathlib.Data.List.Basic

namespace Text.Quoting

def isSpecial (c : Char) : Bool :=
  [' ', '\t', '\n', '|', '&', ';', '<', '>', '(', ')', '$', '\x60', '"', '*', '?', '[', ']', '#', '~', '=',
    '%', '!', '\x7b', '\x7d'].contains c

mutual

/-- The text a word of a POSIX command stands for, where no expansion takes part in it. -/
def wordValue : List Char → Option (List Char)
  | [] => some []
  | '\'' :: rest => quotedValue rest
  | ['\\'] => none
  | '\\' :: '\n' :: rest => wordValue rest
  | '\\' :: c :: rest => (wordValue rest).map (c :: ·)
  | c :: rest => if isSpecial c then none else (wordValue rest).map (c :: ·)

def quotedValue : List Char → Option (List Char)
  | [] => none
  | '\'' :: rest => wordValue rest
  | c :: rest => (quotedValue rest).map (c :: ·)

end

/-- Each quote of a text closes the quotes, stands escaped, and opens them again. -/
def escapeQuotes (text : List Char) : List Char :=
  text.flatMap fun c => if c = '\'' then ['\'', '\\', '\'', '\''] else [c]

theorem wordValue_escaped (rest : List Char) :
    wordValue ('\\' :: '\'' :: '\'' :: rest) = (quotedValue rest).map ('\'' :: ·) := by
  rw [wordValue, wordValue]
  decide

theorem quotedValue_escapeQuotes (text rest : List Char) :
    quotedValue (escapeQuotes text ++ '\'' :: rest) = (wordValue rest).map (text ++ ·) := by
  induction text with
  | nil => simp [escapeQuotes, quotedValue]
  | cons c text ih =>
      rw [escapeQuotes, List.flatMap_cons, ← escapeQuotes, List.append_assoc]
      by_cases quote : c = '\''
      · rw [if_pos quote, List.cons_append, List.cons_append, List.cons_append, List.cons_append,
          List.nil_append, quotedValue, wordValue_escaped, ih, Option.map_map, quote]
        rfl
      · rw [if_neg quote, List.cons_append, List.nil_append, quotedValue, ih, Option.map_map]
        · rfl
        · exact quote

theorem wordValue_quoted (text : List Char) :
    wordValue ('\'' :: escapeQuotes text ++ ['\'']) = some text := by
  rw [List.cons_append, wordValue, quotedValue_escapeQuotes]
  simp [wordValue]

end Text.Quoting
