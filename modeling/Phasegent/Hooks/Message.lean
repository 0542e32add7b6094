import Mathlib
import Phasegent.Text.Lines
import Phasegent.Text.Slice

namespace Phasegent.Hooks
open Text

abbrev Bytes := List UInt8

def ascii (text : String) : Bytes := text.toList.map fun c => UInt8.ofNat c.toNat

def lf : UInt8 := 10
def cr : UInt8 := 13

def keywords : List Bytes :=
  [ascii "refs", ascii "references", ascii "ref", ascii "fixes", ascii "closes", ascii "closed"]

def scissors : Bytes := ascii " ------------------------ >8 ------------------------"

def content (line : Bytes) : Bytes :=
  if line.getLast? = some lf then
    if line.dropLast.getLast? = some cr then line.dropLast.dropLast else line.dropLast
  else line

def withOffsets (offset : Nat) : List Bytes → List (Nat × Bytes)
  | [] => []
  | line :: rest => (offset, content line) :: withOffsets (offset + line.length) rest

def lines (bytes : Bytes) : List (Nat × Bytes) := withOffsets 0 (Lines.splitInclusive lf bytes)

structure Message where
  bytes : Bytes
  marker : Bytes
  finish : Nat

def Message.new (bytes marker : Bytes) : Message where
  bytes := bytes
  marker := marker
  finish := match (lines bytes).find? fun (_, line) => stripPrefix marker line == some scissors with
    | some (offset, _) => offset
    | none => bytes.length

def Message.authored (self : Message) : List Bytes :=
  ((lines (self.bytes.take self.finish)).map (·.2)).filter fun line => !self.marker.isPrefixOf line

def isAsciiDigit (b : UInt8) : Bool := 48 ≤ b && b ≤ 57

def word (b : UInt8) : Bool :=
  (65 ≤ b && b ≤ 90) || (97 ≤ b && b ≤ 122) || isAsciiDigit b || b == 95

def toLower (b : UInt8) : UInt8 := if 65 ≤ b && b ≤ 90 then b + 32 else b

def eqIgnoreAsciiCase (a b : Bytes) : Bool := a.map toLower == b.map toLower

def isBlank (b : UInt8) : Bool := b == 32 || b == 9

-- `id.and_then(|v| v.checked_mul(10)?.checked_add(digit))`, over the digits.
def checkedDecimal (digits : Bytes) : Option Nat :=
  digits.foldl (fun id b => id.bind fun v =>
    if v * 10 + (b.toNat - 48) < 2 ^ 64 then some (v * 10 + (b.toNat - 48)) else none) (some 0)

-- The number behind a `#`, unless a word goes on after its digits.
def numberAfter (tail : Bytes) : Option Nat :=
  let digits := tail.takeWhile isAsciiDigit
  if digits.isEmpty || (tail.drop digits.length).head?.any word then none
  else (checkedDecimal digits).filter (0 < ·)

def idAfter (rest : Bytes) : Option Nat :=
  let colon := rest.head? == some 58
  let rest := if colon then rest.tail else rest
  let spaced := rest.dropWhile isBlank
  if (!colon && spaced.length == rest.length) || spaced.head? != some 35 then none
  else numberAfter spaced.tail

def referencesAt (line : Bytes) (at' : Nat) : List Nat :=
  if 0 < at' && ((line)[at' - 1]?).any word then []
  else
    keywords.filterMap fun keyword =>
      if eqIgnoreAsciiCase ((line.drop at').take keyword.length) keyword then
        idAfter ((line.drop at').drop keyword.length)
      else none

def lineReferences (line : Bytes) : List Nat := (List.range line.length).flatMap (referencesAt line)

def push (ids : List Nat) (id : Nat) : List Nat := if ids.contains id then ids else ids ++ [id]

def Message.references (self : Message) : List Nat :=
  (self.authored.flatMap lineReferences).foldl push []

def isAsciiWhitespace (b : UInt8) : Bool := b == 32 || b == 9 || b == 10 || b == 12 || b == 13

def trimAscii (line : Bytes) : Bytes := (line.dropWhile isAsciiWhitespace).rdropWhile isAsciiWhitespace

def generated (id : Nat) : Bytes := ascii "Refs #" ++ ascii (toString id)

def Message.generatedCount (self : Message) (id : Nat) : Nat :=
  self.authored.countP fun line => trimAscii line == generated id

def dropLineEnds : Bytes → Bytes
  | [] => []
  | [b] => if b = lf then [] else [b]
  | b :: c :: rest =>
      if b ≠ lf then b :: c :: rest
      else if c = cr then dropLineEnds rest
      else dropLineEnds (c :: rest)

/-- Without complete line ends: a carriage return goes only with its line feed. -/
def stripLineEnds (text : Bytes) : Bytes := (dropLineEnds text.reverse).reverse

-- The ends of the lines so far, with the byte before the next one.
structure EolCount where
  crlf : Nat
  lf : Nat
  first : Option Bool
  before : Option UInt8

def countEol (count : EolCount) (b : UInt8) : EolCount :=
  if b = Hooks.lf then
    let isCrlf := count.before == some cr
    { crlf := if isCrlf then count.crlf + 1 else count.crlf
      lf := if isCrlf then count.lf else count.lf + 1
      first := count.first.or (some isCrlf)
      before := some b }
  else { count with before := some b }

def predominantEol (bytes : Bytes) : Bytes :=
  let count := bytes.foldl countEol ⟨0, 0, none, none⟩
  if count.lf < count.crlf || (count.crlf == count.lf && count.first == some true) then [cr, lf] else [lf]

def Message.insertMany (self : Message) (ids : List Nat) : Bytes :=
  if ids.isEmpty then self.bytes
  else
    let eol := predominantEol self.bytes
    stripLineEnds (self.bytes.take self.finish) ++ eol ++ eol ++
      ids.flatMap (fun id => generated id ++ eol) ++ self.bytes.drop self.finish

end Phasegent.Hooks
