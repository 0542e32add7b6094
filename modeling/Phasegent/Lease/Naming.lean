import Phasegent.Lease.Row

namespace Phasegent.Lease
open Fallible

def fingerprintHex : Nat := 12

def branchNamespace : String := "phasegent"

def maxRefChars : Nat := 128

def endsWith (text ending : String) : Bool := ending.toList.isSuffixOf text.toList

def containsText (text part : String) : Bool := (Text.splitOnce part.toList text.toList).isSome

def isRefChar (c : Char) : Bool := c.isDigit || c.isLower || c == '-' || c == '_' || c == '/'

def validateRefFormat (name : String) : Except WorktreeError Unit := do
  refuse (name = "") (.new "argument" "ref name must not be empty")
  refuse (maxRefChars < name.toList.length) (.new "argument" "ref name exceeds 128 chars")
  refuse (name.toList.head? = some '-') (.new "argument" "ref name must not start with '-'")
  refuse (endsWith name "." || endsWith name ".lock" || endsWith name "/")
    (.new "argument" "ref name must not end with '.', '.lock', or '/'")
  refuse (containsText name ".." || containsText name "@\x7b" || containsText name "\\")
    (.new "argument" "ref name must not contain '..', '@\x7b', or '\\'")
  refuse (!name.toList.all isRefChar)
    (.new "argument" "ref name must use lowercase alnum and -/_ only")

def hexDigits (value : Nat) : Nat → List Char
  | 0 => []
  | width + 1 => Nat.digitChar (value / 16 ^ width % 16) :: hexDigits value width

-- FNV-1a, 64 bits wide.
def computeFingerprint (repoIdentity : String) : String :=
  let hash := repoIdentity.toUTF8.toList.foldl
    (fun hash byte => (hash ^^^ byte.toUInt64) * 0x100000001b3) (0xcbf29ce484222325 : UInt64)
  String.ofList (hexDigits hash.toNat fingerprintHex)

def slugFromBranch (branch : String) : Except WorktreeError String := do
  let slug := String.ofList (branch.toList.map fun c => if c = '/' then '-' else c)
  validateRefFormat slug
  return slug

def generateBranch (issue : Nat) (short : String) : Except WorktreeError String := do
  let branch := branchNamespace ++ "/" ++ issue.repr ++ "-" ++ short
  validateRefFormat branch
  return branch

def joinPath (base name : String) : String :=
  if name.toList.head? = some '/' then name
  else if base = "" ∨ endsWith base "/" then base ++ name
  else base ++ "/" ++ name

end Phasegent.Lease
