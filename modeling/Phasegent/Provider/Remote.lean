import Mathlib.Logic.Relation
import Phasegent.Text.Chars
import Phasegent.Text.Fallible
import Phasegent.Text.Json

namespace Phasegent.Remote
open Fallible Text

inductive Host where
  | domain (name : String)
  | ipv4 (address : String)
  | ipv6 (address : String)
  deriving DecidableEq, Repr

-- The URL library, as far as Git remotes are read through it; it percent-encodes the paths.
structure GitUrlLibrary where
  Url : Type
  parse : String → Except String Url
  host : Url → Option Host
  port : Url → Option Nat
  scheme : Url → String
  path : Url → String
  ascii : ∀ url, ∀ c ∈ (path url).toList, c.toNat < 128

section Slices

/-- The rest of a text from a byte offset on, or nothing where the offset is inside of a character. -/
def sliceFrom : Nat → List Char → Option (List Char)
  | 0, text => some text
  | _ + 1, [] => none
  | n + 1, c :: rest => if c.utf8Size ≤ n + 1 then sliceFrom (n + 1 - c.utf8Size) rest else none

def gitSuffix : List Char := ".git".toList

def hasGitSuffix (text : List Char) : Option Bool :=
  if Json.bytes text < 4 then some false
  else (sliceFrom (Json.bytes text - 4) text).map fun tail => toAsciiLower tail == gitSuffix

end Slices

section Paths

def isSlash (c : Char) : Bool := c == '/'

def trimSlashes (text : List Char) : List Char := trimEndMatches isSlash (text.dropWhile isSlash)

def segments (text : List Char) : List (List Char) := (text.splitOn '/').filter (!·.isEmpty)

def join (parts : List (List Char)) : List Char := ['/'].intercalate parts

def withoutGit (text : List Char) (suffixed : Bool) : List Char :=
  if suffixed then text.take (text.length - 4) else text

def normalizeGitPath (raw : List Char) : Option (Except String (List Char)) :=
  let trimmed := trimSlashes raw
  if trimmed = [] then some (.error "git remote path is empty")
  else (hasGitSuffix trimmed).map fun suffixed =>
    let bare := trimSlashes (withoutGit trimmed suffixed)
    if bare = [] then .error "git remote path is empty after stripping .git"
    else if segments bare = [] then .error "git remote path is empty"
    else .ok (join (segments bare))

end Paths

section Urls
variable (library : GitUrlLibrary)

def isBlank (text : List Char) : Bool := (trim text).isEmpty

def scpLocation (rest : List Char) : Except String (String × List Char) := do
  let some (host, path) := splitOnce [':'] rest | throw "invalid scp-style git remote"
  refuse (isBlank host ∨ isBlank path) "invalid scp-style git remote"
  return (String.ofList (toAsciiLower (trim host)), path)

def hostText : Host → String
  | .domain name => String.ofList (toAsciiLower name.toList)
  | .ipv4 address => address
  | .ipv6 address => String.ofList (toAsciiLower ("[" ++ address ++ "]").toList)

def sshSchemes : List String := ["ssh", "git+ssh", "ssh+git"]

def urlAuthority (url : library.Url) (host : Host) : String :=
  let port := if library.scheme url ∈ sshSchemes ∧ library.port url = some 22 then none else library.port url
  match port with
  | some port => hostText host ++ ":" ++ port.repr
  | none => hostText host

def urlLocation (text : String) : Except String (String × List Char) := do
  let url ← (library.parse text).mapError fun error => "invalid git remote: " ++ error
  let some host := library.host url | throw "git remote has no host"
  return (urlAuthority library url host, (library.path url).toList)

def location (url : String) : Except String (String × List Char) := do
  let trimmed := trim url.toList
  refuse (trimmed = []) "git remote URL cannot be empty"
  match stripPrefix "git@".toList trimmed with
  | some rest => scpLocation rest
  | none => urlLocation library (String.ofList trimmed)

def canonicalGitParts (url : String) : Option (Except String (String × List Char)) :=
  match location library url with
  | .error error => some (.error error)
  | .ok (authority, raw) => (normalizeGitPath raw).map fun path => path.map fun path => (authority, path)

-- Nothing where the computation panics.
def canonicalGitUrl (url : String) : Option (Except String String) :=
  (canonicalGitParts library url).map fun parts =>
    parts.map fun (authority, path) => authority ++ "/" ++ String.ofList path

end Urls

end Phasegent.Remote
