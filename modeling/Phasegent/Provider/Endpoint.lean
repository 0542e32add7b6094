import Phasegent.Provider.Api
import Phasegent.Text.Chars
import Phasegent.Text.Fallible

namespace Phasegent
open Fallible

-- The URL library, as far as endpoints are read and written through it.
structure UrlLibrary where
  Url : Type
  parse : String → Except String Url
  toString : Url → String
  scheme : Url → String
  username : Url → String
  password : Url → Option String
  hostStr : Url → Option String
  path : Url → String
  query : Url → Option String
  fragment : Url → Option String
  setPath : Url → String → Url

def trimSlashes (text : String) : String :=
  String.ofList (Text.trimEndMatches (· == '/') text.toList)

def trimText (text : String) : String := String.ofList (Text.trim text.toList)

namespace UrlLibrary
variable (urls : UrlLibrary)

def dropTrailingSlash (url : urls.Url) : urls.Url :=
  urls.setPath url (trimSlashes (urls.path url))

structure HttpBase (url : urls.Url) : Prop where
  host : (urls.hostStr url).isSome
  scheme : urls.scheme url ∈ ["http", "https"]
  query : urls.query url = none
  fragment : urls.fragment url = none

-- What the library documents about such an address: it is written as scheme, authority and path,
-- its path starts with a slash, and reading what was written gives the address back.
structure Documented : Prop where
  parse_empty : ∀ url, urls.parse "" ≠ .ok url
  parse_toString : ∀ url, urls.HttpBase url → urls.parse (urls.toString url) = .ok url
  parse_root : ∀ url, urls.HttpBase url → urls.path url = "/" →
    urls.parse (trimSlashes (urls.toString url)) = .ok url
  toString_path : ∀ url, urls.HttpBase url → trimSlashes (urls.path url) = urls.path url →
    trimSlashes (urls.toString url) = urls.toString url
  toString_spaces : ∀ url, urls.HttpBase url →
    ∀ c ∈ (urls.toString url).toList, Text.isWhitespace c = false
  setPath_base : ∀ url path, urls.HttpBase url → urls.HttpBase (urls.setPath url path)
  setPath_userinfo : ∀ url path, urls.HttpBase url →
    urls.username (urls.setPath url path) = urls.username url ∧
      urls.password (urls.setPath url path) = urls.password url
  path_setPath : ∀ url, urls.HttpBase url →
    urls.path (urls.setPath url (trimSlashes (urls.path url))) =
      if trimSlashes (urls.path url) = "" then "/" else trimSlashes (urls.path url)
  setPath_path : ∀ url, urls.HttpBase url → urls.setPath url (urls.path url) = url
  setPath_root : ∀ url, urls.HttpBase url → urls.path url = "/" → urls.setPath url "" = url

end UrlLibrary

section Endpoints
variable (urls : UrlLibrary)

def normalizeRedmineApiBase (value : String) : Except String String := do
  let url ← (urls.parse value).mapError ("invalid Redmine API base URL: " ++ ·)
  refuse ((urls.hostStr url).isNone ∨ urls.scheme url ∉ ["http", "https"])
    "Redmine API base URL must use http or https"
  refuse ((urls.query url).isSome ∨ (urls.fragment url).isSome)
    "Redmine API base URL cannot contain a query or fragment"
  return trimSlashes (urls.toString (urls.dropTrailingSlash url))

def validateApiBase (value : String) : Except PhasegentError String := do
  let trimmed := trimText value
  refuse (trimmed = "")
    (.config "Forgejo API base is empty")
  let url ← (urls.parse trimmed).mapError fun error =>
    .config ("invalid Forgejo API base URL: " ++ error)
  refuse (urls.scheme url ∉ ["http", "https"])
    (.config "Forgejo API base must use the http or https scheme")
  refuse ((urls.hostStr url).isNone)
    (.config "Forgejo API base must include a host")
  refuse (urls.username url ≠ "" ∨ (urls.password url).isSome)
    (.config "Forgejo API base must not include userinfo")
  refuse ((urls.query url).isSome)
    (.config "Forgejo API base must not include a query string")
  refuse ((urls.fragment url).isSome)
    (.config "Forgejo API base must not include a fragment")
  return trimSlashes (urls.toString (urls.dropTrailingSlash url))

def invalidRepository : PhasegentError :=
  .config "invalid Forgejo repository; expected owner/repo using letters, digits, '-', '_', or '.'"

def isRepositorySegment (segment : List Char) : Bool :=
  !segment.isEmpty && segment != ['.'] && segment != ['.', '.'] &&
    segment.all (fun c => c.isAlphanum || c == '-' || c == '_' || c == '.') &&
    segment.head? != some '.' && segment.getLast? != some '.'

def validateRepository (value : String) : Except PhasegentError String := do
  refuse (value = "")
    (.config "Forgejo repository is empty")
  refuse ((Text.splitOnce "://".toList value.toList).isSome)
    (.config "Forgejo repository must be owner/repo, not a URL")
  match value.toList.splitOn '/' with
  | [owner, repo] =>
      refuse (!isRepositorySegment owner || !isRepositorySegment repo) invalidRepository
      return String.ofList (owner ++ '/' :: repo)
  | _ => throw invalidRepository

structure ForgejoConfig where
  apiBase : String
  repository : String
  deriving DecidableEq, Repr

def ForgejoConfig.new (apiBase repository : String) : Except PhasegentError ForgejoConfig := do
  let apiBase ← validateApiBase urls apiBase
  let repository ← validateRepository repository
  return ⟨apiBase, repository⟩

end Endpoints

section Canonical
variable {urls : UrlLibrary}

theorem trimText_trimText (text : String) : trimText (trimText text) = trimText text := by
  simp [trimText]

theorem trimSlashes_trimSlashes (text : String) :
    trimSlashes (trimSlashes text) = trimSlashes text := by
  simp [trimSlashes]

theorem dropTrailingSlash_fixed (laws : urls.Documented) {url : urls.Url} (http : urls.HttpBase url) :
    urls.dropTrailingSlash (urls.dropTrailingSlash url) = urls.dropTrailingSlash url ∧
      urls.parse (trimSlashes (urls.toString (urls.dropTrailingSlash url))) =
        .ok (urls.dropTrailingSlash url) := by
  have http' : urls.HttpBase (urls.dropTrailingSlash url) := laws.setPath_base url _ http
  have path := laws.path_setPath url http
  by_cases root : trimSlashes (urls.path url) = ""
  · rw [if_pos root] at path
    have slash : trimSlashes "/" = "" := by decide
    constructor
    · rw [UrlLibrary.dropTrailingSlash, UrlLibrary.dropTrailingSlash, path, slash]
      exact laws.setPath_root _ http' path
    · exact laws.parse_root _ http' path
  · rw [if_neg root] at path
    have kept : trimSlashes (urls.path (urls.dropTrailingSlash url)) =
        urls.path (urls.dropTrailingSlash url) := by
      rw [UrlLibrary.dropTrailingSlash, path, trimSlashes_trimSlashes]
    constructor
    · rw [UrlLibrary.dropTrailingSlash, kept]
      exact laws.setPath_path _ http'
    · rw [laws.toString_path _ http' kept]
      exact laws.parse_toString _ http'

theorem normalizeRedmineApiBase_ok {value base : String} :
    normalizeRedmineApiBase urls value = .ok base ↔
      ∃ url, urls.parse value = .ok url ∧ urls.HttpBase url ∧
        trimSlashes (urls.toString (urls.dropTrailingSlash url)) = base := by
  simp only [normalizeRedmineApiBase, bind_eq_ok, mapError_eq_ok,
    refuse_eq_ok, Fallible.pure_eq, Except.ok.injEq, not_or]
  constructor
  · rintro ⟨url, parsed, -, ⟨host, scheme⟩, -, ⟨query, fragment⟩, rfl⟩
    exact ⟨url, parsed, ⟨by simpa [Option.isSome_iff_ne_none] using host, not_not.mp scheme, by simpa using query,
      by simpa using fragment⟩, rfl⟩
  · rintro ⟨url, parsed, ⟨host, scheme, query, fragment⟩, rfl⟩
    exact ⟨url, parsed, (), ⟨by simpa [Option.isSome_iff_ne_none] using host, not_not.mpr scheme⟩, (),
      ⟨by simp [query], by simp [fragment]⟩, rfl⟩

theorem validateApiBase_ok {value base : String} :
    validateApiBase urls value = .ok base ↔
      ∃ url, trimText value ≠ "" ∧ urls.parse (trimText value) = .ok url ∧ urls.HttpBase url ∧
        urls.username url = "" ∧ urls.password url = none ∧
        trimSlashes (urls.toString (urls.dropTrailingSlash url)) = base := by
  simp only [validateApiBase, bind_eq_ok, mapError_eq_ok,
    refuse_eq_ok, Fallible.pure_eq, Except.ok.injEq, not_or]
  constructor
  · rintro ⟨-, text, url, parsed, -, scheme, -, host, -, ⟨user, password⟩, -, query, -, fragment, rfl⟩
    exact ⟨url, text, parsed, ⟨by simpa [Option.isSome_iff_ne_none] using host, not_not.mp scheme,
      by simpa using query,
      by simpa using fragment⟩, by simpa using user, by simpa using password, rfl⟩
  · rintro ⟨url, text, parsed, ⟨host, scheme, query, fragment⟩, user, password, rfl⟩
    exact ⟨(), text, url, parsed, (), not_not.mpr scheme, (), by simpa [Option.isSome_iff_ne_none] using host, (),
      ⟨by simpa using user, by simp [password]⟩, (), by simp [query], (), by simp [fragment], rfl⟩

theorem normalizeRedmineApiBase_idem (laws : urls.Documented) {value base : String}
    (normal : normalizeRedmineApiBase urls value = .ok base) :
    normalizeRedmineApiBase urls base = .ok base := by
  obtain ⟨url, -, http, rfl⟩ := normalizeRedmineApiBase_ok.mp normal
  obtain ⟨fixed, parsed⟩ := dropTrailingSlash_fixed laws http
  exact normalizeRedmineApiBase_ok.mpr
    ⟨urls.dropTrailingSlash url, parsed, laws.setPath_base url _ http, by rw [fixed]⟩

theorem trimText_apiBase (laws : urls.Documented) {url : urls.Url} (http : urls.HttpBase url) :
    trimText (trimSlashes (urls.toString url)) = trimSlashes (urls.toString url) := by
  have spaceless : ∀ c ∈ (trimSlashes (urls.toString url)).toList, Text.isWhitespace c = false := by
    intro c member
    apply laws.toString_spaces url http c
    rw [trimSlashes, String.toList_ofList] at member
    exact (List.rdropWhile_prefix _ _).subset member
  rw [trimText, Text.trim_eq_self spaceless, String.ofList_toList]

theorem validateApiBase_idem (laws : urls.Documented) {value base : String}
    (valid : validateApiBase urls value = .ok base) : validateApiBase urls base = .ok base := by
  obtain ⟨url, -, -, http, user, password, rfl⟩ := validateApiBase_ok.mp valid
  obtain ⟨fixed, parsed⟩ := dropTrailingSlash_fixed laws http
  have http' : urls.HttpBase (urls.dropTrailingSlash url) := laws.setPath_base url _ http
  have userinfo : urls.username (urls.dropTrailingSlash url) = urls.username url ∧
      urls.password (urls.dropTrailingSlash url) = urls.password url :=
    laws.setPath_userinfo url _ http
  apply validateApiBase_ok.mpr
  rw [trimText_apiBase laws http']
  refine ⟨urls.dropTrailingSlash url, ?_, parsed, http', userinfo.1.trans user,
    userinfo.2.trans password, by rw [fixed]⟩
  intro empty
  rw [empty] at parsed
  exact laws.parse_empty _ parsed

end Canonical

section Sample

-- The URL library on the two spellings of one address; it refuses every other text.
def forgejoTest : UrlLibrary where
  Url := Unit
  parse text :=
    if text = "https://forgejo.test" ∨ text = "https://forgejo.test/" then .ok ()
    else .error "relative URL without a base"
  toString _ := "https://forgejo.test/"
  scheme _ := "https"
  username _ := ""
  password _ := none
  hostStr _ := some "forgejo.test"
  path _ := "/"
  query _ := none
  fragment _ := none
  setPath _ _ := ()

theorem forgejoTest_documented : forgejoTest.Documented where
  parse_empty _ := by simp [forgejoTest]
  parse_toString _ _ := rfl
  parse_root _ _ _ := by
    have slashless : trimSlashes "https://forgejo.test/" = "https://forgejo.test" := by decide
    simp only [forgejoTest, slashless, true_or, if_true]
    rfl
  toString_path _ _ slash := absurd (show trimSlashes "/" = "/" from slash) (by decide)
  toString_spaces _ _ c member := by
    have spaceless : "https://forgejo.test/".toList.all fun c => !Text.isWhitespace c := by decide
    simpa using List.all_eq_true.mp spaceless c member
  setPath_base _ _ http := http
  setPath_userinfo _ _ _ := ⟨rfl, rfl⟩
  path_setPath _ _ := show "/" = if trimSlashes "/" = "" then "/" else trimSlashes "/" by decide
  setPath_path _ _ := rfl
  setPath_root _ _ _ := rfl

end Sample

end Phasegent
