import Phasegent.Http.Client
import Phasegent.Provider.Endpoint

namespace Phasegent
open Fallible Http Interleaving

structure RequestUrls extends UrlLibrary where
  /-- `port_or_known_default`. -/
  port : Url → Option Nat
  setQuery : Url → Option String → Url
  setFragment : Url → Option String → Url
  appendQuery : Url → List (String × String) → Url
  /-- `path_segments_mut`, then `extend`; a URL that is no base has no segments. -/
  extendPath : Url → List String → Option Url

structure Origin where
  scheme : String
  host : Option String
  port : Option Nat
  deriving DecidableEq, Repr

namespace RequestUrls
variable (urls : RequestUrls)

def origin (url : urls.Url) : Origin := ⟨urls.scheme url, urls.hostStr url, urls.port url⟩

def sameHost (url other : urls.Url) : Bool := urls.hostStr url == urls.hostStr other

end RequestUrls

abbrev WireM (urls : RequestUrls) := Attempt (Request urls.Url) (fun _ => Answer urls.Url) PhasegentError

abbrev Reply := Nat × String

section Transport
variable {urls : RequestUrls}

def maxAttempts : Nat := 3

def isRetryableStatus (status : Nat) : Bool := status ∈ [429, 502, 503, 504]

def attemptResult (answer : Answer urls.Url) (more : Bool) : Option (Except SendError Reply) :=
  match answer with
  | .error error => if error.transient && more then none else some (.error error)
  | .ok response =>
      if isRetryableStatus response.status && more then none
      else match response.text with
        | .error error => if error.transient && more then none else some (.error error)
        | .ok text => some (.ok (response.status, text))

def fetchAttempts (request : Request urls.Url) : Nat → Wire urls.Url (Except SendError Reply)
  | 0 => .done (.error ⟨"retry loop must return within MAX_ATTEMPTS", false⟩)
  | left + 1 => (send urls.sameHost request).bind fun answer =>
      match attemptResult answer (decide (0 < left)) with
      | some result => .done result
      | none => fetchAttempts request left

def fetchWithRetry (request : Request urls.Url) (operation : String) (redact : String → String) :
    WireM urls Reply :=
  ExceptT.mk ((fetchAttempts request maxAttempts).bind fun result =>
    .done (result.mapError fun error => .request operation (redact error.message)))

def replyOf : Answer urls.Url → Except SendError Reply
  | .error error => .error error
  | .ok response => response.text.map fun text => (response.status, text)

-- The path of a mutation: one attempt.
def sendOnce (request : Request urls.Url) (operation : String) (redact : String → String) :
    WireM urls Reply :=
  ExceptT.mk ((send urls.sameHost request).bind fun answer =>
    .done ((replyOf answer).mapError fun error => .request operation (redact error.message)))

def isHeaderValue (value : String) : Bool :=
  value.toList.all fun c => (32 ≤ c.toNat && c.toNat < 127) || c == '\t'

def redactSecret (secret value : String) : String :=
  if secret = "" then value else value.replace secret "[redacted]"

end Transport

section Redmine
variable (urls : RequestUrls)

def endpointAt (invalid base path : String) : Except PhasegentError urls.Url := do
  let url ← (urls.parse base).mapError fun error => .config (invalid ++ error)
  let basePath := trimSlashes (urls.path url)
  let endpoint := String.ofList (path.toList.dropWhile (· == '/'))
  let fullPath := if basePath = "" then "/" ++ endpoint else basePath ++ "/" ++ endpoint
  return urls.setFragment (urls.setQuery (urls.setPath url fullPath) none) none

structure RedmineHttp where
  apiBase : String
  apiKey : String
  deriving DecidableEq, Repr

def RedmineHttp.resolve (value apiKey : String) : Except PhasegentError RedmineHttp := do
  let apiBase ← (normalizeRedmineApiBase urls.toUrlLibrary value).mapError .config
  let key := trimText apiKey
  refuse (key = "") (.auth "Redmine API key is empty")
  refuse (!isHeaderValue key) (.auth "Redmine API key contains invalid header characters")
  return ⟨apiBase, key⟩

/-- One request of the REST client. A read is a GET that may be retried. -/
structure RedmineRequest where
  method : String
  path : String
  query : List (String × String)
  contentType : Option String
  operation : String
  deriving DecidableEq, Repr

variable {urls}

def RedmineHttp.keyHeader (http : RedmineHttp) : Header := ("x-redmine-api-key", http.apiKey)

def contentHeaders (contentType : Option String) : List Header :=
  (contentType.map fun value => ("content-type", value)).toList

def RedmineHttp.request (http : RedmineHttp) (call : RedmineRequest) (url : urls.Url) : Request urls.Url where
  method := call.method
  url := urls.appendQuery url call.query
  headers := contentHeaders call.contentType ++ [("accept", "application/json"), http.keyHeader]
  policy := .standard

def RedmineHttp.perform (http : RedmineHttp) (call : RedmineRequest) : WireM urls Reply := do
  let url ← fromExcept (endpointAt urls "invalid Redmine API base URL: " http.apiBase call.path)
  if call.method = "GET" then
    fetchWithRetry (http.request call url) call.operation (redactSecret http.apiKey)
  else sendOnce (http.request call url) call.operation (redactSecret http.apiKey)

end Redmine

section Mirror
variable (urls : RequestUrls)

structure RedmineGitMirrorHttp where
  baseUrl : String
  bearerKey : String
  deriving DecidableEq, Repr

/-- The plugin lives at the root of the site. -/
def mirrorBaseUrl (apiBase : String) : String :=
  let trimmed := (trimSlashes apiBase).toList
  if "/api/v1".toList.isSuffixOf trimmed then
    String.ofList (trimmed.take (trimmed.length - "/api/v1".length))
  else String.ofList trimmed

def RedmineGitMirrorHttp.new (baseUrl bearerKey : String) : Except PhasegentError RedmineGitMirrorHttp := do
  let key := trimText bearerKey
  refuse (key = "") (.auth "Redmine git mirror plugin key is empty")
  let parsed ← (urls.parse baseUrl).mapError fun error => .config ("invalid Redmine base URL: " ++ error)
  refuse (urls.hostStr parsed).isNone (.config "Redmine git mirror plugin URL must include a host")
  let trimmed := trimSlashes (urls.path parsed)
  let root := urls.setPath parsed (if trimmed = "" then "/" else trimmed)
  let clean := urls.setFragment (urls.setQuery root none) none
  return ⟨trimSlashes (urls.toString clean), key⟩

structure MirrorRequest where
  method : String
  path : String
  operation : String
  deriving DecidableEq, Repr

variable {urls}

def RedmineGitMirrorHttp.bearerHeader (http : RedmineGitMirrorHttp) : Header :=
  ("authorization", "Bearer " ++ http.bearerKey)

def RedmineGitMirrorHttp.request (http : RedmineGitMirrorHttp) (call : MirrorRequest) (url : urls.Url) :
    Request urls.Url where
  method := call.method
  url := url
  headers := http.bearerHeader ::
    (contentHeaders (if call.method = "GET" then none else some "application/json") ++
      [("accept", "application/json")])
  policy := .standard

def RedmineGitMirrorHttp.perform (http : RedmineGitMirrorHttp) (call : MirrorRequest) :
    WireM urls Reply := do
  let url ← fromExcept (endpointAt urls "invalid Redmine base URL: " http.baseUrl call.path)
  if call.method = "GET" then
    fetchWithRetry (http.request call url) call.operation (redactSecret http.bearerKey)
  else sendOnce (http.request call url) call.operation (redactSecret http.bearerKey)

end Mirror

section Forgejo
variable (urls : RequestUrls)

structure OriginRepositoryEvidence where
  host : String
  deploymentPrefix : String
  repository : String
  deriving DecidableEq, Repr

inductive RepositoryEvidence where
  | outsideGit
  | origin (evidence : Except String OriginRepositoryEvidence)

def attestOriginRepository (trustedApiBase : String) (origin : OriginRepositoryEvidence) :
    Except PhasegentError String := do
  let trusted ← (urls.parse trustedApiBase).mapError fun error =>
    .config ("invalid Forgejo instance: " ++ error)
  let trustedHost := (urls.hostStr trusted).getD ""
  let trustedPrefix := trimSlashes (urls.path trusted)
  refuse (Text.toAsciiLower trustedHost.toList ≠ Text.toAsciiLower origin.host.toList)
    (.config ("origin host '" ++ origin.host ++ "' does not attest the configured Forgejo instance '" ++
      trustedHost ++ "'; provide --repository to select the repository on the trusted instance"))
  refuse (trustedPrefix ≠ origin.deploymentPrefix)
    (.config ("origin deployment prefix '" ++ origin.deploymentPrefix ++
      "' does not attest the configured Forgejo instance prefix '" ++ trustedPrefix ++
      "'; provide --repository to select the repository on the trusted instance"))
  validateRepository origin.repository

def implicitRepository (trusted storedRepository : String) :
    RepositoryEvidence → Except PhasegentError String
  | .outsideGit => validateRepository storedRepository
  | .origin (.ok origin) => attestOriginRepository urls trusted origin
  | .origin (.error reason) => .error (.config
      ("cannot select a Forgejo repository from the current checkout: " ++ reason ++
        "; provide --repository to name the repository on the trusted instance"))

structure ForgejoSelection where
  apiBase : Option String
  repository : Option String
  stored : Option (String × String)
  evidence : RepositoryEvidence

def matchesTrusted (trusted : String) : Option String → Except PhasegentError Unit
  | none => .ok ()
  | some selected => do
      let selected ← validateApiBase urls.toUrlLibrary selected
      refuse (selected ≠ trusted) (.config ("selected Forgejo endpoint does not match the configured " ++
        "role instance; refusing to send the role credential"))

def ForgejoConfig.select (selection : ForgejoSelection) : Except PhasegentError ForgejoConfig :=
  match selection.stored with
  | none => .error (.config ("Forgejo role configuration is not present; an operator must store the " ++
      "trusted instance and credential with \x60admin auth setup\x60"))
  | some (storedApiBase, storedRepository) => do
      let trusted ← validateApiBase urls.toUrlLibrary storedApiBase
      matchesTrusted urls trusted selection.apiBase
      let repository ← match selection.repository with
        | some repository => validateRepository repository
        | none => implicitRepository urls trusted storedRepository selection.evidence
      ForgejoConfig.new urls.toUrlLibrary trusted repository

structure ForgejoHttp where
  base : urls.Url
  token : String

def ForgejoHttp.new (config : ForgejoConfig) (token : String) : Except PhasegentError (ForgejoHttp urls) := do
  refuse (trimText token = "") (.auth "Forgejo credential is missing")
  refuse (!isHeaderValue ("token " ++ token)) (.auth "invalid Forgejo credential")
  let base ← (urls.parse config.apiBase).mapError fun _ => .config "invalid Forgejo API base"
  match urls.extendPath base (["api", "v1", "repos"] ++
      (config.repository.toList.splitOn '/').map String.ofList) with
  | some base => return ⟨base, token⟩
  | none => throw (.config "invalid Forgejo API base")

structure ForgejoRequest where
  method : String
  segments : List String
  query : List (String × String)
  operation : String
  deriving DecidableEq, Repr

variable {urls}

def ForgejoHttp.tokenHeader (http : ForgejoHttp urls) : Header := ("authorization", "token " ++ http.token)

def ForgejoHttp.endpoint (http : ForgejoHttp urls) (segments : List String) :
    Except PhasegentError urls.Url :=
  match urls.extendPath http.base segments with
  | some url => .ok url
  | none => .error (.config "invalid Forgejo API base")

def ForgejoHttp.request (http : ForgejoHttp urls) (call : ForgejoRequest) (url : urls.Url) :
    Request urls.Url where
  method := call.method
  url := urls.appendQuery url call.query
  headers := http.tokenHeader ::
    contentHeaders (if call.method = "GET" then none else some "application/json")
  policy := .none

def ForgejoHttp.perform (http : ForgejoHttp urls) (call : ForgejoRequest) : WireM urls Reply := do
  let url ← fromExcept (http.endpoint call.segments)
  if call.method = "GET" then
    fetchWithRetry (http.request call url) call.operation fun _ => "Forgejo request failed"
  else sendOnce (http.request call url) call.operation fun _ => "Forgejo request failed"

end Forgejo

end Phasegent
