import Phasegent.Provider.Http

namespace Phasegent
open Fallible Http Interleaving

structure RoleSetup where
  redmineBase : String
  apiKey : String
  bearerKey : String
  forgejo : ForgejoSelection
  token : String

/-- One call of a provider; the mirror plugin is reached at the API base or at the site's root. -/
inductive ApiCall where
  | redmine (call : RedmineRequest)
  | mirror (atRoot : Bool) (call : MirrorRequest)
  | forgejo (call : ForgejoRequest)
  deriving DecidableEq

abbrev ApiCall.Ret (_ : ApiCall) : Type := Except PhasegentError Reply

namespace RoleSetup
variable (urls : RequestUrls) (setup : RoleSetup)

def redmine (call : RedmineRequest) : WireM urls Reply := do
  let http ← fromExcept (RedmineHttp.resolve urls setup.redmineBase setup.apiKey)
  http.perform call

def mirror (atRoot : Bool) (call : MirrorRequest) : WireM urls Reply := do
  let apiBase ← fromExcept ((normalizeRedmineApiBase urls.toUrlLibrary setup.redmineBase).mapError .config)
  let http ← fromExcept (RedmineGitMirrorHttp.new urls
    (if atRoot then mirrorBaseUrl apiBase else apiBase) setup.bearerKey)
  http.perform call

def forgejoCall (call : ForgejoRequest) : WireM urls Reply := do
  let config ← fromExcept (ForgejoConfig.select urls setup.forgejo)
  let http ← fromExcept (ForgejoHttp.new urls config setup.token)
  http.perform call

def perform : ApiCall → Wire urls.Url (Except PhasegentError Reply)
  | .redmine call => (setup.redmine urls call).run
  | .mirror atRoot call => (setup.mirror urls atRoot call).run
  | .forgejo call => (setup.forgejoCall urls call).run

/-- A run of any command: calls that may depend on every earlier answer. -/
def run {α : Type} (plan : Prog ApiCall ApiCall.Ret α) : Wire urls.Url α :=
  plan.handle (setup.perform urls)

def redmineInstance : Option Origin := (urls.parse setup.redmineBase).toOption.map urls.origin

def forgejoInstance : Option Origin :=
  setup.forgejo.stored.bind fun stored => (urls.parse (trimText stored.1)).toOption.map urls.origin

def keyHeader : Header := ("x-redmine-api-key", trimText setup.apiKey)

def bearerHeader : Header := ("authorization", "Bearer " ++ trimText setup.bearerKey)

def tokenHeader : Header := ("authorization", "token " ++ setup.token)

variable {urls}

/-- Every credential in the request goes to the instance it was resolved for. -/
structure Addressed (request : Request urls.Url) : Prop where
  key : setup.keyHeader ∈ request.headers → some (urls.origin request.url) = setup.redmineInstance urls
  bearer : setup.bearerHeader ∈ request.headers →
    some (urls.origin request.url) = setup.redmineInstance urls
  token : setup.tokenHeader ∈ request.headers →
    some (urls.origin request.url) = setup.forgejoInstance urls

/-- The answer does not send a request with the Redmine key to another scheme, host or port, nor one
with the plugin's bearer to another scheme or port of its host. -/
structure Kept (act : Act (Request urls.Url) fun _ => Answer urls.Url) : Prop where
  key : ∀ response target, act.answer = .ok response → response.target = some target →
    0 < act.effect.policy.left → setup.keyHeader ∈ act.effect.headers →
    some (urls.origin target) = setup.redmineInstance urls
  bearer : ∀ response target, act.answer = .ok response → response.target = some target →
    0 < act.effect.policy.left → setup.bearerHeader ∈ act.effect.headers →
    urls.sameHost act.effect.url target → some (urls.origin target) = setup.redmineInstance urls

end RoleSetup

/-- What the URL library documents about the parts that address a request: setters of other parts
leave them, and reading an address that was written, or its root, gives them back. -/
structure RequestUrls.Addresses (urls : RequestUrls) : Prop where
  setPath : ∀ url path, urls.origin (urls.setPath url path) = urls.origin url
  setQuery : ∀ url query, urls.origin (urls.setQuery url query) = urls.origin url
  setFragment : ∀ url fragment, urls.origin (urls.setFragment url fragment) = urls.origin url
  appendQuery : ∀ url query, urls.origin (urls.appendQuery url query) = urls.origin url
  extendPath : ∀ url segments extended, urls.extendPath url segments = some extended →
    urls.origin extended = urls.origin url
  cleared : ∀ url, urls.HttpBase url → urls.HttpBase (urls.setFragment (urls.setQuery url none) none)
  reparse : ∀ url again, urls.HttpBase url → urls.parse (trimSlashes (urls.toString url)) = .ok again →
    urls.origin again = urls.origin url ∧ urls.HttpBase again
  reparse_root : ∀ url root text, urls.HttpBase url →
    trimSlashes (urls.toString url) = text ++ "/api/v1" → urls.parse text = .ok root →
    urls.origin root = urls.origin url ∧ urls.HttpBase root

section Origins
variable {urls : RequestUrls} {setup : RoleSetup} {value base path : String}

theorem origin_endpointAt (addresses : urls.Addresses) {invalid : String} {url : urls.Url}
    (endpoint : endpointAt urls invalid base path = .ok url) :
    ∃ parsed, urls.parse base = .ok parsed ∧ urls.origin url = urls.origin parsed := by
  obtain ⟨parsed, found, rfl⟩ := by
    simpa only [endpointAt, bind_eq_ok, mapError_eq_ok, Fallible.pure_eq, Except.ok.injEq] using endpoint
  exact ⟨parsed, found, by rw [addresses.setFragment, addresses.setQuery, addresses.setPath]⟩

theorem origin_of_normalized (laws : urls.Documented) (addresses : urls.Addresses)
    (normal : normalizeRedmineApiBase urls.toUrlLibrary setup.redmineBase = .ok base) :
    ∃ url, urls.HttpBase url ∧ trimSlashes (urls.toString url) = base ∧
      some (urls.origin url) = setup.redmineInstance urls := by
  obtain ⟨url, parsed, http, rfl⟩ := normalizeRedmineApiBase_ok.mp normal
  refine ⟨urls.dropTrailingSlash url, laws.setPath_base _ _ http, rfl, ?_⟩
  simp [RoleSetup.redmineInstance, parsed, Except.toOption, UrlLibrary.dropTrailingSlash, addresses.setPath]

theorem origin_of_base (laws : urls.Documented) (addresses : urls.Addresses)
    (normal : normalizeRedmineApiBase urls.toUrlLibrary setup.redmineBase = .ok base) {again : urls.Url}
    (parsed : urls.parse base = .ok again) :
    some (urls.origin again) = setup.redmineInstance urls ∧ urls.HttpBase again := by
  obtain ⟨url, http, rfl, own⟩ := origin_of_normalized laws addresses normal
  obtain ⟨same, http'⟩ := addresses.reparse url again http parsed
  exact ⟨by rw [same, own], http'⟩

theorem mirrorBaseUrl_cases (whole : trimSlashes base = base) :
    mirrorBaseUrl base = base ∨ ∃ text, base = text ++ "/api/v1" ∧ mirrorBaseUrl base = text := by
  unfold mirrorBaseUrl
  rw [whole]
  dsimp only
  split
  · next suffixed =>
      right
      obtain ⟨front, split⟩ := List.isSuffixOf_iff_suffix.mp suffixed
      refine ⟨String.ofList front, ?_, ?_⟩
      · rw [← String.ofList_toList (s := base), ← split, String.ofList_append, String.ofList_toList]
      · have long : base.toList.length - "/api/v1".length = front.length := by
          rw [← split, List.length_append, String.length_toList, Nat.add_sub_cancel]
        rw [long, ← split, List.take_left]
  · exact .inl (String.ofList_toList)

theorem origin_of_root (laws : urls.Documented) (addresses : urls.Addresses)
    (normal : normalizeRedmineApiBase urls.toUrlLibrary setup.redmineBase = .ok base) {again : urls.Url}
    (parsed : urls.parse (mirrorBaseUrl base) = .ok again) :
    some (urls.origin again) = setup.redmineInstance urls ∧ urls.HttpBase again := by
  obtain ⟨url, http, rfl, own⟩ := origin_of_normalized laws addresses normal
  obtain same | ⟨text, split, same⟩ := mirrorBaseUrl_cases (trimSlashes_trimSlashes (urls.toString url))
  · rw [same] at parsed
    exact origin_of_base laws addresses normal parsed
  · rw [same] at parsed
    obtain ⟨same', http'⟩ := addresses.reparse_root url again text http split parsed
    exact ⟨by rw [same', own], http'⟩

theorem mirror_new_ok {bearer : String} {http : RedmineGitMirrorHttp}
    (made : RedmineGitMirrorHttp.new urls base bearer = .ok http) :
    ∃ parsed, urls.parse base = .ok parsed ∧ http.bearerKey = trimText bearer ∧
      ∃ path, http.baseUrl = trimSlashes (urls.toString
        (urls.setFragment (urls.setQuery (urls.setPath parsed path) none) none)) := by
  simp only [RedmineGitMirrorHttp.new, bind_eq_ok, refuse_eq_ok, mapError_eq_ok,
    Fallible.pure_eq, Except.ok.injEq] at made
  obtain ⟨-, -, parsed, found, -, -, rfl⟩ := made
  exact ⟨parsed, found, rfl, _, rfl⟩

theorem origin_of_mirror (laws : urls.Documented) (addresses : urls.Addresses) {bearer : String}
    {http : RedmineGitMirrorHttp} (made : RedmineGitMirrorHttp.new urls base bearer = .ok http)
    (known : ∀ again, urls.parse base = .ok again →
      some (urls.origin again) = setup.redmineInstance urls ∧ urls.HttpBase again)
    {again : urls.Url} (parsed : urls.parse http.baseUrl = .ok again) :
    some (urls.origin again) = setup.redmineInstance urls := by
  obtain ⟨first, found, -, path, written⟩ := mirror_new_ok made
  obtain ⟨own, http'⟩ := known first found
  rw [written] at parsed
  have whole := addresses.cleared _ (laws.setPath_base first path http')
  obtain ⟨same, -⟩ := addresses.reparse _ again whole parsed
  rw [same, addresses.setFragment, addresses.setQuery, addresses.setPath, own]

theorem trusted_of_select (laws : urls.Documented) {selection : ForgejoSelection} {config : ForgejoConfig}
    (selected : ForgejoConfig.select urls selection = .ok config) :
    ∃ stored ∈ selection.stored, validateApiBase urls.toUrlLibrary stored.1 = .ok config.apiBase := by
  unfold ForgejoConfig.select at selected
  cases stored : selection.stored with
  | none => simp [stored] at selected
  | some pair =>
      simp only [stored, bind_eq_ok] at selected
      obtain ⟨trusted, valid, -, -, chosen⟩ := selected
      have made : ∃ repository, ForgejoConfig.new urls.toUrlLibrary trusted repository = .ok config := by
        split at chosen
        all_goals
          obtain ⟨repository, -, made⟩ := bind_eq_ok.mp chosen
          exact ⟨repository, made⟩
      obtain ⟨repository, made⟩ := made
      have again := validateApiBase_idem laws valid
      simp only [ForgejoConfig.new, again, ok_bind, bind_eq_ok, Fallible.pure_eq, Except.ok.injEq] at made
      obtain ⟨named, -, rfl⟩ := made
      exact ⟨pair, rfl, valid⟩

theorem origin_of_forgejo (laws : urls.Documented) (addresses : urls.Addresses) {config : ForgejoConfig}
    (selected : ForgejoConfig.select urls setup.forgejo = .ok config) {http : ForgejoHttp urls}
    (made : ForgejoHttp.new urls config setup.token = .ok http) :
    some (urls.origin http.base) = setup.forgejoInstance urls ∧ http.token = setup.token := by
  obtain ⟨stored, own, valid⟩ := trusted_of_select laws selected
  obtain ⟨url, -, parsed, httpBase, -, -, written⟩ := validateApiBase_ok.mp valid
  simp only [ForgejoHttp.new, bind_eq_ok, refuse_eq_ok, mapError_eq_ok] at made
  obtain ⟨-, -, -, -, base, found, made⟩ := made
  split at made
  · next extended split =>
      cases made
      refine ⟨?_, rfl⟩
      rw [← written] at found
      obtain ⟨same, -⟩ := addresses.reparse _ base (laws.setPath_base _ _ httpBase) found
      rw [addresses.extendPath _ _ _ split, same, addresses.setPath]
      simp [RoleSetup.forgejoInstance, Option.mem_def.mp own, parsed, Except.toOption]
  · cases made

end Origins

namespace RoleSetup

/-- What a client sends on its own: to its instance, and with the token only where no answer is
followed. -/
structure Own {urls : RequestUrls} (setup : RoleSetup) (request : Request urls.Url) : Prop where
  addressed : setup.Addressed request
  pinned : setup.tokenHeader ∈ request.headers → request.policy = .none

section Requests
variable {urls : RequestUrls} {setup : RoleSetup} {url : urls.Url}

theorem bearer_ne_token (bearer token : String) : "Bearer " ++ bearer ≠ "token " ++ token := by
  intro same
  have chars := congrArg (fun text => text.toList.head?) same
  simp at chars

theorem own_redmine (addresses : urls.Addresses) {http : RedmineHttp} {call : RedmineRequest}
    (own : some (urls.origin url) = setup.redmineInstance urls) : setup.Own (http.request call url) := by
  have plain : ∀ text, ("authorization", text) ∉ (http.request call url).headers := by
    intro text among
    simp [RedmineHttp.request, RedmineHttp.keyHeader, contentHeaders] at among
  refine ⟨⟨fun _ => ?_, fun among => absurd among (plain _), fun among => absurd among (plain _)⟩,
    fun among => absurd among (plain _)⟩
  rw [← own, RedmineHttp.request, addresses.appendQuery]

theorem own_mirror {http : RedmineGitMirrorHttp} {call : MirrorRequest}
    (own : some (urls.origin url) = setup.redmineInstance urls) : setup.Own (http.request call url) := by
  have tokenless : setup.tokenHeader ∉ (http.request call url).headers := by
    intro among
    have other := bearer_ne_token http.bearerKey setup.token
    simp [RedmineGitMirrorHttp.request, RedmineGitMirrorHttp.bearerHeader, tokenHeader,
      contentHeaders, Ne.symm other] at among
  exact ⟨⟨fun _ => own, fun _ => own, fun among => absurd among tokenless⟩,
    fun among => absurd among tokenless⟩

theorem own_forgejo (addresses : urls.Addresses) {http : ForgejoHttp urls} {call : ForgejoRequest}
    (own : some (urls.origin url) = setup.forgejoInstance urls) : setup.Own (http.request call url) := by
  have keyless : setup.keyHeader ∉ (http.request call url).headers := by
    intro among
    simp [ForgejoHttp.request, ForgejoHttp.tokenHeader, keyHeader, contentHeaders] at among
  have bearerless : setup.bearerHeader ∉ (http.request call url).headers := by
    intro among
    have other := bearer_ne_token (trimText setup.bearerKey) http.token
    simp [ForgejoHttp.request, ForgejoHttp.tokenHeader, bearerHeader, contentHeaders, other] at among
  refine ⟨⟨fun among => absurd among keyless, fun among => absurd among bearerless, fun _ => ?_⟩,
    fun _ => rfl⟩
  rw [← own, ForgejoHttp.request, addresses.appendQuery]

end Requests

section Wire
variable {urls : RequestUrls} {setup : RoleSetup} {request : Request urls.Url}
  {h : WireHistory urls.Url} {redact : String → String} {operation : String}

def Sends {α : Type} (setup : RoleSetup) (p : WireM urls α) : Prop :=
  ∀ h, Settled urls.sameHost h →
    p.run.Along (Continues urls.sameHost setup.Own) (fun _ => Settled urls.sameHost) h

theorem fetchAttempts_along (own : setup.Own request) (left : Nat) (settled : Settled urls.sameHost h) :
    (fetchAttempts request left).Along (Continues urls.sameHost setup.Own)
      (fun _ => Settled urls.sameHost) h := by
  induction left generalizing h with
  | zero => exact settled
  | succ left ih =>
      apply Prog.Along.bind
      apply (send_along own settled).weaken
      intro answer h' settled'
      split
      · exact settled'
      · exact ih settled'

theorem sends_fetchWithRetry (own : setup.Own request) :
    setup.Sends (fetchWithRetry request operation redact) := by
  intro h settled
  apply Prog.Along.bind
  exact (fetchAttempts_along own maxAttempts settled).weaken fun _ _ settled' => settled'

theorem sends_sendOnce (own : setup.Own request) : setup.Sends (sendOnce request operation redact) := by
  intro h settled
  apply Prog.Along.bind
  exact (send_along own settled).weaken fun _ _ settled' => settled'

theorem sends_bind {α β : Type} {x : Except PhasegentError α} {f : α → WireM urls β}
    (rest : ∀ a, x = .ok a → setup.Sends (f a)) : setup.Sends (fromExcept x >>= f) := by
  intro h settled
  rw [run_bind]
  cases x with
  | ok a => exact rest a rfl h settled
  | error e => exact settled

theorem sends_method {p q : WireM urls Reply} {method : String} (first : setup.Sends p)
    (second : setup.Sends q) : setup.Sends (if method = "GET" then p else q) := by
  split
  · exact first
  · exact second

end Wire

section Calls
variable {urls : RequestUrls} {setup : RoleSetup}

theorem sends_redmine (laws : urls.Documented) (addresses : urls.Addresses) (call : RedmineRequest) :
    setup.Sends (setup.redmine urls call) := by
  apply sends_bind
  intro http resolved
  simp only [RedmineHttp.resolve, bind_eq_ok, mapError_eq_ok, refuse_eq_ok, Fallible.pure_eq,
    Except.ok.injEq] at resolved
  obtain ⟨base, normal, -, -, -, -, rfl⟩ := resolved
  apply sends_bind
  intro url endpoint
  obtain ⟨parsed, found, same⟩ := origin_endpointAt addresses endpoint
  have own : some (urls.origin url) = setup.redmineInstance urls := by
    rw [same]
    exact (origin_of_base laws addresses normal found).1
  exact sends_method (sends_fetchWithRetry (own_redmine addresses own))
    (sends_sendOnce (own_redmine addresses own))

theorem sends_mirror (laws : urls.Documented) (addresses : urls.Addresses) (atRoot : Bool)
    (call : MirrorRequest) : setup.Sends (setup.mirror urls atRoot call) := by
  apply sends_bind
  intro base normal
  rw [mapError_eq_ok] at normal
  apply sends_bind
  intro http made
  apply sends_bind
  intro url endpoint
  obtain ⟨parsed, found, same⟩ := origin_endpointAt addresses endpoint
  have known : ∀ again, urls.parse (if atRoot then mirrorBaseUrl base else base) = .ok again →
      some (urls.origin again) = setup.redmineInstance urls ∧ urls.HttpBase again := by
    intro again read
    split at read
    · exact origin_of_root laws addresses normal read
    · exact origin_of_base laws addresses normal read
  have own : some (urls.origin url) = setup.redmineInstance urls := by
    rw [same]
    exact origin_of_mirror laws addresses made known found
  exact sends_method (sends_fetchWithRetry (own_mirror own)) (sends_sendOnce (own_mirror own))

theorem sends_forgejo (laws : urls.Documented) (addresses : urls.Addresses) (call : ForgejoRequest) :
    setup.Sends (setup.forgejoCall urls call) := by
  apply sends_bind
  intro config selected
  apply sends_bind
  intro http made
  apply sends_bind
  intro url endpoint
  obtain ⟨base, -⟩ := origin_of_forgejo laws addresses selected made
  have own : some (urls.origin url) = setup.forgejoInstance urls := by
    unfold ForgejoHttp.endpoint at endpoint
    split at endpoint
    · next extended split =>
        cases endpoint
        rw [addresses.extendPath _ _ _ split, base]
    · cases endpoint
  exact sends_method (sends_fetchWithRetry (own_forgejo addresses own))
    (sends_sendOnce (own_forgejo addresses own))

theorem run_along {α : Type} (laws : urls.Documented) (addresses : urls.Addresses)
    (plan : Prog ApiCall ApiCall.Ret α) :
    (setup.run urls plan).Along (Continues urls.sameHost setup.Own)
      (fun _ => Settled urls.sameHost) [] := by
  apply Prog.Along.handle
  · intro call h settled
    cases call with
    | redmine call => exact sends_redmine laws addresses call h settled
    | mirror atRoot call => exact sends_mirror laws addresses atRoot call h settled
    | forgejo call => exact sends_forgejo laws addresses call h settled
  · rintro act ⟨⟩

end Calls

section Histories
variable {urls : RequestUrls} {setup : RoleSetup} {h : WireHistory urls.Url}
  {act : Act (Request urls.Url) fun _ => Answer urls.Url} {next : Request urls.Url}

theorem Own.continued (own : setup.Own act.effect) (kept : setup.Kept act)
    (goes : continuation urls.sameHost act.effect act.answer = some next) : setup.Own next := by
  obtain ⟨left, response, target, limited, answered, asked, rfl⟩ := continuation_some goes
  have may : 0 < act.effect.policy.left := by simp [limited, Policy.left]
  have tokenless : setup.tokenHeader ∉ keptHeaders urls.sameHost act.effect target := by
    intro among
    have stopped := own.pinned (mem_keptHeaders.mp among).1
    rw [stopped] at limited
    cases limited
  refine ⟨⟨?_, ?_, fun among => absurd among tokenless⟩, fun among => absurd among tokenless⟩
  · intro among
    exact kept.key response target answered asked may (mem_keptHeaders.mp among).1
  · intro among
    obtain ⟨carried, same | other⟩ := mem_keptHeaders.mp among
    · exact kept.bearer response target answered asked may carried same
    · exact absurd (by simp [bearerHeader, standardCredentials]) other

theorem addressed_of_kept (guarded : Guarded (Continues urls.sameHost setup.Own) h)
    (kept : ∀ act ∈ h, setup.Kept act) : ∀ act ∈ h, setup.Addressed act.effect := by
  have own := safe_of_answers (fun _ own => own) guarded fun act among own next goes =>
    own.continued (kept act among) goes
  exact fun act among => (own act among).addressed

theorem kept_of_addressed (guarded : Guarded (Continues urls.sameHost setup.Own) h)
    (settled : Settled urls.sameHost h) (addressed : ∀ act ∈ h, setup.Addressed act.effect) :
    ∀ act ∈ h, setup.Kept act := by
  -- What an answer asks for was sent, and so it was addressed.
  have sent : ∀ act ∈ h, ∀ response target, act.answer = .ok response →
      response.target = some target → 0 < act.effect.policy.left →
      ∃ left, setup.Addressed (redirected urls.sameHost act.effect response.status left target) := by
    intro act among response target answered asked may
    obtain ⟨left, goes⟩ := continuation_of answered asked may
    obtain last | ⟨later, among', same⟩ := Http.continued guarded among goes
    · rw [settled act last] at goes
      cases goes
    · exact ⟨left, same ▸ addressed later among'⟩
  intro act among
  constructor
  · intro response target answered asked may carried
    obtain ⟨left, next⟩ := sent act among response target answered asked may
    exact next.key (mem_keptHeaders.mpr ⟨carried, .inr (by simp [keyHeader, standardCredentials])⟩)
  · intro response target answered asked may carried same
    obtain ⟨left, next⟩ := sent act among response target answered asked may
    exact next.bearer (mem_keptHeaders.mpr ⟨carried, .inl same⟩)

end Histories

/-- The Forgejo endpoint is the stored instance, and a role's credentials stay with its instances in
every run whose answers keep the redirects of the Redmine clients there, and in no other that ends. -/
theorem credentials_stay_iff {urls : RequestUrls} (laws : urls.Documented) (addresses : urls.Addresses)
    (setup : RoleSetup) :
    (∀ config, ForgejoConfig.select urls setup.forgejo = .ok config → ∃ stored ∈ setup.forgejo.stored,
        validateApiBase urls.toUrlLibrary stored.1 = .ok config.apiBase) ∧
      ∀ (α : Type) (plan : Prog ApiCall ApiCall.Ret α) (h : WireHistory urls.Url) (q : Wire urls.Url α),
        Reaches (setup.run urls plan) h q →
          ((∀ act ∈ h, setup.Kept act) → ∀ act ∈ h, setup.Addressed act.effect) ∧
          (∀ a, q = .done a → (∀ act ∈ h, setup.Addressed act.effect) → ∀ act ∈ h, setup.Kept act) := by
  refine ⟨fun config => trusted_of_select laws, ?_⟩
  intro α plan h q reached
  obtain ⟨guarded, along⟩ := (run_along laws addresses plan).reaches reached
  refine ⟨addressed_of_kept guarded, ?_⟩
  rintro a rfl
  exact kept_of_addressed guarded along

end RoleSetup

section Samples

/-- What an address holds as it is, outside of its query and fragment. -/
def isUrlChar (c : Char) : Bool := !Text.isWhitespace c && c != '?' && c != '#'

-- An https address without a port; `rest` is its path after the first slash.
structure TestUrl where
  host : List Char
  rest : List Char
  query : Option String
  fragment : Option String
  named : host ≠ []
  slashless : '/' ∉ host
  hostChars : host.all isUrlChar
  restChars : rest.all isUrlChar
  deriving DecidableEq

namespace TestUrl
variable {text : List Char} {url again : TestUrl}

theorem slashless_takeWhile (text : List Char) : '/' ∉ text.takeWhile (· != '/') := by
  intro slash
  simpa using List.mem_takeWhile_imp slash

theorem takeWhile_chars (chars : text.all isUrlChar) : (text.takeWhile (· != '/')).all isUrlChar :=
  List.all_eq_true.mpr fun c among => List.all_eq_true.mp chars c ((List.takeWhile_prefix _).subset among)

theorem rest_chars (chars : text.all isUrlChar) : ((text.dropWhile (· != '/')).drop 1).all isUrlChar :=
  List.all_eq_true.mpr fun c among =>
    List.all_eq_true.mp chars c ((List.dropWhile_suffix _).subset (List.mem_of_mem_drop among))

theorem filter_chars (text : List Char) : (text.filter isUrlChar).all isUrlChar := by simp

def secure : List Char := ['h', 't', 't', 'p', 's', ':', '/', '/']

def parse (text : String) : Except String TestUrl :=
  match Text.stripPrefix secure text.toList with
  | none => .error "relative URL without a base"
  | some text =>
      if own : text.takeWhile (· != '/') ≠ [] ∧ text.all isUrlChar then
        .ok ⟨text.takeWhile (· != '/'), (text.dropWhile (· != '/')).drop 1, none, none, own.1,
          slashless_takeWhile text, takeWhile_chars own.2, rest_chars own.2⟩
      else .error "empty host"

def written (url : TestUrl) : List Char := secure ++ (url.host ++ '/' :: url.rest)

def marked (mark : String) (part : Option String) : String := (part.map (mark ++ ·)).getD ""

def toString (url : TestUrl) : String :=
  String.ofList url.written ++ marked "?" url.query ++ marked "#" url.fragment

def path (url : TestUrl) : String := String.ofList ('/' :: url.rest)

-- What the library would encode is left out.
def setRest (url : TestUrl) (text : List Char) : TestUrl where
  host := url.host
  rest := text.filter isUrlChar
  query := url.query
  fragment := url.fragment
  named := url.named
  slashless := url.slashless
  hostChars := url.hostChars
  restChars := filter_chars text

def afterSlash : List Char → List Char
  | '/' :: rest => rest
  | text => text

def setPath (url : TestUrl) (path : String) : TestUrl := url.setRest (afterSlash path.toList)

def appendQuery (url : TestUrl) (pairs : List (String × String)) : TestUrl :=
  if pairs = [] then url
  else { url with
    query := some (String.intercalate "&" (url.query.toList ++ pairs.map fun pair => pair.1 ++ "=" ++ pair.2)) }

def push (rest : List Char) (segment : String) : List Char :=
  if rest = [] then segment.toList else rest ++ '/' :: segment.toList

def extendPath (url : TestUrl) (segments : List String) : Option TestUrl :=
  some (url.setRest (segments.foldl push url.rest))

theorem host_chars (url : TestUrl) : ∀ c ∈ url.host, (c != '/') = true := by
  intro c among
  have other : c ≠ '/' := by
    rintro rfl
    exact url.slashless among
  simpa using other

theorem takeWhile_host (rest : List Char) : (url.host ++ '/' :: rest).takeWhile (· != '/') = url.host := by
  rw [List.takeWhile_append_of_pos url.host_chars]
  simp

theorem dropWhile_host (rest : List Char) :
    (url.host ++ '/' :: rest).dropWhile (· != '/') = '/' :: rest := by
  rw [List.dropWhile_append_of_pos url.host_chars]
  simp

theorem parse_secure (host : text.takeWhile (· != '/') = url.host) (chars : text.all isUrlChar)
    (rest : (text.dropWhile (· != '/')).drop 1 = url.rest) (query : url.query = none)
    (fragment : url.fragment = none) : parse (String.ofList (secure ++ text)) = .ok url := by
  have named := url.named
  obtain ⟨own, path, _, _⟩ := url
  subst host rest query fragment
  simp only [parse, String.toList_ofList, Text.stripPrefix_append]
  rw [dif_pos ⟨named, chars⟩]

theorem of_parse {text : String} (parsed : parse text = .ok url) :
    ∃ rest, text.toList = secure ++ rest ∧ url.host = rest.takeWhile (· != '/') ∧ url.query = none ∧
      url.fragment = none := by
  rw [parse] at parsed
  split at parsed
  · cases parsed
  · next rest found =>
    rw [Text.stripPrefix, Option.ite_none_right_eq_some, Option.some_inj] at found
    obtain ⟨front, dropped⟩ := found
    split at parsed
    · cases parsed
      refine ⟨rest, ?_, rfl, rfl, rfl⟩
      rw [← dropped]
      exact (List.prefix_iff_eq_append.mp (List.isPrefixOf_iff_prefix.mp front)).symm
    · cases parsed

theorem setRest_rest (url : TestUrl) : url.setRest url.rest = url := by
  have kept : url.rest.filter isUrlChar = url.rest := List.filter_eq_self.mpr (List.all_eq_true.mp url.restChars)
  simp [setRest, kept]

theorem toString_base (query : url.query = none) (fragment : url.fragment = none) :
    url.toString = String.ofList url.written := by
  simp [toString, query, fragment, marked]

theorem parse_written (query : url.query = none) (fragment : url.fragment = none) :
    parse (String.ofList url.written) = .ok url := by
  apply parse_secure (takeWhile_host _) ?_ ?_ query fragment
  · simp only [List.all_append, List.all_cons, url.hostChars, url.restChars, Bool.and_true, Bool.true_and]
    decide
  · rw [dropWhile_host]
    rfl

theorem trimSlashes_ofList (text : List Char) :
    trimSlashes (String.ofList text) = String.ofList (text.rdropWhile (· == '/')) := by
  simp [trimSlashes, Text.trimEndMatches]

theorem parse_root (query : url.query = none) (fragment : url.fragment = none) (root : url.rest = []) :
    parse (trimSlashes (String.ofList url.written)) = .ok url := by
  have trimmed : url.written.rdropWhile (· == '/') = secure ++ url.host := by
    rw [written, root, ← List.append_assoc, List.rdropWhile_concat_pos _ _ _ rfl, List.rdropWhile_eq_self_iff]
    intro some
    rw [List.getLast_append_of_ne_nil some url.named]
    simpa using url.host_chars _ (List.getLast_mem url.named)
  rw [trimSlashes_ofList, trimmed]
  have whole : url.host.takeWhile (· != '/') = url.host := List.takeWhile_eq_self_iff.mpr url.host_chars
  have rest : (url.host.dropWhile (· != '/')).drop 1 = url.rest := by
    rw [List.dropWhile_eq_nil_iff.mpr url.host_chars, root]
    rfl
  exact parse_secure whole url.hostChars rest query fragment

theorem trimSlashes_path (url : TestUrl) : ∃ rest, trimSlashes url.path =
    (if rest = [] then "" else String.ofList ('/' :: rest)) ∧ rest.all isUrlChar := by
  refine ⟨url.rest.rdropWhile (· == '/'), ?_, ?_⟩
  · rw [path, trimSlashes_ofList, List.rdropWhile, List.reverse_cons, List.dropWhile_append]
    split
    · next none =>
      have nothing : url.rest.rdropWhile (· == '/') = [] := by
        simpa [List.rdropWhile] using none
      rw [if_pos nothing]
      rfl
    · next some =>
      have something : url.rest.rdropWhile (· == '/') ≠ [] := by
        simpa [List.rdropWhile] using some
      rw [if_neg something]
      simp [List.rdropWhile]
  · exact List.all_eq_true.mpr fun c among =>
      List.all_eq_true.mp url.restChars c ((List.rdropWhile_prefix _ _).subset among)

theorem rest_of_path (root : url.path = "/") : url.rest = [] := by
  have rest : '/' :: url.rest = ['/'] := String.ofList_injective root
  exact (List.cons.inj rest).2

theorem path_setPath (url : TestUrl) : (url.setPath (trimSlashes url.path)).path =
    if trimSlashes url.path = "" then "/" else trimSlashes url.path := by
  obtain ⟨rest, trimmed, chars⟩ := url.trimSlashes_path
  rw [trimmed]
  by_cases none : rest = []
  · rw [if_pos none]
    rfl
  · have some : String.ofList ('/' :: rest) ≠ "" := by simp [← String.toList_inj]
    have kept : rest.filter isUrlChar = rest := List.filter_eq_self.mpr (List.all_eq_true.mp chars)
    rw [if_neg none, if_neg some, setPath, String.toList_ofList]
    change String.ofList ('/' :: rest.filter isUrlChar) = _
    rw [kept]

theorem setPath_path (url : TestUrl) : url.setPath url.path = url := by
  rw [setPath, path, String.toList_ofList]
  exact url.setRest_rest

theorem setPath_root (root : url.rest = []) : url.setPath "" = url := by
  have same := url.setRest_rest
  rwa [root] at same

theorem appendQuery_host (url : TestUrl) (pairs : List (String × String)) :
    (url.appendQuery pairs).host = url.host := by
  rw [appendQuery]
  split <;> rfl

theorem trimSlashes_written (kept : trimSlashes url.path = url.path) :
    trimSlashes (String.ofList url.written) = String.ofList url.written := by
  rw [path, trimSlashes_ofList, String.ofList_inj, List.rdropWhile_eq_self_iff] at kept
  rw [trimSlashes_ofList, String.ofList_inj, List.rdropWhile_eq_self_iff]
  intro some
  have last : url.written.getLast some = ('/' :: url.rest).getLast (by simp) := by
    simp [written]
  rw [last]
  exact kept (by simp)

theorem written_spaceless : ∀ c ∈ url.written, Text.isWhitespace c = false := by
  have chars : url.written.all isUrlChar := by
    simp only [written, List.all_append, List.all_cons, url.hostChars, url.restChars, Bool.and_true, Bool.true_and]
    decide
  intro c among
  have char := List.all_eq_true.mp chars c among
  simp only [isUrlChar, Bool.and_eq_true] at char
  simpa using char.1.1

theorem trimSlashes_split (text : List Char) : ∃ tail, text = (trimSlashes (String.ofList text)).toList ++ tail ∧
    (tail = [] ∨ ∃ rest, tail = '/' :: rest) := by
  refine ⟨text.rtakeWhile (· == '/'), ?_, ?_⟩
  · rw [trimSlashes_ofList, String.toList_ofList, List.rdropWhile_append_rtakeWhile]
  · cases slashes : text.rtakeWhile (· == '/') with
    | nil => exact Or.inl rfl
    | cons c rest =>
        have slash : c = '/' := by
          have among : c ∈ text.rtakeWhile (· == '/') := by simp [slashes]
          simpa using List.mem_rtakeWhile_imp among
        exact Or.inr ⟨rest, by rw [slash]⟩

theorem host_of_front {front : String} {back : List Char} (split : url.written = front.toList ++ back)
    (edge : back = [] ∨ ∃ rest, back = '/' :: rest) (parsed : parse front = .ok again) :
    again.host = url.host ∧ again.query = none ∧ again.fragment = none := by
  obtain ⟨rest, text, own, query, fragment⟩ := of_parse parsed
  refine ⟨?_, query, fragment⟩
  rw [text, written, List.append_assoc, List.append_cancel_left_eq] at split
  have same := congrArg (List.takeWhile (· != '/')) split
  rw [takeWhile_host] at same
  rw [own, same]
  obtain rfl | ⟨after, rfl⟩ := edge
  · rw [List.append_nil]
  · rw [List.takeWhile_append]
    split
    · next whole =>
      simpa using List.takeWhile_eq_self_iff.mp ((List.takeWhile_prefix _).eq_of_length whole)
    · rfl

end TestUrl

def testUrls : RequestUrls where
  Url := TestUrl
  parse := TestUrl.parse
  toString := TestUrl.toString
  scheme _ := "https"
  username _ := ""
  password _ := none
  hostStr url := some (String.ofList url.host)
  path := TestUrl.path
  query := TestUrl.query
  fragment := TestUrl.fragment
  setPath := TestUrl.setPath
  port _ := some 443
  setQuery url query := { url with query }
  setFragment url fragment := { url with fragment }
  appendQuery := TestUrl.appendQuery
  extendPath := TestUrl.extendPath

instance : DecidableEq testUrls.Url := inferInstanceAs (DecidableEq TestUrl)

theorem testUrls_parse (text : String) : testUrls.parse text = TestUrl.parse text := rfl

theorem testUrls_path (url : testUrls.Url) : testUrls.path url = TestUrl.path url := rfl

theorem testUrls_toString {url : testUrls.Url} (http : testUrls.HttpBase url) :
    testUrls.toString url = String.ofList (TestUrl.written url) :=
  TestUrl.toString_base http.query http.fragment

theorem testUrls_documented : testUrls.Documented where
  parse_empty url parsed := by
    rw [testUrls_parse] at parsed
    obtain ⟨rest, text, -⟩ := TestUrl.of_parse parsed
    simp [TestUrl.secure] at text
  parse_toString url http := by
    rw [testUrls_toString http, testUrls_parse]
    exact TestUrl.parse_written http.query http.fragment
  parse_root url http root := by
    rw [testUrls_path] at root
    rw [testUrls_toString http, testUrls_parse]
    exact TestUrl.parse_root http.query http.fragment (TestUrl.rest_of_path root)
  toString_path url http kept := by
    rw [testUrls_path] at kept
    rw [testUrls_toString http, TestUrl.trimSlashes_written kept]
  toString_spaces url http c among := by
    rw [testUrls_toString http, String.toList_ofList] at among
    exact TestUrl.written_spaceless c among
  setPath_base url path http := ⟨http.host, http.scheme, http.query, http.fragment⟩
  setPath_userinfo _ _ _ := ⟨rfl, rfl⟩
  path_setPath url _ := TestUrl.path_setPath url
  setPath_path url _ := TestUrl.setPath_path url
  setPath_root url _ root := TestUrl.setPath_root (TestUrl.rest_of_path root)

theorem testUrls_origin {url again : testUrls.Url} (same : TestUrl.host again = TestUrl.host url) :
    testUrls.origin again = testUrls.origin url :=
  congrArg (fun host => Origin.mk "https" (some (String.ofList host)) (some 443)) same

theorem testUrls_addresses : testUrls.Addresses where
  setPath _ _ := rfl
  setQuery _ _ := rfl
  setFragment _ _ := rfl
  appendQuery url pairs := testUrls_origin (TestUrl.appendQuery_host url pairs)
  extendPath _ _ _ same := by cases same; rfl
  cleared _ http := ⟨http.host, http.scheme, rfl, rfl⟩
  reparse url again http parsed := by
    rw [testUrls_toString http, testUrls_parse] at parsed
    obtain ⟨tail, split, edge⟩ := TestUrl.trimSlashes_split (TestUrl.written url)
    obtain ⟨host, query, fragment⟩ := TestUrl.host_of_front split edge parsed
    exact ⟨testUrls_origin host, rfl, http.scheme, query, fragment⟩
  reparse_root url again text http root parsed := by
    rw [testUrls_toString http] at root
    rw [testUrls_parse] at parsed
    obtain ⟨tail, split, -⟩ := TestUrl.trimSlashes_split (TestUrl.written url)
    have slash : "/api/v1".toList = ['/', 'a', 'p', 'i', '/', 'v', '1'] := by simp
    rw [root, String.toList_append, slash, List.append_assoc] at split
    obtain ⟨host, query, fragment⟩ := TestUrl.host_of_front split (Or.inr ⟨_, rfl⟩) parsed
    exact ⟨testUrls_origin host, rfl, http.scheme, query, fragment⟩

def testSetup : RoleSetup where
  redmineBase := "https://redmine.test/tracker/"
  apiKey := "secret"
  bearerKey := "plugin"
  forgejo := ⟨none, some "team/app", some ("https://forge.test/git", ""), .outsideGit⟩
  token := "forge"

def listUsers : Prog ApiCall ApiCall.Ret (Except PhasegentError Reply) :=
  .call (.redmine ⟨"GET", "users.json", [("limit", "100")], none, "user list"⟩) .done

def collector : TestUrl where
  host := "collector.test".toList
  rest := []
  query := none
  fragment := none
  named := by decide
  slashless := by decide
  hostChars := by decide
  restChars := by decide

-- The instance points elsewhere; whoever is asked there answers.
def redirecting (_ : WireHistory testUrls.Url) (request : Request testUrls.Url) : Answer testUrls.Url :=
  bif TestUrl.host request.url == "redmine.test".toList then .ok ⟨302, some collector, .ok ""⟩
  else .ok ⟨200, none, .ok "users"⟩

def leaked : WireHistory testUrls.Url := ((testSetup.run testUrls listUsers).against redirecting []).2

theorem test_credentials_stay :
    (∀ config, ForgejoConfig.select testUrls testSetup.forgejo = .ok config →
        ∃ stored ∈ testSetup.forgejo.stored,
          validateApiBase testUrls.toUrlLibrary stored.1 = .ok config.apiBase) ∧
      ∀ (α : Type) (plan : Prog ApiCall ApiCall.Ret α) (h : WireHistory testUrls.Url)
        (q : Wire testUrls.Url α), Reaches (testSetup.run testUrls plan) h q →
          ((∀ act ∈ h, testSetup.Kept act) → ∀ act ∈ h, testSetup.Addressed act.effect) ∧
          (∀ a, q = .done a → (∀ act ∈ h, testSetup.Addressed act.effect) →
            ∀ act ∈ h, testSetup.Kept act) :=
  RoleSetup.credentials_stay_iff testUrls_documented testUrls_addresses testSetup

theorem redirect_carries_key :
    ¬∀ (urls : RequestUrls), urls.Documented → urls.Addresses → ∀ (setup : RoleSetup) (α : Type)
      (plan : Prog ApiCall ApiCall.Ret α) (h : WireHistory urls.Url) (q : Wire urls.Url α),
      Reaches (setup.run urls plan) h q → ∀ act ∈ h, setup.Addressed act.effect := by
  intro claim
  have sent : (⟨"GET", collector, [("accept", "application/json"), ("x-redmine-api-key", "secret")],
      .limited 9⟩ : Request testUrls.Url) ∈ leaked.map (·.effect) := by decide +kernel
  obtain ⟨act, among, same⟩ := List.mem_map.mp sent
  have reached := Prog.reaches_against redirecting (testSetup.run testUrls listUsers)
  have addressed := (claim testUrls testUrls_documented testUrls_addresses testSetup _ listUsers _ _
    reached act among).key
  rw [same] at addressed
  have elsewhere := addressed (by decide +kernel)
  exact absurd elsewhere (by decide +kernel)

end Samples

end Phasegent
