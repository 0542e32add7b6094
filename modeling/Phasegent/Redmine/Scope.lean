import Phasegent.Redmine.Bootstrap
import Phasegent.Task.Key

namespace Phasegent.Redmine
open Fallible Text

structure RemoteRepository where
  repository : String
  repositoryUrl : String
  deriving DecidableEq, Repr

inductive RedmineDiscovery where
  | noMatch
  | single (project : RedmineProject)
  | multiple (projects : List RedmineProject)
  deriving DecidableEq, Repr

/-- What a scope check is told from outside: the checkout, the store's configuration and the server. -/
structure ScopeReads where
  resolveOrigin : Except String RemoteRepository
  canonicalGitUrl : String → Except String String
  provider : Except PhasegentError Unit
  listProjects : Except PhasegentError (List RedmineProject)
  mirrorClient : Except PhasegentError Unit
  getMirror : String → Except PhasegentError (Option RedmineGitMirrorResponse)
  getIssue : Nat → Except PhasegentError IssueSummary

section Discovery
variable (reads : ScopeReads)

def repositoryForm : PhasegentError := .config "repository must use OWNER/REPOSITORY form"

def ownerAndRepo (repository : String) : Except PhasegentError (List Char × List Char) :=
  match ((trim repository.toList).splitOn '/').map trim with
  | [owner, repo] => if owner = [] ∨ repo = [] then .error repositoryForm else .ok (owner, repo)
  | _ => .error repositoryForm

def servesOrigin (canonicalLocal : String) (owner repo : List Char) (project : RedmineProject) :
    Except PhasegentError Bool := do
  let found ← reads.getMirror (mirrorPath project.id (mirrorIdentifier project.id owner repo))
  match found.bind (·.remoteUrl) with
  | none => return false
  | some url =>
      if trimText url = "" then return false
      else match reads.canonicalGitUrl (trimText url) with
        | .ok canonicalRemote => return canonicalLocal = canonicalRemote
        | .error _ => return false

def judgeMatches : List RedmineProject → RedmineDiscovery
  | [] => .noMatch
  | [project] => .single project
  | projects => .multiple projects

def discoverMatchingProjects (origin : RemoteRepository) : Except PhasegentError RedmineDiscovery := do
  let (owner, repo) ← ownerAndRepo origin.repository
  refuse (trimText origin.repositoryUrl = "") (.config "git mirror remote URL must not be empty")
  let canonicalLocal ← (reads.canonicalGitUrl origin.repositoryUrl).mapError .config
  let projects ← reads.listProjects
  if projects = [] then return .noMatch
  reads.mirrorClient
  let found ← keep (servesOrigin reads canonicalLocal owner repo) projects
  return judgeMatches found

end Discovery

section Resolution
variable (reads : ScopeReads)

def candidateLimit : Nat := 10

def multipleMatches (repository : String) (projects : List RedmineProject) : String :=
  "multiple Redmine projects match the current Git origin '" ++ repository ++ "': " ++
    ", ".intercalate ((projects.take candidateLimit).map fun project =>
      project.id.repr ++ " '" ++ project.name ++ "'") ++
    (if candidateLimit < projects.length then
      " (and " ++ (projects.length - candidateLimit).repr ++ " more)" else "") ++
    "; pass --project-id to select one"

def explicitProject (explicitProjectId : Option String) : Option String :=
  (explicitProjectId.map trimText).filter fun id => id ≠ ""

def foreignRepository (repository : Option String) (origin : RemoteRepository) : Bool :=
  repository.any fun explicit => trimText explicit ≠ "" && trimText explicit ≠ origin.repository

def resolveWithOrigin (repository explicitProjectId : Option String) (origin : RemoteRepository) :
    Except PhasegentError (Option String) :=
  match explicitProject explicitProjectId with
  | some id => .ok (some id)
  | none =>
      if foreignRepository repository origin then .ok none
      else do
        reads.provider
        match ← discoverMatchingProjects reads origin with
        | .noMatch => return none
        | .single project => return some project.id.repr
        | .multiple projects => throw (.config (multipleMatches origin.repository projects))

def resolveRedmineProject (repository explicitProjectId : Option String) :
    Except PhasegentError (Option String) :=
  match explicitProject explicitProjectId with
  | some id => .ok (some id)
  | none =>
      match reads.resolveOrigin with
      | .ok origin => resolveWithOrigin reads repository explicitProjectId origin
      | .error message => if repository.isSome then .ok none else .error (.config message)

def unresolvedProject : PhasegentError :=
  .config ("cannot determine the expected Redmine project for this single-number operation: " ++
    "no Redmine project matches the current Git checkout; pass --project-id to select " ++
    "explicitly (single-number operations never auto-create a project)")

def resolveExpectedRedmineProject (repository explicitProjectId : Option String) :
    Except PhasegentError String := do
  match ← resolveRedmineProject reads repository explicitProjectId with
  | some id => return id
  | none => throw unresolvedProject

end Resolution

section Guard

def foreignIssue (actual : IssueProjectRef) (expected : String) (number : Nat) (advice : String) :
    PhasegentError :=
  .config ("Redmine issue " ++ number.repr ++ " belongs to project " ++ actual.id.repr ++ " ('" ++
    actual.name ++ "'), not expected project '" ++ expected ++ "' for the current Git checkout; " ++ advice)

def guardProjectParts (actual : IssueProjectRef) (expectedProject : String) (number : Nat) :
    Except PhasegentError Unit :=
  let expected := trimText expectedProject
  if expected = "" then
    .error (.config "expected Redmine project must be non-empty; pass --project-id to select explicitly")
  else match parseU64 expected.toList with
    | some expectedId =>
        if actual.id = expectedId then .ok ()
        else .error (foreignIssue actual expected number ("pass --project-id '" ++ actual.id.repr ++
          "' to allow cross-project access or correct the number"))
    | none =>
        if actual.identifier = some expected ∨ actual.name = expected then .ok ()
        else .error (foreignIssue actual expected number "pass --project-id to select explicitly")

def guardIssueSummaryProject (summary : IssueSummary) (expectedProject : String) (number : Nat) :
    Except PhasegentError Unit :=
  match summary.project with
  | some project => guardProjectParts project expectedProject number
  | none => .error (.config ("Redmine issue " ++ number.repr ++
      " response omits project; cannot verify it belongs to expected project '" ++
      trimText expectedProject ++ "'; pass --project-id to select explicitly"))

def verifyRedmineScopeBeforeWrite (reads : ScopeReads) (repository explicitProjectId : Option String)
    (providerKind : ProviderKind) (number : Nat) : Except PhasegentError Unit := do
  if providerKind ≠ .redmine then return ()
  let expected ← resolveExpectedRedmineProject reads repository explicitProjectId
  let summary ← reads.getIssue number
  guardIssueSummaryProject summary expected number

end Guard

section Servers

/-- A server with the issues it holds; its answers are true, but may leave a project's identifier out. -/
structure ProjectServer where
  projects : List RedmineProject
  small : ∀ project ∈ projects, project.id < 2 ^ 64
  ids : ∀ a ∈ projects, ∀ b ∈ projects, a.id = b.id → a = b
  identifiers : ∀ a ∈ projects, ∀ b ∈ projects, a.identifier = b.identifier → a = b
  reads : ScopeReads
  listed : ∀ visible, reads.listProjects = .ok visible → ∀ project ∈ visible, project ∈ projects
  holder : Nat → Option RedmineProject
  held : ∀ number, ∀ project ∈ holder number, project ∈ projects
  truthful : ∀ number summary, reads.getIssue number = .ok summary →
    ∃ project ∈ holder number, ∃ told : Option String, (∀ identifier ∈ told, identifier = project.identifier) ∧
      summary.project = some ⟨project.id, project.name, told⟩

def Names (text : String) (project : RedmineProject) : Prop :=
  parseU64 text.toList = some project.id ∨ project.identifier = text

instance (text : String) (project : RedmineProject) : Decidable (Names text project) :=
  inferInstanceAs (Decidable (_ ∨ _))

def Discovers (reads : ScopeReads) (repository : Option String) (project : RedmineProject) : Prop :=
  ∃ origin, reads.resolveOrigin = .ok origin ∧ foreignRepository repository origin = false ∧
    reads.provider = .ok () ∧ discoverMatchingProjects reads origin = .ok (.single project)

variable (server : ProjectServer) (repository explicitProjectId : Option String) (project : RedmineProject)
  (number : Nat)

/-- The project that an operation is meant for: the one its option names, else the checkout's own. -/
def Selects : Prop :=
  match explicitProject explicitProjectId with
  | some text => project ∈ server.projects ∧ Names text project ∧
      ∀ other ∈ server.projects, Names text other → other = project
  | none => Discovers server.reads repository project

def ById : Prop := ∀ text ∈ explicitProject explicitProjectId, parseU64 text.toList = some project.id

structure GuardsIssue : Prop where
  sound : verifyRedmineScopeBeforeWrite server.reads repository explicitProjectId .redmine number = .ok () →
    server.holder number = some project
  complete : ById explicitProjectId project → server.holder number = some project →
    (∃ summary, server.reads.getIssue number = .ok summary) →
    verifyRedmineScopeBeforeWrite server.reads repository explicitProjectId .redmine number = .ok ()

/-- The issue is another project's, whose display name spells the selected identifier. -/
def Lookalike : Prop :=
  ∃ text ∈ explicitProject explicitProjectId, parseU64 text.toList = none ∧
    ∃ other ∈ server.holder number, other ≠ project ∧ other.name = text ∧
      ∃ summary, server.reads.getIssue number = .ok summary

end Servers

section Guarding
variable {server : ProjectServer} {repository explicitProjectId : Option String} {project : RedmineProject}
  {number : Nat}

theorem guardProjectParts_ok {actual : IssueProjectRef} {expected : String} (filled : trimText expected ≠ "") :
    guardProjectParts actual expected number = .ok () ↔
      match parseU64 (trimText expected).toList with
      | some expectedId => actual.id = expectedId
      | none => actual.identifier = some (trimText expected) ∨ actual.name = trimText expected := by
  unfold guardProjectParts
  simp only [filled, if_false]
  cases parseU64 (trimText expected).toList with
  | some expectedId => by_cases same : actual.id = expectedId <;> simp [same]
  | none =>
      by_cases same : actual.identifier = some (trimText expected) ∨ actual.name = trimText expected <;>
        simp [same]

theorem explicitProject_settled {text : String} (selected : text ∈ explicitProject explicitProjectId) :
    trimText text = text ∧ text ≠ "" := by
  obtain ⟨given, filled⟩ := Option.filter_eq_some_iff.mp selected
  obtain ⟨raw, -, rfl⟩ := Option.map_eq_some_iff.mp given
  exact ⟨trimText_trimText raw, by simpa using filled⟩

theorem resolveExpected_explicit {text : String} (selected : explicitProject explicitProjectId = some text)
    (reads : ScopeReads) :
    resolveExpectedRedmineProject reads repository explicitProjectId = .ok text := by
  simp [resolveExpectedRedmineProject, resolveRedmineProject, selected]

theorem resolveExpected_discovered {reads : ScopeReads} (unnamed : explicitProject explicitProjectId = none)
    (discovers : Discovers reads repository project) :
    resolveExpectedRedmineProject reads repository explicitProjectId = .ok project.id.repr := by
  obtain ⟨origin, resolved, own, provided, single⟩ := discovers
  simp [resolveExpectedRedmineProject, resolveRedmineProject, resolveWithOrigin, unnamed, resolved, own,
    provided, single]

theorem verify_ok {expected : String}
    (resolved : resolveExpectedRedmineProject server.reads repository explicitProjectId = .ok expected) :
    verifyRedmineScopeBeforeWrite server.reads repository explicitProjectId .redmine number = .ok () ↔
      ∃ summary, server.reads.getIssue number = .ok summary ∧
        guardIssueSummaryProject summary expected number = .ok () := by
  simp [verifyRedmineScopeBeforeWrite, resolved]

theorem mem_of_discovers (discovers : Discovers server.reads repository project) :
    project ∈ server.projects := by
  obtain ⟨origin, -, -, -, single⟩ := discovers
  simp only [discoverMatchingProjects, bind_eq_ok, mapError_eq_ok, refuse_eq_ok] at single
  obtain ⟨parts, -, -, -, canonicalLocal, -, projects, listed, found⟩ := single
  split at found
  · cases found
  · simp only [bind_eq_ok, keep_eq_ok, pure_eq, Except.ok.injEq] at found
    obtain ⟨-, -, kept, ⟨-, rfl⟩, judged⟩ := found
    apply server.listed projects listed
    have among : project ∈ projects.filter
        (accepts (servesOrigin server.reads canonicalLocal parts.1 parts.2)) := by
      generalize projects.filter _ = kept at judged ⊢
      cases kept with
      | nil => cases judged
      | cons only rest =>
          cases rest with
          | nil =>
              cases judged
              exact List.mem_singleton_self _
          | cons _ _ => cases judged
    exact (List.mem_filter.mp among).1

theorem verify_holder {expected : String} {holder : RedmineProject} {summary : IssueSummary}
    (resolved : resolveExpectedRedmineProject server.reads repository explicitProjectId = .ok expected)
    (holds : server.holder number = some holder) (answered : server.reads.getIssue number = .ok summary) :
    ∃ told : Option String, (∀ identifier ∈ told, identifier = holder.identifier) ∧
      (verifyRedmineScopeBeforeWrite server.reads repository explicitProjectId .redmine number = .ok () ↔
        guardProjectParts ⟨holder.id, holder.name, told⟩ expected number = .ok ()) := by
  obtain ⟨other, held, told, own, project⟩ := server.truthful number summary answered
  obtain rfl : other = holder := by
    rw [holds] at held
    exact (Option.some.inj held).symm
  refine ⟨told, own, ?_⟩
  rw [verify_ok resolved, answered]
  simp [guardIssueSummaryProject, project]

theorem answered_of_verify {expected : String}
    (resolved : resolveExpectedRedmineProject server.reads repository explicitProjectId = .ok expected)
    (passed : verifyRedmineScopeBeforeWrite server.reads repository explicitProjectId .redmine number = .ok ()) :
    ∃ holder summary, server.holder number = some holder ∧ server.reads.getIssue number = .ok summary := by
  obtain ⟨summary, answered, -⟩ := (verify_ok resolved).mp passed
  obtain ⟨holder, held, -⟩ := server.truthful number summary answered
  exact ⟨holder, summary, held, answered⟩

theorem guards_number {expected : String} {id : Nat}
    (resolved : resolveExpectedRedmineProject server.reads repository explicitProjectId = .ok expected)
    (settled : trimText expected = expected ∧ expected ≠ "") (parsed : parseU64 expected.toList = some id)
    (only : ∀ other ∈ server.projects, other.id = id → other = project)
    (own : ById explicitProjectId project → project.id = id) :
    GuardsIssue server repository explicitProjectId project number := by
  have filled : trimText expected ≠ "" := by rw [settled.1]; exact settled.2
  constructor
  · intro passed
    obtain ⟨holder, summary, held, answered⟩ := answered_of_verify resolved passed
    obtain ⟨told, -, verdict⟩ := verify_holder resolved held answered
    rw [verdict, guardProjectParts_ok filled, settled.1, parsed] at passed
    rw [held, only holder (server.held number holder held) passed]
  · intro byId held ⟨summary, answered⟩
    obtain ⟨told, -, verdict⟩ := verify_holder resolved held answered
    rw [verdict, guardProjectParts_ok filled, settled.1, parsed]
    exact own byId

theorem guards_identifier {text : String} (selected : explicitProject explicitProjectId = some text)
    (unparsed : parseU64 text.toList = none)
    (only : ∀ other ∈ server.projects, other.identifier = text → other = project) :
    GuardsIssue server repository explicitProjectId project number ↔
      ¬Lookalike server explicitProjectId project number := by
  have settled := explicitProject_settled selected
  have resolved : resolveExpectedRedmineProject server.reads repository explicitProjectId = .ok text :=
    resolveExpected_explicit selected server.reads
  have filled : trimText text ≠ "" := by rw [settled.1]; exact settled.2
  constructor
  · intro guards ⟨name, named, _, other, held, apart, spelled, summary, answered⟩
    obtain rfl : text = name := Option.some.inj (selected.symm.trans named)
    obtain ⟨told, -, verdict⟩ := verify_holder resolved held answered
    have passed := verdict.mpr ((guardProjectParts_ok filled).mpr (by
      rw [settled.1, unparsed]
      exact Or.inr spelled))
    exact apart (Option.some.inj (held.symm.trans (guards.sound passed)))
  · intro none
    constructor
    · intro passed
      obtain ⟨holder, summary, held, answered⟩ := answered_of_verify resolved passed
      obtain ⟨told, own, verdict⟩ := verify_holder resolved held answered
      rw [verdict, guardProjectParts_ok filled, settled.1, unparsed] at passed
      cases passed with
      | inl identified =>
          have same := own text identified
          rw [held, only holder (server.held number holder held) same.symm]
      | inr spelled =>
          by_contra foreign
          refine none ⟨text, selected, unparsed, holder, held, ?_, spelled, summary, answered⟩
          intro same
          exact foreign (same ▸ held)
    · intro byId
      have numeric := byId text selected
      rw [unparsed] at numeric
      cases numeric

theorem guards_issue_iff (selects : Selects server repository explicitProjectId project) :
    GuardsIssue server repository explicitProjectId project number ↔
      ¬Lookalike server explicitProjectId project number := by
  unfold Selects at selects
  cases selected : explicitProject explicitProjectId with
  | none =>
      rw [selected] at selects
      have among := mem_of_discovers selects
      have range := server.small project among
      have quiet : ¬Lookalike server explicitProjectId project number := by
        intro ⟨text, named, _⟩
        rw [selected] at named
        cases named
      refine iff_of_true (guards_number (resolveExpected_discovered selected selects) ?_ ?_ ?_ fun _ => rfl) quiet
      · exact ⟨Task.trimText_toString project.id, fun blank =>
          absurd (congrArg String.toList blank) (by simp [Nat.toList_repr])⟩
      · exact parseU64_toString range
      · exact fun other member => server.ids other member project among
  | some text =>
      rw [selected] at selects
      obtain ⟨among, names, unique⟩ := selects
      cases parsed : parseU64 text.toList with
      | none =>
          exact guards_identifier selected parsed fun other member same => unique other member (Or.inr same)
      | some id =>
          have quiet : ¬Lookalike server explicitProjectId project number := by
            intro ⟨name, named, unparsed, _⟩
            obtain rfl : text = name := Option.some.inj (selected.symm.trans named)
            rw [parsed] at unparsed
            cases unparsed
          refine iff_of_true (guards_number (resolveExpected_explicit selected server.reads)
            (explicitProject_settled selected) parsed ?_ ?_) quiet
          · intro other member same
            exact unique other member (Or.inl (by rw [parsed, same]))
          · intro byId
            exact (Option.some.inj (parsed.symm.trans (byId text selected))).symm

end Guarding

section Samples

def foundry : RedmineProject := ⟨1, "Foundry Works", "foundry"⟩

def namesake : RedmineProject := ⟨2, "foundry", "legacy"⟩

/-- A server whose second project is displayed under the first one's identifier. -/
def namesakeServer : ProjectServer where
  projects := [foundry, namesake]
  small := by simp [foundry, namesake]
  ids := by simp [foundry, namesake]
  identifiers := by simp [foundry, namesake]
  reads :=
    { resolveOrigin := .error "no origin"
      canonicalGitUrl := .ok
      provider := .ok ()
      listProjects := .ok [foundry, namesake]
      mirrorClient := .ok ()
      getMirror := fun _ => .ok none
      getIssue := fun number =>
        .ok ⟨number, number, "", "", "open", none, some ⟨namesake.id, namesake.name, none⟩⟩ }
  listed := by
    intro visible listed
    cases listed
    exact fun _ member => member
  holder := fun _ => some namesake
  held := by simp
  truthful := by
    intro number summary answered
    cases answered
    exact ⟨namesake, rfl, none, by simp, rfl⟩

theorem namesakeServer_selects : Selects namesakeServer none (some "foundry") foundry := by
  have selected : explicitProject (some "foundry") = some "foundry" := by decide
  rw [Selects, selected]
  exact ⟨by simp [namesakeServer], by decide, by decide⟩

theorem namesake_issue_passes :
    ¬∀ (server : ProjectServer) (repository explicitProjectId : Option String) (project : RedmineProject)
      (number : Nat), Selects server repository explicitProjectId project →
        GuardsIssue server repository explicitProjectId project number := by
  intro guards
  have guarded := guards namesakeServer none (some "foundry") foundry 7 namesakeServer_selects
  have foreign := guarded.sound (by decide)
  exact absurd foreign (by decide)

def mirroredReads : ScopeReads :=
  { namesakeServer.reads with
    resolveOrigin := .ok ⟨"team/app", "https://forge.test/team/app"⟩
    getMirror := fun path =>
      .ok (if path = mirrorPath 2 (mirrorIdentifier 2 "team".toList "app".toList) then
        some ⟨4, 2, "mirror_2_team_app", "mirrored", some "https://forge.test/team/app", none, none⟩ else none) }

def mirroredServer : ProjectServer :=
  { namesakeServer with
    reads := mirroredReads
    listed := namesakeServer.listed
    truthful := namesakeServer.truthful }

theorem own_number_guarded :
    GuardsIssue mirroredServer none (some "2") namesake 7 ∧
      GuardsIssue mirroredServer none (some "legacy") namesake 7 ∧
      GuardsIssue mirroredServer (some "team/app") none namesake 7 := by
  have named : ∀ text ∈ ["2", "legacy"], explicitProject (some text) = some text ∧
      Names text namesake ∧ ∀ other ∈ mirroredServer.projects, Names text other → other = namesake := by decide
  have guarded : ∀ text ∈ ["2", "legacy"], GuardsIssue mirroredServer none (some text) namesake 7 := by
    intro text among
    obtain ⟨selected, names, unique⟩ := named text among
    have selects : Selects mirroredServer none (some text) namesake := by
      rw [Selects, selected]
      exact ⟨by simp [mirroredServer, namesakeServer], names, unique⟩
    refine (guards_issue_iff selects).mpr ?_
    rintro ⟨spelled, -, -, held, holds, foreign, -⟩
    cases holds
    exact foreign rfl
  have discovered : Selects mirroredServer (some "team/app") none namesake :=
    ⟨_, rfl, by decide, rfl, by decide⟩
  refine ⟨guarded "2" (by simp), guarded "legacy" (by simp), (guards_issue_iff discovered).mpr ?_⟩
  rintro ⟨text, none, -⟩
  cases none

end Samples

end Phasegent.Redmine
