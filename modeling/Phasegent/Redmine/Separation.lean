import Phasegent.Redmine.Bootstrap

namespace Phasegent.Redmine
open Fallible Interleaving Text

variable {a b : String} {projectId : Nat}

section Mirrors

def folded (text : List Char) : List Char := toAsciiLower (trim text)

def mirrorName (repository : String) : List Char :=
  let parts := repository.toList.splitOn '/'
  folded (parts[0]?.getD []) ++ '_' :: folded (parts[1]?.getD [])

def mirrorOf (projectId : Nat) (repository : String) : String :=
  let parts := repository.toList.splitOn '/'
  mirrorIdentifier projectId (parts[0]?.getD []) (parts[1]?.getD [])

theorem mirrorOf_eq (projectId : Nat) (repository : String) :
    mirrorOf projectId repository =
      "mirror_" ++ projectId.repr ++ "_" ++ String.ofList (mirrorName repository) := by
  apply String.toList_inj.mp
  simp [mirrorOf, mirrorIdentifier, mirrorName, folded]

theorem mirrorOf_eq_iff : mirrorOf projectId a = mirrorOf projectId b ↔ mirrorName a = mirrorName b := by
  rw [mirrorOf_eq, mirrorOf_eq]
  constructor
  · intro same
    have chars := congrArg String.toList same
    simpa using chars
  · intro same
    rw [same]

end Mirrors

section Runs

theorem within_bootstrapProject {identifier : String} {id name : Option String} {D : Type}
    {act : D → (op : BootstrapOp) → op.Ret × D} :
    Sql.Within act (fun _ => True) (bootstrapProject a identifier id name) fun result _ =>
      result.created = false → result.project.identifier = identifier := by
  have found : Sql.Within act (fun _ => True) (findProject identifier) fun project _ =>
      ∀ own ∈ project, own.identifier = identifier := by
    unfold findProject perform
    apply Sql.within_bind (M := fun _ _ => True) (Sql.within_request fun _ _ _ _ => trivial)
    intro response
    apply Sql.within_pure
    intro d _ own among
    simpa using (Option.filter_eq_some_iff.mp among).2
  unfold bootstrapProject
  apply Sql.within_bind found
  intro project
  apply Sql.within_bind (M := fun _ _ => ∀ own ∈ project, own.identifier = identifier)
    (Sql.within_request fun _ _ own _ => own)
  intro statuses
  apply Sql.within_bind (Sql.within_fromExcept.weaken fun _ _ holds => holds.2)
  intro closeStatus
  cases project with
  | none =>
      apply Sql.within_bind (M := fun _ _ => True) ?_ fun created => Sql.within_pure fun _ _ => by simp
      unfold createMissing createProject
      apply Sql.within_bind (Sql.within_fromExcept.weaken fun _ _ holds => holds.2)
      intro _
      apply Sql.within_bind (Sql.within_fromExcept.weaken fun _ _ holds => holds.2)
      intro _
      exact Sql.within_request fun _ _ _ _ => trivial
  | some own =>
      apply Sql.within_bind (M := fun project _ => project.identifier = identifier)
      · exact Sql.within_pure fun _ holds => holds own rfl
      · exact fun project => Sql.within_pure fun _ holds _ => holds

theorem found_identifier {id name : Option String} {D : Type}
    {act : D → (op : BootstrapOp) → op.Ret × D} {d : D} {result : RedmineBootstrap}
    (ran : (Sql.execute act (bootstrapRepository a id name).run d).1 = .ok result)
    (found : result.created = false) : redmineIdentifier a = .ok result.project.identifier := by
  have within : Sql.Within act (fun _ => True) (bootstrapRepository a id name) fun result _ =>
      result.created = false → redmineIdentifier a = .ok result.project.identifier := by
    unfold bootstrapRepository
    apply Sql.within_bind Sql.within_fromExcept
    intro identifier
    apply Sql.Within.of_pure
    intro named
    rw [mapError_eq_ok] at named
    rw [named]
    exact within_bootstrapProject.weaken fun result _ same found => by rw [same found]
  exact within.execute_ok trivial ran found

theorem splitRepository_valid (valid : validateRepository a = .ok a) : ∃ owner repo,
    a.toList.splitOn '/' = [owner, repo] ∧ splitRepository a = .ok (owner, repo) := by
  obtain ⟨-, owner, repo, parts⟩ := parts_of_valid valid
  have full : owner ≠ [] ∧ repo ≠ [] := by
    simp only [validateRepository, parts] at valid
    constructor <;> rintro rfl <;> simp at valid
  exact ⟨owner, repo, parts, by simp [splitRepository, parts, full]⟩

theorem performs_registerRepository {path : String} (valid : validateRepository a = .ok a) (url : String)
    (apart : path ≠ mirrorPath projectId (mirrorOf projectId a)) :
    Performs (· ≠ .getMirror path) (registerRepository projectId a url) := by
  obtain ⟨owner, repo, parts, split⟩ := splitRepository_valid valid
  have own : mirrorOf projectId a = mirrorIdentifier projectId owner repo := by
    simp [mirrorOf, parts]
  have posts : Performs (· ≠ BootstrapOp.getMirror path)
      (perform (.postMirror (mirrorsPath projectId) url)) :=
    performs_request (by simp)
  have registers : Performs (· ≠ .getMirror path) (registerGitMirror projectId owner repo url) := by
    unfold registerGitMirror
    apply performs_bind (performs_fromExcept _)
    intro _
    apply performs_bind (performs_fromExcept _)
    intro _
    apply performs_bind (performs_request (by simp))
    intro _
    apply performs_bind
    · apply performs_request
      rw [own] at apart
      simpa using apart.symm
    · intro found
      apply performs_bind ?_ fun response => performs_fromExcept _
      unfold postMissing
      split
      · split
        · exact posts
        · exact performs_pure _
      · exact posts
  rw [registerRepository, split]
  exact registers

end Runs

structure KeptApart (projectId : Nat) (a b : String) : Prop where
  identifiers : redmineIdentifier a ≠ redmineIdentifier b
  mirrors : mirrorOf projectId a ≠ mirrorOf projectId b
  wellFormed : ∀ repository ∈ [a, b], ∃ identifier,
    redmineIdentifier repository = .ok identifier ∧ WellFormed identifier
  adopts : ∀ (D : Type) (act : D → (op : BootstrapOp) → op.Ret × D) (d : D)
    (id name : Option String) (result : RedmineBootstrap),
    (Sql.execute act (bootstrapRepository a id name).run d).1 = .ok result →
      result.created = false → redmineIdentifier b ≠ .ok result.project.identifier
  reports : ∀ url, Performs (· ≠ .getMirror (mirrorPath projectId (mirrorOf projectId b)))
    (registerRepository projectId a url)

/-- The letters and digits of the names that fit into 100 characters, case dropped, and the gaps
between them differ, and so do the trimmed names with an underscore for their slash. -/
structure ReadApart (a b : String) : Prop where
  marks : fit 100 (nameMarks a) ≠ fit 100 (nameMarks b)
  names : mirrorName a ≠ mirrorName b

theorem keptApart_iff (projectId : Nat) (valid : validateRepository a = .ok a)
    (valid' : validateRepository b = .ok b) : KeptApart projectId a b ↔ ReadApart a b := by
  constructor
  · intro apart
    exact ⟨fun same => apart.identifiers ((redmineIdentifier_eq_iff valid valid').mpr same),
      fun same => apart.mirrors (mirrorOf_eq_iff.mpr same)⟩
  · intro apart
    have identifiers : redmineIdentifier a ≠ redmineIdentifier b :=
      fun same => apart.marks ((redmineIdentifier_eq_iff valid valid').mp same)
    have mirrors : mirrorOf projectId a ≠ mirrorOf projectId b :=
      fun same => apart.names (mirrorOf_eq_iff.mp same)
    exact
      { identifiers := identifiers
        mirrors := mirrors
        wellFormed := by
          intro repository among
          obtain rfl | rfl : repository = a ∨ repository = b := by simpa using among
          · exact redmineIdentifier_wellFormed valid
          · exact redmineIdentifier_wellFormed valid'
        adopts := fun D act d id name result ran found same =>
          identifiers ((found_identifier ran found).trans same.symm)
        reports := by
          intro url
          apply performs_registerRepository valid
          intro same
          have suffix := congrArg String.toList same
          simp only [mirrorPath, String.toList_append, List.append_cancel_left_eq] at suffix
          exact mirrors (String.toList_inj.mp suffix).symm }

theorem tools_docs_keptApart : KeptApart 7 "acme/tools" "acme/docs" :=
  (keptApart_iff 7 (by decide) (by decide)).mpr ⟨by decide, by decide⟩

section Merged

def dashedProject : RedmineProject := ⟨7, "a-b/c", "a-b-c"⟩

def underscoredMirror : RedmineGitMirrorResponse where
  id := 3
  projectId := 7
  identifier := mirrorOf 7 "a_b/c"
  status := "ready"
  remoteUrl := some "https://host/a_b/c.git"
  localPath := none
  error := none

def host (_ : Unit) : (op : BootstrapOp) → op.Ret × Unit
  | .getProject path =>
      (.ok (if path = projectPath dashedProject.identifier then some dashedProject else none), ())
  | .listIssueStatuses => (.ok [⟨5, "Closed", true⟩], ())
  | .postProject name identifier _ => (.ok ⟨8, name, identifier⟩, ())
  | .mirrorClient => (.ok (), ())
  | .getMirror path =>
      (.ok (if path = mirrorPath 7 underscoredMirror.identifier then some underscoredMirror else none), ())
  | .postMirror _ _ => (.error (.http "mirror post" 500 ""), ())

/-- `a/b-c` adopts the project of `a-b/c`, and `a/b_c` is told the mirror of `a_b/c` is its own. -/
theorem names_merged :
    (∀ repository ∈ ["a-b/c", "a/b-c", "a_b/c", "a/b_c"],
      validateRepository repository = .ok repository) ∧
    toAsciiLower "a-b/c".toList ≠ toAsciiLower "a/b-c".toList ∧
    toAsciiLower "a_b/c".toList ≠ toAsciiLower "a/b_c".toList ∧
    redmineIdentifier "a-b/c" = .ok dashedProject.identifier ∧
    (Sql.execute host (bootstrapRepository "a/b-c" none none).run ()).1 =
      .ok ⟨dashedProject, ⟨5, "Closed", true⟩, false⟩ ∧
    (Sql.execute host (registerRepository 7 "a/b_c" "https://host/a/b_c.git").run ()).1.toOption.map
      RedmineGitMirrorOutcome.remoteUrl = some "https://host/a_b/c.git" := by
  decide

end Merged

end Phasegent.Redmine
