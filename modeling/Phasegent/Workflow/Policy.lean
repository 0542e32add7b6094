import Phasegent.Provider.Api
import Phasegent.Text.Chars
import Phasegent.Text.Decimal
import Phasegent.Text.Fallible

namespace Phasegent.Workflow

structure IssueStatus where
  id : Nat
  name : String
  isClosed : Bool
  deriving DecidableEq, Repr

def statusPolicySource : String := "phasegent/canonical-phase-workflow@v1"

def statusPolicyCaveat : String :=
  "Policy guidance only: the Redmine server workflow, role permissions, and custom statuses are " ++
    "authoritative and may allow or reject transitions this policy does not describe."

def statusTransitions : List (String × List String) :=
  [("New", ["In Progress", "Cancelled"]),
    ("In Progress", ["In Review", "Blocked", "Cancelled"]),
    ("In Review", ["Resolved", "Changes Requested", "Blocked", "Cancelled"]),
    ("Changes Requested", ["In Progress", "Blocked", "Cancelled"]),
    ("Blocked", ["In Progress", "Cancelled"]),
    ("Resolved", ["Closed", "In Progress"]),
    ("Closed", []),
    ("Cancelled", [])]

def lowered (text : List Char) : String := String.ofList (Text.toAsciiLower text)

def trimmed (value : String) : List Char := Text.trim value.toList

def canonicalStatusName (value : String) : Option String :=
  (statusTransitions.map Prod.fst).find? fun name => lowered name.toList = lowered (trimmed value)

def canonicalAllowedNext (value : String) : Option (List String) :=
  (canonicalStatusName value).bind fun canonical =>
    (statusTransitions.find? fun row => row.1 = canonical).map Prod.snd

inductive TransitionVerdict where
  | noOp
  | allowed
  | forbidden (allowedNext : List String)
  | advisory (reason : String)
  deriving DecidableEq, Repr

def evaluateTransition (current target : String) : TransitionVerdict :=
  match canonicalStatusName current, canonicalStatusName target with
  | some origin, some goal =>
      if origin = goal then .noOp
      else if goal ∈ (canonicalAllowedNext origin).getD [] then .allowed
      else .forbidden ((canonicalAllowedNext origin).getD [])
  | source, _ =>
      if lowered (trimmed current) = lowered (trimmed target) then .noOp
      else
        .advisory ((if source.isNone then "current status '" ++ current ++ "'"
          else "target status '" ++ target ++ "'") ++
            " is not part of the canonical policy; the Redmine server decides this transition")

def Edge (current target : String) : Prop :=
  ∃ origin goal, canonicalStatusName current = some origin ∧ canonicalStatusName target = some goal ∧
    ∃ row ∈ statusTransitions, row.1 = origin ∧ goal ∈ row.2

theorem evaluateTransition_allowed {current target : String}
    (verdict : evaluateTransition current target = .allowed) : Edge current target := by
  unfold evaluateTransition at verdict
  split at verdict
  · next origin goal found found' =>
      split at verdict
      · cases verdict
      split at verdict
      · next among =>
          refine ⟨origin, goal, found, found', ?_⟩
          cases next : canonicalAllowedNext origin with
          | none => simp [next] at among
          | some names =>
              obtain ⟨canonical, named, mapped⟩ := Option.bind_eq_some_iff.mp next
              obtain ⟨row, located, rfl⟩ := Option.map_eq_some_iff.mp mapped
              rw [next, Option.getD_some] at among
              have same : row.1 = canonical := by simpa using List.find?_some located
              have own : canonical = origin := by
                have listed : origin ∈ statusTransitions.map Prod.fst := List.mem_of_find?_eq_some found
                have fixed : ∀ name ∈ statusTransitions.map Prod.fst,
                    canonicalStatusName name = some name := by decide
                exact Option.some.inj (named.symm.trans (fixed origin listed))
              exact ⟨row, List.mem_of_find?_eq_some located, same.trans own, among⟩
      · cases verdict
  · split at verdict <;> cases verdict

theorem evaluateTransition_advisory {current target reason : String}
    (verdict : evaluateTransition current target = .advisory reason) :
    canonicalStatusName current = none ∨ canonicalStatusName target = none := by
  unfold evaluateTransition at verdict
  split at verdict
  · split at verdict
    · cases verdict
    split at verdict <;> cases verdict
  · next outside =>
      cases source : canonicalStatusName current with
      | none => exact .inl rfl
      | some origin =>
          cases found : canonicalStatusName target with
          | none => exact .inr rfl
          | some goal => exact (outside origin goal source found).elim

section Reports

structure StatusRef where
  id : Option Nat
  name : String
  isClosed : Option Bool
  canonical : Bool
  deriving DecidableEq, Repr

def StatusRef.fromInstallation (status : IssueStatus) : StatusRef where
  id := some status.id
  name := status.name
  isClosed := some status.isClosed
  canonical := (canonicalStatusName status.name).isSome

structure StatusNextReport where
  issue : Nat
  current : StatusRef
  allowedNext : List StatusRef
  allowedNextMissingOnServer : List String
  policySource : String
  advisory : Bool
  caveat : String
  recovery : String
  deriving DecidableEq, Repr

structure StatusTransitionOutcome where
  issue : Nat
  changed : Bool
  origin : StatusRef
  goal : StatusRef
  policySource : String
  advisory : Bool
  caveat : Option String
  issueSummary : Option IssueSummary
  deriving DecidableEq, Repr

/-- The policy's next statuses as the installation has them, and those it lacks. -/
def resolveNext (statuses : List IssueStatus) (names : List String) : List StatusRef × List String :=
  let found (name : String) := statuses.find? fun status => lowered status.name.toList = lowered name.toList
  (names.filterMap fun name => (found name).map StatusRef.fromInstallation,
    names.filter fun name => (found name).isNone)

def TransitionVerdict.isAdvisory : TransitionVerdict → Bool
  | .advisory _ => true
  | _ => false

def showAllowed (names : List String) : String :=
  if names.isEmpty then "<none: terminal status>" else ", ".intercalate names

def forbiddenMessage (recoveryHint : Nat → String) (number : Nat) (current target : String)
    (allowedNext : List String) : String :=
  "transition rejected before any write: current status '" ++ current ++ "' -> target status '" ++
    target ++ "' is not allowed by policy " ++ statusPolicySource ++ "; allowed_next=[" ++
    showAllowed allowedNext ++ "]; " ++ statusPolicyCaveat ++ " recovery: " ++ recoveryHint number

end Reports

section Selectors

def selectByName (statuses : List IssueStatus) (value : String) : Except PhasegentError IssueStatus :=
  match statuses.filter fun status => status.name = value with
  | [status] => .ok status
  | [] => .error (.config ("Redmine status name '" ++ value ++ "' was not found"))
  | _ => .error (.config ("Redmine status name '" ++ value ++ "' is ambiguous"))

def selectStatusByValue (statuses : List IssueStatus) (value : String) :
    Except PhasegentError IssueStatus :=
  match Text.parseU64 value.toList with
  | some id =>
      if id = 0 then .error (.config "Redmine status id must be greater than zero")
      else
        match statuses.find? fun status => status.id = id with
        | some status => .ok status
        | none => .error (.config ("Redmine status id " ++ id.repr ++ " was not found"))
  | none => selectByName statuses value

theorem selectStatusByValue_mem {statuses : List IssueStatus} {value : String} {status : IssueStatus}
    (selected : selectStatusByValue statuses value = .ok status) : status ∈ statuses := by
  unfold selectStatusByValue at selected
  split at selected
  · split at selected
    · cases selected
    split at selected
    · next found =>
        cases selected
        exact List.mem_of_find?_eq_some found
    · cases selected
  · unfold selectByName at selected
    split at selected
    · next only =>
        cases selected
        exact List.mem_of_mem_filter (only ▸ List.mem_singleton_self status)
    · cases selected
    · cases selected

theorem selectStatusByValue_name {statuses : List IssueStatus} {value : String} {status : IssueStatus}
    (unnumbered : Text.parseU64 value.toList = none)
    (selected : selectStatusByValue statuses value = .ok status) : status.name = value := by
  rw [selectStatusByValue, unnumbered] at selected
  simp only [selectByName] at selected
  split at selected
  · next only =>
      cases selected
      have own : status ∈ statuses.filter fun status => status.name = value :=
        only ▸ List.mem_singleton_self status
      simpa using (List.mem_filter.mp own).2
  · cases selected
  · cases selected

end Selectors

end Phasegent.Workflow
