import Mathlib.Data.List.Basic

namespace Phasegent.Record

inductive Role where
  | admin | orchestrator | executor | reviewer | explore
  deriving DecidableEq, Repr

def Role.asStr : Role → String
  | .admin => "admin"
  | .orchestrator => "orchestrator"
  | .executor => "executor"
  | .reviewer => "reviewer"
  | .explore => "explore"

def Role.fromStr (value : String) : Except String Role :=
  if value = "admin" then .ok .admin
  else if value = "orchestrator" then .ok .orchestrator
  else if value = "executor" then .ok .executor
  else if value = "reviewer" then .ok .reviewer
  else if value = "explore" then .ok .explore
  else .error ("invalid role '" ++ value ++
    "'; expected admin, orchestrator, executor, reviewer, or explore")

inductive RecordKind where
  | executor | reviewer | recon
  deriving DecidableEq, Repr

def RecordKind.asStr : RecordKind → String
  | .executor => "executor"
  | .reviewer => "reviewer"
  | .recon => "recon"

structure RecordSpec where
  kind : RecordKind
  actor : Role
  key : String
  phase : Option String
  attempt : Option UInt32
  review : Option String
  recon : Option String
  deriving DecidableEq, Repr

def maxTokenLen : Nat := 128

def isTokenChar (c : Char) : Bool :=
  c.isAlphanum || c == '.' || c == '_' || c == ':' || c == '-'

-- The source counts bytes; a text with a multi-byte character fails the character test anyway.
def isToken (value : String) : Bool :=
  !value.toList.isEmpty && value.utf8ByteSize ≤ maxTokenLen && value.toList.all isTokenChar

def validateToken (label value : String) : Except String Unit :=
  if isToken value then .ok ()
  else .error (label ++ " '" ++ value ++
    "' is invalid; expected 1-128 ASCII characters from [A-Za-z0-9._:-]")

def reviewKinds : List String := ["final", "checkpoint"]

namespace RecordSpec

def validateOptional (label : String) : Option String → Except String Unit
  | none => .ok ()
  | some value => validateToken label value

private def refuse (spec : RecordSpec) (rule : String) : Except String Unit :=
  .error ("record create --kind " ++ spec.kind.asStr ++ rule)

def validateKind (spec : RecordSpec) : Except String Unit :=
  match spec.kind with
  | .executor | .reviewer =>
      if spec.phase.isNone then spec.refuse " requires --phase"
      else if !spec.attempt.any (0 < ·) then spec.refuse " requires a positive --attempt"
      else if spec.recon.isSome then spec.refuse " does not accept --recon"
      else .ok ()
  | .recon =>
      if spec.recon.isNone then spec.refuse " requires --recon"
      else if spec.phase.isSome then spec.refuse " does not accept --phase"
      else if spec.attempt.isSome then spec.refuse " does not accept --attempt"
      else .ok ()

theorem attempt_of_validateKind {spec : RecordSpec} (valid : spec.validateKind = .ok ())
    {attempt : UInt32} (tried : spec.attempt = some attempt) : 0 < attempt := by
  by_contra zero
  have unpositive : spec.attempt.any (0 < ·) = false := by simpa [tried] using zero
  cases kind : spec.kind with
  | recon =>
      simp only [validateKind, kind, refuse, tried, Option.isSome_some, if_true] at valid
      split_ifs at valid
  | executor | reviewer =>
      simp only [validateKind, kind, refuse, unpositive, Bool.not_false, if_true] at valid
      split_ifs at valid

def validateReview (spec : RecordSpec) : Except String Unit :=
  match spec.review with
  | none =>
      if spec.kind = .reviewer then spec.refuse " requires --review (final or checkpoint)"
      else .ok ()
  | some review =>
      if spec.kind ≠ .reviewer then spec.refuse " does not accept --review"
      else if review ∉ reviewKinds then
        .error ("invalid --review '" ++ review ++ "'; expected final or checkpoint")
      else if spec.recon.isSome then
        .error "record create --kind recon does not accept --review"
      else .ok ()

def validateFields (spec : RecordSpec) : Except String Unit := do
  validateToken "--key" spec.key
  validateOptional "--phase" spec.phase
  validateOptional "--recon" spec.recon
  spec.validateKind
  spec.validateReview

end RecordSpec

end Phasegent.Record
