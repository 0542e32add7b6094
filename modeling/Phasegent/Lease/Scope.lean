import Phasegent.Lease.Row

namespace Phasegent.Lease
open Fallible Phasegent.Task

structure LeaseScope where
  provider : String
  project : String
  externalId : Nat
  taskId : Option Int
  inst : Option String
  range : 0 < externalId ∧ externalId ≤ i64Max
  tasked : taskId.isSome = inst.isSome
  deriving DecidableEq

def isSpaceOrControl (c : Char) : Bool := Text.isWhitespace c || Text.isControl c

def isProviderChar (c : Char) : Bool := c.isLower || c.isDigit || c == '-'

namespace LeaseScope
section Constructors
variable (urls : UrlLibrary)

def validated (provider project : String) (externalId : Nat) : Except WorktreeError LeaseScope :=
  let refused := WorktreeError.new "argument"
    "lease scope requires provider, project and a positive external id"
  if range : 0 < externalId ∧ externalId ≤ i64Max then do
    refuse (provider = "" ∨ project = "" ∨ provider.toList.any isSpaceOrControl ∨
      project.toList.any isSpaceOrControl) refused
    refuse (!provider.toList.all isProviderChar)
      (.new "argument" "lease scope provider must be canonical")
    refuse (provider = "forgejo" ∧ (ForgejoConfig.new urls "http://localhost" project).toBool = false)
      (.new "argument" "Forgejo lease project must be canonical owner/repo")
    return ⟨provider, project, externalId, none, none, range, rfl⟩
  else .error refused

def new (provider project : String) (externalId : Nat) : Except WorktreeError LeaseScope :=
  validated urls provider project externalId

def forTask (provider project : String) (externalId : Nat) (taskId : Int) (inst : String) :
    Except WorktreeError LeaseScope := do
  let scope ← validated urls provider project externalId
  refuse (taskId ≤ 0) (.new "argument" "lease scope task id must be greater than zero")
  let inst := trimText inst
  refuse (inst = "" ∨ inst.toList.any isSpaceOrControl)
    (.new "argument" "lease scope task instance must be a non-empty endpoint")
  return { scope with taskId := some taskId, inst := some inst, tasked := rfl }

end Constructors

theorem asI64_externalId (scope : LeaseScope) : asI64 scope.externalId = scope.externalId := by
  have bound := scope.range.2
  unfold i64Max at bound
  rw [asI64, if_pos (by omega)]

end LeaseScope

end Phasegent.Lease
