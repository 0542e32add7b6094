import Phasegent.Lease.Transactions
import Phasegent.Interleaving.Effects

namespace Phasegent.Lease
open Fallible Interleaving

inductive LeaseOp where
  | sql (op : SqlOp)
  | nowUnixSecs
  | newLeaseId
  | shortHexSuffix
  | cacheBaseDir
  | createDirAll (path : String)
  | pathExists (path : String)
  | isClean (path : String)
  | refResolvesToCommit (path reference : String)
  | currentBranchFor (path : String)
  | worktreeAdd (repoPath target branch base : String)
  | worktreeRemove (repoPath target : String)
  | finalizeCheckout (path : String)
  | verifiedRepoKey (identity : String)
  | canonicalPaths

abbrev LeaseOp.Ret : LeaseOp → Type
  | .sql op => Except WorktreeError op.Ret
  | .nowUnixSecs => Int
  | .newLeaseId | .shortHexSuffix => String
  | .cacheBaseDir => Option String
  | .createDirAll _ => Except WorktreeError Unit
  | .pathExists _ => Bool
  | .isClean _ | .refResolvesToCommit .. => Except WorktreeError Bool
  | .currentBranchFor _ => Except WorktreeError String
  | .worktreeAdd .. | .worktreeRemove .. => Except WorktreeError Unit
  | .finalizeCheckout _ => List String
  | .verifiedRepoKey _ => Option String
  | .canonicalPaths => String → Directory

def LeaseOp.isSql : LeaseOp → Bool
  | .sql _ => true
  | _ => false

def External (op : LeaseOp) : Prop := op.isSql = false

abbrev LeaseM := ExceptT WorktreeError (Prog LeaseOp LeaseOp.Ret)

def ask (op : LeaseOp) : LeaseM op.Ret := ExceptT.lift (.call op .done)

def sql (op : SqlOp) : LeaseM op.Ret := ExceptT.mk (.call (.sql op) .done)

section Rules
variable {S β : Type} {W : World S LeaseOp LeaseOp.Ret} {C : Contract S} {i : Pid} {P : S → Prop}
  {ok : LeaseOp → Prop}

theorem performs_ask {op : LeaseOp} (allowed : ok op) : Performs ok (ask op) :=
  performs_request allowed

theorem performs_sql {op : SqlOp} (allowed : ok (.sql op)) : Performs ok (sql op) :=
  performs_request allowed

theorem hoare_sql {op : SqlOp} {Q : op.Ret → S → Prop} (stable : C.Stable i P)
    (post : ∀ a, C.Stable i (Q a))
    (effect : ∀ s answer s', C.Inv s → P s → W.step i s (.sql op) answer s' →
      C.Inv s' ∧ C.guarantee i s s' ∧ OnOk Q answer s') : Hoare W C i P (sql op) Q :=
  hoare_request stable post effect

variable {events : List (Event S LeaseOp LeaseOp.Ret)} {result : Except WorktreeError β}

theorem follows_ask {op : LeaseOp} {f : op.Ret → LeaseM β}
    (follows : Follows (ask op >>= f).run events (.done result)) :
    ∃ i answer s s' rest, events = ⟨i, op, answer, s, s'⟩ :: rest ∧
      Follows (f answer).run rest (.done result) := by
  rw [run_bind] at follows
  cases follows with
  | cons rest => exact ⟨_, _, _, _, _, rfl, rest⟩

theorem follows_sql {op : SqlOp} {f : op.Ret → LeaseM β}
    (follows : Follows (sql op >>= f).run events (.done result)) :
    (∃ i a s s' rest, events = ⟨i, .sql op, .ok a, s, s'⟩ :: rest ∧
        Follows (f a).run rest (.done result)) ∨
      ∃ i e s s', events = [⟨i, .sql op, .error e, s, s'⟩] ∧ result = .error e := by
  rcases follows_request follows with ⟨i, r, a, s, s', rest, rfl, decoded, following⟩ | failed
  · cases decoded
    exact Or.inl ⟨i, a, s, s', rest, rfl, following⟩
  · obtain ⟨i, r, e, s, s', rfl, decoded, rfl⟩ := failed
    cases decoded
    exact Or.inr ⟨i, e, s, s', rfl, rfl⟩

end Rules

end Phasegent.Lease
