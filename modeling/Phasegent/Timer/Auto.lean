import Phasegent.Timer.Commands

namespace Phasegent.Timer
open Fallible Interleaving

def maxAutoWarningChars : Nat := 200

def bounded (text : String) : String := String.ofList (text.toList.take maxAutoWarningChars)

def statusToAgentRole (statusName : String) : String × Bool :=
  let lowered := String.ofList (Text.toAsciiLower statusName.toList)
  if mentions lowered "test" || mentions lowered "qa" || mentions lowered "review" then
    ("reviewer", false)
  else if mentions lowered "progress" || mentions lowered "dev" || mentions lowered "impl" then
    ("executor", false)
  else ("executor", true)

inductive AutoTimerOutcome where
  | started (issue : Nat) (statusName role : String) (finishedRuns : List String)
      (newRunId : String) (warning : Option String)
  | warning (reason : String)
  | skipped
  deriving DecidableEq, Repr

inductive AutoCloseOutcome where
  | noop (reason : String)
  | closed (issue : Nat) (finishedRuns : List String)
  | warning (reason : String)
  deriving DecidableEq, Repr

section Auto
variable (render : PhasegentError → String)

def refusing (prefixed : String) {α : Type} (p : TimerM PhasegentError α) : StoreM α :=
  renameFailure (fun error => prefixed ++ render error) p

def admitFinish (runId : String) : StoreM Unit := do
  match ← refusing render "auto timer finish refused: " (readOnlyRunIssue "timer finish" runId) with
  | some issue => do
      let _ ← refusing render "auto timer finish refused: " (resolveTimerRoute issue)
      return ()
  | none => return ()

def autoFinishRun (runId : String) : StoreM Unit := do
  admitFinish render runId
  renameFailure ("auto finish storage: " ++ ·) storageOpen
  let finishedAt ← nowEpochSeconds
  let _ ← renameFailure ("auto finish: " ++ ·) (finishTimerRun runId "DONE" finishedAt)
  return ()

def autoStartRun (issue : Nat) (phase role : String) (attempt : Nat) : StoreM String := do
  let _ ← refusing render "auto timer start refused: " (resolveTimerRoute issue)
  let runId ← request (.generateRunId "auto") .ok
  let startedAt ← nowEpochSeconds
  renameFailure ("auto start storage: " ++ ·) storageOpen
  let _ ← renameFailure ("auto start: " ++ ·)
    (startTimerRunWithOwner runId issue phase role attempt startedAt ⟨none, none⟩)
  return runId

-- The sweep gives up at the first run it cannot finish.
def finishRuns : List TimerRun → StoreM (List String)
  | [] => return []
  | run :: rest => do
      match ← outcome (autoFinishRun render run.runId) with
      | .ok _ => do
          let finished ← finishRuns rest
          return run.runId :: finished
      | .error error =>
          throw ("could not finish running auto-run '" ++ run.runId ++ "': " ++ error)

def closeIssueRuns (issue : Nat) : StoreM (List String) := do
  renameFailure ("storage open: " ++ ·) storageOpen
  let running ← renameFailure ("list running: " ++ ·) (listRunningRunsForIssue issue)
  finishRuns render running.reverse

def joined (separator : String) : List String → String
  | [] => ""
  | [text] => text
  | text :: rest => text ++ separator ++ joined separator rest

def fallbackNote (statusName : String) : String :=
  "status '" ++ statusName ++ "' had no canonical mapping; defaulted to executor"

def buildTransitionWarning (fallback : Bool) (sweepWarnings : List String) (statusName : String) :
    Option String :=
  if !fallback && sweepWarnings.isEmpty then none
  else some (joined "; " ((if fallback then [fallbackNote statusName] else []) ++ sweepWarnings))

def startFailure (fallback : Bool) (sweepWarnings : List String) (statusName error : String) : String :=
  "auto timer start failed: " ++ error ++
    (if fallback then " (" ++ fallbackNote statusName ++ ")" else "") ++
    String.join (sweepWarnings.map ("; " ++ ·))

def swept : Except String (List String) → List String × List String
  | .ok closed => (closed, [])
  | .error error => ([], ["close previous auto-run failed: " ++ error])

def autoTransitionTimer (issue : Nat) (providerKind : ProviderKind) (statusName : String) :
    StoreM AutoTimerOutcome :=
  if providerKind = .forgejo then return .skipped
  else do
    let (role, fallback) := statusToAgentRole statusName
    let (finishedRuns, sweepWarnings) := swept (← outcome (closeIssueRuns render issue))
    match ← outcome (autoStartRun render issue statusName role 1) with
    | .ok runId =>
        return .started issue statusName role finishedRuns runId
          (buildTransitionWarning fallback sweepWarnings statusName)
    | .error error => return .warning (startFailure fallback sweepWarnings statusName error)

def closeOutcome (issue : Nat) : Except String (List String) → AutoCloseOutcome
  | .ok [] => .noop ("no running auto-runs to finish for issue " ++ issue.repr)
  | .ok finishedRuns => .closed issue finishedRuns
  | .error error => .warning ("auto timer close failed: " ++ error)

def autoCloseIssueTimer (issue : Nat) (providerKind : ProviderKind) : StoreM AutoCloseOutcome :=
  if providerKind = .forgejo then return .noop "Forgejo time tracking is unsupported"
  else do
    match ← outcome (resolveTimerRoute issue) with
    | .error error =>
        if error.isNotSupported then return .noop (bounded (render error))
        else return .warning (bounded ("auto timer close refused: " ++ render error))
    | .ok _ => return closeOutcome issue (← outcome (closeIssueRuns render issue))

end Auto

end Phasegent.Timer
