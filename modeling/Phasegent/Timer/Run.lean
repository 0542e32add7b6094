import Phasegent.Task.Key

namespace Phasegent.Timer
open Fallible

inductive TimerResult where
  | done | partly | blocked | failed
  deriving DecidableEq, Repr

namespace TimerResult

def text : TimerResult → String
  | .done => "DONE"
  | .partly => "PARTIAL"
  | .blocked => "BLOCKED"
  | .failed => "FAILED"

def parse (result : String) : Except String TimerResult :=
  if result = "DONE" then .ok .done
  else if result = "PARTIAL" then .ok .partly
  else if result = "BLOCKED" then .ok .blocked
  else if result = "FAILED" then .ok .failed
  else .error ("invalid timer result '" ++ result ++ "'")

theorem parse_text (result : TimerResult) : parse result.text = .ok result := by
  cases result <;> rfl

theorem text_of_parse {text : String} {result : TimerResult} (parsed : parse text = .ok result) :
    text = result.text := by
  unfold parse at parsed
  split at parsed
  · cases parsed
    assumption
  split at parsed
  · cases parsed
    assumption
  split at parsed
  · cases parsed
    assumption
  split at parsed
  · cases parsed
    assumption
  · cases parsed

end TimerResult

-- The status column: `running` while the row is open, the result once it is finished.
inductive RunStatus where
  | running
  | finished (result : TimerResult)
  deriving DecidableEq, Repr

def RunStatus.text : RunStatus → String
  | .running => "running"
  | .finished result => result.text

inductive SyncStatus where
  | pending | synced | unconfirmed | failed | projecting
  deriving DecidableEq, Repr

namespace SyncStatus

def text : SyncStatus → String
  | .pending => "pending"
  | .synced => "synced"
  | .unconfirmed => "unconfirmed"
  | .failed => "failed"
  | .projecting => "projecting"

def parse (status : String) : Except String SyncStatus :=
  if status = "pending" then .ok .pending
  else if status = "synced" then .ok .synced
  else if status = "unconfirmed" then .ok .unconfirmed
  else if status = "failed" then .ok .failed
  else if status = "projecting" then .ok .projecting
  else .error ("invalid timer sync status '" ++ status ++ "'")

-- The states that end a claim and clear its token.
def settled : SyncStatus → Bool
  | .synced | .failed | .unconfirmed => true
  | .pending | .projecting => false

def claimable : SyncStatus → Bool
  | .pending | .failed | .unconfirmed => true
  | .synced | .projecting => false

end SyncStatus

structure TimerRun where
  runId : String
  issue : Nat
  phase : String
  role : String
  attempt : Nat
  startedAt : Int
  finishedAt : Option Int
  status : RunStatus
  elapsedSeconds : Option Int
  roundedHours : Option Nat
  activityId : Option Nat
  timeEntryId : Option Nat
  syncStatus : SyncStatus
  syncError : Option String
  ownerSessionId : Option String
  ownerCallId : Option String
  projectionToken : Option String
  projectionClaimedAt : Option Int
  deriving DecidableEq, Repr

structure TimerRunOwner where
  sessionId : Option String
  callId : Option String
  deriving DecidableEq, Repr

def projectionLeaseSecs : Int := 120

def projectionTokenBound : Nat := 128

section Validation

def hasControl (text : String) : Bool := text.toList.any Text.isControl

def validateTimerIdentity (runId : String) (issue : Nat) (phase role : String) (attempt : Nat) :
    Except String Unit := do
  refuse (trimText runId = "" ∨ 128 < runId.toList.length)
    "timer run id must be a non-empty value of at most 128 characters"
  refuse (hasControl runId) "timer run id must not contain control characters"
  refuse (issue = 0) "timer issue id must be greater than zero"
  refuse (trimText phase = "" ∨ 128 < phase.toList.length)
    "timer phase must be a non-empty value of at most 128 characters"
  refuse (hasControl phase) "timer phase must not contain control characters"
  refuse (role ≠ "executor" ∧ role ≠ "reviewer") "timer agent role must be executor or reviewer"
  refuse (attempt = 0 ∨ Task.i64Max < attempt) "timer attempt must be between 1 and i64::MAX"

def validateOwnerField (value : Option String) (name : String) : Except String (Option String) :=
  match value with
  | none => .ok none
  | some raw => do
      let trimmed := trimText raw
      if trimmed = "" then return none
      else do
        refuse (128 < trimmed.toList.length) (name ++ " must be at most 128 characters")
        refuse (hasControl trimmed) (name ++ " must not contain control characters")
        return some trimmed

def ensureSameTimerIdentity (run : TimerRun) (issue : Nat) (phase role : String) (attempt : Nat) :
    Except String Unit :=
  refuse (run.issue ≠ issue ∨ run.phase ≠ phase ∨ run.role ≠ role ∨ run.attempt ≠ attempt)
    ("timer run '" ++ run.runId ++ "' was already used for a different phase identity")

def validateProjectionToken (token : String) : Except String Unit := do
  refuse (trimText token = "" ∨ projectionTokenBound < token.toList.length)
    ("projection token must be 1.." ++ projectionTokenBound.repr ++ " characters")
  refuse (hasControl token) "projection token must not contain control characters"

-- An unsigned number bound to an INTEGER column by its own type.
def bindU64 (operation : String) (number : Option Nat) : Except String Unit :=
  refuse (number.any (Task.i64Max < ·))
    (operation ++ ": out of range integral type conversion attempted")

end Validation

/-- Redmine hours in hundredths, rounded up and never zero. -/
def roundedHours (elapsedSeconds : Int) : Nat :=
  if elapsedSeconds < 0 then 0 else max (((elapsedSeconds * 100 + 3599) / 3600).toNat) 1

def boundedErrorMessage (message : String) : String := String.ofList (message.toList.take 512)

def padLeft (width : Nat) (number : Int) : String :=
  let digits := number.natAbs.repr.toList
  let sign := if number < 0 then ['-'] else []
  String.ofList (sign ++ List.replicate (width - sign.length - digits.length) '0' ++ digits)

-- The civil date of a moment, by the days-from-civil algorithm the source writes out.
def formatUnixDate (timestamp : Int) : String :=
  let shifted := timestamp.fdiv 86400 + 719468
  let era := (if 0 ≤ shifted then shifted else shifted - 146096).tdiv 146097
  let dayOfEra := shifted - era * 146097
  let yearOfEra := (dayOfEra - dayOfEra.tdiv 1460 + dayOfEra.tdiv 36524 - dayOfEra.tdiv 146096).tdiv 365
  let dayOfYear := dayOfEra - (365 * yearOfEra + yearOfEra.tdiv 4 - yearOfEra.tdiv 100)
  let monthPrime := (5 * dayOfYear + 2).tdiv 153
  let day := dayOfYear - (153 * monthPrime + 2).tdiv 5 + 1
  let month := monthPrime + if monthPrime < 10 then 3 else -9
  let year := yearOfEra + era * 400 + if month ≤ 2 then 1 else 0
  padLeft 4 year ++ "-" ++ padLeft 2 month ++ "-" ++ padLeft 2 day

theorem roundedHours_pos {elapsedSeconds : Int} (elapsed : 0 ≤ elapsedSeconds) :
    0 < roundedHours elapsedSeconds := by
  rw [roundedHours, if_neg (by omega)]
  exact lt_max_of_lt_right Nat.one_pos

theorem elapsed_le_roundedHours {elapsedSeconds : Int} (elapsed : 0 ≤ elapsedSeconds) :
    elapsedSeconds * 100 ≤ roundedHours elapsedSeconds * 3600 := by
  rw [roundedHours, if_neg (by omega)]
  omega

example : formatUnixDate 1700000060 = "2023-11-14" := by decide

end Phasegent.Timer
