import Phasegent.Js.Value
import Phasegent.Interleaving.Adversary

namespace Phasegent.Binding
open Js Interleaving

def leasePageLimit : Nat := 100
def maxLeasePages : Nat := 10000
def pagingFields : List String := ["items", "page", "limit", "total_count", "has_more"]
def leaseStatuses : List (List Char) := ["active".toList, "retained".toList, "released".toList]

-- `typeof value === "string" && value.length > 0`
def nonEmptyString (v : Value) : Bool := v.asString.any fun text => !text.isEmpty

def validLease (lease : Value) : Bool :=
  lease.isObject &&
    nonEmptyString (lease.get "lease_id") &&
    nonEmptyString (lease.get "repo_identity") &&
    (lease.get "issue").asSafeInteger.any (0 < ·) &&
    nonEmptyString (lease.get "session") &&
    nonEmptyString (lease.get "checkout_path") &&
    nonEmptyString (lease.get "worktree_path") &&
    (lease.get "branch").asString.isSome &&
    (lease.get "status").asString.any leaseStatuses.contains &&
    (lease.get "created_at").asSafeInteger.isSome &&
    (lease.get "heartbeat_at").asSafeInteger.isSome &&
    (!lease.hasOwn "release_reason" || (lease.get "release_reason").asString.isSome)

def leaseId (lease : Value) : List Char := ((lease.get "lease_id").asString).getD []

def addRows (leases : List Value) (ids : List (List Char)) : List Value → Option (List Value × List (List Char))
  | [] => some (leases, ids)
  | lease :: rest =>
      if !validLease lease || ids.contains (leaseId lease) then none
      else addRows (leases ++ [lease]) (leaseId lease :: ids) rest

def validUniqueLeases (leases : List Value) : Bool := (addRows [] [] leases).isSome

def isLegacyLeaseResult (parsed : Value) : Bool := !pagingFields.any parsed.hasOwn

inductive Output where
  | empty
  | invalid
  | json (value : Value)

structure CommandResult where
  ok : Bool
  value : Output

structure PageCommand where
  args : List String
  page : Nat
  limit : Nat
  deriving DecidableEq

abbrev PageReader := Prog PageCommand (fun _ => CommandResult)

inductive ContextField where
  | issue (expected : Int)
  | repoIdentity
  deriving DecidableEq

def ContextField.name : ContextField → String
  | .issue _ => "issue"
  | .repoIdentity => "repo_identity"

structure Walk where
  leases : List Value
  leaseIds : List (List Char)
  expectedContext : Value
  totalCount : Nat
  pageCount : Nat

def Walk.start : Walk := ⟨[], [], .undefined, 0, 0⟩

/-- What the body of the loop makes of one page. -/
inductive Verdict where
  | refused
  | complete (leases : List Value)
  | more (walk : Walk)

def legacyLeases (field : ContextField) (parsed : Value) : Verdict :=
  match (parsed.get "leases").asArray with
  | none => .refused
  | some leases =>
      if !validUniqueLeases leases then .refused
      else
        match field with
        | .issue expected => if (parsed.get "issue").isNumber expected then .complete leases else .refused
        | .repoIdentity => if nonEmptyString (parsed.get "repo_identity") then .complete leases else .refused

structure PageFields where
  items : List Value
  hasMore : Bool
  totalCount : Nat

def pageFields (page : Nat) (parsed : Value) : Option PageFields :=
  if !(parsed.get "page").isNumber page || !(parsed.get "limit").isNumber leasePageLimit then none
  else
    match (parsed.get "items").asArray, (parsed.get "has_more").asBoolean,
        (parsed.get "total_count").asSafeInteger with
    | some items, some hasMore, some total =>
        if leasePageLimit < items.length || total < 0 || (leasePageLimit * maxLeasePages : Nat) < total then none
        else some ⟨items, hasMore, total.toNat⟩
    | _, _, _ => none

def validContext : ContextField → Value → Bool
  | .issue expected, context => context.asSafeInteger == some expected
  | .repoIdentity, context => nonEmptyString context

-- `===` between two contexts that `validContext` accepted.
def sameContext : ContextField → Value → Value → Bool
  | .issue _, context, expected => context.asSafeInteger == expected.asSafeInteger
  | .repoIdentity, context, expected => context.asString == expected.asString

def pagesOf (totalCount : Nat) : Nat :=
  max 1 ((totalCount + leasePageLimit - 1) / leasePageLimit)

def expectations (field : ContextField) (page : Nat) (walk : Walk) (context : Value) (total : Nat) :
    Option Walk :=
  if page = 1 then
    let walk := { walk with expectedContext := context, totalCount := total, pageCount := pagesOf total }
    if maxLeasePages < walk.pageCount then none else some walk
  else if !sameContext field context walk.expectedContext || total ≠ walk.totalCount then none
  else some walk

def addPage (page : Nat) (walk : Walk) (fields : PageFields) : Verdict :=
  if walk.pageCount < page then .refused
  else if fields.items.length ≠ min leasePageLimit (walk.totalCount - walk.leases.length) then .refused
  else if fields.hasMore ≠ decide (walk.leases.length + fields.items.length < walk.totalCount) then .refused
  else
    match addRows walk.leases walk.leaseIds fields.items with
    | none => .refused
    | some (leases, leaseIds) =>
        if fields.hasMore then .more { walk with leases := leases, leaseIds := leaseIds }
        else if leases.length = walk.totalCount ∧ page = walk.pageCount then .complete leases
        else .refused

def judge (field : ContextField) (page : Nat) (walk : Walk) (result : CommandResult) : Verdict :=
  match result.ok, result.value with
  | true, .json parsed =>
      if !parsed.isObject then .refused
      else if page = 1 && isLegacyLeaseResult parsed then legacyLeases field parsed
      else
        match pageFields page parsed with
        | none => .refused
        | some fields =>
            let context := parsed.get field.name
            if !validContext field context then .refused
            else
              match expectations field page walk context fields.totalCount with
              | none => .refused
              | some walk => addPage page walk fields
  | _, _ => .refused

/-- The loop from `page` on, with `left` pages below the ceiling. -/
def readPages (args : List String) (field : ContextField) : Nat → Nat → Walk → PageReader (Option (List Value))
  | 0, _, _ => .done none
  | left + 1, page, walk =>
      .call ⟨args, page, leasePageLimit⟩ fun result =>
        match judge field page walk result with
        | .refused => .done none
        | .complete leases => .done (some leases)
        | .more walk => readPages args field left (page + 1) walk

def readCompleteLeaseCollection (args : List String) (field : ContextField) :
    PageReader (Option (List Value)) :=
  readPages args field maxLeasePages 1 .start

def statusArgs (issue : Int) : List String := ["worktree", "status", "--issue", toString issue]

def listArgs : List String := ["worktree", "list", "--no-sync"]

def readIssueLeases (issue : Int) : PageReader (Option (List Value)) :=
  if !Value.safeInteger issue || issue ≤ 0 then .done none
  else readCompleteLeaseCollection (statusArgs issue) (.issue issue)

def readIssueLeaseHistory (issue : Int) : PageReader (Option (List Value)) :=
  if !Value.safeInteger issue || issue ≤ 0 then .done none
  else (readCompleteLeaseCollection listArgs .repoIdentity).map fun leases =>
    leases.map (·.filter fun lease => (lease.get "issue").isNumber issue)

/-- `String(value ?? "")`; how the language prints what is neither a string nor a small enough
integer is left open. -/
def printed (other : Value → List Char) : Value → List Char
  | .undefined => []
  | .null => []
  | .string text => text
  | .number (some q) => if q.den = 1 ∧ Value.safeInteger q.num then (toString q.num).toList else other (.number (some q))
  | v => other v

def isActiveLease (lease : Value) : Bool :=
  lease.isObject && (lease.get "status").isString "active".toList && nonEmptyString (lease.get "worktree_path")

def newer (other : Value → List Char) (best : Option Value) (lease : Value) : Option Value :=
  if !isActiveLease lease then best
  else
    match best with
    | none => some lease
    | some best =>
        if printed other (best.get "heartbeat_at") < printed other (lease.get "heartbeat_at") then some lease
        else some best

def pickActiveWorktreePath (other : Value → List Char) (leases : List Value) : Option Value :=
  (leases.foldl (newer other) none).map (·.get "worktree_path")

end Phasegent.Binding
