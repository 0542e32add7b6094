import Mathlib.Data.List.Lex
import Phasegent.Cleanup.Removal
import Phasegent.Interleaving.Embedding

namespace Phasegent.Cleanup
open Fallible Interleaving
open Lease (GitOutput WorktreeError joinPath)
open Restore (isBlank)

structure IoError where
  notFound : Bool
  text : String
  deriving DecidableEq, Repr

structure Metadata where
  isSymlink : Bool
  identity : FileIdentity
  deriving DecidableEq, Repr

-- A removal that fails may have removed a part before.
structure RemovalFailure where
  text : String
  removedSome : Bool
  deriving DecidableEq, Repr

inductive CacheOp where
  | symlinkMetadata (path : String)
  | metadata (path : String)
  | readDir (path : String)
  | git (arguments : List String) (workdir : String)
  | removeDirAll (path : String)
  deriving DecidableEq, Repr

abbrev CacheOp.Ret : CacheOp → Type
  | .symlinkMetadata _ | .metadata _ => Except IoError Metadata
  | .readDir _ => Except IoError (List (Except IoError String))
  | .git .. => Except WorktreeError GitOutput
  | .removeDirAll _ => Except RemovalFailure Unit

abbrev CacheM := Attempt CacheOp CacheOp.Ret String

abbrev CacheHistory := History CacheOp CacheOp.Ret

namespace Cache

def cachePath (worktree : String) : String := joinPath worktree ".cache"

section Inventory

def limitReached : String :=
  "the worktree .cache exceeds the " ++ maxCacheEntries.repr ++ "-entry inventory limit"

def unreadable (error : IoError) : String := "the worktree .cache could not be read: " ++ Lease.bounded error.text

def uninspectable (error : IoError) : String :=
  "the worktree .cache could not be inspected: " ++ Lease.bounded error.text

-- The entries found so far, and the directories still to read, the next one first.
structure Walk where
  entries : List CacheEntry
  pending : List (String × String)

def Walk.add (walk : Walk) (child path : String) (identity : FileIdentity) : Walk where
  entries := walk.entries ++ [⟨child, identity⟩]
  pending := if identity.directory then (child, path) :: walk.pending else walk.pending

def readEntry (rootDev : Nat) (relative directory name : String) (walk : Walk) : CacheM Walk := do
  fromExcept (refuse (maxCacheEntries ≤ walk.entries.length) limitReached)
  let path := joinPath directory name
  let metadata ← request (.symlinkMetadata path) (·.mapError fun error =>
    "a worktree .cache entry could not be inspected: " ++ Lease.bounded error.text)
  fromExcept (refuse (metadata.isSymlink = true) "the worktree .cache contains a symlink")
  fromExcept (refuse (metadata.identity.dev ≠ rootDev) "the worktree .cache contains a different filesystem")
  return walk.add (joinPath relative name) path metadata.identity

def readEntries (rootDev : Nat) (relative directory : String) :
    List (Except IoError String) → Walk → CacheM Walk
  | [], walk => return walk
  | entry :: rest, walk => do
      let name ← fromExcept (entry.mapError unreadable)
      let walk ← readEntry rootDev relative directory name walk
      readEntries rootDev relative directory rest walk

def Walk.left (walk : Walk) : Nat := walk.pending.length + (maxCacheEntries - walk.entries.length)

def walkDirectories (rootDev : Nat) : Nat → Walk → CacheM (List CacheEntry)
  | _, ⟨entries, []⟩ => return entries
  | 0, _ => throw "unreachable"
  | fuel + 1, ⟨entries, (relative, directory) :: pending⟩ => do
      let names ← request (.readDir directory) (·.mapError unreadable)
      let walk ← readEntries rootDev relative directory names ⟨entries, pending⟩
      walkDirectories rootDev fuel walk

def FileIdentity.key (identity : FileIdentity) : List Int :=
  [identity.dev, identity.ino, identity.mtime, identity.mtimeNsec, identity.ctime, identity.ctimeNsec,
    identity.len, if identity.directory then 1 else 0]

def entryBefore (a b : CacheEntry) : Bool :=
  let components (path : String) := path.toList.splitOn '/'
  if a.path = b.path then FileIdentity.key a.identity ≤ FileIdentity.key b.identity
  else components a.path ≤ components b.path

def inventory (cache : String) : CacheM CacheInventory := do
  let root ← request (.symlinkMetadata cache) (·.mapError uninspectable)
  let entries ← walkDirectories root.identity.dev (maxCacheEntries + 1) ⟨[], [("", cache)]⟩
  return ⟨root.identity, entries.mergeSort entryBefore⟩

end Inventory

section Inspection

def sameFilesystem (worktree cache : String) : CacheM Bool := do
  match ← outcome (request (.metadata worktree) id : Attempt CacheOp CacheOp.Ret IoError Metadata) with
  | .error _ => return false
  | .ok left =>
      match ← outcome (request (.metadata cache) id : Attempt CacheOp CacheOp.Ret IoError Metadata) with
      | .error _ => return false
      | .ok right => return left.identity.dev == right.identity.dev

def probe (arguments : List String) (worktree unread failed : String) : CacheM String := do
  let output ← request (.git arguments worktree) (·.mapError fun error =>
    unread ++ ": " ++ Lease.bounded error.message)
  fromExcept (refuse (output.status ≠ 0) failed)
  return output.stdout

def inspectInventory (worktree : String) : CacheM CacheInspection := do
  let found ← inventory (cachePath worktree)
  fromExcept (refuse (maxCacheEntries < found.entries.length) limitReached)
  return .cacheOnly found

def inspectDirectory (worktree : String) : CacheM CacheInspection := do
  let same ← sameFilesystem worktree (cachePath worktree)
  fromExcept (refuse (same = false) "the worktree .cache is on a different filesystem")
  let tracked ← probe ["ls-files", "--", ".cache"] worktree
    "the tracked paths under .cache could not be listed" "git ls-files failed while checking .cache"
  if isBlank tracked = false then return .notCacheOnly
  else do
    let outside ← probe outsideCache worktree "the worktree status outside .cache could not be read"
      "git status failed while checking paths outside .cache"
    if isBlank outside = false then return .notCacheOnly
    else do
      let inside ← probe insideCache worktree "the worktree status of .cache could not be read"
        "git status failed while checking .cache"
      if "?? ".toList.isPrefixOf (Text.trim inside.toList) = false then return .notCacheOnly
      else inspectInventory worktree

def inspect (worktree : String) : CacheM CacheInspection := do
  match ← request (.symlinkMetadata (cachePath worktree)) .ok with
  | .error error =>
      if error.notFound then return .notCacheOnly else throw (uninspectable error)
  | .ok metadata => do
      fromExcept (refuse (metadata.isSymlink = true)
        "the worktree .cache is a symlink, not a real directory")
      if metadata.identity.directory = false then return .notCacheOnly
      else inspectDirectory worktree

end Inspection

section Clearing

def readClean (output : GitOutput) : Except WorktreeError Bool := readStatus output

def requireClean (worktree dirty unread : String) : CacheM Unit := do
  let clean ← request (.git ["status", "--porcelain"] worktree) fun answer =>
    (answer >>= readClean).mapError fun error => unread ++ ": " ++ Lease.bounded error.message
  fromExcept (refuse (clean = false) dirty)

/-- The number of entries removed, or nothing where the worktree was clean without a removal. -/
def clearCacheOnly (worktree : String) : Option CacheInventory → CacheM (Option Nat)
  | none => do
      requireClean worktree "the worktree became dirty after the local guard" "cleanliness probe failed"
      return none
  | some expected => do
      let inspection ← inspect worktree
      fromExcept (expectCache expected inspection)
      request (.removeDirAll (cachePath worktree)) (·.mapError fun failure =>
        "removing the root .cache failed: " ++ Lease.bounded failure.text)
      requireClean worktree "the worktree became dirty after the cache cleanup"
        "cleanliness probe after cache cleanup failed"
      return some expected.entries.length

end Clearing

-- What a removal pass asks of the cache as one question is read here step by step.
section Steps
variable (others : (op : CleanupOp) → Prog CacheOp CacheOp.Ret op.Ret)

def rootMetadata : Except IoError Metadata → CacheMetadata
  | .error error => if error.notFound then .notFound else .unreadable error.text
  | .ok metadata =>
      if metadata.isSymlink then .symlink else if metadata.identity.directory then .directory else .file

def steps : (op : CleanupOp) → Prog CacheOp CacheOp.Ret op.Ret
  | .git arguments workdir => .call (.git arguments workdir) .done
  | .cacheMetadata worktree => .call (.symlinkMetadata (cachePath worktree)) fun r => .done (rootMetadata r)
  | .sameFilesystem worktree => (sameFilesystem worktree (cachePath worktree)).run.map fun r => r.toOption.getD false
  | .inventory worktree => (inventory (cachePath worktree)).run
  | .removeCache worktree => .call (.removeDirAll (cachePath worktree)) fun r => .done (r.mapError (·.text))
  | op => others op

def stepped {ε α : Type} (p : Attempt CleanupOp CleanupOp.Ret ε α) : Attempt CacheOp CacheOp.Ret ε α :=
  ExceptT.mk (p.run.handle (steps others))

variable {ε α β : Type}

theorem stepped_bind (p : Attempt CleanupOp CleanupOp.Ret ε α) (f : α → Attempt CleanupOp CleanupOp.Ret ε β) :
    stepped others (p >>= f) = stepped others p >>= fun a => stepped others (f a) := by
  apply ExceptT.ext
  rw [stepped, run_bind, ExceptT.run_mk, Prog.handle_bind, run_bind]
  congr 1
  funext result
  cases result <;> rfl

theorem stepped_fromExcept (x : Except ε α) : stepped others (fromExcept x) = fromExcept x := rfl

theorem stepped_git (rename : WorktreeError → ε) (arguments : List String) (worktree : String) :
    stepped others (renameFailure rename (runGit arguments worktree)) =
      request (.git arguments worktree) (·.mapError rename) := rfl

theorem stepped_probe (arguments : List String) (worktree unread failed : String) :
    stepped others (Cleanup.probe arguments worktree unread failed) = probe arguments worktree unread failed := by
  rw [Cleanup.probe, stepped_bind, stepped_git, probe]
  refine bind_congr fun output => ?_
  rw [stepped_bind, stepped_fromExcept]
  rfl

theorem stepped_sameFilesystem (worktree : String) :
    stepped others (request (.sameFilesystem worktree) .ok : CleanupM Bool) =
      sameFilesystem worktree (cachePath worktree) := by
  change ExceptT.mk (((sameFilesystem worktree (cachePath worktree)).run.map _).bind _) = _
  apply ExceptT.ext
  rw [sameFilesystem, run_bind]
  change Prog.call _ _ = Prog.call _ _
  congr 1
  funext left
  cases left with
  | error error => rfl
  | ok left =>
      change Prog.call _ _ = Prog.call _ _
      congr 1
      funext right
      cases right <;> rfl

theorem bind_fromExcept {p : CacheM α} : p.run.bind (fun result => (fromExcept result : CacheM α).run) = p.run := by
  generalize p.run = program
  induction program with
  | done result => rfl
  | call op next ih => exact congrArg (Prog.call op) (funext ih)

theorem stepped_inspectInventory (worktree : String) :
    stepped others (Cleanup.inspectInventory worktree) = inspectInventory worktree := by
  have listed : stepped others (request (.inventory worktree) id : CleanupM CacheInventory) =
      inventory (cachePath worktree) := ExceptT.ext bind_fromExcept
  rw [Cleanup.inspectInventory, stepped_bind, listed, inspectInventory]
  refine bind_congr fun found => ?_
  rw [stepped_bind, stepped_fromExcept]
  rfl

theorem stepped_inspectDirectory (worktree : String) :
    stepped others (Cleanup.inspectDirectory worktree) = inspectDirectory worktree := by
  rw [Cleanup.inspectDirectory, stepped_bind, stepped_sameFilesystem, inspectDirectory]
  refine bind_congr fun same => ?_
  rw [stepped_bind, stepped_fromExcept]
  refine bind_congr fun _ => ?_
  rw [stepped_bind, stepped_probe]
  refine bind_congr fun tracked => ?_
  split
  · rfl
  rw [stepped_bind, stepped_probe]
  refine bind_congr fun outside => ?_
  split
  · rfl
  rw [stepped_bind, stepped_probe]
  refine bind_congr fun inside => ?_
  split
  · rfl
  · exact stepped_inspectInventory others worktree

theorem stepped_inspect (worktree : String) : stepped others (Cleanup.inspect worktree) = inspect worktree := by
  apply ExceptT.ext
  change Prog.call _ _ = Prog.call _ _
  congr 1
  funext root
  rcases root with ⟨notFound, text⟩ | ⟨isSymlink, identity⟩
  · cases notFound <;> rfl
  · cases isSymlink with
    | true => rfl
    | false =>
        obtain ⟨dev, ino, mtime, mtimeNsec, ctime, ctimeNsec, len, directory⟩ := identity
        cases directory with
        | false => rfl
        | true => exact congrArg ExceptT.run (stepped_inspectDirectory others worktree)

theorem stepped_requireClean (worktree dirty unread : String) :
    stepped others (Cleanup.requireClean worktree dirty unread) = requireClean worktree dirty unread := by
  have read : stepped others (renameFailure (fun error => unread ++ ": " ++ Lease.bounded error.message)
      (isClean worktree)) = request (.git ["status", "--porcelain"] worktree) fun answer =>
        (answer >>= readClean).mapError fun error => unread ++ ": " ++ Lease.bounded error.message := by
    apply ExceptT.ext
    change Prog.call _ _ = Prog.call _ _
    congr 1
    funext answer
    cases answer <;> rfl
  rw [Cleanup.requireClean, stepped_bind, read]
  rfl

def dropCount (result : Except String β) : Except String Unit := result.map fun _ => ()

theorem run_bind_dropCount {p : CacheM α} {f : α → CacheM Unit} {f' : α → CacheM β}
    (each : ∀ a, (f a).run = (f' a).run.map dropCount) : (p >>= f).run = (p >>= f').run.map dropCount := by
  rw [run_bind, run_bind, Prog.map, Prog.bind_assoc]
  congr 1
  funext result
  cases result with
  | error error => rfl
  | ok a => exact each a

theorem run_dropCount {p : CacheM Unit} (b : β) : p.run = (p >>= fun _ => pure b).run.map dropCount := by
  rw [run_bind, Prog.map, Prog.bind_assoc]
  generalize p.run = program
  induction program with
  | done result => cases result <;> rfl
  | call op next ih => exact congrArg (Prog.call op) (funext ih)

theorem stepped_clearCacheOnly (worktree : String) (expected : Option CacheInventory) :
    (stepped others (Cleanup.clearCacheOnly worktree expected)).run =
      (clearCacheOnly worktree expected).run.map dropCount := by
  cases expected with
  | none =>
      rw [Cleanup.clearCacheOnly, stepped_requireClean, clearCacheOnly]
      exact run_dropCount none
  | some expected =>
      have removed : stepped others (request (.removeCache worktree) (·.mapError fun error =>
          "removing the root .cache failed: " ++ Lease.bounded error) : CleanupM Unit) =
          request (.removeDirAll (cachePath worktree)) (·.mapError fun failure =>
            "removing the root .cache failed: " ++ Lease.bounded failure.text) := by
        apply ExceptT.ext
        change Prog.call _ _ = Prog.call _ _
        congr 1
        funext r
        cases r <;> rfl
      rw [Cleanup.clearCacheOnly, stepped_bind, stepped_inspect, clearCacheOnly]
      refine run_bind_dropCount fun inspection => ?_
      rw [stepped_bind, stepped_fromExcept]
      refine run_bind_dropCount fun _ => ?_
      rw [stepped_bind, removed, stepped_requireClean]
      exact run_bind_dropCount fun _ => run_dropCount (some expected.entries.length)

end Steps

end Cache

end Phasegent.Cleanup
