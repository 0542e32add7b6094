import Phasegent.Cleanup.Cache

namespace Phasegent.Cleanup.Cache
open Fallible Interleaving
open Lease (GitOutput WorktreeError)
open Restore (isBlank)

abbrev CacheAct := Act CacheOp CacheOp.Ret

section Walk

variable {rootDev : Nat}

def Plain (part : CacheHistory) : Prop :=
  ∀ path metadata, (⟨.symlinkMetadata path, .ok metadata⟩ : CacheAct) ∈ part → metadata.isSymlink = false

theorem plain_nil : Plain [] := nofun

theorem Plain.append {part more : CacheHistory} (plain : Plain part) (plain' : Plain more) : Plain (more ++ part) := by
  intro path metadata among
  rcases List.mem_append.mp among with among | among
  · exact plain' path metadata among
  · exact plain path metadata among

structure Sound (rootDev : Nat) (entries : List CacheEntry) : Prop where
  few : entries.length ≤ maxCacheEntries
  device : ∀ entry ∈ entries, entry.identity.dev = rootDev

theorem reads_refuse {p : Prop} [Decidable p] {e : String} {Q : Unit → CacheHistory → Prop} (passes : ¬p → Q () []) :
    Reads (fun _ => True) (fromExcept (refuse p e) : CacheM Unit) Q := by
  refine reads_fromExcept fun a accepted => ?_
  by_cases refused : p
  · rw [refuse, if_pos refused] at accepted
    cases accepted
  · exact passes refused

theorem reads_readEntry {relative directory name : String} {walk : Walk} (sound : Sound rootDev walk.entries) :
    Reads (fun _ => True) (readEntry rootDev relative directory name walk)
      fun walk' part => Sound rootDev walk'.entries ∧ Plain part := by
  refine reads_bind (reads_refuse (Q := fun _ part => part = [] ∧ walk.entries.length < maxCacheEntries)
    fun room => ⟨rfl, Nat.not_le.mp room⟩) fun _ _ ⟨started, room⟩ => ?_
  subst started
  refine reads_bind (M := fun metadata part =>
    part = [⟨.symlinkMetadata (Lease.joinPath directory name), .ok metadata⟩]) (reads_request trivial ?_) ?_
  · rintro (_ | metadata) own answered
    · cases answered
    · cases answered
      rfl
  rintro metadata part rfl
  refine reads_bind (reads_refuse (Q := fun _ part => part = [] ∧ metadata.isSymlink = false) fun other =>
    ⟨rfl, by simpa using other⟩) fun _ _ ⟨checked, other⟩ => ?_
  subst checked
  refine reads_bind (reads_refuse (Q := fun _ part => part = [] ∧ metadata.identity.dev = rootDev) fun near =>
    ⟨rfl, by simpa using near⟩) fun _ _ ⟨checked, near⟩ => ?_
  subst checked
  refine reads_pure ⟨⟨?_, ?_⟩, ?_⟩
  · simpa [Walk.add] using room
  · intro entry among
    rcases List.mem_append.mp among with among | among
    · exact sound.device entry among
    · rw [List.mem_singleton.mp among]
      exact near
  · intro path own among
    simp only [List.nil_append, List.append_nil, List.mem_singleton] at among
    cases among
    exact other

theorem reads_readEntries {relative directory : String} {names : List (Except IoError String)} {walk : Walk}
    (sound : Sound rootDev walk.entries) :
    Reads (fun _ => True) (readEntries rootDev relative directory names walk)
      fun walk' part => Sound rootDev walk'.entries ∧ Plain part := by
  induction names generalizing walk with
  | nil => exact reads_pure ⟨sound, plain_nil⟩
  | cons entry rest ih =>
      refine reads_bind (M := fun _ part => part = []) (reads_fromExcept fun _ _ => rfl) fun name part empty => ?_
      subst empty
      refine reads_bind (reads_readEntry sound) fun walk' part ⟨sound', plain⟩ => ?_
      exact (ih sound').weaken fun walk'' more ⟨sound'', plain'⟩ => ⟨sound'', by simpa using plain.append plain'⟩

theorem reads_walkDirectories {fuel : Nat} {walk : Walk} (sound : Sound rootDev walk.entries) :
    Reads (fun _ => True) (walkDirectories rootDev fuel walk)
      fun entries part => Sound rootDev entries ∧ Plain part := by
  induction fuel generalizing walk with
  | zero =>
      obtain ⟨entries, pending⟩ := walk
      cases pending with
      | nil => exact reads_pure ⟨sound, plain_nil⟩
      | cons _ _ => exact reads_throw
  | succ fuel ih =>
      obtain ⟨entries, pending⟩ := walk
      cases pending with
      | nil => exact reads_pure ⟨sound, plain_nil⟩
      | cons next pending =>
          obtain ⟨relative, directory⟩ := next
          have listed : Reads (fun _ => True)
              (request (.readDir directory) (·.mapError unreadable) : CacheM (List (Except IoError String)))
              fun _ part => Plain part := by
            refine reads_request trivial fun r a _ path metadata among => ?_
            rw [List.mem_singleton] at among
            cases among
          refine reads_bind listed fun names part plain => reads_bind (reads_readEntries sound) ?_
          intro walk' more ⟨sound', plain'⟩
          refine (ih sound').weaken fun entries' rest ⟨sound'', plain''⟩ => ⟨sound'', ?_⟩
          rw [List.append_assoc]
          exact (plain.append plain').append plain''

theorem entries_mergeSort {entries : List CacheEntry} (sound : Sound rootDev entries) :
    Sound rootDev (entries.mergeSort entryBefore) where
  few := by
    rw [List.length_mergeSort]
    exact sound.few
  device entry among := sound.device entry (List.mem_mergeSort.mp among)

theorem reads_inventory {cache : String} :
    Reads (fun _ => True) (inventory cache) fun found part =>
      Sound found.root.dev found.entries ∧
        ∀ path metadata, (⟨.symlinkMetadata path, .ok metadata⟩ : CacheAct) ∈ part →
          metadata.isSymlink = false ∨ path = cache := by
  have rooted : Reads (fun _ => True) (request (.symlinkMetadata cache) (·.mapError uninspectable) : CacheM Metadata)
      fun metadata part => part = [⟨.symlinkMetadata cache, .ok metadata⟩] := by
    refine reads_request trivial ?_
    rintro (_ | metadata) own answered
    · cases answered
    · cases answered
      rfl
  refine reads_bind rooted fun root part same => ?_
  subst same
  have walked : Reads (fun _ => True)
      (walkDirectories root.identity.dev (maxCacheEntries + 1) ⟨[], [("", cache)]⟩)
      fun entries part => Sound root.identity.dev entries ∧ Plain part :=
    reads_walkDirectories ⟨Nat.zero_le _, nofun⟩
  refine reads_bind walked fun entries more ⟨sound, plain⟩ => reads_pure ⟨entries_mergeSort sound, ?_⟩
  intro path metadata among
  simp only [List.nil_append, List.mem_append, List.mem_singleton] at among
  rcases among with among | among
  · exact Or.inl (plain path metadata among)
  · cases among
    exact Or.inr rfl

end Walk

section Inspection

/-- What an inspection that returns an inventory has read. -/
structure Surveyed (worktree : String) (found : CacheInventory) (part : CacheHistory) : Prop where
  sound : Sound found.root.dev found.entries
  directory : ∃ metadata, (⟨.symlinkMetadata (cachePath worktree), .ok metadata⟩ : CacheAct) ∈ part ∧
    metadata.isSymlink = false ∧ metadata.identity.directory = true
  plain : ∀ path metadata, (⟨.symlinkMetadata path, .ok metadata⟩ : CacheAct) ∈ part →
    metadata.isSymlink = false ∨ path = cachePath worktree
  mounted : ∃ left right, (⟨.metadata worktree, .ok left⟩ : CacheAct) ∈ part ∧
    (⟨.metadata (cachePath worktree), .ok right⟩ : CacheAct) ∈ part ∧ left.identity.dev = right.identity.dev
  untracked : ∃ output, (⟨.git ["ls-files", "--", ".cache"] worktree, .ok output⟩ : CacheAct) ∈ part ∧
    output.status = 0 ∧ isBlank output.stdout = true
  clean : ∃ output, (⟨.git outsideCache worktree, .ok output⟩ : CacheAct) ∈ part ∧
    output.status = 0 ∧ isBlank output.stdout = true

theorem reads_probe {arguments : List String} {worktree unread failed : String} :
    Reads (fun _ => True) (probe arguments worktree unread failed) fun stdout part =>
      ∃ output, part = [⟨.git arguments worktree, .ok output⟩] ∧ output.status = 0 ∧ output.stdout = stdout := by
  have asked : Reads (fun _ => True)
      (request (.git arguments worktree) (·.mapError fun error => unread ++ ": " ++ Lease.bounded error.message) :
        CacheM GitOutput)
      fun output part => part = [⟨.git arguments worktree, .ok output⟩] := by
    refine reads_request trivial ?_
    rintro (_ | output) own answered
    · cases answered
    · cases answered
      rfl
  refine reads_bind asked fun output part same => ?_
  subst same
  refine reads_bind (reads_refuse (Q := fun _ part => part = [] ∧ output.status = 0) fun fine =>
    ⟨rfl, not_not.mp fine⟩) fun _ _ ⟨checked, fine⟩ => ?_
  subst checked
  exact reads_pure ⟨output, rfl, fine, rfl⟩

theorem reads_metadata (path : String) :
    Reads (fun _ => True)
      (outcome (request (.metadata path) id : Attempt CacheOp CacheOp.Ret IoError Metadata) : CacheM _)
      fun answer part => part = [⟨.metadata path, answer⟩] := by
  change Reads _ (request (CacheOp.metadata path) .ok : CacheM (Except IoError Metadata)) _
  refine reads_request trivial ?_
  rintro answer own ⟨rfl⟩
  rfl

theorem reads_sameFilesystem {worktree cache : String} :
    Reads (fun _ => True) (sameFilesystem worktree cache) fun same part => Plain part ∧ (same = true →
      ∃ left right, (⟨.metadata worktree, .ok left⟩ : CacheAct) ∈ part ∧
        (⟨.metadata cache, .ok right⟩ : CacheAct) ∈ part ∧ left.identity.dev = right.identity.dev) := by
  refine reads_bind (reads_metadata worktree) fun left part same => ?_
  subst same
  cases left with
  | error _ => exact reads_pure ⟨fun path metadata among => by simp at among, nofun⟩
  | ok left =>
      refine reads_bind (reads_metadata cache) fun right part same => ?_
      subst same
      cases right with
      | error _ => exact reads_pure ⟨fun path metadata among => by simp at among, nofun⟩
      | ok right =>
          refine reads_pure ⟨fun path metadata among => by simp at among, fun same => ?_⟩
          exact ⟨left, right, by simp, by simp, by simpa using same⟩

theorem reads_inspectInventory {worktree : String} :
    Reads (fun _ => True) (inspectInventory worktree) fun inspection part => ∀ found, inspection = .cacheOnly found →
      Sound found.root.dev found.entries ∧
        ∀ path metadata, (⟨.symlinkMetadata path, .ok metadata⟩ : CacheAct) ∈ part →
          metadata.isSymlink = false ∨ path = cachePath worktree := by
  refine reads_bind reads_inventory fun found part holds => ?_
  refine reads_bind (reads_refuse (Q := fun _ part => part = []) fun _ => rfl) fun _ _ checked => ?_
  subst checked
  refine reads_pure fun own same => ?_
  cases same
  simpa using holds

theorem reads_inspectDirectory {worktree : String} :
    Reads (fun _ => True) (inspectDirectory worktree) fun inspection part => ∀ found, inspection = .cacheOnly found →
      ∀ before : CacheHistory, (∃ metadata, before = [⟨.symlinkMetadata (cachePath worktree), .ok metadata⟩] ∧
        metadata.isSymlink = false ∧ metadata.identity.directory = true) →
      Surveyed worktree found (part ++ before) := by
  refine reads_bind reads_sameFilesystem fun same first ⟨plain, mounted⟩ => ?_
  refine reads_bind (reads_refuse (Q := fun _ part => part = [] ∧ same = true) fun fine =>
    ⟨rfl, by simpa using fine⟩) fun _ _ ⟨checked, fine⟩ => ?_
  subst checked
  obtain ⟨left, right, left_mem, right_mem, device⟩ := mounted fine
  refine reads_bind reads_probe fun stdout part ⟨tracked, same_tracked, ok_tracked, said_tracked⟩ => ?_
  subst same_tracked said_tracked
  split
  · exact reads_pure nofun
  rename_i untracked
  refine reads_bind reads_probe fun stdout part ⟨outside, same_outside, ok_outside, said_outside⟩ => ?_
  subst same_outside said_outside
  split
  · exact reads_pure nofun
  rename_i clean
  refine reads_bind reads_probe fun stdout part ⟨inside, same_inside, _, _⟩ => ?_
  subst same_inside
  split
  · exact reads_pure nofun
  refine reads_inspectInventory.weaken fun inspection last surveyed found returned before started => ?_
  obtain ⟨sound, plain'⟩ := surveyed found returned
  obtain ⟨metadata, rfl, other, directory⟩ := started
  refine ⟨sound, ⟨metadata, by simp, other, directory⟩, ?_, ⟨left, right, by simp [left_mem], by simp [right_mem], device⟩,
    ⟨tracked, by simp, ok_tracked, by simpa using untracked⟩, ⟨outside, by simp, ok_outside, by simpa using clean⟩⟩
  intro path own among
  simp only [List.mem_append, List.mem_singleton, List.append_nil] at among
  rcases among with ((((among | among) | among) | among) | among) | among
  · exact plain' path own among
  · cases among
  · cases among
  · cases among
  · exact Or.inl (plain path own among)
  · cases among
    exact Or.inr rfl

theorem reads_inspect {worktree : String} :
    Reads (fun _ => True) (inspect worktree) fun inspection part => ∀ found, inspection = .cacheOnly found →
      Surveyed worktree found part := by
  have looked : Reads (fun _ => True) (request (.symlinkMetadata (cachePath worktree)) .ok : CacheM _)
      fun answer part => part = [⟨.symlinkMetadata (cachePath worktree), answer⟩] := by
    refine reads_request trivial ?_
    rintro answer own ⟨rfl⟩
    rfl
  refine reads_bind looked fun answer part same => ?_
  subst same
  cases answer with
  | error error =>
      dsimp only
      split
      · exact reads_pure nofun
      · exact reads_throw
  | ok metadata =>
      refine reads_bind (reads_refuse (Q := fun _ part => part = [] ∧ metadata.isSymlink = false) fun other =>
        ⟨rfl, by simpa using other⟩) fun _ _ ⟨checked, other⟩ => ?_
      subst checked
      split
      · exact reads_pure nofun
      · rename_i directory
        refine reads_inspectDirectory.weaken fun inspection part surveyed found returned => ?_
        rw [List.append_nil]
        exact surveyed found returned _ ⟨metadata, rfl, other, by simpa using directory⟩

end Inspection

section Clearing

abbrev Environment := CacheHistory → (op : CacheOp) → op.Ret

def meet {α : Type} (respond : Environment) (p : CacheM α) (h : CacheHistory) : Except String α × CacheHistory :=
  p.run.against respond h

variable {α β : Type} {respond : Environment} {h h' : CacheHistory}

theorem meet_bind {p : CacheM α} {f : α → CacheM β} {a : α} (first : meet respond p h = (.ok a, h')) :
    meet respond (p >>= f) h = meet respond (f a) h' := by
  rw [meet] at first
  rw [meet, run_bind, Prog.against_bind, first]
  rfl

theorem meet_bind_error {p : CacheM α} {f : α → CacheM β} {e : String} (first : meet respond p h = (.error e, h')) :
    meet respond (p >>= f) h = (.error e, h') := by
  rw [meet] at first
  rw [meet, run_bind, Prog.against_bind, first]
  rfl

theorem meet_request {op : CacheOp} {r : op.Ret} {decode : op.Ret → Except String α} {result : Except String α}
    (answered : respond h op = r) (decoded : decode r = result) :
    meet respond (request op decode) h = (result, ⟨op, r⟩ :: h) := by
  subst answered decoded
  rfl

def isRemoval : CacheOp → Bool
  | .removeDirAll _ => true
  | _ => false

def TookNothing : CacheAct → Prop
  | ⟨.removeDirAll _, .ok _⟩ => False
  | ⟨.removeDirAll _, .error failure⟩ => failure.removedSome = false
  | _ => True

/-- A removal is of the root `.cache`, comes straight after an inspection that returned the approved inventory, read
no symlink on its way to it, and took nothing if the outcome is an error. -/
structure Exact (respond : Environment) (worktree : String) (expected : Option CacheInventory)
    (outcome : Except String (Option Nat) × CacheHistory) : Prop where
  root : ∀ act ∈ outcome.2, isRemoval act.effect → act.effect = .removeDirAll (cachePath worktree)
  inspected : ∀ act after before, outcome.2 = after ++ act :: before → isRemoval act.effect →
    ∃ approved, expected = some approved ∧ meet respond (inspect worktree) [] = (.ok (.cacheOnly approved), before) ∧
      Surveyed worktree approved before ∧ Plain before
  mutated : ∀ reason, outcome.1 = .error reason → ∀ act ∈ outcome.2, TookNothing act

def SaysClean : Except WorktreeError GitOutput → Prop
  | .error _ => False
  | .ok output => output.status = 0 ∧ isBlank output.stdout = true

/-- Where the inspection returns the approved inventory, it never saw the root `.cache` as a symlink, and the removal
either takes nothing or succeeds and leaves a worktree that a working `git status` calls clean. -/
def Clears (respond : Environment) (worktree : String) : Option CacheInventory → Prop
  | none => True
  | some approved => ∀ before, meet respond (inspect worktree) [] = (.ok (.cacheOnly approved), before) →
      (∀ metadata, (⟨.symlinkMetadata (cachePath worktree), .ok metadata⟩ : CacheAct) ∈ before →
        metadata.isSymlink = false) ∧
      match respond before (.removeDirAll (cachePath worktree)) with
      | .error failure => failure.removedSome = false
      | .ok done => SaysClean (respond (⟨.removeDirAll (cachePath worktree), .ok done⟩ :: before)
          (.git ["status", "--porcelain"] worktree))

theorem meet_performs (respond : Environment) {ok : CacheOp → Prop} {p : CacheM α} (performs : Performs ok p) (all : ∀ act ∈ h, ok act.effect) :
    ∀ act ∈ (meet respond p h).2, ok act.effect := by
  have calls := performs.calls
  rw [meet]
  generalize p.run = program at calls
  induction program generalizing h with
  | done result => exact all
  | call op next ih =>
      exact ih (respond h op) (List.forall_mem_cons.mpr ⟨calls.1, all⟩) (calls.2 _)

theorem performs_inspect (worktree : String) : Performs (fun op => isRemoval op = false) (inspect worktree) := by
  have entry : ∀ rootDev relative directory name walk, Performs (fun op => isRemoval op = false)
      (readEntry rootDev relative directory name walk) := fun rootDev relative directory name walk =>
    performs_bind (performs_fromExcept _) fun _ => performs_bind (performs_request rfl) fun _ =>
      performs_bind (performs_fromExcept _) fun _ => performs_bind (performs_fromExcept _) fun _ => performs_pure _
  have entries : ∀ names rootDev relative directory walk, Performs (fun op => isRemoval op = false)
      (readEntries rootDev relative directory names walk) := by
    intro names rootDev relative directory
    induction names with
    | nil => exact fun walk => performs_pure _
    | cons name rest ih =>
        exact fun walk => performs_bind (performs_fromExcept _) fun _ => performs_bind (entry ..) ih
  have walks : ∀ fuel rootDev walk, Performs (fun op => isRemoval op = false)
      (walkDirectories rootDev fuel walk) := by
    intro fuel rootDev
    induction fuel with
    | zero =>
        rintro ⟨found, _ | _⟩
        · exact performs_pure _
        · exact performs_throw _
    | succ fuel ih =>
        rintro ⟨found, _ | ⟨⟨relative, directory⟩, pending⟩⟩
        · exact performs_pure _
        · exact performs_bind (performs_request rfl) fun names => performs_bind (entries ..) ih
  have probes : ∀ arguments unread failed, Performs (fun op => isRemoval op = false)
      (probe arguments worktree unread failed) := fun arguments unread failed =>
    performs_bind (performs_request rfl) fun _ => performs_bind (performs_fromExcept _) fun _ => performs_pure _
  have mounted : ∀ cache, Performs (fun op => isRemoval op = false) (sameFilesystem worktree cache) := by
    intro cache
    refine performs_bind (performs_outcome (performs_request rfl)) fun left => ?_
    cases left with
    | error _ => exact performs_pure _
    | ok left =>
        refine performs_bind (performs_outcome (performs_request rfl)) fun right => ?_
        cases right <;> exact performs_pure _
  have listed : Performs (fun op => isRemoval op = false) (inspectInventory worktree) :=
    performs_bind (performs_bind (performs_request rfl) fun _ => performs_bind (walks ..) fun _ => performs_pure _)
      fun _ => performs_bind (performs_fromExcept _) fun _ => performs_pure _
  have inside : Performs (fun op => isRemoval op = false) (inspectDirectory worktree) := by
    refine performs_bind (mounted _) fun same => performs_bind (performs_fromExcept _) fun _ =>
      performs_bind (probes ..) fun tracked => ?_
    split
    · exact performs_pure _
    refine performs_bind (probes ..) fun outside => ?_
    split
    · exact performs_pure _
    refine performs_bind (probes ..) fun inside => ?_
    split
    · exact performs_pure _
    exact listed
  refine performs_bind (performs_request rfl) fun looked => ?_
  cases looked with
  | error error =>
      dsimp only
      split
      · exact performs_pure _
      · exact performs_throw _
  | ok metadata =>
      refine performs_bind (performs_fromExcept _) fun _ => ?_
      split
      · exact performs_pure _
      · exact inside

theorem surveyed_of_meet {worktree : String} {found : CacheInventory} {before : CacheHistory}
    (inspected : meet respond (inspect worktree) [] = (.ok (.cacheOnly found), before)) :
    Surveyed worktree found before := by
  have reached := Prog.reaches_against respond (inspect worktree).run
  rw [meet] at inspected
  rw [inspected] at reached
  exact reads_inspect.reached reached found rfl

theorem meet_requireClean (respond : Environment) (worktree dirty unread : String) (h : CacheHistory) :
    ∃ result, meet respond (requireClean worktree dirty unread) h =
        (result, ⟨.git ["status", "--porcelain"] worktree, respond h (.git ["status", "--porcelain"] worktree)⟩ :: h) ∧
      (result = .ok () ↔ SaysClean (respond h (.git ["status", "--porcelain"] worktree))) := by
  generalize answered : respond h (.git ["status", "--porcelain"] worktree) = answer
  have asked : ∀ decode : Except WorktreeError GitOutput → Except String Bool,
      meet respond (request (.git ["status", "--porcelain"] worktree) decode) h =
        (decode answer, ⟨.git ["status", "--porcelain"] worktree, answer⟩ :: h) := by
    intro decode
    rw [← answered]
    rfl
  cases answer with
  | error error => exact ⟨_, meet_bind_error (asked _), by simp [SaysClean]⟩
  | ok output =>
      by_cases failed : output.status ≠ 0
      · refine ⟨.error (unread ++ ": " ++ Lease.bounded (Restore.statusFailed output).message), meet_bind_error ?_, ?_⟩
        · rw [asked]
          simp [bind, Except.bind, readClean, readStatus, refuse, failed, Except.mapError]
        · simp [SaysClean, failed]
      · rw [not_not] at failed
        refine ⟨refuse (isBlank output.stdout = false) dirty, (meet_bind (a := isBlank output.stdout) ?_).trans rfl, ?_⟩
        · rw [asked]
          simp [bind, Except.bind, readClean, readStatus, refuse, failed, Except.mapError, pure, Except.pure]
        · cases blank : isBlank output.stdout <;> simp [SaysClean, failed, refuse, blank]

theorem tookNothing_of_read {act : CacheAct} (read : isRemoval act.effect = false) : TookNothing act := by
  obtain ⟨op, answer⟩ := act
  cases op with
  | removeDirAll path => cases read
  | _ => trivial

theorem exact_of_reads {worktree : String} {expected : Option CacheInventory} {result : Except String (Option Nat)}
    (reads : ∀ act ∈ h, isRemoval act.effect = false) : Exact respond worktree expected (result, h) where
  root act among removes := absurd removes (by simp [reads act among])
  inspected act after before split removes := absurd removes (by
    have among : act ∈ h := (show h = _ from split) ▸ by simp
    simp [reads act among])
  mutated _ _ act among := tookNothing_of_read (reads act among)

theorem meet_clearCacheOnly {worktree : String} {approved : CacheInventory} {before : CacheHistory}
    (inspected : meet respond (inspect worktree) [] = (.ok (.cacheOnly approved), before)) :
    meet respond (clearCacheOnly worktree (some approved)) [] =
      meet respond (do
        request (.removeDirAll (cachePath worktree)) (·.mapError fun failure =>
          "removing the root .cache failed: " ++ Lease.bounded failure.text)
        requireClean worktree "the worktree became dirty after the cache cleanup"
          "cleanliness probe after cache cleanup failed"
        return some approved.entries.length) before := by
  rw [clearCacheOnly, meet_bind inspected]
  refine meet_bind (a := ()) ?_
  rw [expectCache, refuse_of_not (by simp)]
  rfl

theorem only_split {γ : Type} {p : γ → Prop} {after after' before before' : List γ} {x y : γ}
    (split : after ++ x :: before = after' ++ y :: before') (above : ∀ z ∈ after, ¬p z) (below : ∀ z ∈ before, ¬p z)
    (holds : p y) : y = x ∧ before' = before := by
  induction after generalizing after' with
  | nil =>
      cases after' with
      | nil =>
          cases split
          exact ⟨rfl, rfl⟩
      | cons z after' =>
          cases split
          exact absurd holds (below y (by simp))
  | cons z after ih =>
      cases after' with
      | nil =>
          cases split
          exact absurd holds (above y List.mem_cons_self)
      | cons z' after' =>
          simp only [List.cons_append, List.cons.injEq] at split
          exact ih split.2 fun w among => above w (List.mem_cons_of_mem _ among)

theorem exact_removal_iff {worktree : String} {approved : CacheInventory} {act : CacheAct} {before : CacheHistory}
    {result : Except String (Option Nat)} (after : CacheHistory) (root : act.effect = .removeDirAll (cachePath worktree))
    (above : ∀ act ∈ after, isRemoval act.effect = false) (below : ∀ act ∈ before, isRemoval act.effect = false)
    (inspected : meet respond (inspect worktree) [] = (.ok (.cacheOnly approved), before)) :
    Exact respond worktree (some approved) (result, after ++ act :: before) ↔
      (∀ metadata, (⟨.symlinkMetadata (cachePath worktree), .ok metadata⟩ : CacheAct) ∈ before →
        metadata.isSymlink = false) ∧
      ∀ reason, result = .error reason → TookNothing act := by
  have surveyed := surveyed_of_meet inspected
  constructor
  · intro exact
    obtain ⟨_, _, _, _, plain⟩ := exact.inspected act after before rfl (by simp [root, isRemoval])
    exact ⟨plain _, fun reason failed => exact.mutated reason failed act (by simp)⟩
  · rintro ⟨other, spared⟩
    have only : ∀ own ∈ after ++ act :: before, isRemoval own.effect = true → own = act := by
      intro own among removes
      rcases List.mem_append.mp among with among | among
      · simp [above own among] at removes
      · rcases List.mem_cons.mp among with same | among
        · exact same
        · simp [below own among] at removes
    refine ⟨fun own among removes => only own among removes ▸ root, ?_, ?_⟩
    · intro own after' before' split removes
      obtain ⟨-, rfl⟩ := only_split (p := fun act : CacheAct => isRemoval act.effect = true) split
        (fun z among => by simp [above z among]) (fun z among => by simp [below z among]) removes
      refine ⟨approved, rfl, inspected, surveyed, fun path metadata among => ?_⟩
      rcases surveyed.plain path metadata among with plain | rfl
      · exact plain
      · exact other metadata among
    · intro reason failed own among
      cases removes : isRemoval own.effect with
      | true => exact only own among removes ▸ spared reason failed
      | false => exact tookNothing_of_read removes

/-- A cleanup is exact where the cache clears, and only there. -/
theorem clear_cache_exact_iff (respond : Environment) (worktree : String) (expected : Option CacheInventory) :
    Exact respond worktree expected (meet respond (clearCacheOnly worktree expected) []) ↔
      Clears respond worktree expected := by
  cases expected with
  | none =>
      refine ⟨fun _ => trivial, fun _ => ?_⟩
      have asks : Performs (fun op => isRemoval op = false) (clearCacheOnly worktree none) :=
        performs_bind (performs_bind (performs_request rfl) fun _ => performs_fromExcept _) fun _ => performs_pure _
      exact exact_of_reads (meet_performs respond asks (fun _ impossible => absurd impossible List.not_mem_nil))
  | some approved =>
      generalize inspected : meet respond (inspect worktree) [] = found
      obtain ⟨found, before⟩ := found
      have reads : ∀ act ∈ before, isRemoval act.effect = false := by
        have all := meet_performs respond (performs_inspect worktree)
          (fun act (impossible : act ∈ []) => absurd impossible List.not_mem_nil)
        rwa [inspected] at all
      by_cases same : found = .ok (.cacheOnly approved)
      · subst same
        have clears : Clears respond worktree (some approved) ↔
            (∀ metadata, (⟨.symlinkMetadata (cachePath worktree), .ok metadata⟩ : CacheAct) ∈ before →
              metadata.isSymlink = false) ∧
            match respond before (.removeDirAll (cachePath worktree)) with
            | .error failure => failure.removedSome = false
            | .ok done => SaysClean (respond (⟨.removeDirAll (cachePath worktree), .ok done⟩ :: before)
                (.git ["status", "--porcelain"] worktree)) := by
          simp [Clears, inspected]
        rw [clears, meet_clearCacheOnly inspected]
        generalize answered : respond before (.removeDirAll (cachePath worktree)) = answer
        have asked : ∀ decode : Except RemovalFailure Unit → Except String Unit,
            meet respond (request (.removeDirAll (cachePath worktree)) decode) before =
              (decode answer, ⟨.removeDirAll (cachePath worktree), answer⟩ :: before) := by
          intro decode
          rw [← answered]
          rfl
        cases answer with
        | error failure =>
            rw [meet_bind_error (asked _)]
            exact (exact_removal_iff [] rfl nofun reads inspected).trans
              (and_congr_right' (by simp [TookNothing]))
        | ok done =>
            obtain ⟨result, cleaned, settled⟩ := meet_requireClean respond worktree
              "the worktree became dirty after the cache cleanup" "cleanliness probe after cache cleanup failed"
              (⟨.removeDirAll (cachePath worktree), .ok done⟩ :: before)
            rw [meet_bind (asked _)]
            have above : ∀ act ∈ [(⟨.git ["status", "--porcelain"] worktree, respond
                (⟨.removeDirAll (cachePath worktree), .ok done⟩ :: before) (.git ["status", "--porcelain"] worktree)⟩ :
                  CacheAct)], isRemoval act.effect = false := by simp [isRemoval]
            dsimp only
            rw [← settled]
            cases result with
            | error reason =>
                rw [meet_bind_error cleaned]
                exact (exact_removal_iff _ rfl above reads inspected).trans (and_congr_right' (by simp [TookNothing]))
            | ok _ =>
                rw [meet_bind cleaned]
                exact (exact_removal_iff _ rfl above reads inspected).trans (and_congr_right' (by simp))
      · refine ⟨fun _ before' returned => absurd (congrArg Prod.fst (inspected.symm.trans returned)) same, fun _ => ?_⟩
        have kept : ∃ reason, meet respond (clearCacheOnly worktree (some approved)) [] = (.error reason, before) := by
          cases found with
          | error reason => exact ⟨reason, meet_bind_error inspected⟩
          | ok inspection =>
              rw [clearCacheOnly, meet_bind inspected]
              cases inspection with
              | notCacheOnly => exact ⟨_, meet_bind_error rfl⟩
              | cacheOnly fresh =>
                  have other : fresh ≠ approved := fun equal => same (equal ▸ rfl)
                  refine ⟨"the root .cache contents changed before cleanup", meet_bind_error ?_⟩
                  rw [expectCache, refuse, if_pos other]
                  rfl
        obtain ⟨reason, kept⟩ := kept
        rw [kept]
        exact exact_of_reads reads

def cacheRoot : FileIdentity := ⟨1, 40, 0, 0, 0, 0, 4096, true⟩

def cacheIndex : CacheEntry := ⟨"index", ⟨1, 41, 0, 0, 0, 0, 12, false⟩⟩

def busyWorktree : Environment := fun _ op =>
  match op with
  | .symlinkMetadata path => .ok ⟨false, if path = cachePath "/wt" then cacheRoot else cacheIndex.identity⟩
  | .metadata _ => .ok ⟨false, cacheRoot⟩
  | .readDir _ => .ok [.ok "index"]
  | .git arguments _ => .ok ⟨0, if arguments = insideCache then "?? .cache/" else
      if arguments = ["status", "--porcelain"] then "?? notes.txt" else ""⟩
  | .removeDirAll _ => .ok ()

theorem busy_answers_index : ∀ h, busyWorktree h (.symlinkMetadata (Lease.joinPath (cachePath "/wt") "index")) =
    .ok ⟨false, cacheIndex.identity⟩ := by
  intro h
  have other : Lease.joinPath (cachePath "/wt") "index" ≠ cachePath "/wt" := by decide
  rw [busyWorktree, if_neg other]

theorem busy_answers_root : ∀ h, busyWorktree h (.symlinkMetadata (cachePath "/wt")) = .ok ⟨false, cacheRoot⟩ := by
  intro h
  rw [busyWorktree, if_pos rfl]

theorem busy_walked (h : CacheHistory) : ∃ h', meet busyWorktree
    (walkDirectories cacheRoot.dev (maxCacheEntries + 1) ⟨[], [("", cachePath "/wt")]⟩) h = (.ok [cacheIndex], h') := by
  have named : Lease.joinPath "" "index" = "index" := by decide
  have entry : ∀ h, meet busyWorktree (readEntry cacheRoot.dev "" (cachePath "/wt") "index" ⟨[], []⟩) h =
      (.ok ⟨[cacheIndex], []⟩, ⟨.symlinkMetadata (Lease.joinPath (cachePath "/wt") "index"),
        .ok ⟨false, cacheIndex.identity⟩⟩ :: h) := by
    intro h
    refine (meet_bind (a := ()) rfl).trans ?_
    dsimp only
    rw [meet_bind (a := ⟨false, cacheIndex.identity⟩) (meet_request (busy_answers_index h) rfl),
      meet_bind (a := ()) rfl, meet_bind (a := ()) rfl, named]
    rfl
  refine ⟨⟨.symlinkMetadata (Lease.joinPath (cachePath "/wt") "index"), .ok ⟨false, cacheIndex.identity⟩⟩ ::
    ⟨.readDir (cachePath "/wt"), .ok [.ok "index"]⟩ :: h, ?_⟩
  rw [walkDirectories, meet_bind (a := [.ok "index"]) (meet_request (r := Except.ok [Except.ok "index"]) rfl rfl),
    meet_bind (a := ⟨[cacheIndex], []⟩)]
  · rfl
  · rw [readEntries, meet_bind (a := "index") rfl, meet_bind (entry _)]
    rfl

theorem busy_inspected : ∃ before, meet busyWorktree (inspect "/wt") [] =
    (.ok (.cacheOnly ⟨cacheRoot, [cacheIndex]⟩), before) := by
  have found : ∀ h, ∃ h', meet busyWorktree (inventory (cachePath "/wt")) h = (.ok ⟨cacheRoot, [cacheIndex]⟩, h') := by
    intro h
    obtain ⟨h', walked⟩ := busy_walked (⟨.symlinkMetadata (cachePath "/wt"), .ok ⟨false, cacheRoot⟩⟩ :: h)
    refine ⟨h', ?_⟩
    rw [inventory, meet_bind (a := ⟨false, cacheRoot⟩) (meet_request (busy_answers_root h) rfl), meet_bind walked,
      List.mergeSort_singleton]
    rfl
  have asked : ∀ arguments unread failed said h, busyWorktree h (.git arguments "/wt") = .ok ⟨0, said⟩ →
      meet busyWorktree (probe arguments "/wt" unread failed) h =
        (.ok said, ⟨.git arguments "/wt", .ok ⟨0, said⟩⟩ :: h) := by
    intro arguments unread failed said h answered
    exact (meet_bind (a := ⟨0, said⟩) (meet_request answered rfl)).trans ((meet_bind (a := ()) rfl).trans rfl)
  obtain ⟨before, found⟩ := found _
  refine ⟨before, ?_⟩
  rw [inspect, meet_bind (a := .ok ⟨false, cacheRoot⟩) (meet_request (busy_answers_root _) rfl)]
  refine (meet_bind (a := ()) rfl).trans ?_
  refine (meet_bind (a := true) rfl).trans ((meet_bind (a := ()) rfl).trans ?_)
  refine (meet_bind (asked _ _ _ "" _ rfl)).trans ?_
  rw [if_neg (by decide)]
  refine (meet_bind (asked _ _ _ "" _ rfl)).trans ?_
  rw [if_neg (by decide)]
  refine (meet_bind (asked _ _ _ "?? .cache/" _ rfl)).trans ?_
  rw [if_neg (by decide)]
  exact (meet_bind found).trans ((meet_bind (a := ()) rfl).trans rfl)

theorem removed_on_error : ¬∀ (respond : Environment) (worktree : String) (expected : Option CacheInventory),
    Exact respond worktree expected (meet respond (clearCacheOnly worktree expected) []) := by
  intro claim
  obtain ⟨before, inspected⟩ := busy_inspected
  have mutated := (claim busyWorktree "/wt" (some ⟨cacheRoot, [cacheIndex]⟩)).mutated
  obtain ⟨result, cleaned, settled⟩ := meet_requireClean busyWorktree "/wt"
    "the worktree became dirty after the cache cleanup" "cleanliness probe after cache cleanup failed"
    (⟨.removeDirAll (cachePath "/wt"), .ok ()⟩ :: before)
  have dirty : ¬SaysClean (.ok ⟨0, "?? notes.txt"⟩) := by
    rintro ⟨-, blank⟩
    exact absurd blank (by decide)
  rw [meet_clearCacheOnly inspected, meet_bind (a := ()) (meet_request (r := Except.ok ()) rfl rfl)] at mutated
  cases result with
  | ok _ => exact dirty (settled.mp rfl)
  | error reason =>
      rw [meet_bind_error cleaned] at mutated
      exact mutated reason rfl ⟨.removeDirAll (cachePath "/wt"), .ok ()⟩ (by simp)

end Clearing

end Phasegent.Cleanup.Cache
