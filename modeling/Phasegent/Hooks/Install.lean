import Phasegent.Hooks.Commands
import Phasegent.Text.Quoting

namespace Phasegent.Hooks
open Fallible Text.Quoting
open Switch (GitError GitAnswer)

section Paths

def utf8 (text : List Char) : Bytes := text.flatMap String.utf8EncodeChar

def asText (bytes : Bytes) : Option (List Char) := (ByteArray.utf8Decode? ⟨bytes.toArray⟩).map (·.toList)

def isContinuation (b : UInt8) : Bool := 0x80 ≤ b && b ≤ 0xBF

-- The bytes after a first byte that still go with it, of the most there can be.
def wellFormedTail (first : UInt8) (rest : Bytes) : Bytes :=
  let second (low high : UInt8) := (rest.take 1).takeWhile fun b => low ≤ b && b ≤ high
  let more (count : Nat) (head : Bytes) :=
    if head.isEmpty then [] else head ++ ((rest.drop 1).take count).takeWhile isContinuation
  if 0xC2 ≤ first && first ≤ 0xDF then second 0x80 0xBF
  else if first == 0xE0 then more 1 (second 0xA0 0xBF)
  else if first == 0xED then more 1 (second 0x80 0x9F)
  else if 0xE1 ≤ first && first ≤ 0xEF then more 1 (second 0x80 0xBF)
  else if first == 0xF0 then more 2 (second 0x90 0xBF)
  else if 0xF1 ≤ first && first ≤ 0xF3 then more 2 (second 0x80 0xBF)
  else if first == 0xF4 then more 2 (second 0x80 0x8F)
  else []

-- One replacement character for every longest piece that begins no character.
def replaceInvalid : Nat → Bytes → List Char
  | 0, _ => []
  | _, [] => []
  | fuel + 1, first :: rest =>
      let piece := first :: wellFormedTail first rest
      match asText piece with
      | some text => text ++ replaceInvalid fuel (rest.drop (piece.length - 1))
      | none => '\uFFFD' :: replaceInvalid fuel (rest.drop (piece.length - 1))

def toStringLossy (path : Bytes) : List Char :=
  match asText path with
  | some text => text
  | none => replaceInvalid path.length path

def join (dir : Bytes) (name : String) : Bytes :=
  if dir.getLast? = some 47 then dir ++ utf8 name.toList else dir ++ 47 :: utf8 name.toList

def hookPath (hooksDir : Bytes) (hook : HookKind) : Bytes := join hooksDir hook.name

def backupDir (hooksDir : Bytes) : Bytes := join hooksDir "phasegent-original"

def backupPath (hooksDir : Bytes) (hook : HookKind) : Bytes := join (backupDir hooksDir) hook.name

def display (path : Bytes) : String := String.ofList (toStringLossy path)

end Paths

section Wrapper

def shellQuote (value : List Char) : List Char := '\'' :: escapeQuotes value ++ ['\'']

def header : List Char := ("#!/bin/sh\n# phasegent:managed\n" ++
  "# Installed by \x60phasegent hooks install\x60; safe to reinstall or remove.\n").toList

def preflightCheck : List Char := ("if [ ! -f \"$PHASEGENT_ORIGINAL_HOOK\" ] || [ ! -x \"$PHASEGENT_ORIGINAL_HOOK\" ] || " ++
  "[ -L \"$PHASEGENT_ORIGINAL_HOOK\" ]; then\n  printf '%s\\n' \"phasegent: preserved original hook " ++
  "$PHASEGENT_ORIGINAL_HOOK is missing or unsafe; restore a regular executable original or manually " ++
  "reconcile the managed wrapper before reinstalling\" >&2\n  exit 1\nfi\n").toList

def chain (backup : Bytes) (preflight : Bool) : List Char :=
  "# The preserved original hook runs first; phasegent runs only if it succeeds.\n".toList ++
    "PHASEGENT_ORIGINAL_HOOK=".toList ++ shellQuote (toStringLossy backup) ++ ['\n'] ++
    (if preflight then preflightCheck else []) ++ "\"$PHASEGENT_ORIGINAL_HOOK\" \"$@\" || exit $?\n".toList

def renderWrapper (hook : HookKind) (backup : Option Bytes) (preflight : Bool) : Bytes :=
  utf8 (header ++ (match backup with | some backup => chain backup preflight | none => []) ++
    ("exec phasegent hooks run " ++ hook.name ++ " \"$@\"\n").toList)

def renderScript (hook : HookKind) (backup : Option Bytes) : Bytes := renderWrapper hook backup true

def renderLegacyScript (hook : HookKind) (backup : Option Bytes) : Bytes := renderWrapper hook backup false

def declaresOriginal (current : Bytes) (hook : HookKind) (backup : Bytes) : Bool :=
  current == renderScript hook (some backup) || current == renderLegacyScript hook (some backup)

end Wrapper

section Files

inductive Node where
  | regular (bytes : Bytes) (executable : Bool)
  | symlink (target : Bytes) (read : Option Bytes)
  | directory
  deriving DecidableEq

structure IoError where
  notFound : Bool
  text : String
  deriving DecidableEq

/-- The files of one hook: at its path and at the path of its preserved original. -/
structure Slot where
  hook : Option Node
  backup : Option Node
  deriving DecidableEq

inductive Site where
  | chainRead | chainExists | chainValidate
  | inspect | absentExists | absentValidate | absentChain
  | read | managedExists | managedValidate | managedChain
  | foreignValidate | displaceExists | createBackupDir | moveHook
  | writeTemp | setMode | replaceHook
  deriving DecidableEq

abbrev Faults := Site → Option IoError

def symlinkMetadata (fault : Option IoError) (node : Option Node) : Except IoError Node :=
  match fault, node with
  | some error, _ => .error error
  | none, none => .error ⟨true, "No such file or directory (os error 2)"⟩
  | none, some node => .ok node

def readFile (fault : Option IoError) (node : Option Node) : Except IoError Bytes :=
  match fault, node with
  | some error, _ => .error error
  | none, some (.regular bytes _) => .ok bytes
  | none, some (.symlink _ (some bytes)) => .ok bytes
  | none, some (.symlink _ none) => .error ⟨false, "cannot follow link"⟩
  | none, some .directory => .error ⟨false, "Is a directory (os error 21)"⟩
  | none, none => .error ⟨true, "No such file or directory (os error 2)"⟩

def backupExists (fault : Option IoError) (backup : Option Node) : Bool := (symlinkMetadata fault backup).isOk

def isSafe : Node → Bool
  | .regular _ executable => executable
  | _ => false

def validateOriginal (fault : Option IoError) (path : Bytes) (node : Option Node) : Except GitError Unit :=
  refuse (!(symlinkMetadata fault node).toOption.any isSafe) ⟨"conflict", "preserved original hook " ++
    display path ++ " is missing or unsafe; restore a regular executable original or manually reconcile " ++
    "the managed wrapper before reinstalling"⟩

def failing (fault : Option IoError) (context : String) : Except GitError Unit :=
  match fault with
  | some error => .error ⟨"filesystem", context ++ error.text⟩
  | none => .ok ()

end Files

section Install

structure InstallOutcome where
  installed : List String
  updated : List String
  warnings : List String
  deriving DecidableEq, Repr

structure HookPlace where
  hook : HookKind
  hooksDir : Bytes
  temp : String

namespace HookPlace
variable (place : HookPlace)

def path : Bytes := hookPath place.hooksDir place.hook
def backup : Bytes := backupPath place.hooksDir place.hook
def script (chained : Bool) : Bytes := renderScript place.hook (if chained then some place.backup else none)

end HookPlace

variable (faults : Faults) (place : HookPlace)

def writeScript (slot : Slot) (contents : Bytes) : Except GitError Unit × Slot :=
  let written := do
    failing (faults .writeTemp) ("cannot write " ++ place.temp ++ ": ")
    failing (faults .setMode) ("cannot set permissions on " ++ place.temp ++ ": ")
    failing (faults .replaceHook) ("cannot replace " ++ display place.path ++ ": ")
  match written with
  | .error error => (.error error, slot)
  | .ok () => (.ok (), { slot with hook := some (.regular contents true) })

-- Every declared chain is validated before either wrapper is updated.
def checkChain (slot : Slot) : Except GitError Unit :=
  match readFile (faults .chainRead) slot.hook with
  | .error _ => .ok ()
  | .ok current =>
      if declaresOriginal current place.hook place.backup ||
          (current == place.script false && backupExists (faults .chainExists) slot.backup) then
        validateOriginal (faults .chainValidate) place.backup slot.backup
      else .ok ()

def displaceForeignHook (slot : Slot) : Except GitError Unit × Slot :=
  if backupExists (faults .displaceExists) slot.backup then
    (.error ⟨"conflict", "refusing to replace " ++ display place.path ++ ": an original " ++ place.hook.name ++
      " hook is already preserved at " ++ display place.backup ++ "; restore it over the current hook or " ++
      "remove one of them manually, then re-run hooks install"⟩, slot)
  else
    match failing (faults .createBackupDir) ("cannot create backup directory " ++
        display (backupDir place.hooksDir) ++ ": ") with
    | .error error => (.error error, slot)
    | .ok () =>
        let occupied := if slot.backup = some .directory then some ⟨false, "Is a directory (os error 21)"⟩ else none
        match failing ((faults .moveHook).or occupied) ("cannot move existing " ++ place.hook.name ++ " hook to " ++
            display place.backup ++ ": check permissions; ") with
        | .error error => (.error error, slot)
        | .ok () => (.ok (), ⟨none, slot.hook⟩)

def installHook (outcome : InstallOutcome) (slot : Slot) : Except GitError InstallOutcome × Slot :=
  let name := place.hook.name
  match symlinkMetadata (faults .inspect) slot.hook with
  | .error error =>
      if !error.notFound then
        (.error ⟨"filesystem", "cannot inspect hook " ++ display place.path ++ ": " ++ error.text⟩, slot)
      else
        let checked := if backupExists (faults .absentExists) slot.backup then
          validateOriginal (faults .absentValidate) place.backup slot.backup else .ok ()
        match checked with
        | .error error => (.error error, slot)
        | .ok () =>
            match writeScript faults place slot
                (place.script (backupExists (faults .absentChain) slot.backup)) with
            | (.error error, slot) => (.error error, slot)
            | (.ok (), slot) => (.ok { outcome with installed := outcome.installed ++ [name] }, slot)
  | .ok (.symlink _ _) =>
      (.error ⟨"conflict", "refusing to manage " ++ display place.path ++
        ": it is a symlink; remove or repoint it manually, then re-run hooks install"⟩, slot)
  | .ok .directory =>
      (.error ⟨"conflict", "refusing to manage " ++ display place.path ++
        ": it is not a regular file; inspect it manually"⟩, slot)
  | .ok (.regular _ _) =>
      match readFile (faults .read) slot.hook with
      | .error error =>
          (.error ⟨"filesystem", "cannot read existing hook " ++ display place.path ++ ": " ++ error.text⟩, slot)
      | .ok current =>
          let declared := declaresOriginal current place.hook place.backup
          if declared || current == place.script false then
            let checked := if declared || backupExists (faults .managedExists) slot.backup then
              validateOriginal (faults .managedValidate) place.backup slot.backup else .ok ()
            match checked with
            | .error error => (.error error, slot)
            | .ok () =>
                let desired := place.script (declared || backupExists (faults .managedChain) slot.backup)
                let written := if current ≠ desired then writeScript faults place slot desired else (.ok (), slot)
                match written with
                | (.error error, slot) => (.error error, slot)
                | (.ok (), slot) => (.ok { outcome with updated := outcome.updated ++ [name] }, slot)
          else
            match validateOriginal (faults .foreignValidate) place.path slot.hook with
            | .error error => (.error error, slot)
            | .ok () =>
                match displaceForeignHook faults place slot with
                | (.error error, slot) => (.error error, slot)
                | (.ok (), slot) =>
                    let warning := "moved existing " ++ name ++ " hook to " ++ display place.backup ++
                      "; the managed wrapper chains to it"
                    match writeScript faults place slot (place.script true) with
                    | (.error error, slot) => (.error error, slot)
                    | (.ok (), slot) => (.ok ⟨outcome.installed ++ [name], outcome.updated,
                        outcome.warnings ++ [warning]⟩, slot)

end Install

section Checkout

structure Disk where
  prepareCommitMsg : Slot
  commitMsg : Slot
  deriving DecidableEq

def Disk.slot (disk : Disk) : HookKind → Slot
  | .prepareCommitMsg => disk.prepareCommitMsg
  | .commitMsg => disk.commitMsg

structure Checkout where
  workingDir : Bytes
  revParse : GitAnswer
  hooksDir : Bytes
  temp : HookKind → String

def Checkout.place (checkout : Checkout) (hook : HookKind) : HookPlace := ⟨hook, checkout.hooksDir, checkout.temp hook⟩

/-- Where a filesystem operation of an installation can fail. -/
inductive FaultSite where
  | createHooksDir
  | canonicalize
  | hook (kind : HookKind) (site : Site)
  deriving DecidableEq

structure Fault where
  site : FaultSite
  text : String

def faultAt (fault : Option Fault) (site : FaultSite) : Option IoError :=
  match fault with
  | some fault => if fault.site = site then some ⟨false, fault.text⟩ else none
  | none => none

def discover (revParse : GitAnswer) : Except GitError String := do
  let output ← revParse
  refuse (output.status ≠ 0) ⟨"git", "git rev-parse --git-path hooks failed; run \x60phasegent hooks install\x60 " ++
    "inside a Git checkout"⟩
  refuse (trimText output.stdout = "") ⟨"git", "git rev-parse --git-path hooks returned an empty path"⟩
  return trimText output.stdout

def discoveredDir (workingDir : Bytes) (discovered : String) : Bytes :=
  let path := utf8 discovered.toList
  if path.head? = some 47 then path else join workingDir discovered

def admission (checkout : Checkout) (fault : Option Fault) (disk : Disk) : Except GitError Unit := do
  let discovered ← discover checkout.revParse
  let hooksDir := display (discoveredDir checkout.workingDir discovered)
  failing (faultAt fault .createHooksDir) ("cannot create hooks directory " ++ hooksDir ++ ": ")
  failing (faultAt fault .canonicalize) ("cannot resolve hooks directory " ++ hooksDir ++ ": ")
  checkChain (fun site => faultAt fault (.hook .prepareCommitMsg site)) (checkout.place .prepareCommitMsg)
    disk.prepareCommitMsg
  checkChain (fun site => faultAt fault (.hook .commitMsg site)) (checkout.place .commitMsg) disk.commitMsg

def installIn (checkout : Checkout) (fault : Option Fault) (disk : Disk) : Except GitError InstallOutcome × Disk :=
  match admission checkout fault disk with
  | .error error => (.error error, disk)
  | .ok () =>
      match installHook (fun site => faultAt fault (.hook .prepareCommitMsg site))
          (checkout.place .prepareCommitMsg) ⟨[], [], []⟩ disk.prepareCommitMsg with
      | (.error error, slot) => (.error error, { disk with prepareCommitMsg := slot })
      | (.ok outcome, slot) =>
          let disk := { disk with prepareCommitMsg := slot }
          let last := installHook (fun site => faultAt fault (.hook .commitMsg site))
            (checkout.place .commitMsg) outcome disk.commitMsg
          (last.1, { disk with commitMsg := last.2 })

end Checkout

end Phasegent.Hooks
