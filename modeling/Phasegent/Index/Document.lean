import Mathlib.Data.UInt
import Phasegent.Lease.Naming
import Phasegent.Text.Cut

namespace Phasegent.Index
open Fallible Text

def issueIndexMaxSourceLen : Nat := 64
def issueIndexMaxProjectLen : Nat := 200
def issueIndexMaxExternalIdLen : Nat := 128
def issueIndexMaxTitleChars : Nat := 1024
def issueIndexMaxTitleBytes : Nat := 8192
def issueIndexMaxStateChars : Nat := 64
def issueIndexMaxUrlChars : Nat := 2048
def issueIndexMaxChunkBytes : Nat := 4000
def issueIndexMaxChunks : Nat := 64
def issueIndexMaxDocumentBytes : Nat := issueIndexMaxChunkBytes * issueIndexMaxChunks

/-- `str::len`. -/
def byteLen (text : List Char) : Nat := Cut.total Char.utf8Size text

structure IssueIndexKey where
  source : List Char
  project : List Char
  externalId : List Char
deriving DecidableEq

def validateIdentifier (v : List Char) (f : String) (m : Nat) : Except String Unit := do
  let t := trim v
  refuse (t = []) (f ++ " must be non-empty")
  refuse (m < t.length) (f ++ " must be at most " ++ m.repr ++ " characters")
  refuse (t.any isControl) (f ++ " must not contain control characters")

def IssueIndexKey.validate (self : IssueIndexKey) : Except String Unit := do
  validateIdentifier self.source "source" issueIndexMaxSourceLen
  validateIdentifier self.project "project" issueIndexMaxProjectLen
  validateIdentifier self.externalId "external_id" issueIndexMaxExternalIdLen

def validateTitle (v : List Char) : Except String Unit := do
  let t := trim v
  refuse (t = []) "title must be non-empty"
  refuse (issueIndexMaxTitleChars < t.length)
    ("title must be at most " ++ issueIndexMaxTitleChars.repr ++ " characters")
  refuse (issueIndexMaxTitleBytes < byteLen t)
    ("title must be at most " ++ issueIndexMaxTitleBytes.repr ++ " bytes")
  refuse (t.any fun c => isControl c && c != ' ' && c != '\t')
    "title must not contain control characters"

def validateState (v : List Char) : Except String Unit :=
  validateIdentifier v "state" issueIndexMaxStateChars

def validateUrl (v : List Char) : Except String Unit := do
  let t := trim v
  refuse (t = []) "url must be non-empty when present"
  refuse (issueIndexMaxUrlChars < t.length)
    ("url must be at most " ++ issueIndexMaxUrlChars.repr ++ " characters")
  refuse (t.any isControl) "url must not contain control characters"

-- FNV-1a, 64 bits wide.
def fnvByte (h : UInt64) (byte : UInt8) : UInt64 := (h ^^^ byte.toUInt64) * 1099511628211

def fnv (h : UInt64) (text : List Char) : UInt64 :=
  (text.flatMap String.utf8EncodeChar).foldl fnvByte h

def fnvOffset : UInt64 := 14695981039346656037

/-- `format!("{h:016x}")`. -/
def formatHash (h : UInt64) : List Char := Lease.hexDigits h.toNat 16

def contentHash (title body state : List Char) : List Char :=
  let h := fnvByte (fnv fnvOffset title) 0xFF
  let h := fnvByte (fnv h body) 0xFF
  formatHash (fnv h state)

def hashText (text : List Char) : List Char := formatHash (fnv fnvOffset text)

structure IssueIndexChunk where
  ordinal : Nat
  text : List Char
  byteStart : Nat
  byteEnd : Nat
  hash : List Char
deriving DecidableEq

def IssueIndexChunk.validate (self : IssueIndexChunk) : Except String Unit := do
  let chunk := "chunk " ++ self.ordinal.repr
  refuse (issueIndexMaxChunkBytes < byteLen self.text)
    (chunk ++ " exceeds max " ++ issueIndexMaxChunkBytes.repr ++ " bytes")
  refuse (self.byteEnd < self.byteStart) (chunk ++ " has inverted byte offsets")
  refuse (byteLen self.text ≠ self.byteEnd - self.byteStart)
    (chunk ++ " length " ++ (byteLen self.text).repr ++ " does not match range " ++
      self.byteStart.repr ++ ".." ++ self.byteEnd.repr)
  refuse (trim self.hash = []) (chunk ++ " hash must be non-empty")
  refuse (self.hash.any isControl) (chunk ++ " hash must not contain control characters")

def isCharBoundary : List Char → Nat → Bool
  | _, 0 => true
  | [], _ + 1 => false
  | c :: text, n + 1 => c.utf8Size ≤ n + 1 && isCharBoundary text (n + 1 - c.utf8Size)

def skipBytes : List Char → Nat → List Char
  | text, 0 => text
  | [], _ + 1 => []
  | c :: text, n + 1 => skipBytes text (n + 1 - c.utf8Size)

def firstBytes : List Char → Nat → List Char
  | _, 0 => []
  | [], _ + 1 => []
  | c :: text, n + 1 => c :: firstBytes text (n + 1 - c.utf8Size)

def slice (text : List Char) (start stop : Nat) : List Char :=
  firstBytes (skipBytes text start) (stop - start)

/-- The inner loop of `build_chunks`. -/
def backOff (text : List Char) (offset : Nat) : Nat → Nat
  | 0 => 0
  | stop + 1 =>
      if offset < stop + 1 && !isCharBoundary text (stop + 1) then backOff text offset stop
      else stop + 1

/-- The outer loop of `build_chunks`, with `room` the chunks that `max_chunks` still leaves. -/
def chunksFrom (text : List Char) (maxBytes maxChunks : Nat) (offset ordinal : Nat) :
    Nat → Except String (List IssueIndexChunk)
  | 0 =>
      if offset < byteLen text then
        throw ("document too large: needs more than " ++ maxChunks.repr ++ " chunks")
      else pure []
  | room + 1 =>
      if offset < byteLen text then do
        let stop := backOff text offset (min (offset + maxBytes) (byteLen text))
        refuse (stop = offset)
          ("chunk boundary could not be found within " ++ maxBytes.repr ++ " bytes")
        let part := slice text offset stop
        let chunks ← chunksFrom text maxBytes maxChunks stop (ordinal + 1) room
        pure (⟨ordinal, part, offset, stop, hashText part⟩ :: chunks)
      else pure []

-- A `usize` product wraps; `offset + max_bytes` cannot, since no text is half that long.
def usizeMul (a b : Nat) : Nat := a * b % 2 ^ 64

def buildChunks (text : List Char) (maxBytes maxChunks : Nat) :
    Except String (List IssueIndexChunk) := do
  refuse (maxBytes = 0 ∨ maxChunks = 0) "max_bytes and max_chunks must be greater than zero"
  if text = [] then return []
  refuse (usizeMul maxBytes maxChunks < byteLen text)
    ("document too large: " ++ (byteLen text).repr ++ " bytes exceeds " ++ maxChunks.repr ++
      " * " ++ maxBytes.repr ++ " = " ++ (usizeMul maxBytes maxChunks).repr ++ " bytes")
  chunksFrom text maxBytes maxChunks 0 0 maxChunks

structure IssueIndexDocument where
  key : IssueIndexKey
  issueNumber : Nat
  title : List Char
  body : List Char
  state : List Char
  url : Option (List Char)
  providerUpdatedAt : Option Int
  indexedAt : Int
  contentHash : List Char
  deleted : Bool
  deletedAt : Option Int
  chunks : List IssueIndexChunk
deriving DecidableEq

def checkAll {α : Type} (check : α → Except String Unit) : List α → Except String Unit
  | [] => pure ()
  | x :: xs => do
      check x
      checkAll check xs

def refusePast (at' : Option Int) (message : String) : Except String Unit :=
  refuse (∃ ts ∈ at', ts ≤ 0) message

/-- The checks of `IssueIndexDocument::new` before the body is looked at. -/
def checkFields (key : IssueIndexKey) (issueNumber : Nat) (title state : List Char)
    (url : Option (List Char)) (providerUpdatedAt : Option Int) (indexedAt : Int) :
    Except String Unit := do
  key.validate
  refuse (issueNumber = 0) "issue_number must be greater than zero"
  validateTitle title
  validateState state
  checkAll validateUrl url.toList
  refuse (indexedAt ≤ 0) "indexed_at must be greater than zero"
  refusePast providerUpdatedAt "provider_updated_at must be greater than zero when present"

def IssueIndexDocument.new (key : IssueIndexKey) (issueNumber : Nat) (title body state : List Char)
    (url : Option (List Char)) (providerUpdatedAt : Option Int) (indexedAt : Int) :
    Except String IssueIndexDocument := do
  let titleTrimmed := trim title
  let stateTrimmed := trim state
  let urlTrimmed := url.map trim
  checkFields key issueNumber titleTrimmed stateTrimmed urlTrimmed providerUpdatedAt indexedAt
  refuse (issueIndexMaxDocumentBytes < byteLen body)
    ("body must be at most " ++ issueIndexMaxDocumentBytes.repr ++ " bytes (" ++
      issueIndexMaxChunks.repr ++ " chunks of " ++ issueIndexMaxChunkBytes.repr ++ " bytes)")
  let contentHash := Index.contentHash titleTrimmed body stateTrimmed
  let chunks ← buildChunks body issueIndexMaxChunkBytes issueIndexMaxChunks
  checkAll IssueIndexChunk.validate chunks
  pure {
    key := key, issueNumber := issueNumber, title := titleTrimmed, body := body
    state := stateTrimmed, url := urlTrimmed, providerUpdatedAt := providerUpdatedAt
    indexedAt := indexedAt, contentHash := contentHash, deleted := false, deletedAt := none
    chunks := chunks }

def checkDeletion (deleted : Bool) (deletedAt : Option Int) (chunks : List IssueIndexChunk) :
    Except String Unit :=
  if deleted then do
    match deletedAt with
    | some ts => refuse (ts ≤ 0) "deleted_at must be greater than zero"
    | none => throw "deleted document must have deleted_at"
    refuse (chunks ≠ []) "deleted document must have no chunks"
  else refuse (deletedAt.isSome) "non-deleted document must not have deleted_at"

def checkChunk (indexed : IssueIndexChunk × Nat) : Except String Unit := do
  let (chunk, exp) := indexed
  refuse (chunk.ordinal ≠ exp) ("chunk ordinal " ++ chunk.ordinal.repr ++
    " does not match expected " ++ exp.repr)
  chunk.validate

def IssueIndexDocument.validate (self : IssueIndexDocument) : Except String Unit := do
  self.key.validate
  refuse (self.issueNumber = 0 ∧ self.deleted = false) "issue_number must be greater than zero"
  validateTitle self.title
  validateState self.state
  checkAll validateUrl self.url.toList
  refuse (self.indexedAt ≤ 0) "indexed_at must be greater than zero"
  refusePast self.providerUpdatedAt "provider_updated_at must be greater than zero when present"
  checkDeletion self.deleted self.deletedAt self.chunks
  refuse (trim self.contentHash = []) "content_hash must be non-empty"
  refuse (self.contentHash.any isControl) "content_hash must not contain control characters"
  refuse (issueIndexMaxChunks < self.chunks.length)
    ("document has " ++ self.chunks.length.repr ++ " chunks but max is " ++
      issueIndexMaxChunks.repr)
  checkAll checkChunk self.chunks.zipIdx
  let expected := Index.contentHash self.title self.body self.state
  refuse (self.contentHash ≠ expected)
    ("content_hash mismatch: expected " ++ String.ofList expected ++ ", got " ++
      String.ofList self.contentHash)
  if self.deleted = false then
    let total := (self.chunks.map fun c => byteLen c.text).sum
    refuse (total ≠ byteLen self.body)
      ("chunk bytes " ++ total.repr ++ " do not match body len " ++ (byteLen self.body).repr)

example : (buildChunks "汉字!".toList 4 2).map (·.map fun c => (c.byteStart, c.byteEnd)) =
    .ok [(0, 3), (3, 7)] := by decide

end Phasegent.Index
