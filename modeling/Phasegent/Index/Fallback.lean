import Phasegent.Index.Chunking
import Phasegent.Provider.Api

namespace Phasegent.Index
open Fallible Text

def issueSearchMaxBodyBytes : Nat := 8192
def issueIndexSearchMaxLimit : Nat := 100

def boundaryBefore (text : List Char) : Nat → Nat
  | 0 => 0
  | stop + 1 => if isCharBoundary text (stop + 1) then stop + 1 else boundaryBefore text stop

def truncateToByteLimit (value : List Char) (maxBytes : Nat) : List Char :=
  if byteLen value ≤ maxBytes then value else slice value 0 (boundaryBefore value maxBytes)

def IssueIndexKey.new (source project externalId : List Char) : Except String IssueIndexKey := do
  validateIdentifier source "source" issueIndexMaxSourceLen
  validateIdentifier project "project" issueIndexMaxProjectLen
  validateIdentifier externalId "external_id" issueIndexMaxExternalIdLen
  return ⟨trim source, trim project, trim externalId⟩

structure IssueIndexScope where
  source : List Char
  project : List Char
  deriving DecidableEq

def docFromSummary (scope : IssueIndexScope) (summary : IssueSummary) (indexedAt : Int) :
    Except String IssueIndexDocument := do
  let key ← IssueIndexKey.new scope.source scope.project (toString summary.number).toList
  IssueIndexDocument.new key summary.number summary.title.toList summary.body.toList summary.state.toList
    (summary.htmlUrl.map String.toList) none indexedAt

section Store

-- `as i64` and back.
def asI64 (n : Nat) : Int := (n : Int).bmod (2 ^ 64)
def asU64 (n : Int) : Nat := (n % 2 ^ 64).toNat

structure IndexRow where
  key : IssueIndexKey
  issueNumber : Int
  title : List Char
  body : List Char
  state : List Char
  url : Option (List Char)
  providerUpdatedAt : Option Int
  indexedAt : Int
  contentHash : List Char
  deleted : Bool
  deletedAt : Option Int
  deriving DecidableEq

structure IndexDb where
  documents : List IndexRow
  chunks : IssueIndexKey → List IssueIndexChunk
  searchable : IssueIndexKey → Option (List Char × List Char)
  keyed : (documents.map (·.key)).Nodup

def rowOf (doc : IssueIndexDocument) : IndexRow where
  key := doc.key
  issueNumber := asI64 doc.issueNumber
  title := doc.title
  body := doc.body
  state := doc.state
  url := doc.url
  providerUpdatedAt := doc.providerUpdatedAt
  indexedAt := doc.indexedAt
  contentHash := doc.contentHash
  deleted := false
  deletedAt := none

def putRow (rows : List IndexRow) (row : IndexRow) : List IndexRow :=
  if rows.any (·.key = row.key) then rows.map fun old => if old.key = row.key then row else old
  else rows ++ [row]

theorem keys_putRow (rows : List IndexRow) (row : IndexRow) :
    (putRow rows row).map (·.key) =
      if rows.any (·.key = row.key) then rows.map (·.key) else rows.map (·.key) ++ [row.key] := by
  unfold putRow
  split
  · rw [List.map_map]
    apply List.map_congr_left
    intro old _
    by_cases same : old.key = row.key <;> simp [same]
  · simp

theorem nodup_putRow {rows : List IndexRow} (keyed : (rows.map (·.key)).Nodup) (row : IndexRow) :
    ((putRow rows row).map (·.key)).Nodup := by
  rw [keys_putRow]
  split
  · exact keyed
  · next absent =>
      rw [List.nodup_append]
      simp only [List.any_eq_true, decide_eq_true_eq, not_exists, not_and] at absent
      refine ⟨keyed, by simp, ?_⟩
      intro key member other last same
      obtain ⟨old, inside, rfl⟩ := List.mem_map.mp member
      rw [List.mem_singleton] at last
      exact absent old inside (same.trans last)

def IndexDb.put (db : IndexDb) (doc : IssueIndexDocument) : IndexDb where
  documents := putRow db.documents (rowOf doc)
  chunks := Function.update db.chunks doc.key doc.chunks
  searchable := Function.update db.searchable doc.key (some (doc.title, doc.body))
  keyed := nodup_putRow db.keyed _

/-- The checks of an upsert; its transaction may also fail for a reason of the database's own. -/
def checkUpsert (failure : Option String) (doc : IssueIndexDocument) : Except String Unit := do
  doc.validate
  refuse (asI64 doc.issueNumber < 0) "could not upsert document: CHECK constraint failed: issue_number >= 0"
  failure.elim (.ok ()) .error

def upsert (failure : Option String) (db : IndexDb) (doc : IssueIndexDocument) : Except String Unit × IndexDb :=
  match checkUpsert failure doc with
  | .error message => (.error message, db)
  | .ok () => (.ok (), db.put doc)

end Store

section Warming

def upsertAll (failures : IssueIndexDocument → Option String) :
    IndexDb → List IssueIndexDocument → Option String × IndexDb
  | db, [] => (none, db)
  | db, doc :: docs =>
      match upsert (failures doc) db doc with
      | (.ok (), db') => upsertAll failures db' docs
      | (.error reason, db') => (some ("index warm skipped: " ++ reason), db')

def warmSearchPage (failures : IssueIndexDocument → Option String) (scope : IssueIndexScope)
    (indexedAt : Int) (summaries : List IssueSummary) (db : IndexDb) : Option String × IndexDb :=
  match summaries.mapM fun summary => docFromSummary scope summary indexedAt with
  | .error reason => (some ("index warm skipped: " ++ reason), db)
  | .ok docs => upsertAll failures db docs

def warmSingleSummary (failures : IssueIndexDocument → Option String) (scope : IssueIndexScope)
    (indexedAt : Int) (summary : IssueSummary) (db : IndexDb) : Option String × IndexDb :=
  warmSearchPage failures scope indexedAt [summary] db

end Warming

section Search

structure LexicalScope where
  source : Option (List Char)
  project : Option (List Char)
  state : Option (List Char)
  deriving DecidableEq

def lexicalScopeForState (scope : Option IssueIndexScope) (state : List Char) : LexicalScope where
  source := scope.map (·.source)
  project := scope.map (·.project)
  state := if trim state = "open".toList ∨ trim state = "closed".toList then some (trim state) else none

def LexicalScope.admits (scope : LexicalScope) (row : IndexRow) : Bool :=
  !row.deleted &&
    (match scope.source, scope.project with
      | some source, some project => row.key.source == source && row.key.project == project
      | _, _ => true) &&
    scope.state.all fun state =>
      (state != "open".toList && state != "closed".toList) || row.state == state

/-- Which rows a full-text engine matches, best first. -/
structure TextEngine where
  ranked : List Char → List IndexRow → List IndexRow
  found : ∀ query rows, ∀ row ∈ ranked query rows, row ∈ rows

structure IssueIndexSearchItem where
  source : List Char
  project : List Char
  externalId : List Char
  issueNumber : Nat
  title : List Char
  state : List Char
  htmlUrl : Option (List Char)
  body : Option (List Char)
  bodyTruncated : Option Bool
  deriving DecidableEq

structure IssueIndexSearchResult where
  items : List IssueIndexSearchItem
  offset : Nat
  limit : Nat
  totalCount : Nat
  hasMore : Bool
  deriving DecidableEq

def shownBody (body : List Char) (includeBody : Bool) : Option (List Char) × Option Bool :=
  if includeBody then
    (some (truncateToByteLimit body issueSearchMaxBodyBytes), some (decide (issueSearchMaxBodyBytes < byteLen body)))
  else (none, none)

def IssueIndexSearchItem.fromDocument (doc : IssueIndexDocument) (includeBody : Bool) :
    IssueIndexSearchItem where
  source := doc.key.source
  project := doc.key.project
  externalId := doc.key.externalId
  issueNumber := doc.issueNumber
  title := doc.title
  state := doc.state
  htmlUrl := doc.url
  body := (shownBody doc.body includeBody).1
  bodyTruncated := (shownBody doc.body includeBody).2

def decodeRow (row : IndexRow) : Except String IssueIndexDocument := do
  let key ← (IssueIndexKey.new row.key.source row.key.project row.key.externalId).mapError
    ("stored key invalid during search: " ++ ·)
  return {
    key := key, issueNumber := asU64 row.issueNumber, title := row.title, body := row.body
    state := row.state, url := row.url, providerUpdatedAt := row.providerUpdatedAt
    indexedAt := row.indexedAt, contentHash := row.contentHash, deleted := row.deleted
    deletedAt := row.deletedAt, chunks := [] }

variable (engine : TextEngine) (query : List Char) (limit offset : Nat) (scope : LexicalScope)

def matchingRows (db : IndexDb) : List IndexRow := (engine.ranked query db.documents).filter scope.admits

-- The offset is bound as a signed number, of which the database reads a negative one as zero.
def pageRows (db : IndexDb) : List IndexRow :=
  ((matchingRows engine query scope db).drop (asI64 offset).toNat).take limit

def lexicalSearchScoped (includeBody : Bool) (db : IndexDb) : Except String IssueIndexSearchResult := do
  refuse (limit = 0 ∨ issueIndexSearchMaxLimit < limit)
    ("search limit must be between 1 and " ++ issueIndexSearchMaxLimit.repr)
  refuse (trim query = []) "lexical search requires a non-empty query"
  let docs ← (pageRows engine query limit offset scope db).mapM decodeRow
  let items := docs.map (IssueIndexSearchItem.fromDocument · includeBody)
  let total := (matchingRows engine query scope db).length
  return ⟨items, offset, limit, total, (offset + items.length) % 2 ^ 64 < total⟩

end Search

section Items

structure IssueSearchItem where
  id : Nat
  number : Nat
  title : List Char
  state : List Char
  htmlUrl : Option (List Char)
  body : Option (List Char)
  bodyTruncated : Option Bool
  source : Option (List Char)
  project : Option (List Char)
  externalId : Option (List Char)
  deriving DecidableEq

def IssueSearchItem.fromSummary (summary : IssueSummary) (includeBody : Bool) : IssueSearchItem where
  id := summary.id
  number := summary.number
  title := summary.title.toList
  state := summary.state.toList
  htmlUrl := summary.htmlUrl.map String.toList
  body := (shownBody summary.body.toList includeBody).1
  bodyTruncated := (shownBody summary.body.toList includeBody).2
  source := none
  project := none
  externalId := none

def IssueSearchItem.fromLocalParts (item : IssueIndexSearchItem) (includeBody : Bool) : IssueSearchItem where
  id := item.issueNumber
  number := item.issueNumber
  title := item.title
  state := item.state
  htmlUrl := item.htmlUrl
  body := (shownBody (item.body.getD []) includeBody).1
  bodyTruncated := (shownBody (item.body.getD []) includeBody).2
  source := some item.source
  project := some item.project
  externalId := some item.externalId

end Items

section Fallback

structure IssueSearchOptions where
  query : Option (List Char)
  state : List Char
  page : Nat
  limit : Nat
  includeBody : Bool
  deriving DecidableEq

def IssueSearchOptions.effectiveQuery (options : IssueSearchOptions) : Option (List Char) :=
  (options.query.map trim).filter fun value => value ≠ []

def containsText (text part : String) : Bool := (splitOnce part.toList text.toList).isSome

def isSearchArgumentError : PhasegentError → Bool
  | .config message =>
      containsText message "issue search requires" || containsText message "issue state must be" ||
        containsText message "issue search page must be" || containsText message "issue search limit must be"
  | _ => false

structure LocalFallbackEnvelope where
  items : List IssueSearchItem
  page : Nat
  limit : Nat
  totalCount : Option Nat
  hasMore : Bool
  dataSource : String
  stale : Bool
  deriving DecidableEq

def usizeMax : Nat := 2 ^ 64 - 1

def IssueSearchOptions.offset (options : IssueSearchOptions) : Nat :=
  min ((options.page - 1) * options.limit) usizeMax

variable (engine : TextEngine) (original : PhasegentError) (options : IssueSearchOptions)
  (scope : Option IssueIndexScope)

def fallbackOrProviderError (opened : Except String IndexDb) : Except PhasegentError LocalFallbackEnvelope :=
  if original.isNotSupported || isSearchArgumentError original then .error original
  else match options.effectiveQuery with
    | none => .error original
    | some query =>
        match opened >>= lexicalSearchScoped engine query options.limit options.offset
            (lexicalScopeForState scope options.state) options.includeBody with
        | .error _ => .error original
        | .ok found =>
            if found.items = [] then .error original
            else
              let items := found.items.map (IssueSearchItem.fromLocalParts · options.includeBody)
              .ok {
                items := items, page := options.page, limit := options.limit
                totalCount := some found.totalCount
                hasMore := (options.offset + items.length) % 2 ^ 64 < found.totalCount
                dataSource := "local_index", stale := true }

def returnedRows (db : IndexDb) : List IndexRow :=
  pageRows engine (options.effectiveQuery.getD []) options.limit options.offset
    (lexicalScopeForState scope options.state) db

end Fallback

end Phasegent.Index
