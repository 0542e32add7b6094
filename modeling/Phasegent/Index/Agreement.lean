import Phasegent.Index.Fallback

namespace Phasegent.Index
open Fallible Text

section Truncation
variable {text : List Char} {maxBytes : Nat}

theorem boundaryBefore_spec (text : List Char) (stop : Nat) :
    isCharBoundary text (boundaryBefore text stop) ∧ boundaryBefore text stop ≤ stop := by
  induction stop with
  | zero => simp [boundaryBefore, isCharBoundary]
  | succ stop ih =>
      by_cases here : isCharBoundary text (stop + 1)
      · simp [boundaryBefore, here]
      · simp only [boundaryBefore, here]
        exact ⟨ih.1, Nat.le_succ_of_le ih.2⟩

theorem truncate_spec (text : List Char) (maxBytes : Nat) :
    truncateToByteLimit text maxBytes <+: text ∧ byteLen (truncateToByteLimit text maxBytes) ≤ maxBytes := by
  unfold truncateToByteLimit
  split
  · next fits => exact ⟨List.prefix_refl text, fits⟩
  · obtain ⟨boundary, within⟩ := boundaryBefore_spec text maxBytes
    obtain ⟨front, rest, rfl, size⟩ := front_of_isCharBoundary boundary
    have part : slice (front ++ rest) 0 (boundaryBefore (front ++ rest) maxBytes) = front := by
      have whole := slice_append [] front rest
      simpa [← size] using whole
    rw [part, size]
    exact ⟨List.prefix_append front rest, within⟩

theorem truncate_truncate (text : List Char) (maxBytes : Nat) :
    truncateToByteLimit (truncateToByteLimit text maxBytes) maxBytes = truncateToByteLimit text maxBytes :=
  if_pos (truncate_spec text maxBytes).2

theorem truncate_shorter_iff :
    byteLen (truncateToByteLimit text maxBytes) < byteLen text ↔ maxBytes < byteLen text := by
  have short := (truncate_spec text maxBytes).2
  constructor
  · intro shorter
    by_contra fits
    rw [truncateToByteLimit, if_pos (by omega)] at shorter
    omega
  · intro long
    omega

end Truncation

section Documents
variable {scope : IssueIndexScope} {summary : IssueSummary} {indexedAt : Int} {doc : IssueIndexDocument}

theorem validateIdentifier_trim (v : List Char) (f : String) (m : Nat) :
    validateIdentifier (trim v) f m = validateIdentifier v f m := by
  simp [validateIdentifier]

theorem key_new_again {source project externalId : List Char} {key : IssueIndexKey}
    (made : IssueIndexKey.new source project externalId = .ok key) :
    IssueIndexKey.new key.source key.project key.externalId = .ok key := by
  simp only [IssueIndexKey.new, bind_eq_ok, pure_eq, Except.ok.injEq] at made
  obtain ⟨_, first, _, second, _, third, rfl⟩ := made
  simp only [IssueIndexKey.new, validateIdentifier_trim, first, second, third, ok_bind, trim_trim]
  rfl

theorem doc_key (made : docFromSummary scope summary indexedAt = .ok doc) :
    IssueIndexKey.new doc.key.source doc.key.project doc.key.externalId = .ok doc.key := by
  simp only [docFromSummary, bind_eq_ok] at made
  obtain ⟨key, built, made⟩ := made
  simp only [IssueIndexDocument.new, bind_eq_ok, pure_eq, Except.ok.injEq] at made
  obtain ⟨-, -, -, -, chunks, -, -, -, rfl⟩ := made
  exact key_new_again built

structure Copies (doc : IssueIndexDocument) (summary : IssueSummary) : Prop where
  number : doc.issueNumber = summary.number
  title : doc.title = trim summary.title.toList
  body : doc.body = summary.body.toList
  state : doc.state = trim summary.state.toList
  url : doc.url = (summary.htmlUrl.map String.toList).map trim

theorem doc_copies (made : docFromSummary scope summary indexedAt = .ok doc) : Copies doc summary := by
  simp only [docFromSummary, bind_eq_ok] at made
  obtain ⟨key, -, made⟩ := made
  simp only [IssueIndexDocument.new, bind_eq_ok, pure_eq, Except.ok.injEq] at made
  obtain ⟨-, -, -, -, chunks, -, -, -, rfl⟩ := made
  constructor <;> rfl

theorem toNat_bmod {n m : Nat} (small : n < m) : ((n : Int).bmod m % m).toNat = n := by
  rw [Int.bmod_emod, Int.emod_eq_of_lt (by omega) (by omega), Int.toNat_natCast]

theorem asU64_asI64 {n : Nat} (small : n < 2 ^ 64) : asU64 (asI64 n) = n := by
  have same := toNat_bmod small
  rwa [Nat.cast_pow, Nat.cast_ofNat] at same

end Documents

section Items
variable {summary : IssueSummary} {doc : IssueIndexDocument} {includeBody : Bool}

/-- What a stale item says of a summary is what a fresh one says. -/
structure Agrees (stale : IssueSearchItem) (summary : IssueSummary) (includeBody : Bool) : Prop where
  number : stale.number = (IssueSearchItem.fromSummary summary includeBody).number
  state : stale.state = (IssueSearchItem.fromSummary summary includeBody).state
  title : trim stale.title = trim (IssueSearchItem.fromSummary summary includeBody).title
  url : stale.htmlUrl.map trim = (IssueSearchItem.fromSummary summary includeBody).htmlUrl.map trim
  body : stale.body = (IssueSearchItem.fromSummary summary includeBody).body
  cut : ∀ body ∈ stale.body, body <+: summary.body.toList ∧ byteLen body ≤ issueSearchMaxBodyBytes
  flag : stale.bodyTruncated = stale.body.map fun body => decide (byteLen body < byteLen summary.body.toList)

/-- What an agreement takes: a body that the index item shows whole, and a state without blanks around it. -/
def ShownWhole (summary : IssueSummary) (includeBody : Bool) : Prop :=
  (includeBody = true → byteLen summary.body.toList ≤ issueSearchMaxBodyBytes) ∧
    trim summary.state.toList = summary.state.toList

def staleItem (doc : IssueIndexDocument) (includeBody : Bool) : IssueSearchItem :=
  .fromLocalParts (.fromDocument doc includeBody) includeBody

theorem staleItem_body (doc : IssueIndexDocument) (includeBody : Bool) :
    (staleItem doc includeBody).body = (shownBody doc.body includeBody).1 := by
  cases includeBody with
  | false => rfl
  | true => exact congrArg some (truncate_truncate doc.body issueSearchMaxBodyBytes)

theorem staleItem_flag (doc : IssueIndexDocument) :
    (staleItem doc true).bodyTruncated = some false := by
  have short := (truncate_spec doc.body issueSearchMaxBodyBytes).2
  simpa [staleItem, IssueSearchItem.fromLocalParts, IssueIndexSearchItem.fromDocument, shownBody] using short

theorem agrees_iff (copies : Copies doc summary) :
    Agrees (staleItem doc includeBody) summary includeBody ↔ ShownWhole summary includeBody := by
  have body : (staleItem doc includeBody).body = (shownBody summary.body.toList includeBody).1 := by
    rw [staleItem_body, copies.body]
  constructor
  · intro agrees
    refine ⟨?_, ?_⟩
    · intro included
      subst included
      have flag := agrees.flag
      rw [staleItem_flag, body] at flag
      simp only [shownBody, if_true, Option.map_some, Option.some.injEq] at flag
      have whole : ¬byteLen (truncateToByteLimit summary.body.toList issueSearchMaxBodyBytes) <
          byteLen summary.body.toList := by simpa using flag.symm
      rw [truncate_shorter_iff] at whole
      omega
    · have state : doc.state = summary.state.toList := agrees.state
      rw [← copies.state, state]
  · intro ⟨short, plain⟩
    constructor
    · exact copies.number
    · exact copies.state.trans plain
    · change trim doc.title = trim summary.title.toList
      rw [copies.title, trim_trim]
    · change doc.url.map trim = (summary.htmlUrl.map String.toList).map trim
      rw [copies.url, Option.map_map]
      congr 1
      funext url
      exact trim_trim url
    · exact body
    · intro shown among
      rw [body] at among
      cases includeBody with
      | false => simp [shownBody] at among
      | true =>
          obtain rfl : truncateToByteLimit summary.body.toList issueSearchMaxBodyBytes = shown := by
            simpa [shownBody] using among
          exact truncate_spec summary.body.toList issueSearchMaxBodyBytes
    · cases includeBody with
      | false => rfl
      | true =>
          rw [staleItem_flag, body]
          have fits := short rfl
          have whole : ¬byteLen (truncateToByteLimit summary.body.toList issueSearchMaxBodyBytes) <
              byteLen summary.body.toList := by
            rw [truncate_shorter_iff]
            omega
          simp only [shownBody, if_true, Option.map_some, Option.some.injEq]
          simpa using Nat.not_lt.mp whole

end Items

section Rows
variable {doc : IssueIndexDocument} {rows : List IndexRow}

theorem mem_putRow_self (rows : List IndexRow) (row : IndexRow) : row ∈ putRow rows row := by
  unfold putRow
  split
  · next present =>
      obtain ⟨old, inside, same⟩ := List.any_eq_true.mp present
      exact List.mem_map.mpr ⟨old, inside, if_pos (of_decide_eq_true same)⟩
  · simp

theorem mem_putRow_other {row other : IndexRow} (member : other ∈ rows) (apart : other.key ≠ row.key) :
    other ∈ putRow rows row := by
  unfold putRow
  split
  · exact List.mem_map.mpr ⟨other, member, if_neg apart⟩
  · exact List.mem_append_left _ member

theorem upsert_keeps {row : IndexRow} {db : IndexDb} {failure : Option String} (held : row ∈ db.documents)
    (apart : row.key ≠ doc.key) : row ∈ (upsert failure db doc).2.documents := by
  unfold upsert
  split
  · exact held
  · exact mem_putRow_other held apart

theorem upsertAll_keeps {row : IndexRow} {db : IndexDb} {failures : IssueIndexDocument → Option String}
    {docs : List IssueIndexDocument} (held : row ∈ db.documents) (apart : ∀ doc ∈ docs, row.key ≠ doc.key) :
    row ∈ (upsertAll failures db docs).2.documents := by
  induction docs generalizing db with
  | nil => exact held
  | cons doc docs ih =>
      rw [List.forall_mem_cons] at apart
      have kept := @upsert_keeps doc row db (failures doc) held apart.1
      rw [upsertAll]
      rcases step : upsert (failures doc) db doc with ⟨_ | _, after⟩
      · rw [step] at kept
        exact kept
      · rw [step] at kept
        exact ih kept apart.2

theorem upsertAll_stores {db : IndexDb} {failures : IssueIndexDocument → Option String}
    {front rest : List IssueIndexDocument} (quiet : (upsertAll failures db (front ++ doc :: rest)).1 = none)
    (last : ∀ other ∈ rest, doc.key ≠ other.key) :
    rowOf doc ∈ (upsertAll failures db (front ++ doc :: rest)).2.documents := by
  induction front generalizing db with
  | nil =>
      rw [List.nil_append, upsertAll] at quiet ⊢
      rcases step : upsert (failures doc) db doc with ⟨_ | _, after⟩
      · simp [step] at quiet
      · have here : rowOf doc ∈ after.documents := by
          unfold upsert at step
          split at step
          · simp at step
          · cases step
            exact mem_putRow_self _ _
        simpa [step] using upsertAll_keeps here last
  | cons first front ih =>
      rw [List.cons_append, upsertAll] at quiet ⊢
      rcases step : upsert (failures first) db first with ⟨_ | _, after⟩
      · simp [step] at quiet
      · rw [step] at quiet
        exact ih quiet

end Rows

section Histories

theorem exists_source {α β : Type} {r : α → β → Prop} {xs : List α} {ys : List β} (related : List.Forall₂ r xs ys)
    {y : β} (member : y ∈ ys) : ∃ x ∈ xs, r x y := by
  induction related with
  | nil => simp at member
  | cons here rest ih =>
      cases List.mem_cons.mp member with
      | inl same => exact ⟨_, List.mem_cons_self, same ▸ here⟩
      | inr later =>
          obtain ⟨x, inside, holds⟩ := ih later
          exact ⟨x, List.mem_cons_of_mem _ inside, holds⟩

theorem getElem?_image {α β : Type} {r : α → β → Prop} {xs : List α} {ys : List β} (related : List.Forall₂ r xs ys)
    {x : α} {i : Nat} (at' : xs[i]? = some x) : ∃ y, ys[i]? = some y ∧ r x y := by
  induction related generalizing i with
  | nil => simp at at'
  | cons here rest ih =>
      cases i with
      | zero =>
          cases at'
          exact ⟨_, rfl, here⟩
      | succ i => exact ih at'

theorem split_image {α β : Type} {r : α → β → Prop} {front rest : List α} {x : α} {ys : List β}
    (related : List.Forall₂ r (front ++ x :: rest) ys) :
    ∃ before y after, ys = before ++ y :: after ∧ r x y ∧ List.Forall₂ r rest after := by
  induction front generalizing ys with
  | nil =>
      obtain ⟨y, after, here, others, rfl⟩ := List.forall₂_cons_left_iff.mp related
      exact ⟨[], y, after, rfl, here, others⟩
  | cons first front ih =>
      obtain ⟨y, later, -, tail, rfl⟩ := List.forall₂_cons_left_iff.mp related
      obtain ⟨before, z, after, rfl, here, others⟩ := ih tail
      exact ⟨y :: before, z, after, rfl, here, others⟩

structure Warm where
  failures : IssueIndexDocument → Option String
  scope : IssueIndexScope
  indexedAt : Int
  summaries : List IssueSummary

def Warm.run (warm : Warm) (db : IndexDb) : Option String × IndexDb :=
  warmSearchPage warm.failures warm.scope warm.indexedAt warm.summaries db

def Warm.single (failures : IssueIndexDocument → Option String) (scope : IssueIndexScope) (indexedAt : Int)
    (summary : IssueSummary) : Warm :=
  ⟨failures, scope, indexedAt, [summary]⟩

theorem Warm.run_single (failures : IssueIndexDocument → Option String) (scope : IssueIndexScope)
    (indexedAt : Int) (summary : IssueSummary) (db : IndexDb) :
    (Warm.single failures scope indexedAt summary).run db =
      warmSingleSummary failures scope indexedAt summary db := rfl

def runAll (warms : List Warm) (db : IndexDb) : IndexDb := warms.foldl (fun db warm => (warm.run db).2) db

def Warm.Spares (warm : Warm) (key : IssueIndexKey) : Prop :=
  ∀ summary ∈ warm.summaries, ∀ doc, docFromSummary warm.scope summary warm.indexedAt = .ok doc → key ≠ doc.key

theorem Warm.keeps {warm : Warm} {row : IndexRow} {db : IndexDb} (held : row ∈ db.documents)
    (spares : warm.Spares row.key) : row ∈ (warm.run db).2.documents := by
  unfold Warm.run warmSearchPage
  split
  · exact held
  · next docs built =>
      apply upsertAll_keeps held
      intro doc member
      obtain ⟨summary, among, made⟩ := exists_source (mapM_eq_ok.mp built) member
      exact spares summary among doc made

theorem runAll_keeps {warms : List Warm} {row : IndexRow} {db : IndexDb} (held : row ∈ db.documents)
    (spares : ∀ warm ∈ warms, warm.Spares row.key) : row ∈ (runAll warms db).documents := by
  induction warms generalizing db with
  | nil => exact held
  | cons warm warms ih =>
      rw [List.forall_mem_cons] at spares
      exact ih (warm.keeps held spares.1) spares.2

theorem warm_stores {warm : Warm} {db : IndexDb} {front rest : List IssueSummary} {summary : IssueSummary}
    {doc : IssueIndexDocument} (shape : warm.summaries = front ++ summary :: rest)
    (made : docFromSummary warm.scope summary warm.indexedAt = .ok doc) (quiet : (warm.run db).1 = none)
    (last : ∀ other ∈ rest, ∀ later, docFromSummary warm.scope other warm.indexedAt = .ok later →
      doc.key ≠ later.key) : rowOf doc ∈ (warm.run db).2.documents := by
  unfold Warm.run warmSearchPage at quiet ⊢
  split at quiet
  · simp at quiet
  · next docs built =>
      rw [shape] at built
      obtain ⟨before, doc', after, rfl, made', others⟩ := split_image (mapM_eq_ok.mp built)
      obtain rfl : doc = doc' := Except.ok.inj (made.symm.trans made')
      apply upsertAll_stores quiet
      intro other member
      obtain ⟨source, among, built'⟩ := exists_source others member
      exact last source among other built'

theorem warmSingleSummary_stores {failures : IssueIndexDocument → Option String} {scope : IssueIndexScope}
    {indexedAt : Int} {summary : IssueSummary} {db : IndexDb} {doc : IssueIndexDocument}
    (made : docFromSummary scope summary indexedAt = .ok doc)
    (quiet : (warmSingleSummary failures scope indexedAt summary db).1 = none) :
    rowOf doc ∈ (warmSingleSummary failures scope indexedAt summary db).2.documents := by
  rw [← Warm.run_single] at quiet ⊢
  have alone : (Warm.single failures scope indexedAt summary).summaries = [] ++ summary :: [] := rfl
  exact warm_stores alone made quiet (by simp)

end Histories

section Searches
variable {engine : TextEngine} {original : PhasegentError} {options : IssueSearchOptions}
  {scope : Option IssueIndexScope} {db : IndexDb} {envelope : LocalFallbackEnvelope}

theorem decode_rowOf {doc : IssueIndexDocument} {summary : IssueSummary} (copies : Copies doc summary)
    (small : summary.number < 2 ^ 64)
    (key : IssueIndexKey.new doc.key.source doc.key.project doc.key.externalId = .ok doc.key)
    {shown : IssueIndexDocument} (decoded : decodeRow (rowOf doc) = .ok shown) (includeBody : Bool) :
    IssueIndexSearchItem.fromDocument shown includeBody = .fromDocument doc includeBody := by
  simp only [decodeRow, rowOf, key, Except.mapError, ok_bind, pure_eq, Except.ok.injEq] at decoded
  subst decoded
  have number : asU64 (asI64 doc.issueNumber) = doc.issueNumber := asU64_asI64 (copies.number ▸ small)
  simp [IssueIndexSearchItem.fromDocument, number]

theorem envelope_item {i : Nat} {row : IndexRow}
    (answered : fallbackOrProviderError engine original options scope (.ok db) = .ok envelope)
    (returned : (returnedRows engine options scope db)[i]? = some row) :
    ∃ shown, decodeRow row = .ok shown ∧ envelope.items[i]? =
      some (.fromLocalParts (.fromDocument shown options.includeBody) options.includeBody) := by
  unfold fallbackOrProviderError at answered
  split at answered
  · cases answered
  unfold returnedRows at returned
  split at answered
  · cases answered
  · next query effective =>
      rw [effective] at returned
      split at answered
      · cases answered
      · next found searched =>
          split at answered
          · cases answered
          · cases answered
            simp only [ok_bind, lexicalSearchScoped, bind_eq_ok, pure_eq, Except.ok.injEq] at searched
            obtain ⟨-, -, -, -, docs, decoded, rfl⟩ := searched
            obtain ⟨shown, at', decodes⟩ := getElem?_image (mapM_eq_ok.mp decoded) returned
            exact ⟨shown, decodes, by simp [at']⟩

theorem agrees_of_held {warm : Warm} {summary : IssueSummary} {doc : IssueIndexDocument} {i : Nat}
    {row : IndexRow} (small : summary.number < 2 ^ 64)
    (made : docFromSummary warm.scope summary warm.indexedAt = .ok doc) (held : rowOf doc ∈ db.documents)
    (answered : fallbackOrProviderError engine original options scope (.ok db) = .ok envelope)
    (returned : (returnedRows engine options scope db)[i]? = some row) (own : row.key = doc.key) :
    ∃ item, envelope.items[i]? = some item ∧
      (Agrees item summary options.includeBody ↔ ShownWhole summary options.includeBody) := by
  have among : row ∈ db.documents := by
    have member := List.mem_of_getElem? returned
    have matching := List.mem_of_mem_drop (List.mem_of_mem_take member)
    exact engine.found _ _ row (List.mem_filter.mp matching).1
  obtain rfl : row = rowOf doc := List.inj_on_of_nodup_map db.keyed among held own
  obtain ⟨shown, decoded, at'⟩ := envelope_item answered returned
  rw [decode_rowOf (doc_copies made) small (doc_key made) decoded] at at'
  exact ⟨_, at', agrees_iff (doc_copies made)⟩

/-- A stale result agrees with what was indexed as long as nothing of the body had to be cut. -/
theorem stale_fallback_agrees_iff {warm : Warm} {later : List Warm} {summary : IssueSummary}
    {doc : IssueIndexDocument} {i : Nat} {row : IndexRow} (small : summary.number < 2 ^ 64)
    (made : docFromSummary warm.scope summary warm.indexedAt = .ok doc)
    (stored : rowOf doc ∈ (warm.run db).2.documents) (spared : ∀ other ∈ later, other.Spares doc.key)
    (answered : fallbackOrProviderError engine original options scope
      (.ok (runAll later (warm.run db).2)) = .ok envelope)
    (returned : (returnedRows engine options scope (runAll later (warm.run db).2))[i]? = some row)
    (own : row.key = doc.key) :
    ∃ item, envelope.items[i]? = some item ∧
      (Agrees item summary options.includeBody ↔ ShownWhole summary options.includeBody) :=
  agrees_of_held small made (runAll_keeps stored spared) answered returned own

theorem warm_fallback_agrees_iff {warm : Warm} {later : List Warm} {front rest : List IssueSummary}
    {summary : IssueSummary} {doc : IssueIndexDocument} {i : Nat} {row : IndexRow}
    (small : summary.number < 2 ^ 64) (shape : warm.summaries = front ++ summary :: rest)
    (made : docFromSummary warm.scope summary warm.indexedAt = .ok doc) (quiet : (warm.run db).1 = none)
    (last : ∀ other ∈ rest, ∀ later, docFromSummary warm.scope other warm.indexedAt = .ok later →
      doc.key ≠ later.key) (spared : ∀ other ∈ later, other.Spares doc.key)
    (answered : fallbackOrProviderError engine original options scope
      (.ok (runAll later (warm.run db).2)) = .ok envelope)
    (returned : (returnedRows engine options scope (runAll later (warm.run db).2))[i]? = some row)
    (own : row.key = doc.key) :
    ∃ item, envelope.items[i]? = some item ∧
      (Agrees item summary options.includeBody ↔ ShownWhole summary options.includeBody) :=
  agrees_of_held small made (runAll_keeps (warm_stores shape made quiet last) spared) answered returned own

end Searches

section Samples

def everyRow : TextEngine := ⟨fun _ rows => rows, fun _ _ _ member => member⟩

def emptyIndex : IndexDb := ⟨[], fun _ => [], fun _ => none, List.nodup_nil⟩

def sampleScope : IssueIndexScope := ⟨"redmine".toList, "1".toList⟩

def sampleSummary (body : List Char) : IssueSummary where
  id := 7
  number := 7
  title := " Plan "
  body := String.ofList body
  state := "open"
  htmlUrl := none
  project := none

def sampleWarm (summary : IssueSummary) : Warm where
  failures _ := none
  scope := sampleScope
  indexedAt := 5
  summaries := [summary]

def sampleOptions : IssueSearchOptions := ⟨some "plan".toList, "all".toList, 1, 20, true⟩

def outage : PhasegentError := .request "issue search" "connection refused"

def AlwaysAgrees : Prop :=
  ∀ (engine : TextEngine) (original : PhasegentError) (options : IssueSearchOptions)
    (scope : Option IssueIndexScope) (db : IndexDb) (warm : Warm) (later : List Warm) (summary : IssueSummary)
    (doc : IssueIndexDocument) (envelope : LocalFallbackEnvelope) (i : Nat) (row : IndexRow),
    summary.number < 2 ^ 64 → docFromSummary warm.scope summary warm.indexedAt = .ok doc →
    rowOf doc ∈ (warm.run db).2.documents → (∀ other ∈ later, other.Spares doc.key) →
    fallbackOrProviderError engine original options scope (.ok (runAll later (warm.run db).2)) = .ok envelope →
    (returnedRows engine options scope (runAll later (warm.run db).2))[i]? = some row → row.key = doc.key →
    ∃ item, envelope.items[i]? = some item ∧ Agrees item summary options.includeBody

theorem sample_made {body : List Char} (short : byteLen body ≤ issueIndexMaxDocumentBytes)
    (cut : Cut.Cuttable Char.utf8Size issueIndexMaxChunkBytes issueIndexMaxChunks body) :
    ∃ doc, docFromSummary sampleScope (sampleSummary body) 5 = .ok doc := by
  have key : IssueIndexKey.new "redmine".toList "1".toList (toString 7).toList =
      .ok ⟨"redmine".toList, "1".toList, "7".toList⟩ := by decide
  have fields : checkFields ⟨"redmine".toList, "1".toList, "7".toList⟩ 7 (trim " Plan ".toList)
      (trim "open".toList) ((none : Option (List Char)).map trim) none 5 = .ok () := by decide
  have body' : (sampleSummary body).body.toList = body := by simp [sampleSummary]
  obtain ⟨doc, made⟩ := (new_accepts fields short).mpr cut
  refine ⟨doc, ?_⟩
  have named : IssueIndexKey.new sampleScope.source sampleScope.project
      (toString (sampleSummary body).number).toList = .ok ⟨"redmine".toList, "1".toList, "7".toList⟩ := key
  rw [docFromSummary, body', named, ok_bind]
  exact made

theorem doc_valid {scope : IssueIndexScope} {summary : IssueSummary} {indexedAt : Int} {doc : IssueIndexDocument}
    (made : docFromSummary scope summary indexedAt = .ok doc) : doc.validate = .ok () := by
  simp only [docFromSummary, bind_eq_ok] at made
  obtain ⟨key, -, built⟩ := made
  exact new_valid built

theorem sample_run {body : List Char} {doc : IssueIndexDocument}
    (made : docFromSummary sampleScope (sampleSummary body) 5 = .ok doc) :
    ((sampleWarm (sampleSummary body)).run emptyIndex).2 = emptyIndex.put doc := by
  have valid := doc_valid made
  have number : doc.issueNumber = 7 := (doc_copies made).number
  have admitted : checkUpsert none doc = .ok () := by
    have positive : ¬asI64 doc.issueNumber < 0 := by
      rw [number]
      decide
    simp [checkUpsert, valid, refuse_of_not positive]
  have stored : upsert none emptyIndex doc = (.ok (), emptyIndex.put doc) := by
    rw [upsert, admitted]
  simp [Warm.run, warmSearchPage, sampleWarm, List.mapM_cons, made, upsertAll, stored]

theorem sample_answer {body : List Char} {doc : IssueIndexDocument}
    (made : docFromSummary sampleScope (sampleSummary body) 5 = .ok doc) :
    (∃ envelope, fallbackOrProviderError everyRow outage sampleOptions none (.ok (emptyIndex.put doc)) =
      .ok envelope) ∧ returnedRows everyRow sampleOptions none (emptyIndex.put doc) = [rowOf doc] := by
  have query : sampleOptions.effectiveQuery = some "plan".toList := by decide
  have rows : pageRows everyRow "plan".toList 20 0 (lexicalScopeForState none "all".toList)
      (emptyIndex.put doc) = [rowOf doc] := by
    have unscoped : lexicalScopeForState none "all".toList = ⟨none, none, none⟩ := by decide
    rw [unscoped]
    rfl
  have offset : sampleOptions.offset = 0 := by decide
  have decoded : ∃ shown, decodeRow (rowOf doc) = .ok shown := by
    simp [decodeRow, rowOf, doc_key made, Except.mapError]
  obtain ⟨shown, decoded⟩ := decoded
  constructor
  · have searched : lexicalSearchScoped everyRow "plan".toList 20 0 (lexicalScopeForState none "all".toList) true
        (emptyIndex.put doc) = .ok ⟨[.fromDocument shown true], 0, 20,
          (matchingRows everyRow "plan".toList (lexicalScopeForState none "all".toList) (emptyIndex.put doc)).length,
          decide (0 + 1 < (matchingRows everyRow "plan".toList (lexicalScopeForState none "all".toList)
            (emptyIndex.put doc)).length)⟩ := by
      have limit : ¬((20 : Nat) = 0 ∨ issueIndexSearchMaxLimit < 20) := by decide
      have filled : ¬trim "plan".toList = [] := by decide
      simp only [lexicalSearchScoped, rows, refuse_of_not limit, refuse_of_not filled, ok_bind]
      simp [decoded]
    have plain : (outage.isNotSupported || isSearchArgumentError outage) = false := rfl
    have asked : (Except.ok (emptyIndex.put doc) : Except String IndexDb) >>= lexicalSearchScoped everyRow
        "plan".toList sampleOptions.limit 0 (lexicalScopeForState none sampleOptions.state)
        sampleOptions.includeBody = _ := searched
    rw [fallbackOrProviderError, plain, query, offset]
    simp only [asked]
    exact ⟨_, rfl⟩
  · rw [returnedRows, query, offset]
    exact rows

theorem short_body_agrees : ∃ (doc : IssueIndexDocument) (envelope : LocalFallbackEnvelope) (item : IssueSearchItem),
    docFromSummary sampleScope (sampleSummary "do it".toList) 5 = .ok doc ∧ envelope.items[0]? = some item ∧
      (Agrees item (sampleSummary "do it".toList) true ↔ ShownWhole (sampleSummary "do it".toList) true) := by
  have cut : Cut.Cuttable Char.utf8Size issueIndexMaxChunkBytes issueIndexMaxChunks "do it".toList :=
    ⟨["do it".toList], by decide, by decide, by decide⟩
  obtain ⟨doc, made⟩ := sample_made (by decide) cut
  obtain ⟨⟨envelope, answered⟩, rows⟩ := sample_answer made
  have stored : rowOf doc ∈ (emptyIndex.put doc).documents := mem_putRow_self [] (rowOf doc)
  rw [← sample_run made] at stored answered rows
  have at' : (returnedRows everyRow sampleOptions none
      (runAll [] ((sampleWarm (sampleSummary "do it".toList)).run emptyIndex).2))[0]? = some (rowOf doc) := by
    rw [runAll, List.foldl_nil, rows]
    rfl
  obtain ⟨item, found, agreement⟩ := stale_fallback_agrees_iff (by decide) made stored (by simp) answered at' rfl
  exact ⟨doc, envelope, item, made, found, agreement⟩

theorem exists_long_body : ∃ body, byteLen body = issueSearchMaxBodyBytes + 1 ∧
    Cut.Cuttable Char.utf8Size issueIndexMaxChunkBytes issueIndexMaxChunks body := by
  have whole : ∀ n, byteLen (List.replicate n 'a') = n := by
    intro n
    have each := byteLen_replicate n 'a'
    rwa [show 'a'.utf8Size = 1 from rfl, Nat.mul_one] at each
  refine ⟨([4000, 4000, 193].map (List.replicate · 'a')).flatten, ?_, _, rfl, by decide, ?_⟩
  · simp only [byteLen_flatten, List.map_cons, List.map_nil, whole]
    decide
  · intro piece member
    obtain ⟨n, among, rfl⟩ := List.mem_map.mp member
    have few : ∀ n ∈ [4000, 4000, 193], n ≤ 4000 := by decide
    exact (whole n).trans_le (few n among)

theorem long_body_claims_whole : ¬AlwaysAgrees := by
  intro agrees
  obtain ⟨body, size, cut⟩ := exists_long_body
  have small : (sampleSummary body).number < 2 ^ 64 := show 7 < 2 ^ 64 by decide
  obtain ⟨doc, made⟩ := sample_made (by rw [size]; decide) cut
  obtain ⟨⟨envelope, answered⟩, rows⟩ := sample_answer made
  have stored : rowOf doc ∈ (emptyIndex.put doc).documents := mem_putRow_self [] (rowOf doc)
  rw [← sample_run made] at stored answered rows
  have same := agrees everyRow outage sampleOptions none emptyIndex (sampleWarm (sampleSummary _)) [] _ doc envelope 0
    (rowOf doc) small made stored (by simp) answered (by rw [runAll, List.foldl_nil, rows]; rfl) rfl
  obtain ⟨item, at', agreement⟩ := same
  have at₀ : (returnedRows everyRow sampleOptions none
      ((sampleWarm (sampleSummary body)).run emptyIndex).2)[0]? = some (rowOf doc) := by
    rw [rows]
    rfl
  obtain ⟨shown, decoded, found⟩ := envelope_item answered at₀
  rw [decode_rowOf (doc_copies made) small (doc_key made) decoded] at found
  obtain rfl := Option.some.inj (found.symm.trans at')
  have whole := ((agrees_iff (doc_copies made)).mp agreement).1 rfl
  have told : (sampleSummary body).body.toList = body := by simp [sampleSummary]
  rw [told, size] at whole
  exact absurd whole (by decide)

end Samples

end Phasegent.Index
