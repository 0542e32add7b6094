import Phasegent.Index.Document

namespace Phasegent.Index
open Fallible Text

@[simp] theorem byteLen_nil : byteLen [] = 0 := rfl

@[simp] theorem byteLen_cons (c : Char) (text : List Char) :
    byteLen (c :: text) = c.utf8Size + byteLen text := by
  simp [byteLen]

@[simp] theorem byteLen_append (front rest : List Char) :
    byteLen (front ++ rest) = byteLen front + byteLen rest := by
  simp [byteLen]

theorem byteLen_pos {text : List Char} (nonempty : text ≠ []) : 0 < byteLen text :=
  Cut.total_pos Char.utf8Size_pos nonempty

theorem byteLen_replicate (n : Nat) (c : Char) :
    byteLen (List.replicate n c) = n * c.utf8Size := by
  simp [byteLen, Cut.total]

theorem byteLen_flatten (parts : List (List Char)) :
    byteLen parts.flatten = (parts.map byteLen).sum :=
  Cut.total_flatten Char.utf8Size parts

@[simp] theorem isCharBoundary_append (front rest : List Char) :
    isCharBoundary (front ++ rest) (byteLen front) := by
  induction front with
  | nil => simp [isCharBoundary]
  | cons c front ih =>
      have positive := c.utf8Size_pos
      obtain ⟨n, size⟩ : ∃ n, c.utf8Size + byteLen front = n + 1 :=
        Nat.exists_eq_add_one.mpr (by omega)
      have left : n + 1 - c.utf8Size = byteLen front := by omega
      have fits : c.utf8Size ≤ n + 1 := by omega
      simp [size, isCharBoundary, left, fits, ih]

theorem front_of_isCharBoundary {text : List Char} {n : Nat} (boundary : isCharBoundary text n) :
    ∃ front rest, text = front ++ rest ∧ byteLen front = n := by
  induction text generalizing n with
  | nil =>
      cases n with
      | zero => exact ⟨[], [], rfl, rfl⟩
      | succ n => simp [isCharBoundary] at boundary
  | cons c text ih =>
      cases n with
      | zero => exact ⟨[], c :: text, rfl, rfl⟩
      | succ n =>
          simp only [isCharBoundary, Bool.and_eq_true, decide_eq_true_eq] at boundary
          obtain ⟨front, rest, rfl, size⟩ := ih boundary.2
          have fits := boundary.1
          exact ⟨c :: front, rest, rfl, by rw [byteLen_cons]; omega⟩

@[simp] theorem skipBytes_append (front rest : List Char) :
    skipBytes (front ++ rest) (byteLen front) = rest := by
  induction front with
  | nil => simp [skipBytes]
  | cons c front ih =>
      have positive := c.utf8Size_pos
      obtain ⟨n, size⟩ : ∃ n, c.utf8Size + byteLen front = n + 1 :=
        Nat.exists_eq_add_one.mpr (by omega)
      have left : n + 1 - c.utf8Size = byteLen front := by omega
      simp [size, skipBytes, left, ih]

@[simp] theorem firstBytes_append (front rest : List Char) :
    firstBytes (front ++ rest) (byteLen front) = front := by
  induction front with
  | nil => simp [firstBytes]
  | cons c front ih =>
      have positive := c.utf8Size_pos
      obtain ⟨n, size⟩ : ∃ n, c.utf8Size + byteLen front = n + 1 :=
        Nat.exists_eq_add_one.mpr (by omega)
      have left : n + 1 - c.utf8Size = byteLen front := by omega
      simp [size, firstBytes, left, ih]

@[simp] theorem slice_append (before part after : List Char) :
    slice (before ++ (part ++ after)) (byteLen before) (byteLen before + byteLen part) = part := by
  simp [slice]

theorem backOff_spec {text : List Char} {offset stop : Nat} (boundary : isCharBoundary text offset)
    (ahead : offset ≤ stop) :
    isCharBoundary text (backOff text offset stop) ∧ backOff text offset stop ≤ stop ∧
      ∀ n ≤ stop, isCharBoundary text n → n ≤ backOff text offset stop := by
  induction stop with
  | zero => simp [backOff, isCharBoundary]
  | succ stop ih =>
      by_cases here : isCharBoundary text (stop + 1)
      · have stays : backOff text offset (stop + 1) = stop + 1 := by simp [backOff, here]
        rw [stays]
        exact ⟨here, Nat.le_refl _, fun n bound _ => bound⟩
      · have before : offset < stop + 1 := by
          have other : offset ≠ stop + 1 := fun same => here (same ▸ boundary)
          omega
        obtain ⟨found, within, last⟩ := ih (by omega)
        simp only [backOff, before, here, decide_true, Bool.not_false, Bool.and_self, ↓reduceIte]
        refine ⟨found, by omega, fun n bound at' => last n ?_ at'⟩
        have other : n ≠ stop + 1 := fun same => here (same ▸ at')
        omega

theorem stop_spec (before : List Char) {rest : List Char} {maxBytes : Nat} (wide : 4 ≤ maxBytes)
    (nonempty : rest ≠ []) :
    ∃ part after, rest = part ++ after ∧ part ≠ [] ∧ byteLen part ≤ maxBytes ∧
      backOff (before ++ rest) (byteLen before)
        (min (byteLen before + maxBytes) (byteLen (before ++ rest))) =
          byteLen before + byteLen part ∧
      ∀ piece, piece <+: rest → byteLen piece ≤ maxBytes → piece <+: part := by
  have some := byteLen_pos nonempty
  have ahead : byteLen before ≤ min (byteLen before + maxBytes) (byteLen (before ++ rest)) := by
    rw [byteLen_append]
    omega
  obtain ⟨found, within, last⟩ := backOff_spec (isCharBoundary_append before rest) ahead
  generalize backOff (before ++ rest) (byteLen before)
    (min (byteLen before + maxBytes) (byteLen (before ++ rest))) = stop at *
  have reach : ∀ piece, piece <+: rest → byteLen piece ≤ maxBytes →
      byteLen before + byteLen piece ≤ stop := by
    intro piece front light
    obtain ⟨after, rfl⟩ := front
    have at' := isCharBoundary_append (before ++ piece) after
    rw [List.append_assoc, byteLen_append] at at'
    refine last _ ?_ at'
    simp only [byteLen_append]
    omega
  have start := reach [] List.nil_prefix (Nat.zero_le _)
  obtain ⟨front, after, split, size⟩ := front_of_isCharBoundary found
  obtain ⟨part, rfl⟩ : before <+: front := by
    refine Cut.prefix_of_total_le Char.utf8Size_pos (List.prefix_append before rest)
      ⟨after, split.symm⟩ ?_
    change byteLen before ≤ byteLen front
    rw [byteLen_nil] at start
    omega
  have parts : rest = part ++ after := by
    rw [List.append_assoc] at split
    exact List.append_cancel_left split
  rw [byteLen_append] at size
  have longest : ∀ piece, piece <+: rest → byteLen piece ≤ maxBytes → piece <+: part := by
    intro piece beginning light
    refine Cut.prefix_of_total_le Char.utf8Size_pos beginning ⟨after, parts.symm⟩ ?_
    change byteLen piece ≤ byteLen part
    have far := reach piece beginning light
    omega
  refine ⟨part, after, parts, ?_, by omega, size.symm, longest⟩
  obtain ⟨c, tail, rfl⟩ := List.exists_cons_of_ne_nil nonempty
  have small := c.utf8Size_le_four
  obtain ⟨more, kept⟩ := longest [c] ⟨tail, rfl⟩ (by simp; omega)
  rw [← kept]
  exact List.cons_ne_nil _ _

/-- Chunks that tile a text from an offset and an ordinal on. -/
inductive Tiles (maxBytes : Nat) : Nat → Nat → List Char → List IssueIndexChunk → Prop
  | done {offset ordinal : Nat} : Tiles maxBytes offset ordinal [] []
  | chunk {offset ordinal : Nat} {part rest : List Char} {chunks : List IssueIndexChunk} :
      part ≠ [] → byteLen part ≤ maxBytes →
      Tiles maxBytes (offset + byteLen part) (ordinal + 1) rest chunks →
      Tiles maxBytes offset ordinal (part ++ rest)
        (⟨ordinal, part, offset, offset + byteLen part, hashText part⟩ :: chunks)

theorem chunksFrom_next (before : List Char) {rest : List Char} {maxBytes : Nat} (maxChunks : Nat)
    (wide : 4 ≤ maxBytes) (nonempty : rest ≠ []) :
    ∃ part after, rest = part ++ after ∧ part ≠ [] ∧ byteLen part ≤ maxBytes ∧
      (∀ piece, piece <+: rest → byteLen piece ≤ maxBytes → piece <+: part) ∧
      ∀ ordinal room,
        chunksFrom (before ++ rest) maxBytes maxChunks (byteLen before) ordinal (room + 1) =
          (chunksFrom (before ++ part ++ after) maxBytes maxChunks (byteLen (before ++ part))
            (ordinal + 1) room).map
            (⟨ordinal, part, byteLen before, byteLen before + byteLen part, hashText part⟩ :: ·) := by
  obtain ⟨part, after, rfl, kept, light, stop, longest⟩ := stop_spec before wide nonempty
  refine ⟨part, after, rfl, kept, light, longest, fun ordinal room => ?_⟩
  have some := byteLen_pos nonempty
  have moved := byteLen_pos kept
  have ahead : ¬byteLen before + byteLen part = byteLen before := by omega
  have unfinished : byteLen before < byteLen (before ++ (part ++ after)) := by
    rw [byteLen_append]
    omega
  simp only [chunksFrom, unfinished, ↓reduceIte, stop, slice_append, refuse, ahead, pure_eq, ok_bind,
    List.append_assoc, byteLen_append before part]
  cases chunksFrom (before ++ (part ++ after)) maxBytes maxChunks (byteLen before + byteLen part)
    (ordinal + 1) room with
  | error message => rfl
  | ok chunks => rfl

theorem chunksFrom_end {before : List Char} {maxBytes maxChunks ordinal room : Nat} :
    chunksFrom before maxBytes maxChunks (byteLen before) ordinal room = .ok [] := by
  cases room with
  | zero => simp [chunksFrom]
  | succ room => simp [chunksFrom]

theorem chunksFrom_tiles {maxBytes maxChunks : Nat} (wide : 4 ≤ maxBytes) (room : Nat)
    (before : List Char) {rest : List Char} {ordinal : Nat} {chunks : List IssueIndexChunk}
    (built : chunksFrom (before ++ rest) maxBytes maxChunks (byteLen before) ordinal room =
      .ok chunks) :
    Tiles maxBytes (byteLen before) ordinal rest chunks ∧ chunks.length ≤ room := by
  induction room generalizing before rest ordinal chunks with
  | zero =>
      by_cases nonempty : rest = []
      · rw [nonempty, List.append_nil, chunksFrom_end, Except.ok.injEq] at built
        subst nonempty built
        exact ⟨.done, Nat.le_refl _⟩
      · have some := byteLen_pos nonempty
        simp [chunksFrom, some] at built
  | succ room ih =>
      by_cases nonempty : rest = []
      · rw [nonempty, List.append_nil, chunksFrom_end, Except.ok.injEq] at built
        subst nonempty built
        exact ⟨.done, Nat.zero_le _⟩
      · obtain ⟨part, after, rfl, kept, light, -, next⟩ :=
          chunksFrom_next before maxChunks wide nonempty
        rw [next, map_eq_ok] at built
        obtain ⟨later, rest, rfl⟩ := built
        obtain ⟨tiles, few⟩ := ih _ rest
        rw [byteLen_append] at tiles
        exact ⟨.chunk kept light tiles, Nat.succ_le_succ few⟩

theorem chunksFrom_total {maxBytes : Nat} (maxChunks : Nat) (wide : 4 ≤ maxBytes) (room : Nat)
    (before : List Char) {rest : List Char} (ordinal : Nat)
    (cut : Cut.Cuttable Char.utf8Size maxBytes room rest) :
    ∃ chunks, chunksFrom (before ++ rest) maxBytes maxChunks (byteLen before) ordinal room =
      .ok chunks := by
  induction room generalizing before rest ordinal with
  | zero =>
      rw [Cut.cuttable_zero] at cut
      exact ⟨[], by rw [cut, List.append_nil, chunksFrom_end]⟩
  | succ room ih =>
      by_cases nonempty : rest = []
      · exact ⟨[], by rw [nonempty, List.append_nil, chunksFrom_end]⟩
      · obtain ⟨part, after, rfl, -, -, longest, next⟩ :=
          chunksFrom_next before maxChunks wide nonempty
        obtain ⟨later, rest⟩ := ih (before ++ part) (ordinal + 1)
          (cut.after_longest longest)
        exact ⟨_, by rw [next, rest]; rfl⟩

/-- Chunks that lie in a text one after another and make it up. -/
structure Lossless (text : List Char) (maxBytes : Nat) (chunks : List IssueIndexChunk) : Prop where
  whole : (chunks.map (·.text)).flatten = text
  ordinals : chunks.map (·.ordinal) = List.range chunks.length
  first : ∀ c ∈ chunks.head?, c.byteStart = 0
  next : chunks.IsChain fun c d => d.byteStart = c.byteEnd
  nonempty : ∀ c ∈ chunks, c.text ≠ []
  bounded : ∀ c ∈ chunks, byteLen c.text ≤ maxBytes
  boundary : ∀ c ∈ chunks, isCharBoundary text c.byteStart
  cut : ∀ c ∈ chunks, slice text c.byteStart c.byteEnd = c.text
  length : ∀ c ∈ chunks, c.byteEnd = c.byteStart + byteLen c.text
  hashed : ∀ c ∈ chunks, c.hash = hashText c.text

namespace Tiles

variable {maxBytes offset ordinal : Nat} {text : List Char} {chunks : List IssueIndexChunk}

theorem cuttable (tiles : Tiles maxBytes offset ordinal text chunks) :
    Cut.Cuttable Char.utf8Size maxBytes chunks.length text := by
  induction tiles with
  | done => exact Cut.cuttable_nil
  | chunk _ light _ ih => exact ih.cons light

theorem whole (tiles : Tiles maxBytes offset ordinal text chunks) :
    (chunks.map (·.text)).flatten = text := by
  induction tiles with
  | done => rfl
  | chunk _ _ _ ih => simp [ih]

theorem ordinals (tiles : Tiles maxBytes offset ordinal text chunks) :
    chunks.map (·.ordinal) = List.range' ordinal chunks.length := by
  induction tiles with
  | done => rfl
  | chunk _ _ _ ih => simp [ih, List.range'_succ]

theorem first (tiles : Tiles maxBytes offset ordinal text chunks) :
    ∀ c ∈ chunks.head?, c.byteStart = offset := by
  cases tiles with
  | done => simp
  | chunk _ _ _ => simp

theorem next (tiles : Tiles maxBytes offset ordinal text chunks) :
    chunks.IsChain fun c d => d.byteStart = c.byteEnd := by
  induction tiles with
  | done => exact .nil
  | chunk _ _ tail ih => exact List.isChain_cons.mpr ⟨tail.first, ih⟩

theorem place (tiles : Tiles maxBytes offset ordinal text chunks) (before : List Char)
    (start : offset = byteLen before) {c : IssueIndexChunk} (member : c ∈ chunks) :
    c.text ≠ [] ∧ byteLen c.text ≤ maxBytes ∧ c.byteEnd = c.byteStart + byteLen c.text ∧
      c.hash = hashText c.text ∧
      ∃ front after, before ++ text = front ++ (c.text ++ after) ∧ c.byteStart = byteLen front := by
  induction tiles generalizing before with
  | done => simp at member
  | @chunk offset ordinal part rest chunks kept light _ ih =>
      cases List.mem_cons.mp member with
      | inl here =>
          subst here start
          exact ⟨kept, light, rfl, rfl, before, rest, rfl, rfl⟩
      | inr later =>
          have moved : offset + byteLen part = byteLen (before ++ part) := by
            rw [start, byteLen_append]
          rw [← List.append_assoc]
          exact ih _ moved later

theorem lossless (tiles : Tiles maxBytes 0 0 text chunks) : Lossless text maxBytes chunks := by
  have place := fun c (member : c ∈ chunks) => tiles.place [] rfl member
  simp only [List.nil_append] at place
  refine ⟨tiles.whole, ?_, tiles.first, tiles.next, fun c member => (place c member).1,
    fun c member => (place c member).2.1, ?_, ?_, fun c member => (place c member).2.2.1,
    fun c member => (place c member).2.2.2.1⟩
  · rw [tiles.ordinals, List.range_eq_range']
  · intro c member
    obtain ⟨-, -, -, -, front, after, split, start⟩ := place c member
    rw [split, start]
    exact isCharBoundary_append _ _
  · intro c member
    obtain ⟨-, -, length, -, front, after, split, start⟩ := place c member
    rw [split, length, start, slice_append]

end Tiles

theorem buildChunks_tiles {text : List Char} {maxBytes maxChunks : Nat} (wide : 4 ≤ maxBytes)
    {chunks : List IssueIndexChunk} (built : buildChunks text maxBytes maxChunks = .ok chunks) :
    Tiles maxBytes 0 0 text chunks ∧ chunks.length ≤ maxChunks := by
  simp only [buildChunks, bind_eq_ok, refuse_eq_ok] at built
  obtain ⟨-, -, built⟩ := built
  split at built
  · rename_i empty
    simp only [pure_eq, Except.ok.injEq] at built
    subst empty built
    exact ⟨.done, Nat.zero_le _⟩
  · simp only [bind_eq_ok] at built
    obtain ⟨-, -, built⟩ := built
    exact chunksFrom_tiles wide maxChunks [] built

theorem buildChunks_total {text : List Char} {maxBytes maxChunks : Nat} (wide : 4 ≤ maxBytes)
    (room : 0 < maxChunks) (short : byteLen text ≤ usizeMul maxBytes maxChunks)
    (cut : Cut.Cuttable Char.utf8Size maxBytes maxChunks text) :
    ∃ chunks, buildChunks text maxBytes maxChunks = .ok chunks := by
  have sized : ¬(maxBytes = 0 ∨ maxChunks = 0) := by omega
  by_cases empty : text = []
  · exact ⟨[], by simp [buildChunks, refuse, sized, empty]⟩
  · obtain ⟨chunks, built⟩ :=
      chunksFrom_total maxChunks wide maxChunks [] 0 cut
    refine ⟨chunks, ?_⟩
    simp only [buildChunks, refuse, sized, ↓reduceIte, ok_bind, empty, Nat.not_lt.mpr short]
    exact built

theorem buildChunks_iff {text : List Char} {maxBytes maxChunks : Nat} (wide : 4 ≤ maxBytes)
    (room : 0 < maxChunks) (short : byteLen text ≤ usizeMul maxBytes maxChunks) :
    (∃ chunks, buildChunks text maxBytes maxChunks = .ok chunks) ↔
      Cut.Cuttable Char.utf8Size maxBytes maxChunks text := by
  constructor
  · intro ⟨chunks, built⟩
    obtain ⟨tiles, few⟩ := buildChunks_tiles wide built
    exact tiles.cuttable.mono few
  · exact buildChunks_total wide room short

section Hashes

theorem hexDigits_plain (value width : Nat) :
    ∀ c ∈ Lease.hexDigits value width, isWhitespace c = false ∧ isControl c = false := by
  induction width with
  | zero => simp [Lease.hexDigits]
  | succ width ih =>
      have digit : ∀ d < 16, isWhitespace (Nat.digitChar d) = false ∧
          isControl (Nat.digitChar d) = false := by decide
      simp only [Lease.hexDigits, List.forall_mem_cons]
      exact ⟨digit _ (Nat.mod_lt _ (by decide)), ih⟩

theorem formatHash_plain (h : UInt64) :
    trim (formatHash h) ≠ [] ∧ (formatHash h).any isControl = false := by
  have plain := hexDigits_plain h.toNat 16
  constructor
  · rw [formatHash, trim_eq_self fun c member => (plain c member).1]
    simp [Lease.hexDigits]
  · rw [formatHash, List.any_eq_false]
    intro c member
    simp [(plain c member).2]

end Hashes

@[simp] theorem checkAll_eq_ok {α : Type} {check : α → Except String Unit} {xs : List α} {u : Unit} :
    checkAll check xs = .ok u ↔ ∀ x ∈ xs, check x = .ok () := by
  induction xs with
  | nil => simp [checkAll]
  | cons x xs ih =>
      have only : (∃ v, check x = .ok v) ↔ check x = .ok () :=
        ⟨fun ⟨_, done⟩ => done, fun done => ⟨(), done⟩⟩
      simp [checkAll, ih, only]

theorem Lossless.valid {text : List Char} {chunks : List IssueIndexChunk}
    (lossless : Lossless text issueIndexMaxChunkBytes chunks) {c : IssueIndexChunk}
    (member : c ∈ chunks) : c.validate = .ok () := by
  have light := lossless.bounded c member
  have length := lossless.length c member
  obtain ⟨visible, plain⟩ := formatHash_plain (fnv fnvOffset c.text)
  rw [← hashText, ← lossless.hashed c member] at visible plain
  simp only [IssueIndexChunk.validate, bind_eq_ok, refuse_eq_ok]
  refine ⟨(), by omega, (), by omega, (), by omega, (), visible, by simp [plain]⟩

theorem Lossless.checked {text : List Char} {chunks : List IssueIndexChunk}
    (lossless : Lossless text issueIndexMaxChunkBytes chunks) :
    checkAll checkChunk chunks.zipIdx = .ok () := by
  rw [checkAll_eq_ok]
  intro ⟨chunk, i⟩ member
  have at' : chunks[i]? = some chunk := List.mem_zipIdx_iff_getElem?.mp member
  have bound : i < chunks.length := (List.getElem?_eq_some_iff.mp at').1
  have ordinal : chunk.ordinal = i := by
    have here : (chunks.map (·.ordinal))[i]? = (List.range chunks.length)[i]? := by
      rw [lossless.ordinals]
    rw [List.getElem?_map, at', List.getElem?_range bound] at here
    exact Option.some.inj here
  simp [checkChunk, refuse, ordinal, lossless.valid (List.mem_of_getElem? at')]

section Documents

variable {key : IssueIndexKey} {issueNumber : Nat} {title body state : List Char}
  {url : Option (List Char)} {providerUpdatedAt : Option Int} {indexedAt : Int}

theorem new_accepts
    (fields : checkFields key issueNumber (trim title) (trim state) (url.map trim)
      providerUpdatedAt indexedAt = .ok ())
    (short : byteLen body ≤ issueIndexMaxDocumentBytes) :
    (∃ doc, IssueIndexDocument.new key issueNumber title body state url providerUpdatedAt
      indexedAt = .ok doc) ↔
      Cut.Cuttable Char.utf8Size issueIndexMaxChunkBytes issueIndexMaxChunks body := by
  rw [← buildChunks_iff (by decide) (by decide) short]
  simp only [IssueIndexDocument.new, fields, ok_bind, bind_eq_ok, refuse_eq_ok, pure_eq,
    Except.ok.injEq]
  constructor
  · intro made
    obtain ⟨-, -, -, chunks, built, -⟩ := made
    exact ⟨chunks, built⟩
  · rintro ⟨chunks, built⟩
    have lossless := (buildChunks_tiles (by decide) built).1.lossless
    have valid : checkAll IssueIndexChunk.validate chunks = .ok () :=
      checkAll_eq_ok.mpr fun c member => lossless.valid member
    exact ⟨_, (), Nat.not_lt.mpr short, chunks, built, (), valid, rfl⟩

theorem new_valid {doc : IssueIndexDocument}
    (made : IssueIndexDocument.new key issueNumber title body state url providerUpdatedAt indexedAt =
      .ok doc) : doc.validate = .ok () := by
  simp only [IssueIndexDocument.new, bind_eq_ok, refuse_eq_ok, pure_eq, Except.ok.injEq] at made
  obtain ⟨_, fields, -, -, chunks, built, -, -, rfl⟩ := made
  obtain ⟨tiles, few⟩ := buildChunks_tiles (by decide) built
  have lossless := tiles.lossless
  have total : (chunks.map fun c => byteLen c.text).sum = byteLen body := by
    have parts := byteLen_flatten (chunks.map (·.text))
    rw [lossless.whole, List.map_map] at parts
    exact parts.symm
  obtain ⟨visible, plain⟩ :=
    formatHash_plain (fnv (fnvByte (fnv (fnvByte (fnv fnvOffset (trim title)) 0xFF) body) 0xFF)
      (trim state))
  simp only [checkFields, bind_eq_ok, refuse_eq_ok] at fields
  obtain ⟨_, keyed, -, numbered, _, titled, _, stated, _, linked, -, indexed, updated⟩ := fields
  have counted : ¬issueIndexMaxChunks < chunks.length := Nat.not_lt.mpr few
  simp only [IssueIndexDocument.validate, bind_eq_ok, refuse_eq_ok]
  refine ⟨(), keyed, (), by simp [numbered], (), titled, (), stated, (), linked, (), indexed, (),
    updated, (), by simp [checkDeletion, refuse], (), visible, (), ?_, (), counted,
    (), lossless.checked, (), by simp, ?_⟩
  · rw [contentHash, plain]
    decide
  · simp [refuse, total]

end Documents

/-- Chunking loses nothing, and takes what any cut at character boundaries could take. -/
theorem chunking_lossless :
    (∀ text maxBytes maxChunks, 4 ≤ maxBytes → 0 < maxChunks →
      byteLen text ≤ usizeMul maxBytes maxChunks →
      ((∃ chunks, buildChunks text maxBytes maxChunks = .ok chunks) ↔
        Cut.Cuttable Char.utf8Size maxBytes maxChunks text) ∧
      ∀ chunks, buildChunks text maxBytes maxChunks = .ok chunks →
        Lossless text maxBytes chunks) ∧
    (∀ key issueNumber title body state url providerUpdatedAt indexedAt,
      checkFields key issueNumber (trim title) (trim state) (url.map trim) providerUpdatedAt
        indexedAt = .ok () →
      byteLen body ≤ issueIndexMaxDocumentBytes →
      ((∃ doc, IssueIndexDocument.new key issueNumber title body state url providerUpdatedAt
        indexedAt = .ok doc) ↔
        Cut.Cuttable Char.utf8Size issueIndexMaxChunkBytes issueIndexMaxChunks body)) ∧
    ∀ key issueNumber title body state url providerUpdatedAt indexedAt doc,
      IssueIndexDocument.new key issueNumber title body state url providerUpdatedAt indexedAt =
        .ok doc → doc.validate = .ok () := by
  refine ⟨fun text maxBytes maxChunks wide room short => ⟨buildChunks_iff wide room short, ?_⟩,
    fun _ _ _ _ _ _ _ _ fields short => new_accepts fields short,
    fun _ _ _ _ _ _ _ _ _ made => new_valid made⟩
  intro chunks built
  exact (buildChunks_tiles wide built).1.lossless

theorem three_bytes_lossless :
    Lossless "汉字!".toList 4 (["汉".toList, "字!".toList].mapIdx fun i part =>
      ⟨i, part, 3 * i, 3 * i + byteLen part, hashText part⟩) :=
  (chunking_lossless.1 "汉字!".toList 4 2 (by decide) (by decide) (by decide)).2 _ (by
    decide)

/-- Characters of three bytes leave a byte of every chunk unused. -/
theorem three_bytes_refused :
    (byteLen "汉汉汉汉".toList ≤ 4 * 3 ∧ buildChunks "汉汉汉汉".toList 4 3 =
      .error "document too large: needs more than 3 chunks") ∧
    byteLen (List.replicate 85333 '汉') ≤ issueIndexMaxDocumentBytes ∧
    checkFields ⟨['r'], ['p'], ['1']⟩ 1 (trim ['t']) (trim ['o']) (Option.map trim none) none 1 =
      .ok () ∧
    ¬∃ doc, IssueIndexDocument.new ⟨['r'], ['p'], ['1']⟩ 1 ['t'] (List.replicate 85333 '汉') ['o']
      none none 1 = .ok doc := by
  have short : byteLen (List.replicate 85333 '汉') ≤ issueIndexMaxDocumentBytes := by
    rw [byteLen_replicate]
    decide
  have fields : checkFields ⟨['r'], ['p'], ['1']⟩ 1 (trim ['t']) (trim ['o'])
      (Option.map trim none) none 1 = .ok () := by decide
  refine ⟨by decide, short, fields, ?_⟩
  rw [new_accepts fields short]
  intro cut
  have same : ∀ c ∈ List.replicate 85333 '汉', c.utf8Size = 3 := by
    intro c member
    rw [List.eq_of_mem_replicate member]
    decide
  have few := cut.length_le (by decide) same
  rw [List.length_replicate] at few
  exact absurd few (by decide)

end Phasegent.Index
