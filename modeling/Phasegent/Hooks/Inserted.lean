import Phasegent.Hooks.References

namespace Phasegent.Hooks
open Text Text.Lines

variable {bytes marker text : Bytes} {ids : List Nat}

section Regions

def isScissors (marker line : Bytes) : Bool := stripPrefix marker (content line) == some scissors

theorem isScissors_iff {line : Bytes} : isScissors marker line ↔ content line = marker ++ scissors := by
  rw [isScissors, beq_iff_eq, stripPrefix]
  constructor
  · intro found
    rw [Option.ite_none_right_eq_some] at found
    obtain ⟨rest, whole⟩ := List.isPrefixOf_iff_prefix.mp found.1
    rw [← whole, List.drop_left, Option.some.injEq] at found
    rw [← whole, found.2]
  · intro line
    simp [line]

def region (marker bytes : Bytes) : List Bytes :=
  (splitInclusive lf bytes).takeWhile fun line => !isScissors marker line

def rest (marker bytes : Bytes) : List Bytes :=
  (splitInclusive lf bytes).dropWhile fun line => !isScissors marker line

def shown (marker : Bytes) (lines : List Bytes) : List Bytes :=
  (lines.map content).filter fun line => !marker.isPrefixOf line

variable (bytes marker) in
theorem region_append_rest : (region marker bytes).flatten ++ (rest marker bytes).flatten = bytes := by
  rw [← List.flatten_append, region, rest, List.takeWhile_append_dropWhile, flatten_splitInclusive]

variable (marker) in
theorem find_withOffsets (offset : Nat) (lines : List Bytes) :
    ((withOffsets offset lines).find? fun (_, line) => stripPrefix marker line == some scissors).map (·.1) =
      if (lines.dropWhile fun line => !isScissors marker line) = [] then none
      else some (offset + (lines.takeWhile fun line => !isScissors marker line).flatten.length) := by
  induction lines generalizing offset with
  | nil => rfl
  | cons line lines ih =>
      rw [withOffsets, List.find?_cons, List.dropWhile_cons, List.takeWhile_cons]
      cases cut : isScissors marker line with
      | true =>
          have found : (stripPrefix marker (content line) == some scissors) = true := cut
          simp [found]
      | false =>
          have other : (stripPrefix marker (content line) == some scissors) = false := cut
          simp only [other, Bool.not_false, if_true, ih]
          split
          · rfl
          · simp [Nat.add_assoc]

theorem finish_eq : (Message.new bytes marker).finish = (region marker bytes).flatten.length := by
  have found := find_withOffsets marker 0 (splitInclusive lf bytes)
  change _ = if rest marker bytes = [] then none else some (0 + (region marker bytes).flatten.length) at found
  have whole := congrArg List.length (region_append_rest bytes marker)
  unfold Message.new lines
  dsimp only
  split
  · next offset line eq =>
      rw [eq] at found
      split at found
      · cases found
      · simpa using found
  · next eq =>
      rw [eq] at found
      split at found
      · next nothing => simpa [nothing] using whole.symm
      · cases found

theorem take_finish : bytes.take (Message.new bytes marker).finish = (region marker bytes).flatten := by
  calc
    _ = ((region marker bytes).flatten ++ (rest marker bytes).flatten).take
          (region marker bytes).flatten.length := by rw [region_append_rest, finish_eq]
    _ = _ := List.take_left

theorem drop_finish : bytes.drop (Message.new bytes marker).finish = (rest marker bytes).flatten := by
  calc
    _ = ((region marker bytes).flatten ++ (rest marker bytes).flatten).drop
          (region marker bytes).flatten.length := by rw [region_append_rest, finish_eq]
    _ = _ := List.drop_left

theorem map_withOffsets (offset : Nat) (lines : List Bytes) :
    (withOffsets offset lines).map (·.2) = lines.map content := by
  induction lines generalizing offset with
  | nil => rfl
  | cons line lines ih => simp [withOffsets, ih]

theorem authored_eq : (Message.new bytes marker).authored = shown marker (region marker bytes) := by
  rw [Message.authored]
  have kept : (Message.new bytes marker).bytes = bytes := rfl
  rw [kept, take_finish, lines, map_withOffsets, region, splitInclusive_takeWhile]
  rfl

end Regions

section LineEnds

def IsEol (line : Bytes) : Prop := line = [lf] ∨ line = [cr, lf]

theorem content_append_lf (body : Bytes) :
    content (body ++ [lf]) = if body.getLast? = some cr then body.dropLast else body := by
  simp [content]

theorem content_append_crlf (body : Bytes) : content (body ++ [cr, lf]) = body := by
  have split : body ++ [cr, lf] = (body ++ [cr]) ++ [lf] := by simp
  rw [split, content_append_lf]
  simp

theorem content_open {body : Bytes} (free : lf ∉ body) : content body = body := by
  rw [content, if_neg]
  intro last
  exact free (List.mem_of_getLast? last)

theorem content_eol {line : Bytes} (eol : IsEol line) : content line = [] := by
  rcases eol with rfl | rfl <;> rfl

theorem splitInclusive_eol (body : Bytes) {eol : Bytes} (free : lf ∉ body) (ends : IsEol eol) (rest : Bytes) :
    splitInclusive lf (body ++ eol ++ rest) = (body ++ eol) :: splitInclusive lf rest := by
  rcases ends with rfl | rfl
  · rw [List.append_assoc, List.cons_append, List.nil_append, splitInclusive_line free]
  · have free' : lf ∉ body ++ [cr] := by
      simp only [List.mem_append, List.mem_singleton, not_or]
      exact ⟨free, by decide⟩
    have shape : body ++ [cr, lf] ++ rest = (body ++ [cr]) ++ lf :: rest := by simp
    rw [shape, splitInclusive_line free']
    simp

theorem splitInclusive_eols {eols : List Bytes} (ends : ∀ eol ∈ eols, IsEol eol) (rest : Bytes) :
    splitInclusive lf (eols.flatten ++ rest) = eols ++ splitInclusive lf rest := by
  induction eols with
  | nil => rfl
  | cons eol eols ih =>
      have first := splitInclusive_eol [] (by simp) (ends eol (by simp)) (eols.flatten ++ rest)
      rw [List.flatten_cons, List.append_assoc]
      simpa [ih fun e among => ends e (by simp [among])] using first

theorem dropLineEnds_spec (back : Bytes) : ∃ eols : List Bytes, (∀ eol ∈ eols, IsEol eol) ∧
    back.reverse = (dropLineEnds back).reverse ++ eols.flatten ∧ (dropLineEnds back).head? ≠ some lf ∧
      (eols.head? = some [lf] → (dropLineEnds back).head? ≠ some cr) := by
  fun_induction dropLineEnds back with
  | case1 => exact ⟨[], by simp, by simp, by simp, by simp⟩
  | case2 => exact ⟨[[lf]], by simp [IsEol], by simp, by simp, by simp⟩
  | case3 b other => exact ⟨[], by simp, by simp, by simpa using other, by simp⟩
  | case4 b c rest other => exact ⟨[], by simp, by simp, by simpa using other, by simp⟩
  | case5 b rest last ih =>
      obtain ⟨eols, ends, whole, open', pure⟩ := ih
      refine ⟨eols ++ [[cr, lf]], ?_, ?_, open', ?_⟩
      · intro eol among
        rcases List.mem_append.mp among with earlier | final
        · exact ends eol earlier
        · exact Or.inr (List.mem_singleton.mp final)
      · rw [not_not.mp last]
        simp [whole]
      · intro first
        apply pure
        cases eols with
        | nil => simp [cr, lf] at first
        | cons eol eols => simpa using first
  | case6 b c rest last other ih =>
      obtain ⟨eols, ends, whole, open', pure⟩ := ih
      refine ⟨eols ++ [[lf]], ?_, ?_, open', ?_⟩
      · intro eol among
        rcases List.mem_append.mp among with earlier | final
        · exact ends eol earlier
        · exact Or.inl (List.mem_singleton.mp final)
      · rw [not_not.mp last]
        rw [List.reverse_cons, whole]
        simp
      · intro first
        cases eols with
        | nil =>
            have same : dropLineEnds (c :: rest) = c :: rest := by simpa using whole.symm
            simpa [same] using other
        | cons eol eols => exact pure (by simpa using first)

/-- A region as its authored lines: closed ones, the last one without its end, and ends of lines. -/
structure Ended (text : Bytes) where
  closed : Bytes
  last : Bytes
  eols : List Bytes
  whole : text = closed ++ last ++ eols.flatten
  stripped : stripLineEnds text = closed ++ last
  complete : Closed lf closed
  free : lf ∉ last
  ends : ∀ eol ∈ eols, IsEol eol
  pure : eols.head? = some [lf] → last.getLast? ≠ some cr

theorem exists_ended (text : Bytes) : Nonempty (Ended text) := by
  obtain ⟨eols, ends, whole, _, pure⟩ := dropLineEnds_spec text.reverse
  rw [List.reverse_reverse] at whole
  obtain ⟨closed, last, split, complete, free⟩ := exists_open lf (stripLineEnds text)
  refine ⟨closed, last, eols, ?_, split, complete, free, ends, ?_⟩
  · rw [← split]
    exact whole
  · intro first lastCr
    apply pure first
    rw [← List.getLast?_reverse]
    change (stripLineEnds text).getLast? = some cr
    rw [split, List.getLast?_append, lastCr]
    rfl

variable (ended : Ended text) {eol : Bytes}

theorem Ended.contents : ∃ blanks, (splitInclusive lf text).map content =
    (splitInclusive lf ended.closed).map content ++ (if ended.last = [] then [] else [ended.last]) ++
      List.replicate blanks [] := by
  have blank : ∀ eols : List Bytes, (∀ eol ∈ eols, IsEol eol) →
      (splitInclusive lf eols.flatten).map content = List.replicate eols.length [] := by
    intro eols ends
    have lines := splitInclusive_eols ends []
    rw [List.append_nil, splitInclusive_nil, List.append_nil] at lines
    rw [lines, List.eq_replicate_iff]
    refine ⟨by simp, fun line among => ?_⟩
    obtain ⟨eol, member, rfl⟩ := List.mem_map.mp among
    exact content_eol (ends eol member)
  have split := congrArg (splitInclusive lf) ended.whole
  rw [List.append_assoc, splitInclusive_append ended.complete] at split
  suffices after : ∃ blanks, (splitInclusive lf (ended.last ++ ended.eols.flatten)).map content =
      (if ended.last = [] then [] else [ended.last]) ++ List.replicate blanks [] by
    obtain ⟨blanks, same⟩ := after
    exact ⟨blanks, by rw [split, List.map_append, same, List.append_assoc]⟩
  by_cases none : ended.last = []
  · refine ⟨ended.eols.length, ?_⟩
    rw [none, List.nil_append, blank _ ended.ends]
    simp
  · simp only [if_neg none]
    cases shape : ended.eols with
    | nil =>
        refine ⟨0, ?_⟩
        rw [List.flatten_nil, List.append_nil, splitInclusive_open ended.free none]
        simp [content_open ended.free]
    | cons eol eols =>
        have ends := ended.ends
        rw [shape] at ends
        refine ⟨eols.length, ?_⟩
        have own : content (ended.last ++ eol) = ended.last := by
          rcases ends eol (by simp) with rfl | rfl
          · have pure := ended.pure (by rw [shape]; rfl)
            rw [content_append_lf, if_neg pure]
          · exact content_append_crlf _
        rw [List.flatten_cons, ← List.append_assoc, splitInclusive_eol _ ended.free (ends eol (by simp)),
          List.map_cons, own, blank eols fun eol among => ends eol (by simp [among])]
        rfl

theorem lf_not_mem_generated (id : Nat) : lf ∉ generated id := by
  rw [generated_eq, List.mem_append, not_or]
  constructor
  · decide
  · intro among
    exact absurd (isAsciiDigit_digitBytes lf among) (by decide)

theorem splitInclusive_generated (eolEnds : IsEol eol) (ids : List Nat) (rest : Bytes) :
    splitInclusive lf (ids.flatMap (fun id => generated id ++ eol) ++ rest) =
      ids.map (fun id => generated id ++ eol) ++ splitInclusive lf rest := by
  induction ids with
  | nil => rfl
  | cons id ids ih =>
      rw [List.flatMap_cons, List.append_assoc, splitInclusive_eol _ (lf_not_mem_generated id) eolEnds, ih]
      rfl

theorem Ended.inserted_lines (eolEnds : IsEol eol) (ids : List Nat) (rest : Bytes) :
    splitInclusive lf (ended.closed ++ ended.last ++ eol ++ eol ++
        ids.flatMap (fun id => generated id ++ eol) ++ rest) =
      splitInclusive lf ended.closed ++ (ended.last ++ eol) :: eol ::
        (ids.map (fun id => generated id ++ eol) ++ splitInclusive lf rest) := by
  have blank := splitInclusive_eol [] (by simp) eolEnds
    (ids.flatMap (fun id => generated id ++ eol) ++ rest)
  rw [List.nil_append] at blank
  have shape : ended.closed ++ ended.last ++ eol ++ eol ++ ids.flatMap (fun id => generated id ++ eol) ++ rest =
      ended.closed ++ (ended.last ++ eol ++ (eol ++ (ids.flatMap (fun id => generated id ++ eol) ++ rest))) := by
    simp
  rw [shape, splitInclusive_append ended.complete, splitInclusive_eol _ ended.free eolEnds, blank,
    splitInclusive_generated eolEnds]

end LineEnds

section Insertion

/-- What the configuration can give for a marker. -/
structure ValidMarker (marker : Bytes) : Prop where
  some : marker ≠ []
  plain : lf ∉ marker ∧ cr ∉ marker

structure EndBlind {β : Type} (f : Bytes → List β) : Prop where
  blank : f [] = []
  blind : ∀ line, f (line ++ [cr]) = f line

-- Comment lines give nothing.
def seen {β : Type} (marker : Bytes) (f : Bytes → List β) (line : Bytes) : List β :=
  if marker.isPrefixOf line then [] else f line

variable {β : Type} {f : Bytes → List β}

theorem shown_flatMap (lines : List Bytes) :
    (shown marker lines).flatMap f = (lines.map content).flatMap (seen marker f) := by
  rw [shown]
  induction lines.map content with
  | nil => rfl
  | cons line lines ih =>
      rw [List.filter_cons, List.flatMap_cons]
      cases comment : marker.isPrefixOf line <;> simp [seen, comment, ih]

theorem prefix_append_cr (valid : ValidMarker marker) (line : Bytes) :
    marker.isPrefixOf (line ++ [cr]) = marker.isPrefixOf line := by
  rw [Bool.eq_iff_iff, List.isPrefixOf_iff_prefix, List.isPrefixOf_iff_prefix]
  constructor
  · intro before
    rcases List.prefix_concat_iff.mp before with same | within
    · exact absurd (by simp [same]) valid.plain.2
    · exact within
  · intro before
    exact before.trans (List.prefix_append _ _)

theorem EndBlind.seen (blind : EndBlind f) (valid : ValidMarker marker) : EndBlind (seen marker f) := by
  constructor
  · cases marker with
    | nil => exact absurd rfl valid.some
    | cons c marker => exact blind.blank
  · intro line
    simp only [Hooks.seen, prefix_append_cr valid, blind.blind]

theorem endBlind_lineReferences : EndBlind lineReferences := ⟨rfl, lineReferences_append_cr⟩

theorem endBlind_generatedIn (id : Nat) : EndBlind (generatedIn id) := by
  constructor
  · have some : generated id ≠ [] := by simp [generated_eq, ascii]
    simp [generatedIn, trimAscii, some]
  · intro line
    rw [generatedIn, trimAscii_append_cr, generatedIn]

theorem content_inserted (body : Bytes) {eol : Bytes} (ends : IsEol eol) :
    content (body ++ eol) = body ∨ eol = [lf] ∧ body = content (body ++ eol) ++ [cr] := by
  rcases ends with rfl | rfl
  · rw [content_append_lf]
    split
    · next last =>
        right
        exact ⟨rfl, (List.dropLast_append_getLast? _ last).symm⟩
    · exact Or.inl rfl
  · exact Or.inl (content_append_crlf body)

theorem EndBlind.inserted (blind : EndBlind f) (body : Bytes) {eol : Bytes} (ends : IsEol eol) :
    f (content (body ++ eol)) = f body := by
  rcases content_inserted body ends with same | ⟨_, cut⟩
  · rw [same]
  · conv_rhs => rw [cut]
    exact (blind.blind _).symm

theorem predominantEol_isEol (bytes : Bytes) : IsEol (predominantEol bytes) := by
  unfold predominantEol
  dsimp only
  split
  · exact Or.inr rfl
  · exact Or.inl rfl

def authoredPart (bytes marker : Bytes) : Bytes := bytes.take (Message.new bytes marker).finish

/-- The last authored line is a scissors line but for a lone carriage return, which the line end
that the insertion adds takes into itself. -/
def OpensScissors (bytes marker : Bytes) : Prop :=
  predominantEol bytes = [lf] ∧
    lastLine lf (stripLineEnds (authoredPart bytes marker)) = marker ++ scissors ++ [cr]

instance : Decidable (OpensScissors bytes marker) := inferInstanceAs (Decidable (_ ∧ _))

theorem not_isScissors_of_mem_region {line : Bytes} (among : line ∈ region marker bytes) :
    isScissors marker line = false := by
  simpa using List.mem_takeWhile_imp among

variable (ended : Ended (region marker bytes).flatten)

theorem Ended.lines_of_region : splitInclusive lf (region marker bytes).flatten = region marker bytes := by
  rw [region, splitInclusive_takeWhile]

theorem Ended.closed_plain {line : Bytes} (among : line ∈ splitInclusive lf ended.closed) :
    isScissors marker line = false := by
  apply @not_isScissors_of_mem_region bytes
  have whole := congrArg (splitInclusive lf) ended.whole
  rw [lines_of_region, List.append_assoc, splitInclusive_append ended.complete] at whole
  rw [whole]
  exact List.mem_append_left _ among

theorem Ended.last_plain (valid : ValidMarker marker) : ended.last ≠ marker ++ scissors := by
  intro same
  obtain ⟨blanks, contents⟩ := ended.contents
  have some : ended.last ≠ [] := by
    rw [same]
    simp [valid.some]
  rw [lines_of_region, if_neg some] at contents
  have among : ended.last ∈ (region marker bytes).map content := by
    rw [contents]
    simp
  obtain ⟨line, member, body⟩ := List.mem_map.mp among
  have cut := isScissors_iff.mpr (body.trans same)
  rw [not_isScissors_of_mem_region member] at cut
  cases cut

theorem Ended.opens_iff (valid : ValidMarker marker) : OpensScissors bytes marker ↔
    isScissors marker (ended.last ++ predominantEol bytes) := by
  rw [OpensScissors, authoredPart, take_finish, ended.stripped, lastLine_append ended.complete ended.free,
    isScissors_iff]
  constructor
  · intro ⟨eol, last⟩
    rw [eol, last, content_append_lf]
    simp
  · intro cut
    rcases content_inserted ended.last (predominantEol_isEol bytes) with same | ⟨eol, last⟩
    · exact absurd (same.symm.trans cut) (ended.last_plain valid)
    · rw [cut] at last
      exact ⟨eol, last⟩

theorem insertMany_eq (some : ids ≠ []) : (Message.new bytes marker).insertMany ids =
    ended.closed ++ ended.last ++ predominantEol bytes ++ predominantEol bytes ++
      ids.flatMap (fun id => generated id ++ predominantEol bytes) ++ (rest marker bytes).flatten := by
  have kept : (Message.new bytes marker).bytes = bytes := rfl
  rw [Message.insertMany, if_neg (by simpa using some)]
  simp only [kept, take_finish, drop_finish, ended.stripped]

theorem generated_ne_scissors (marker : Bytes) (id : Nat) : generated id ≠ marker ++ scissors := by
  intro same
  have last : (generated id).getLast? = some 45 := by
    rw [same, List.getLast?_append]
    rfl
  obtain ⟨front, digit, digits⟩ := List.eq_nil_or_concat (digitBytes id) |>.resolve_left digitBytes_ne_nil
  have among : digit ∈ digitBytes id := by simp [digits]
  rw [generated_eq, digits, List.concat_eq_append, ← List.append_assoc, List.getLast?_concat,
    Option.some.injEq] at last
  rw [last] at among
  exact absurd (isAsciiDigit_digitBytes _ among) (by decide)

theorem content_generated (id : Nat) {eol : Bytes} (ends : IsEol eol) :
    content (generated id ++ eol) = generated id := by
  rcases content_inserted (generated id) ends with same | ⟨_, cut⟩
  · exact same
  · have last : cr ∈ generated id := by
      rw [cut]
      simp
    rw [generated_eq, List.mem_append] at last
    rcases last with early | digit
    · exact absurd early (by decide)
    · exact absurd (isAsciiDigit_digitBytes cr digit) (by decide)

variable (bytes marker) in
theorem takeWhile_rest : (rest marker bytes).takeWhile (fun line => !isScissors marker line) = [] := by
  rw [rest]
  cases shape : (splitInclusive lf bytes).dropWhile fun line => !isScissors marker line with
  | nil => rfl
  | cons line later =>
      have cut := List.head?_dropWhile_not (fun line => !isScissors marker line) (splitInclusive lf bytes)
      rw [shape] at cut
      rw [List.takeWhile_cons_of_neg]
      simpa using cut

theorem Ended.inserted_region (valid : ValidMarker marker) (some : ids ≠ []) :
    region marker ((Message.new bytes marker).insertMany ids) =
      splitInclusive lf ended.closed ++
        if OpensScissors bytes marker then []
        else (ended.last ++ predominantEol bytes) :: predominantEol bytes ::
          ids.map fun id => generated id ++ predominantEol bytes := by
  have ends := predominantEol_isEol bytes
  rw [insertMany_eq ended some, region, ended.inserted_lines ends, rest, splitInclusive_dropWhile,
    List.takeWhile_append_of_pos (fun line among => by simp [ended.closed_plain among])]
  congr 1
  split
  · next opens =>
      have cut := (ended.opens_iff valid).mp opens
      rw [List.takeWhile_cons_of_neg (by simp [cut])]
  · next shut =>
      have plain : isScissors marker (ended.last ++ predominantEol bytes) = false := by
        simpa using (ended.opens_iff valid).not.mp shut
      have blank : isScissors marker (predominantEol bytes) = false := by
        rw [Bool.eq_false_iff, ne_eq, isScissors_iff, content_eol ends]
        simp [valid.some]
      have trailers : ∀ line ∈ ids.map (fun id => generated id ++ predominantEol bytes),
          (!isScissors marker line) = true := by
        intro line among
        obtain ⟨id, _, rfl⟩ := List.mem_map.mp among
        have other : isScissors marker (generated id ++ predominantEol bytes) = false := by
          rw [Bool.eq_false_iff, ne_eq, isScissors_iff, content_generated id ends]
          exact generated_ne_scissors marker id
        simp [other]
      have after := takeWhile_rest bytes marker
      rw [rest] at after
      rw [List.takeWhile_cons_of_pos (by simp [plain]), List.takeWhile_cons_of_pos (by simp [blank]),
        List.takeWhile_append_of_pos trailers, after, List.append_nil]

theorem authored_insertMany (blind : EndBlind f) (valid : ValidMarker marker) (some : ids ≠ []) :
    (Message.new ((Message.new bytes marker).insertMany ids) marker).authored.flatMap f =
      (Message.new bytes marker).authored.flatMap f ++
        if OpensScissors bytes marker then [] else ids.flatMap fun id => seen marker f (generated id) := by
  obtain ⟨ended⟩ := exists_ended (region marker bytes).flatten
  have ends := predominantEol_isEol bytes
  have blind' := blind.seen valid
  obtain ⟨blanks, contents⟩ := ended.contents
  rw [Ended.lines_of_region] at contents
  have old : (Message.new bytes marker).authored.flatMap f =
      ((splitInclusive lf ended.closed).map content).flatMap (seen marker f) ++ seen marker f ended.last := by
    have nothing : (List.replicate blanks ([] : Bytes)).flatMap (seen marker f) = [] := by
      rw [List.flatMap_eq_nil_iff]
      intro line among
      rw [List.eq_of_mem_replicate among, blind'.blank]
    rw [authored_eq, shown_flatMap, contents, List.flatMap_append, List.flatMap_append, nothing, List.append_nil]
    congr 1
    split
    · next none => rw [none, blind'.blank]; rfl
    · simp
  rw [authored_eq, shown_flatMap, ended.inserted_region valid some, List.map_append, List.flatMap_append, old]
  split
  · next opens =>
      have cut := isScissors_iff.mp ((ended.opens_iff valid).mp opens)
      have hidden : seen marker f ended.last = [] := by
        rw [← blind'.inserted ended.last ends, cut]
        exact if_pos (List.isPrefixOf_iff_prefix.mpr (List.prefix_append _ _))
      simp [hidden]
  · rw [List.map_cons, List.map_cons, List.flatMap_cons, List.flatMap_cons, blind'.inserted ended.last ends,
      content_eol ends, blind'.blank, List.nil_append, List.append_assoc, List.map_map]
    congr 2
    rw [List.flatMap_map]
    apply List.flatMap_congr
    intro id _
    rw [Function.comp_apply, content_generated _ ends]

end Insertion

end Phasegent.Hooks
