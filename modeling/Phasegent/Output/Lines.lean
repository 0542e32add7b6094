import Phasegent.Output.Wrap

namespace Phasegent.Output
open Text

section Sanitizing

-- Parameter and intermediate bytes, then one final byte.
def afterCsi : List Char → List Char
  | [] => []
  | c :: rest => if 0x40 ≤ c.toNat ∧ c.toNat ≤ 0x7e then rest else afterCsi rest

-- Ended by a bell or by the string terminator.
def afterOsc : List Char → List Char
  | [] => []
  | c :: rest => if c = '\x07' then rest else if c = '\x1b' then rest.drop 1 else afterOsc rest

def skipEscape : List Char → List Char
  | [] => []
  | c :: rest => if c = '[' then afterCsi rest else if c = ']' then afterOsc rest else rest

theorem length_afterCsi_le (text : List Char) : (afterCsi text).length ≤ text.length := by
  fun_induction afterCsi <;> grind

theorem length_afterOsc_le (text : List Char) : (afterOsc text).length ≤ text.length := by
  fun_induction afterOsc <;> grind

theorem length_skipEscape_le (text : List Char) : (skipEscape text).length ≤ text.length := by
  cases text with
  | nil => rfl
  | cons c rest =>
      have csi := length_afterCsi_le rest
      have osc := length_afterOsc_le rest
      rw [skipEscape, List.length_cons]
      split_ifs <;> omega

def sanitize : List Char → List Char
  | [] => []
  | c :: rest =>
      if c = '\x1b' then sanitize (skipEscape rest)
      else if c = '\n' then '\n' :: sanitize rest
      else if c = '\t' then List.replicate 4 ' ' ++ sanitize rest
      else if isControl c then sanitize rest
      else c :: sanitize rest
termination_by text => text.length
decreasing_by
  all_goals have shorter := length_skipEscape_le rest
  all_goals simp only [List.length_cons]
  all_goals omega

def Clean (text : List Char) : Prop := ∀ c ∈ text, isControl c = true → c = '\n'

theorem clean_sanitize (text : List Char) : Clean (sanitize text) := by
  induction text using sanitize.induct with
  | case1 => simp [sanitize, Clean]
  | case2 rest ih => rwa [sanitize, if_pos rfl]
  | case3 rest _ ih =>
      rw [sanitize, if_neg (by decide), if_pos rfl]
      simpa [Clean] using ih
  | case4 rest _ _ ih =>
      rw [sanitize, if_neg (by decide), if_neg (by decide), if_pos rfl]
      intro c among control
      rcases List.mem_append.mp among with among | among
      · rw [List.eq_of_mem_replicate among] at control
        exact absurd control (by decide)
      · exact ih c among control
  | case5 c rest escape newline tab control ih =>
      rwa [sanitize, if_neg escape, if_neg newline, if_neg tab, if_pos control]
  | case6 c rest escape newline tab control ih =>
      rw [sanitize, if_neg escape, if_neg newline, if_neg tab, if_neg control]
      intro d among isControl
      rcases List.mem_cons.mp among with rfl | among
      · exact absurd isControl control
      · exact ih d among isControl

theorem sanitize_of_clean {text : List Char} (clean : Clean text) : sanitize text = text := by
  induction text with
  | nil => rw [sanitize]
  | cons c rest ih =>
      have kept := ih fun d among => clean d (List.mem_cons_of_mem _ among)
      have plain : c = '\n' ∨ isControl c = false := by
        cases control : isControl c with
        | true => exact Or.inl (clean c List.mem_cons_self control)
        | false => exact Or.inr rfl
      rcases plain with rfl | plain
      · rw [sanitize, if_neg (by decide), if_pos rfl, kept]
      · have others : c ≠ '\x1b' ∧ c ≠ '\n' ∧ c ≠ '\t' := by
          refine ⟨?_, ?_, ?_⟩ <;> rintro rfl <;> exact absurd plain (by decide)
        rw [sanitize, if_neg others.1, if_neg others.2.1, if_neg others.2.2, if_neg (by simp [plain]), kept]

theorem sanitize_sanitize (text : List Char) : sanitize (sanitize text) = sanitize text :=
  sanitize_of_clean (clean_sanitize text)

-- What has been written, and whether a line break waits to be written as a space.
def joinStep : List Char × Bool → Char → List Char × Bool
  | (out, pendingSpace), c =>
      if c = '\n' then (out, !out.isEmpty)
      else if pendingSpace then (out ++ [' ', c], false)
      else (out ++ [c], false)

def singleLine (text : List Char) : List Char := ((sanitize text).foldl joinStep ([], false)).1

def Plain (text : List Char) : Prop := ∀ c ∈ text, isControl c = false

theorem plain_joinStep {state : List Char × Bool} (plain : Plain state.1) {c : Char}
    (clean : isControl c = true → c = '\n') : Plain (joinStep state c).1 := by
  obtain ⟨out, pending⟩ := state
  have space : isControl ' ' = false := by decide
  rw [joinStep]
  by_cases newline : c = '\n'
  · simpa [newline] using plain
  · have printable : isControl c = false := by
      rw [← Bool.not_eq_true]
      exact fun control => newline (clean control)
    have whole : Plain (out ++ [c]) := by simpa [Plain, or_imp, forall_and] using ⟨plain, printable⟩
    have spaced : Plain (out ++ [' ', c]) := by
      simpa [Plain, or_imp, forall_and] using ⟨plain, space, printable⟩
    rw [if_neg newline]
    split
    · exact spaced
    · exact whole

theorem plain_singleLine (text : List Char) : Plain (singleLine text) := by
  have step : ∀ (rest : List Char) (state : List Char × Bool), Clean rest → Plain state.1 →
      Plain (rest.foldl joinStep state).1 := by
    intro rest
    induction rest with
    | nil => exact fun state _ plain => plain
    | cons c rest ih =>
        intro state clean plain
        exact ih _ (fun d among => clean d (List.mem_cons_of_mem _ among))
          (plain_joinStep plain (clean c List.mem_cons_self))
  exact step _ _ (clean_sanitize text) fun _ impossible => absurd impossible List.not_mem_nil

end Sanitizing

/-- The narrowest value column an aligned field may use. -/
def minValueWidth : Nat := 20

def continuationIndent : Nat := 2

def pad (indent : Nat) : Line := List.replicate indent ' '

def hang (first next : Line → Line) : List Line → List Line
  | [] => []
  | line :: rest => first line :: rest.map next

structure Lines where
  lines : List Line
  width : Nat
  color : Bool

namespace Lines

def new (width : Nat) (color : Bool) : Lines := ⟨[], width, color⟩

def push (buffer : Lines) (lines : List Line) : Lines := { buffer with lines := buffer.lines ++ lines }

variable (console : Console)

def fieldLabel (label : Line) (color : Bool) : Line := if color then console.bold label else label

def wrapText (text : Line) (width : Nat) : List Line :=
  ((sanitize text).splitOn '\n').flatMap fun line => wrapLine console line width

def pushSingleLine (buffer : Lines) (text : Line) : Lines :=
  buffer.push (wrapLine console (singleLine text) buffer.width)

def pushLabel (buffer : Lines) (indent : Nat) (marker label : Line) : Lines :=
  let label := singleLine label
  let plain := marker ++ label ++ [':']
  if indent + console.measureTextWidth plain ≤ buffer.width then
    buffer.push [pad indent ++ marker ++ fieldLabel console label buffer.color ++ [':']]
  else
    let width := max (buffer.width - (indent + continuationIndent)) 1
    buffer.push (hang (pad indent ++ ·) (pad indent ++ pad continuationIndent ++ ·) (wrapLine console plain width))

def pushWrapped (buffer : Lines) (indent : Nat) (lead : Line) (leadWidth : Nat) (value : Line) : Lines :=
  let available := max (buffer.width - (indent + leadWidth)) 1
  match wrapText console value available with
  | [] => buffer.push [pad indent ++ lead]
  | wrapped => buffer.push (hang (pad indent ++ lead ++ ·)
      (fun line => if line.isEmpty then [] else pad (indent + leadWidth) ++ line) wrapped)

def heading (buffer : Lines) (title : Line) : Lines :=
  let width := max (buffer.width - continuationIndent) 1
  buffer.push (hang id (pad continuationIndent ++ ·) (wrapLine console (singleLine title) width))

def row (buffer : Lines) (text : Line) : Lines := buffer.pushSingleLine console text

def group (buffer : Lines) (indent : Nat) (label : Line) : Lines := buffer.pushLabel console indent [] label

-- A field and the field of a list item differ in the marker before the label.
def labelled (buffer : Lines) (indent : Nat) (marker label value : Line) : Lines :=
  let label := singleLine label
  let leadWidth := console.measureTextWidth (marker ++ label ++ [':', ' '])
  if indent + leadWidth + minValueWidth ≤ buffer.width then
    let styled := fieldLabel console label buffer.color
    buffer.pushWrapped console indent (marker ++ styled ++ [':', ' ']) leadWidth value
  else
    (buffer.pushLabel console indent marker label).pushWrapped console (indent + continuationIndent) [] 0 value

def field (buffer : Lines) (indent : Nat) (label value : Line) : Lines :=
  buffer.labelled console indent [] label value

def itemField (buffer : Lines) (indent : Nat) (label value : Line) : Lines :=
  buffer.labelled console indent ['-', ' '] label value

def item (buffer : Lines) (indent : Nat) (text : Line) : Lines :=
  let available := max (buffer.width - (indent + 2)) 1
  buffer.push (hang (pad indent ++ ['-', ' '] ++ ·) (pad indent ++ [' ', ' '] ++ ·) (wrapText console text available))

end Lines

inductive Call where
  | heading (title : Line)
  | group (indent : Nat) (label : Line)
  | field (indent : Nat) (label value : Line)
  | item (indent : Nat) (text : Line)
  | itemField (indent : Nat) (label value : Line)

namespace Call

def indent : Call → Nat
  | .heading _ => 0
  | .group indent _ | .field indent _ _ | .item indent _ | .itemField indent _ _ => indent

def apply (console : Console) (buffer : Lines) : Call → Lines
  | .heading title => buffer.heading console title
  | .group indent label => buffer.group console indent label
  | .field indent label value => buffer.field console indent label value
  | .item indent text => buffer.item console indent text
  | .itemField indent label value => buffer.itemField console indent label value

end Call

section Shown

variable {console : Console} {width : Nat}

def Unstyled (console : Console) (line plain : Line) : Prop :=
  line = plain ∨ ∃ before label after, line = before ++ console.bold label ++ after ∧ plain = before ++ label ++ after

/-- Styling aside, a line has no control characters and is no wider than the buffer. -/
def Shown (console : Console) (width : Nat) (line : Line) : Prop :=
  ∃ plain, Unstyled console line plain ∧ Plain plain ∧ console.measureTextWidth plain ≤ width

def Indented (line : Line) : Prop := line = [] ∨ line.head? = some ' '

/-- The lines of one call: only the first may start a structural line. -/
structure Block (console : Console) (width : Nat) (lines : List Line) : Prop where
  some : lines ≠ []
  shown : ∀ line ∈ lines, Shown console width line
  indented : ∀ line ∈ lines.tail, Indented line

theorem plain_append {front back : Line} (plain : Plain front) (plain' : Plain back) : Plain (front ++ back) := by
  simpa [Plain, or_imp, forall_and] using ⟨plain, plain'⟩

theorem plain_pad (indent : Nat) : Plain (pad indent) := by
  intro c among
  rw [List.eq_of_mem_replicate among]
  decide

theorem measure_pad (indent : Nat) : console.measureTextWidth (pad indent) = indent := console.measure_spaces indent

theorem indented_pad {indent : Nat} (deep : 0 < indent) (line : Line) : Indented (pad indent ++ line) := by
  cases indent with
  | zero => exact absurd deep (Nat.lt_irrefl 0)
  | succ indent => exact Or.inr rfl

theorem shown_after {lead plainLead line : Line} {room : Nat} (unstyled : Unstyled console lead plainLead)
    (plain : Plain plainLead) (fitting : Fitting console room (fun c => isControl c = false) line)
    (room_le : console.measureTextWidth plainLead + room ≤ width) : Shown console width (lead ++ line) := by
  refine ⟨plainLead ++ line, ?_, plain_append plain fitting.2, ?_⟩
  · rcases unstyled with rfl | ⟨before, label, after, rfl, rfl⟩
    · exact Or.inl rfl
    · exact Or.inr ⟨before, label, after ++ line, by simp, by simp⟩
  · have fits := fitting.1
    rw [console.measure_append]
    omega

theorem block_hang {first next : Line → Line} {wrapped : List Line} (some : wrapped ≠ [])
    (firsts : ∀ line ∈ wrapped, Shown console width (first line))
    (nexts : ∀ line ∈ wrapped, Shown console width (next line) ∧ Indented (next line)) :
    Block console width (hang first next wrapped) := by
  cases wrapped with
  | nil => exact absurd rfl some
  | cons line rest =>
      refine ⟨by simp [hang], ?_, ?_⟩
      · intro shown among
        rcases List.mem_cons.mp among with rfl | among
        · exact firsts line List.mem_cons_self
        · obtain ⟨own, member, rfl⟩ := List.mem_map.mp among
          exact (nexts own (List.mem_cons_of_mem _ member)).1
      · intro shown among
        obtain ⟨own, member, rfl⟩ := List.mem_map.mp among
        exact (nexts own (List.mem_cons_of_mem _ member)).2

theorem Block.append {lines more : List Line} (block : Block console width lines) (shown : ∀ line ∈ more, Shown console width line)
    (indented : ∀ line ∈ more, Indented line) : Block console width (lines ++ more) := by
  obtain ⟨some, shown', indented'⟩ := block
  refine ⟨by simp [some], ?_, ?_⟩
  · intro line among
    rcases List.mem_append.mp among with among | among
    · exact shown' line among
    · exact shown line among
  · rw [List.tail_append_of_ne_nil some]
    intro line among
    rcases List.mem_append.mp among with among | among
    · exact indented' line among
    · exact indented line among

theorem fitting_wrapText (console : Console) (wide : 2 ≤ width) (text : Line) :
    ∀ line ∈ Lines.wrapText console text width, Fitting console width (fun c => isControl c = false) line := by
  intro line among
  obtain ⟨piece, member, wrapped⟩ := List.mem_flatMap.mp among
  rw [List.splitOn_eq_splitOnP] at member
  refine fitting_wrapLine console wide (by decide) (fun c inside => ?_) line wrapped
  obtain ⟨other, from'⟩ := of_mem_splitOnP member c inside
  rw [← Bool.not_eq_true]
  intro control
  simp [clean_sanitize text c from' control] at other

theorem wrapText_ne_nil (text : Line) : Lines.wrapText console text width ≠ [] := by
  obtain ⟨piece, others, split⟩ := List.exists_cons_of_ne_nil (List.splitOnP_ne_nil (· == '\n') (sanitize text))
  rw [Lines.wrapText, List.splitOn_eq_splitOnP, split, List.flatMap_cons]
  exact fun empty => wrapLine_ne_nil piece (List.append_eq_nil_iff.mp empty).1

section Calls

def Adds (console : Console) (buffer after : Lines) : Prop :=
  ∃ lines, after = buffer.push lines ∧ Block console buffer.width lines

theorem unstyled_refl (line : Line) : Unstyled console line line := Or.inl rfl

theorem shown_pad {room indent : Nat} {line : Line} (fitting : Fitting console room (fun c => isControl c = false) line)
    (room_le : indent + room ≤ width) : Shown console width (pad indent ++ line) :=
  shown_after (unstyled_refl _) (plain_pad indent) fitting (by rwa [measure_pad])

theorem fitting_single (wide : 2 ≤ width) {text : Line} (plain : Plain text) :
    ∀ line ∈ wrapLine console text width, Fitting console width (fun c => isControl c = false) line :=
  fitting_wrapLine console wide (by decide) plain

theorem adds_heading {buffer : Lines} (wide : 4 ≤ buffer.width) (title : Line) :
    Adds console buffer (buffer.heading console title) := by
  have room : max (buffer.width - continuationIndent) 1 = buffer.width - 2 := by
    simp only [continuationIndent]
    omega
  refine ⟨_, rfl, ?_⟩
  rw [room]
  refine block_hang (wrapLine_ne_nil _) (fun line among => ?_) fun line among => ?_
  all_goals have fitting := fitting_single (by omega) (plain_singleLine title) line among
  · exact shown_after (unstyled_refl []) (plain_pad 0) fitting (by rw [console.measure_nil]; omega)
  · exact ⟨shown_pad fitting (by simp only [continuationIndent]; omega), indented_pad (by decide) line⟩

theorem plain_marks {text : List Char} (all : text.all fun c => !isControl c) : Plain text := by
  intro c among
  simpa using List.all_eq_true.mp all c among

theorem unstyled_fieldLabel (before label after : Line) (color : Bool) :
    Unstyled console (before ++ Lines.fieldLabel console label color ++ after) (before ++ label ++ after) := by
  cases color with
  | true => exact Or.inr ⟨before, label, after, rfl, rfl⟩
  | false => exact Or.inl rfl

theorem adds_pushLabel (console : Console) {buffer : Lines} {indent : Nat} (wide : indent + 4 ≤ buffer.width) {marker : Line}
    (plain : Plain marker) (label : Line) : Adds console buffer (buffer.pushLabel console indent marker label) := by
  have whole : Plain (marker ++ singleLine label ++ [':']) :=
    plain_append (plain_append plain (plain_singleLine label)) (plain_marks (by decide))
  rw [Lines.pushLabel]
  split
  · rename_i fits
    refine ⟨_, rfl, by simp, ?_, by simp⟩
    intro line among
    rw [List.mem_singleton] at among
    subst among
    refine ⟨pad indent ++ marker ++ singleLine label ++ [':'], unstyled_fieldLabel _ _ _ _, ?_, ?_⟩
    · have all := plain_append (plain_pad indent) whole
      simpa only [List.append_assoc] using all
    · rw [List.append_assoc, List.append_assoc, console.measure_append, measure_pad, ← List.append_assoc]
      exact fits
  · have room : max (buffer.width - (indent + continuationIndent)) 1 = buffer.width - (indent + 2) := by
      simp only [continuationIndent]
      omega
    refine ⟨_, rfl, ?_⟩
    rw [room]
    refine block_hang (wrapLine_ne_nil _) (fun line among => ?_) fun line among => ?_
    all_goals have fitting := fitting_single (by omega) whole line among
    · exact shown_pad fitting (by omega)
    · have joined : pad indent ++ pad continuationIndent = pad (indent + continuationIndent) :=
        List.replicate_append_replicate
      rw [joined]
      refine ⟨shown_pad fitting ?_, indented_pad ?_ line⟩
      · simp only [continuationIndent]
        omega
      · simp [continuationIndent]

theorem adds_pushWrapped (buffer : Lines) {indent : Nat} {lead plainLead : Line} {leadWidth : Nat}
    (unstyled : Unstyled console lead plainLead) (plain : Plain plainLead)
    (measured : console.measureTextWidth plainLead = leadWidth) (deep : 0 < indent + leadWidth)
    (wide : indent + leadWidth + 2 ≤ buffer.width) (value : Line) :
    ∃ lines, buffer.pushWrapped console indent lead leadWidth value = buffer.push lines ∧
      Block console buffer.width lines ∧ (lead = [] → 0 < indent → ∀ line ∈ lines, Indented line) := by
  have room : max (buffer.width - (indent + leadWidth)) 1 = buffer.width - (indent + leadWidth) := by omega
  have wide' : 2 ≤ buffer.width - (indent + leadWidth) := by omega
  have fitting := fitting_wrapText console wide' value
  rw [Lines.pushWrapped, room]
  cases wrapped : Lines.wrapText console value (buffer.width - (indent + leadWidth)) with
  | nil => exact absurd wrapped (wrapText_ne_nil value)
  | cons first rest =>
      rw [wrapped] at fitting
      have next : ∀ line : Line, Indented (if line.isEmpty then [] else pad (indent + leadWidth) ++ line) := by
        intro line
        split
        · exact Or.inl rfl
        · exact indented_pad deep line
      refine ⟨_, rfl, block_hang (by simp) (fun line among => ?_) (fun line among => ⟨?_, next line⟩), ?_⟩
      · have before : Unstyled console (pad indent ++ lead) (pad indent ++ plainLead) := by
          rcases unstyled with rfl | ⟨front, label, after, rfl, rfl⟩
          · exact Or.inl rfl
          · exact Or.inr ⟨pad indent ++ front, label, after, by simp, by simp⟩
        refine shown_after before (plain_append (plain_pad indent) plain) (fitting line among) ?_
        rw [console.measure_append, measure_pad, measured]
        omega
      · split
        · exact ⟨[], Or.inl rfl, by simp [Plain], by simp⟩
        · exact shown_pad (fitting line among) (by omega)
      · rintro rfl deep' line among
        rcases List.mem_cons.mp among with rfl | among
        · rw [List.append_nil]
          exact indented_pad deep' first
        · obtain ⟨own, -, rfl⟩ := List.mem_map.mp among
          exact next own

theorem push_push (buffer : Lines) (lines more : List Line) : (buffer.push lines).push more = buffer.push (lines ++ more) := by
  simp [Lines.push]

theorem adds_labelled {buffer : Lines} {indent : Nat} (wide : indent + 4 ≤ buffer.width) {marker : Line}
    (plain : Plain marker) (label value : Line) : Adds console buffer (buffer.labelled console indent marker label value) := by
  rw [Lines.labelled]
  split
  · rename_i fits
    have some : 0 < console.measureTextWidth (marker ++ singleLine label ++ [':', ' ']) := by
      have space := console.measure_space
      rw [console.measure_append, console.measure_cons, space]
      omega
    have room : indent + console.measureTextWidth (marker ++ singleLine label ++ [':', ' ']) + 2 ≤ buffer.width := by
      simp only [minValueWidth] at fits
      omega
    obtain ⟨lines, pushed, block, -⟩ := adds_pushWrapped buffer
      (unstyled_fieldLabel marker (singleLine label) [':', ' '] buffer.color)
      (plain_append (plain_append plain (plain_singleLine _)) (plain_marks (by decide))) rfl (by omega) room value
    exact ⟨lines, pushed, block⟩
  · obtain ⟨lines, pushed, block⟩ := adds_pushLabel console wide plain (singleLine label)
    have deep : 0 < indent + continuationIndent + 0 := by simp [continuationIndent]
    obtain ⟨more, pushed', block', indented⟩ := adds_pushWrapped (buffer.push lines) (unstyled_refl []) (plain_pad 0)
      console.measure_nil deep (by simpa [continuationIndent, Lines.push] using wide) value
    refine ⟨lines ++ more, ?_, block.append block'.shown (indented rfl deep)⟩
    rw [pushed, pushed', push_push]

theorem adds_item {buffer : Lines} {indent : Nat} (wide : indent + 4 ≤ buffer.width) (text : Line) :
    Adds console buffer (buffer.item console indent text) := by
  have room : max (buffer.width - (indent + 2)) 1 = buffer.width - (indent + 2) := by omega
  have wide' : 2 ≤ buffer.width - (indent + 2) := by omega
  have marker : console.measureTextWidth ['-', ' '] = 2 := by
    rw [console.measure_cons, console.measure_space, console.measure_ascii '-' (by decide) (by decide)]
  have joined : pad indent ++ [' ', ' '] = pad (indent + 2) :=
    (List.replicate_append_replicate : List.replicate indent ' ' ++ List.replicate 2 ' ' = _)
  refine ⟨_, rfl, ?_⟩
  rw [room]
  refine block_hang (wrapText_ne_nil text) (fun line among => ?_) fun line among => ?_
  all_goals have fitting := fitting_wrapText console wide' text line among
  · refine shown_after (unstyled_refl _) (plain_append (plain_pad indent) (plain_marks (by decide))) fitting ?_
    rw [console.measure_append, measure_pad, marker]
    omega
  · rw [joined]
    exact ⟨shown_pad fitting (by omega), indented_pad (by omega) line⟩

theorem adds_apply (console : Console) {buffer : Lines} (call : Call) (wide : call.indent + 4 ≤ buffer.width) :
    Adds console buffer (call.apply console buffer) := by
  cases call with
  | heading title => exact adds_heading (by simpa [Call.indent] using wide) title
  | group indent label => exact adds_pushLabel console wide (plain_pad 0) label
  | field indent label value => exact adds_labelled wide (plain_pad 0) label value
  | item indent text => exact adds_item wide text
  | itemField indent label value => exact adds_labelled wide (plain_marks (by decide)) label value

theorem blocks_foldl (console : Console) {calls : List Call} {buffer : Lines} (wide : ∀ call ∈ calls, call.indent + 4 ≤ buffer.width) :
    ∃ blocks : List (List Line), blocks.length = calls.length ∧
      (∀ n, (calls.take n).foldl (Call.apply console) buffer = buffer.push (blocks.take n).flatten) ∧
      ∀ lines ∈ blocks, Block console buffer.width lines := by
  induction calls generalizing buffer with
  | nil => exact ⟨[], rfl, by simp [Lines.push], by simp⟩
  | cons call calls ih =>
      obtain ⟨first, wide⟩ := List.forall_mem_cons.mp wide
      obtain ⟨lines, pushed, block⟩ := adds_apply console call first
      have wide' : ∀ call ∈ calls, call.indent + 4 ≤ (buffer.push lines).width := wide
      obtain ⟨blocks, same, prefixes, contained⟩ := ih wide'
      refine ⟨lines :: blocks, by simp [same], ?_, List.forall_mem_cons.mpr ⟨block, contained⟩⟩
      intro n
      cases n with
      | zero => simp [Lines.push]
      | succ n =>
          rw [List.take_succ_cons, List.take_succ_cons, List.foldl_cons, pushed, prefixes n, push_push, List.flatten_cons]

end Calls

end Shown

/-- Sanitized text keeps line breaks only, and each call of a renderer adds one block: its lines fit, and
none after the first starts at the first column. -/
theorem rendered_blocks (console : Console) :
    (∀ text : List Char, (∀ c ∈ sanitize text, isControl c = true → c = '\n') ∧
        sanitize (sanitize text) = sanitize text) ∧
      ∀ (width : Nat) (color : Bool) (calls : List Call), (∀ call ∈ calls, call.indent + 4 ≤ width) →
        ∃ blocks : List (List Line), blocks.length = calls.length ∧
          (∀ n, ((calls.take n).foldl (Call.apply console) (Lines.new width color)).lines = (blocks.take n).flatten) ∧
          ∀ lines ∈ blocks, Block console width lines := by
  refine ⟨fun text => ⟨clean_sanitize text, sanitize_sanitize text⟩, ?_⟩
  intro width color calls wide
  have wide' : ∀ call ∈ calls, call.indent + 4 ≤ (Lines.new width color).width := wide
  obtain ⟨blocks, same, prefixes, contained⟩ := blocks_foldl console wide'
  refine ⟨blocks, same, fun n => ?_, contained⟩
  rw [prefixes n]
  exact List.nil_append _

theorem rendered_blocks_issue :
    ∃ blocks : List (List Line), blocks.length = 2 ∧
      (∀ n, (([Call.heading "Fix\n  id: 7".toList, .field 2 "id".toList "8\x1b[2J\nid: 9".toList].take n).foldl
        (Call.apply plainConsole) (Lines.new 6 true)).lines = (blocks.take n).flatten) ∧
      ∀ lines ∈ blocks, Block plainConsole 6 lines :=
  (rendered_blocks plainConsole).2 6 true
    [.heading "Fix\n  id: 7".toList, .field 2 "id".toList "8\x1b[2J\nid: 9".toList] (by simp [Call.indent])

end Phasegent.Output
