import Phasegent.Text.Lines

namespace Phasegent.Lease
open Text.Lines

structure WorktreeListEntry where
  worktree : List Char
  head : Option (List Char)
  branch : Option (List Char)
  deriving DecidableEq, Repr

section Parser

def stripReturn (line : List Char) : List Char := if line.getLast? = some '\r' then line.dropLast else line

def lineContent (line : List Char) : List Char :=
  if line.getLast? = some '\n' then stripReturn line.dropLast else line

def lines (text : List Char) : List (List Char) := (splitInclusive '\n' text).map lineContent

-- The first two of at most three fields.
def fieldKey (line : List Char) : List Char := line.takeWhile (· ≠ ' ')

def fieldValue (line : List Char) : List Char := ((line.dropWhile (· ≠ ' ')).drop 1).takeWhile (· ≠ ' ')

structure ListParser where
  entries : List WorktreeListEntry
  current : Option WorktreeListEntry

def ListParser.flush (parser : ListParser) : List WorktreeListEntry := parser.entries ++ parser.current.toList

def ListParser.line (parser : ListParser) (line : List Char) : ListParser :=
  if line = [] then ⟨parser.flush, none⟩
  else if fieldKey line = "worktree".toList then ⟨parser.flush, some ⟨fieldValue line, none, none⟩⟩
  else if fieldKey line = "HEAD".toList then
    ⟨parser.entries, parser.current.map fun entry => { entry with head := some (fieldValue line) }⟩
  else if fieldKey line = "branch".toList then
    ⟨parser.entries, parser.current.map fun entry => { entry with branch := some (fieldValue line) }⟩
  else parser

def parseWorktreeList (raw : List Char) : List WorktreeListEntry :=
  ((lines raw).foldl ListParser.line ⟨[], none⟩).flush

end Parser

section Printer

/-- What Git prints for a commit or a branch: object names are hexadecimal, and a name of a branch has
neither spaces nor control characters. -/
structure Name where
  text : List Char
  plain : ∀ c ∈ text, c ≠ ' ' ∧ c ≠ '\n' ∧ c ≠ '\r'

structure Attribute where
  text : List Char
  plain : ∀ c ∈ text, c ≠ '\n' ∧ c ≠ '\r'
  some : text ≠ []
  other : fieldKey text ≠ "worktree".toList ∧ fieldKey text ≠ "HEAD".toList ∧ fieldKey text ≠ "branch".toList

structure Worktree where
  path : List Char
  absolute : path.head? = some '/'
  line : '\n' ∉ path
  head : Option Name
  branch : Option Name
  attributes : List Attribute

def Worktree.entry (worktree : Worktree) : WorktreeListEntry :=
  ⟨worktree.path, worktree.head.map Name.text, worktree.branch.map Name.text⟩

def field (key : String) (value : Name) : List Char := key.toList ++ ' ' :: value.text

def Worktree.block (worktree : Worktree) : List (List Char) :=
  ("worktree ".toList ++ worktree.path) :: (worktree.head.map (field "HEAD")).toList ++
    (worktree.branch.map (field "branch")).toList ++ worktree.attributes.map Attribute.text

-- A blank line stands between the blocks, and after the last one unless it is missing.
def porcelainLines (closed : Bool) : List Worktree → List (List Char)
  | [] => []
  | [worktree] => worktree.block ++ if closed then [[]] else []
  | worktree :: rest => worktree.block ++ [] :: porcelainLines closed rest

theorem porcelainLines_cons (closed : Bool) (worktree next : Worktree) (rest : List Worktree) :
    porcelainLines closed (worktree :: next :: rest) =
      worktree.block ++ [] :: porcelainLines closed (next :: rest) := rfl

def porcelain (closed : Bool) (worktrees : List Worktree) : List Char :=
  (porcelainLines closed worktrees).flatMap (· ++ ['\n'])

end Printer

section Lines

theorem lines_of_lines {contents : List (List Char)} (free : ∀ line ∈ contents, '\n' ∉ line) :
    lines (contents.flatMap (· ++ ['\n'])) = contents.map stripReturn := by
  induction contents with
  | nil => rfl
  | cons line contents ih =>
      obtain ⟨first, rest⟩ := List.forall_mem_cons.mp free
      have split := splitInclusive_line first (contents.flatMap (· ++ ['\n']))
      have content : lineContent (line ++ ['\n']) = stripReturn line := by simp [lineContent]
      rw [List.flatMap_cons, List.append_assoc, List.singleton_append, lines, split, List.map_cons, content,
        List.map_cons, ← ih rest, lines]

theorem stripReturn_eq_self {line : List Char} (plain : '\r' ∉ line) : stripReturn line = line := by
  rw [stripReturn, if_neg]
  exact fun last => plain (List.mem_of_getLast? last)

theorem stripReturn_append {front back : List Char} (some : back ≠ []) :
    stripReturn (front ++ back) = front ++ stripReturn back := by
  simp only [stripReturn, List.getLast?_append_of_ne_nil _ some]
  split
  · exact List.dropLast_append_of_ne_nil some
  · rfl

theorem stripReturn_eq_self_iff {line : List Char} : stripReturn line = line ↔ line.getLast? ≠ some '\r' := by
  rw [stripReturn]
  split
  · next last =>
    simp only [last, ne_eq, not_true_eq_false, iff_false]
    intro same
    have shorter := congrArg List.length same
    rw [List.length_dropLast] at shorter
    have empty : line = [] := List.eq_nil_of_length_eq_zero (by omega)
    rw [empty] at last
    cases last
  · next last => simp [last]

end Lines

section Fields
variable {key value : List Char}

theorem fieldKey_append (plain : ' ' ∉ key) : fieldKey (key ++ ' ' :: value) = key := by
  have all : ∀ c ∈ key, (decide (c ≠ ' ')) = true := by
    intro c among
    have other : c ≠ ' ' := fun same => plain (same ▸ among)
    simpa using other
  rw [fieldKey, List.takeWhile_append_of_pos all]
  simp

theorem fieldValue_append (plain : ' ' ∉ key) :
    fieldValue (key ++ ' ' :: value) = value.takeWhile (· ≠ ' ') := by
  have all : ∀ c ∈ key, (decide (c ≠ ' ')) = true := by
    intro c among
    have other : c ≠ ' ' := fun same => plain (same ▸ among)
    simpa using other
  rw [fieldValue, List.dropWhile_append_of_pos all]
  simp

theorem Name.takeWhile (name : Name) : name.text.takeWhile (· ≠ ' ') = name.text := by
  rw [List.takeWhile_eq_self_iff]
  simpa using fun c among => (name.plain c among).1

end Fields

section Blocks

def cut (path : List Char) : List Char := (stripReturn path).takeWhile (· ≠ ' ')

def Worktree.cutEntry (worktree : Worktree) : WorktreeListEntry :=
  { worktree.entry with worktree := cut worktree.path }

variable (parser : ListParser) (entry : WorktreeListEntry) (entries : List WorktreeListEntry)

theorem line_worktree (worktree : Worktree) :
    parser.line (stripReturn ("worktree ".toList ++ worktree.path)) =
      ⟨parser.flush, some ⟨cut worktree.path, none, none⟩⟩ := by
  have some : worktree.path ≠ [] := by
    intro empty
    have absolute := worktree.absolute
    rw [empty] at absolute
    cases absolute
  have shape : "worktree ".toList ++ stripReturn worktree.path = "worktree".toList ++ ' ' :: stripReturn worktree.path := by
    simp
  have nonempty : "worktree".toList ++ ' ' :: stripReturn worktree.path ≠ [] := by simp
  rw [stripReturn_append some, shape, ListParser.line, if_neg nonempty, fieldKey_append (by decide),
    fieldValue_append (by decide), if_pos rfl]
  rfl

theorem field_stripped (key : String) (plain : '\r' ∉ key.toList) (name : Name) :
    stripReturn (field key name) = field key name := by
  apply stripReturn_eq_self
  rw [field, List.mem_append, List.mem_cons]
  rintro (within | space | within)
  · exact plain within
  · cases space
  · exact (name.plain _ within).2.2 rfl

theorem line_head (name : Name) : ListParser.line ⟨entries, some entry⟩ (stripReturn (field "HEAD" name)) =
    ⟨entries, some { entry with head := some name.text }⟩ := by
  have nonempty : field "HEAD" name ≠ [] := by simp [field]
  have key : fieldKey (field "HEAD" name) = "HEAD".toList := fieldKey_append (by decide)
  have value : fieldValue (field "HEAD" name) = name.text := by
    rw [field, fieldValue_append (by decide), name.takeWhile]
  rw [field_stripped _ (by decide), ListParser.line, if_neg nonempty, key, value, if_neg (by decide), if_pos rfl]
  rfl

theorem line_branch (name : Name) : ListParser.line ⟨entries, some entry⟩ (stripReturn (field "branch" name)) =
    ⟨entries, some { entry with branch := some name.text }⟩ := by
  have nonempty : field "branch" name ≠ [] := by simp [field]
  have key : fieldKey (field "branch" name) = "branch".toList := fieldKey_append (by decide)
  have value : fieldValue (field "branch" name) = name.text := by
    rw [field, fieldValue_append (by decide), name.takeWhile]
  rw [field_stripped _ (by decide), ListParser.line, if_neg nonempty, key, value, if_neg (by decide),
    if_neg (by decide), if_pos rfl]
  rfl

theorem line_attribute (extra : Attribute) : parser.line (stripReturn extra.text) = parser := by
  have plain : '\r' ∉ extra.text := fun among => (extra.plain _ among).2 rfl
  obtain ⟨first, second, third⟩ := extra.other
  rw [stripReturn_eq_self plain, ListParser.line, if_neg extra.some, if_neg first, if_neg second, if_neg third]

theorem lines_attributes (attributes : List Attribute) :
    (attributes.map fun extra => stripReturn extra.text).foldl ListParser.line parser = parser := by
  induction attributes with
  | nil => rfl
  | cons extra rest ih => rw [List.map_cons, List.foldl_cons, line_attribute, ih]

theorem lines_block (worktree : Worktree) :
    (worktree.block.map stripReturn).foldl ListParser.line parser = ⟨parser.flush, some worktree.cutEntry⟩ := by
  have attributes := fun parser => lines_attributes parser worktree.attributes
  simp only [Worktree.block, List.cons_append, List.map_cons, List.map_append, List.map_map, Function.comp_def,
    List.foldl_cons, List.foldl_append, line_worktree, attributes, Worktree.cutEntry, Worktree.entry]
  cases worktree.head with
  | none =>
      cases worktree.branch with
      | none => rfl
      | some branch => simp [line_branch]
  | some head =>
      cases worktree.branch with
      | none => simp [line_head]
      | some branch => simp [line_head, line_branch]

theorem line_blank : parser.line (stripReturn []) = ⟨parser.flush, none⟩ := rfl

theorem lines_porcelain (closed : Bool) (worktrees : List Worktree) :
    (((porcelainLines closed worktrees).map stripReturn).foldl ListParser.line parser).flush =
      parser.flush ++ worktrees.map Worktree.cutEntry := by
  induction worktrees generalizing parser with
  | nil => simp [porcelainLines]
  | cons worktree rest ih =>
      cases rest with
      | nil =>
          cases closed with
          | true => simp [porcelainLines, lines_block, line_blank, ListParser.flush]
          | false => simp [porcelainLines, lines_block, ListParser.flush]
      | cons next rest =>
          rw [porcelainLines_cons, List.map_append, List.foldl_append, lines_block, List.map_cons, List.foldl_cons,
            line_blank, ih]
          simp [ListParser.flush]

end Blocks

section Inversion

theorem free_block (worktree : Worktree) : ∀ line ∈ worktree.block, '\n' ∉ line := by
  have named : ∀ (key : String) (name : Name), '\n' ∉ key.toList → '\n' ∉ field key name := by
    intro key name plain among
    rw [field, List.mem_append, List.mem_cons] at among
    obtain within | space | within := among
    · exact plain within
    · cases space
    · exact (name.plain _ within).2.1 rfl
  intro line among
  simp only [Worktree.block, List.cons_append, List.mem_cons, List.mem_append, Option.mem_toList, Option.map_eq_some_iff,
    List.mem_map] at among
  obtain rfl | (⟨head, -, rfl⟩ | ⟨branch, -, rfl⟩) | ⟨extra, -, rfl⟩ := among
  · rw [List.mem_append, not_or]
    exact ⟨by decide, worktree.line⟩
  · exact named "HEAD" head (by decide)
  · exact named "branch" branch (by decide)
  · exact fun within => (extra.plain _ within).1 rfl

theorem free_porcelain (closed : Bool) (worktrees : List Worktree) :
    ∀ line ∈ porcelainLines closed worktrees, '\n' ∉ line := by
  induction worktrees with
  | nil => nofun
  | cons worktree rest ih =>
      intro line among
      cases rest with
      | nil =>
          cases closed <;> simp only [porcelainLines, List.mem_append] at among
          · exact among.elim (free_block worktree line) (by simp)
          · exact among.elim (free_block worktree line) (by simp +contextual)
      | cons next rest =>
          rw [porcelainLines_cons, List.mem_append, List.mem_cons] at among
          obtain own | blank | later := among
          · exact free_block worktree line own
          · simp [blank]
          · exact ih line later

theorem parse_porcelain (closed : Bool) (worktrees : List Worktree) :
    parseWorktreeList (porcelain closed worktrees) = worktrees.map Worktree.cutEntry := by
  have parsed := lines_porcelain ⟨[], none⟩ closed worktrees
  rw [parseWorktreeList, porcelain, lines_of_lines (free_porcelain closed worktrees), parsed]
  rfl

theorem cut_eq_self_iff (path : List Char) : cut path = path ↔ ' ' ∉ path ∧ path.getLast? ≠ some '\r' := by
  have short : (cut path).length ≤ (stripReturn path).length := (List.takeWhile_prefix _).length_le
  have shorter : (stripReturn path).length ≤ path.length := by
    rw [stripReturn]
    split <;> simp
  constructor
  · intro same
    have whole : stripReturn path = path := by
      rw [stripReturn]
      split
      · next last =>
        rw [stripReturn, if_pos last] at short
        rw [same, List.length_dropLast] at short
        have empty : path = [] := List.eq_nil_of_length_eq_zero (by omega)
        rw [empty] at last
        cases last
      · rfl
    refine ⟨?_, stripReturn_eq_self_iff.mp whole⟩
    rw [cut, whole, List.takeWhile_eq_self_iff] at same
    exact fun space => absurd (same ' ' space) (by decide)
  · rintro ⟨spaceless, last⟩
    rw [cut, stripReturn_eq_self_iff.mpr last, List.takeWhile_eq_self_iff]
    intro c among
    have other : c ≠ ' ' := fun same => spaceless (same ▸ among)
    simpa using other

/-- Parsing gives back what was printed exactly where no path holds a space or ends in a carriage
return. -/
theorem porcelain_round_trip_iff (closed : Bool) (worktrees : List Worktree) :
    parseWorktreeList (porcelain closed worktrees) = worktrees.map Worktree.entry ↔
      ∀ worktree ∈ worktrees, ' ' ∉ worktree.path ∧ worktree.path.getLast? ≠ some '\r' := by
  have entry : ∀ worktree : Worktree, worktree.cutEntry = worktree.entry ↔ cut worktree.path = worktree.path := by
    intro worktree
    simp [Worktree.cutEntry, Worktree.entry]
  simp only [parse_porcelain, List.map_inj_left, entry, cut_eq_self_iff]

-- The path is cut at its space.
theorem spaced_path_cut : ¬∀ (closed : Bool) (worktrees : List Worktree),
    parseWorktreeList (porcelain closed worktrees) = worktrees.map Worktree.entry := by
  intro claim
  have parsed := claim true [⟨"/home/dev/my repo".toList, by decide, by decide, none, none, []⟩]
  rw [parse_porcelain] at parsed
  exact absurd parsed (by decide)

end Inversion

end Phasegent.Lease
