import Phasegent.Hooks.Commands
import Phasegent.Hooks.Inserted

namespace Phasegent.Hooks
open Text Branch Fallible

variable {bytes marker : Bytes} {ids : List Nat} {id : Nat}

section Counting

theorem foldl_push (ids refs : List Nat) :
    ids.foldl push refs = refs ++ (ids.filter (· ∉ refs)).eraseDups := by
  induction ids generalizing refs with
  | nil => simp
  | cons id ids ih =>
      rw [List.foldl_cons, ih, List.filter_cons]
      by_cases known : id ∈ refs
      · have same : push refs id = refs := by simp [push, known]
        rw [same]
        simp [known]
      · have more : push refs id = refs ++ [id] := by simp [push, known]
        rw [more, if_pos (by simpa using known), List.eraseDups_cons, List.filter_filter]
        simp [and_comm, beq_eq_decide]

theorem mem_foldl_push {refs : List Nat} : id ∈ ids.foldl push refs ↔ id ∈ refs ∨ id ∈ ids := by
  rw [foldl_push, List.mem_append, List.mem_eraseDups, List.mem_filter]
  simp
  tauto

theorem generatedCount_eq (message : Message) (id : Nat) :
    message.generatedCount id = (message.authored.flatMap (generatedIn id)).length := by
  rw [Message.generatedCount]
  induction message.authored with
  | nil => rfl
  | cons line lines ih =>
      rw [List.countP_cons, List.flatMap_cons, List.length_append, ih, generatedIn, Nat.add_comm]
      split <;> rfl

theorem generatedCount_of_no_reference {message : Message} (none : message.references = [])
    (positive : 0 < id) (small : id < 2 ^ 64) : message.generatedCount id = 0 := by
  rw [Message.generatedCount, List.countP_eq_zero]
  intro line among trimmed
  have found := mem_lineReferences_of_trim positive small (by simpa using trimmed)
  have referred : id ∈ message.references := by
    rw [Message.references, mem_foldl_push]
    exact Or.inr (List.mem_flatMap.mpr ⟨line, among, found⟩)
  rw [none] at referred
  cases referred

end Counting

section Found

/-- What an insertion leaves to be found, and what it leaves alone. -/
structure FoundAgain (bytes marker : Bytes) (ids : List Nat) : Prop where
  references : (Message.new ((Message.new bytes marker).insertMany ids) marker).references =
    (Message.new bytes marker).references ++
      (ids.filter (· ∉ (Message.new bytes marker).references)).eraseDups
  counted : ∀ id < 2 ^ 64,
    (Message.new ((Message.new bytes marker).insertMany ids) marker).generatedCount id =
      (Message.new bytes marker).generatedCount id + ids.count id
  before : stripLineEnds (authoredPart bytes marker) <+: (Message.new bytes marker).insertMany ids
  after : bytes.drop (Message.new bytes marker).finish <:+ (Message.new bytes marker).insertMany ids

def Findable (bytes marker : Bytes) (ids : List Nat) : Prop :=
  ids = [] ∨ ¬OpensScissors bytes marker ∧ ∀ id ∈ ids, ¬marker <+: generated id

def InRange (ids : List Nat) : Prop := ∀ id ∈ ids, 0 < id ∧ id < 2 ^ 64

theorem insertMany_nil : (Message.new bytes marker).insertMany [] = bytes := rfl

theorem stripLineEnds_front (text : Bytes) : stripLineEnds text <+: text := by
  obtain ⟨ended⟩ := exists_ended text
  exact ⟨ended.eols.flatten, by rw [ended.stripped, ← ended.whole]⟩

variable (bytes marker ids) in
theorem insertMany_keeps : stripLineEnds (authoredPart bytes marker) <+: (Message.new bytes marker).insertMany ids ∧
    bytes.drop (Message.new bytes marker).finish <:+ (Message.new bytes marker).insertMany ids := by
  by_cases none : ids = []
  · rw [none, insertMany_nil]
    exact ⟨(stripLineEnds_front _).trans (List.take_prefix _ _), List.drop_suffix _ _⟩
  · have kept : (Message.new bytes marker).bytes = bytes := rfl
    rw [Message.insertMany, if_neg (by simpa using none), kept, authoredPart]
    constructor
    · exact ⟨_, by simp only [List.append_assoc]; rfl⟩
    · exact List.suffix_append _ _

theorem seen_generated (id j : Nat) (small : id < 2 ^ 64) (small' : j < 2 ^ 64) :
    seen marker (generatedIn id) (generated j) =
      if marker <+: generated j then [] else if j = id then [id] else [] := by
  have same : (trimAscii (generated j) == generated id) = decide (j = id) := by
    rw [trimAscii_generated, Bool.eq_iff_iff, beq_iff_eq, decide_eq_true_eq]
    exact ⟨generated_injective small' small, fun same => by rw [same]⟩
  simp only [seen, List.isPrefixOf_iff_prefix, generatedIn, same, decide_eq_true_eq]

theorem count_insertMany (valid : ValidMarker marker) (some : ids ≠ []) (range : InRange ids)
    (small : id < 2 ^ 64) :
    (Message.new ((Message.new bytes marker).insertMany ids) marker).generatedCount id =
      (Message.new bytes marker).generatedCount id +
        if OpensScissors bytes marker ∨ marker <+: generated id then 0 else ids.count id := by
  rw [generatedCount_eq, generatedCount_eq, authored_insertMany (endBlind_generatedIn id) valid some,
    List.length_append]
  congr 1
  by_cases opens : OpensScissors bytes marker
  · simp [opens]
  · simp only [opens, false_or]
    have each : ∀ js : List Nat, InRange js →
        (js.flatMap fun j => seen marker (generatedIn id) (generated j)).length =
          if marker <+: generated id then 0 else js.count id := by
      intro js range
      induction js with
      | nil => simp
      | cons j js ih =>
          rw [List.flatMap_cons, List.length_append, ih fun k among => range k (by simp [among]),
            seen_generated id j small (range j (by simp)).2, List.count_cons]
          by_cases same : j = id
          · subst same
            by_cases hidden : marker <+: generated j <;> simp [hidden, Nat.add_comm]
          · by_cases hidden : marker <+: generated j <;> simp [same]
    exact each ids range

theorem references_insertMany (valid : ValidMarker marker) (some : ids ≠ []) (range : InRange ids)
    (shut : ¬OpensScissors bytes marker) (plain : ∀ id ∈ ids, ¬marker <+: generated id) :
    (Message.new ((Message.new bytes marker).insertMany ids) marker).references =
      ids.foldl push (Message.new bytes marker).references := by
  have own : (ids.flatMap fun id => seen marker lineReferences (generated id)) = ids := by
    calc
      _ = ids.flatMap fun id => [id] := by
        apply List.flatMap_congr
        intro id among
        rw [seen, if_neg (by simpa [List.isPrefixOf_iff_prefix] using plain id among),
          lineReferences_generated (range id among).1 (range id among).2]
      _ = ids := by simp
  rw [Message.references, authored_insertMany endBlind_lineReferences valid some, if_neg shut, own,
    List.foldl_append, Message.references]

theorem foundAgain_iff (valid : ValidMarker marker) (range : InRange ids) :
    FoundAgain bytes marker ids ↔ Findable bytes marker ids := by
  obtain ⟨before, after⟩ := insertMany_keeps bytes marker ids
  by_cases none : ids = []
  · subst none
    refine iff_of_true ⟨?_, ?_, before, after⟩ (Or.inl rfl)
    · simp [insertMany_nil]
    · simp [insertMany_nil]
  · constructor
    · intro found
      right
      have grows : ∀ id ∈ ids, ¬(OpensScissors bytes marker ∨ marker <+: generated id) := by
        intro id among hidden
        have count := found.counted id (range id among).2
        rw [count_insertMany valid none range (range id among).2, if_pos hidden] at count
        have positive := List.count_pos_iff.mpr among
        omega
      obtain ⟨id, among⟩ := List.exists_mem_of_ne_nil ids none
      exact ⟨fun opens => grows id among (Or.inl opens), fun id among hidden => grows id among (Or.inr hidden)⟩
    · intro findable
      obtain ⟨shut, plain⟩ := findable.resolve_left none
      refine ⟨?_, ?_, before, after⟩
      · rw [references_insertMany valid none range shut plain, foldl_push]
      · intro id small
        rw [count_insertMany valid none range small]
        congr 1
        split
        · next hidden =>
            have absent : id ∉ ids := fun among => hidden.elim shut (plain id among)
            rw [List.count_eq_zero.mpr absent]
        · rfl

end Found

section Bindings
variable {repo : HookRepo}

/-- The link rows keep issue numbers in the range their column allows. -/
def RowsInRange (repo : HookRepo) : Prop :=
  ∀ rows ∈ repo.rows, ∀ row ∈ rows, 0 < row.issueNumber ∧ row.issueNumber < 2 ^ 64

structure Bound (ids : List Nat) : Prop where
  some : ids ≠ []
  once : ids.Nodup
  range : InRange ids

theorem positive_range {digits : List Char} (found : positive digits = some id) : 0 < id ∧ id < 2 ^ 64 := by
  rw [positive, Option.filter_eq_some_iff] at found
  exact ⟨by simpa using found.2, parseU64_lt found.1⟩

theorem wholeNumber_range {text : List Char} (found : wholeNumber text = some id) : 0 < id ∧ id < 2 ^ 64 := by
  rw [wholeNumber, Option.ite_none_right_eq_some] at found
  exact positive_range found.2

theorem parseIssueIdFromBranchName_range {branch : String}
    (found : parseIssueIdFromBranchName branch = some id) : 0 < id ∧ id < 2 ^ 64 := by
  rw [parseIssueIdFromBranchName, Option.or_eq_some_iff] at found
  rcases found with typed | ⟨_, other⟩
  · obtain ⟨_, _, read⟩ := List.exists_of_findSome?_eq_some typed
    exact positive_range read
  · rw [Option.or_eq_some_iff] at other
    rcases other with last | ⟨_, all⟩
    · obtain ⟨_, _, read⟩ := Option.bind_eq_some_iff.mp last
      exact wholeNumber_range read
    · exact wholeNumber_range all

theorem namedBindings_bound {branch : String} {default : Option String}
    (named : namedBindings branch default = .issues ids) : Bound ids := by
  unfold namedBindings namedBranchIssue at named
  split at named
  · next id found =>
      cases named
      split at found
      · cases found
      · exact ⟨by simp, by simp, by simpa [InRange] using parseIssueIdFromBranchName_range found⟩
  · cases named

theorem linkedBindings_bound {refs : List ScopedIssueRef} (some : refs ≠ [])
    (range : ∀ ref ∈ refs, 0 < ref.issueNumber ∧ ref.issueNumber < 2 ^ 64)
    (linked : linkedBindings refs = .ok (.issues ids)) : Bound ids := by
  have same : ids = scopeNumbers refs := by
    rw [linkedBindings] at linked
    obtain ⟨_, _, rest⟩ := bind_eq_ok.mp linked
    cases rest
    rfl
  have members : ∀ {n}, n ∈ scopeNumbers refs ↔ n ∈ refs.map (·.issueNumber) := by
    intro n
    rw [scopeNumbers, List.mem_insertionSort, List.mem_dedup]
  subst same
  constructor
  · intro none
    obtain ⟨ref, among⟩ := List.exists_mem_of_ne_nil refs some
    have member := members.mpr (List.mem_map_of_mem (f := (·.issueNumber)) among)
    rw [none] at member
    cases member
  · rw [scopeNumbers, (List.perm_insertionSort _ _).nodup_iff]
    exact List.nodup_dedup _
  · intro n among
    obtain ⟨ref, member, rfl⟩ := List.mem_map.mp (members.mp among)
    exact range ref member

theorem boundIssueIds_bound (range : RowsInRange repo) (bound : boundIssueIds repo = .ok (some ids)) :
    Bound ids := by
  have bindings : resolveHookIssueIds repo = .ok (.issues ids) := by
    rw [boundIssueIds] at bound
    obtain ⟨bindings, resolved, rest⟩ := bind_eq_ok.mp bound
    cases bindings with
    | none => cases rest
    | issues _ =>
        cases rest
        exact resolved
  unfold resolveHookIssueIds at bindings
  split at bindings
  · split at bindings <;> cases bindings
  · split at bindings
    · cases bindings
    · split at bindings
      · next rows found =>
          split at bindings
          · exact namedBindings_bound (Except.ok.inj bindings)
          · next linked =>
              refine linkedBindings_bound (by simpa using linked) ?_ bindings
              intro ref among
              obtain ⟨row, member, rfl⟩ := List.mem_map.mp among
              exact range rows found row (List.mem_of_mem_filter member)
      · exact namedBindings_bound (Except.ok.inj bindings)

end Bindings

section Commits
open Switch (GitError)
variable {repo : HookRepo} {config : Except GitError RawOutput}

theorem checkMarker_valid {checked : Bytes} (accepted : checkMarker marker = .ok checked) :
    ValidMarker checked := by
  simp only [checkMarker, bind_eq_ok, refuse_eq_ok, pure_eq, Except.ok.injEq, not_or] at accepted
  obtain ⟨_, _, _, shape, rfl⟩ := accepted
  exact ⟨shape.1, shape.2⟩

theorem commentMarker_valid (accepted : commentMarker config = .ok marker) : ValidMarker marker := by
  simp only [commentMarker, bind_eq_ok, pure_eq] at accepted
  obtain ⟨output, _, read⟩ := accepted
  split at read
  · cases read
    exact ⟨by decide, by decide⟩
  · simp only [bind_eq_ok] at read
    obtain ⟨_, _, _, _, _, _, checked⟩ := read
    exact checkMarker_valid checked

def Settled (repo : HookRepo) (bytes : Bytes) : Prop :=
  ∀ write source ids after, prepareCommitMsg repo write bytes source = .ok (appendedReport ids, after) →
    commitMsg repo after = .ok .valid ∧
      ∀ write' source', ∃ reason,
        prepareCommitMsg repo write' after source' = .ok (.noop .prepareCommitMsg reason, after)

theorem prepareCommitMsg_appended {write : Except GitError Unit} {source : Option String} {appended : List Nat}
    {after : Bytes} (prepared : prepareCommitMsg repo write bytes source = .ok (appendedReport appended, after))
    (bound : boundIssueIds repo = .ok (some ids)) (marked : commentMarker repo.commentConfig = .ok marker) :
    (Message.new bytes marker).references = [] ∧ after = (Message.new bytes marker).insertMany ids := by
  simp only [prepareCommitMsg, bound, marked, ok_bind, pure_eq] at prepared
  split at prepared
  · cases prepared
  · split at prepared
    · cases prepared
    · next none =>
        simp only [bind_eq_ok] at prepared
        obtain ⟨_, _, result⟩ := prepared
        cases result
        exact ⟨not_not.mp none, rfl⟩

theorem refuseDuplicates_ok {message : Message} (once : ∀ id ∈ ids, message.generatedCount id ≤ 1) :
    refuseDuplicates message ids = .ok () := by
  induction ids with
  | nil => rfl
  | cons id ids ih =>
      have single := once id (by simp)
      rw [refuseDuplicates, refuse_of_not (by omega), ok_bind]
      exact ih fun other among => once other (by simp [among])

theorem settled_of_findable (bound : boundIssueIds repo = .ok (some ids)) (shape : Bound ids)
    (marked : commentMarker repo.commentConfig = .ok marker) (findable : Findable bytes marker ids) :
    Settled repo bytes := by
  intro write source appended after prepared
  obtain ⟨none, rfl⟩ := prepareCommitMsg_appended prepared bound marked
  have found := (foundAgain_iff (commentMarker_valid marked) shape.range).mpr findable
  have references := found.references
  rw [none] at references
  simp only [List.not_mem_nil, not_false_eq_true, decide_true, List.filter_true, List.nil_append] at references
  have members : ∀ id, id ∈ (Message.new ((Message.new bytes marker).insertMany ids) marker).references ↔
      id ∈ ids := by
    intro id
    rw [references, List.mem_eraseDups]
  constructor
  · have conflicts : ((Message.new ((Message.new bytes marker).insertMany ids) marker).references.filter
        (· ∉ ids)) = [] := by
      rw [List.filter_eq_nil_iff]
      intro id among
      simpa using (members id).mp among
    have once : ∀ id ∈ ids,
        (Message.new ((Message.new bytes marker).insertMany ids) marker).generatedCount id ≤ 1 := by
      intro id among
      rw [found.counted id (shape.range id among).2,
        generatedCount_of_no_reference none (shape.range id among).1 (shape.range id among).2,
        List.count_eq_one_of_mem shape.once among]
    simp only [commitMsg, bound, marked, ok_bind, conflicts]
    rw [refuse_of_not (by simp), ok_bind, refuseDuplicates_ok once]
    rfl
  · intro write' source'
    have some : (Message.new ((Message.new bytes marker).insertMany ids) marker).references ≠ [] := by
      obtain ⟨id, among⟩ := List.exists_mem_of_ne_nil ids shape.some
      exact List.ne_nil_of_mem ((members id).mpr among)
    simp only [prepareCommitMsg, bound, marked, ok_bind, if_pos some, pure_eq]
    split
    · exact ⟨_, rfl⟩
    · exact ⟨_, rfl⟩

/-- Inserted trailers are found again, and the hooks agree on them, exactly where neither the marker
nor a scissors line hides them. -/
theorem inserted_references_found (accepted : commentMarker config = .ok marker) (range : InRange ids)
    (bytes : Bytes) :
    (FoundAgain bytes marker ids ∧
      ∀ repo : HookRepo, repo.commentConfig = config → RowsInRange repo →
        boundIssueIds repo = .ok (some ids) → Settled repo bytes) ↔ Findable bytes marker ids := by
  have valid := commentMarker_valid accepted
  constructor
  · intro ⟨found, _⟩
    exact (foundAgain_iff valid range).mp found
  · intro findable
    refine ⟨(foundAgain_iff valid range).mpr findable, ?_⟩
    intro repo same rows bound
    exact settled_of_findable bound (boundIssueIds_bound rows bound) (by rw [same]; exact accepted) findable

theorem plain_marker_found : FoundAgain (ascii "subject\n") (ascii "#") [9] ∧
    ∀ repo : HookRepo, repo.commentConfig = .ok ⟨1, []⟩ → RowsInRange repo →
      boundIssueIds repo = .ok (some [9]) → Settled repo (ascii "subject\n") :=
  (@inserted_references_found _ _ (.ok ⟨1, []⟩) rfl (by simp [InRange]) (ascii "subject\n")).mpr
    (Or.inr ⟨by decide, by decide⟩)

-- A marker that begins a trailer, and a scissors line with a lone carriage return at the end.
theorem trailers_hidden :
    (commentMarker (.ok ⟨0, ascii "core.commentchar\nR" ++ [0]⟩) = .ok (ascii "R") ∧
      ¬FoundAgain (ascii "subject\n") (ascii "R") [9]) ∧
    ¬FoundAgain (ascii "#" ++ scissors ++ [cr]) (ascii "#") [9] := by
  refine ⟨⟨rfl, ?_⟩, ?_⟩
  · intro found
    exact absurd (found.counted 9 (by decide)) (by decide)
  · intro found
    exact absurd (found.counted 9 (by decide)) (by decide)

end Commits

end Phasegent.Hooks
