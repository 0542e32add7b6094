import Phasegent.Lease.Db
import Phasegent.Task.Adoption

namespace Phasegent.Task
open Fallible Interleaving Sql Phasegent.Lease

def TaskOf (tables : TaskTables) (slot : Slot) (taskId : Int) : Prop :=
  ∃ binding ∈ tables.bindings, binding.taskId = taskId ∧ binding.provider = slot.provider ∧
    binding.project = slot.project ∧
    Text.parseU64 binding.externalId.toList = Text.parseU64 slot.externalId.toList

structure RowSound (tables : TaskTables) (row : LinkRow) : Prop where
  number : ∃ n : Nat, 0 < n ∧ n < 2 ^ 63 ∧ row.externalId = toString n ∧ row.issueNumber = n
  task : ∀ taskId, row.taskId = some taskId → TaskOf tables row.slot taskId

/-- The keys of the tables, and rows that agree with the tasks they reference. -/
structure Sound (tables : TaskTables) : Prop where
  ids : (tables.bindings.map (·.taskId)).Nodup
  keys : (tables.bindings.map bindingKey).Nodup
  slots : (tables.links.map (·.slot)).Nodup
  rows : ∀ row ∈ tables.links, RowSound tables row

structure Later (before after : TaskTables) : Prop where
  bindings : ∀ binding ∈ before.bindings, binding ∈ after.bindings
  memberships : ∀ member ∈ before.memberships, member ∈ after.memberships
  links : ∀ row ∈ before.links, ∃ row' ∈ after.links, row'.slot = row.slot ∧
    ∀ taskId, row.taskId = some taskId → row'.taskId = some taskId

def Linked (tables : TaskTables) (slot : Slot) : Prop :=
  ∃ row ∈ tables.links, row.slot = slot ∧ row.status = .linked

/-- The arguments of a statement agree with each other and with the tables, and a task reference is
written only where none, or the same one, stands. -/
def Statement.Agrees (tables : TaskTables) : Statement → Prop
  | .insertLink slot issueNumber _ _ | .relink slot issueNumber _ _ =>
      slot.externalId = toString issueNumber ∧ issueNumber < 2 ^ 64
  | .attachTask slot taskId => TaskOf tables slot taskId ∧
      ∀ row ∈ tables.links, row.slot = slot → row.taskId = none ∨ row.taskId = some taskId
  | _ => True

section Order

theorem Later.refl (tables : TaskTables) : Later tables tables :=
  ⟨fun _ => id, fun _ => id, fun row member => ⟨row, member, rfl, fun _ => id⟩⟩

theorem Later.trans {a b c : TaskTables} (first : Later a b) (second : Later b c) : Later a c where
  bindings binding member := second.bindings binding (first.bindings binding member)
  memberships row member := second.memberships row (first.memberships row member)
  links row member := by
    obtain ⟨row', member', slot, kept⟩ := first.links row member
    obtain ⟨row'', member'', slot', kept'⟩ := second.links row' member'
    exact ⟨row'', member'', slot'.trans slot, fun taskId given => kept' taskId (kept taskId given)⟩

theorem TaskOf.later {before after : TaskTables} {slot : Slot} {taskId : Int}
    (task : TaskOf before slot taskId) (later : Later before after) : TaskOf after slot taskId := by
  obtain ⟨binding, member, rest⟩ := task
  exact ⟨binding, later.bindings binding member, rest⟩

end Order

section Rows
variable {tables tables' : TaskTables} {slot : Slot}

theorem row?_some {row : LinkRow} (found : tables.row? slot = some row) :
    row ∈ tables.links ∧ row.slot = slot :=
  ⟨List.mem_of_find?_eq_some found, by simpa using List.find?_some found⟩

theorem row?_none (missing : tables.row? slot = none) : ∀ row ∈ tables.links, row.slot ≠ slot := by
  simpa [TaskTables.row?] using missing

theorem Sound.unique (sound : Sound tables) {a b : LinkRow} (first : a ∈ tables.links)
    (second : b ∈ tables.links) (same : a.slot = b.slot) : a = b :=
  List.inj_on_of_nodup_map sound.slots first second same

section Updates
variable {set : LinkRow → LinkRow}

theorem updateLink_later (slots : ∀ row, (set row).slot = row.slot)
    (tasks : ∀ row ∈ tables.links, row.slot = slot →
      ∀ taskId, row.taskId = some taskId → (set row).taskId = some taskId) :
    Later tables (tables.updateLink slot set) where
  bindings _ := id
  memberships _ := id
  links row member := by
    refine ⟨_, mem_update.mpr ⟨row, member, rfl⟩, ?_, ?_⟩
    · split
      · exact slots row
      · rfl
    · intro taskId given
      split
      · next selected => exact tasks row member (by simpa using selected) taskId given
      · exact given

theorem updateLink_sound (sound : Sound tables) (slots : ∀ row, (set row).slot = row.slot)
    (rows : ∀ row ∈ tables.links, row.slot = slot → RowSound tables (set row)) :
    Sound (tables.updateLink slot set) where
  ids := sound.ids
  keys := sound.keys
  slots := by
    rw [TaskTables.updateLink, map_update slots]
    exact sound.slots
  rows row member := by
    have kept : ∀ row', RowSound tables row' → RowSound (tables.updateLink slot set) row' :=
      fun _ holds => ⟨holds.number, holds.task⟩
    obtain ⟨old, inside, rfl⟩ := mem_update.mp member
    split
    · next selected => exact kept _ (rows old inside (by simpa using selected))
    · exact kept _ (sound.rows old inside)

end Updates

theorem lt_nextTaskId {binding : BindingRow} (member : binding ∈ tables.bindings) :
    binding.taskId < tables.nextTaskId := by
  have bounded : ∀ rows : List BindingRow, binding ∈ rows →
      binding.taskId ≤ (rows.map (·.taskId)).foldr max 0 := by
    intro rows inside
    induction rows with
    | nil => cases inside
    | cons first rest ih =>
        rw [List.map_cons, List.foldr_cons]
        rcases List.mem_cons.mp inside with rfl | later
        · exact le_max_left _ _
        · exact (ih later).trans (le_max_right _ _)
  have bound := bounded _ member
  unfold TaskTables.nextTaskId
  omega

theorem keys_iff {key : TaskKey} {row : BindingRow} :
    key.keys row ↔ bindingKey row = (key.provider, key.inst, key.project, key.externalId) := by
  simp [TaskKey.keys, bindingKey, and_assoc]

theorem insertBinding_kept (sound : Sound tables) {key : TaskKey} {now : Int}
    (inserted : tables.insertBinding key now = .ok tables') :
    Sound tables' ∧ Later tables tables' ∧ tables'.links = tables.links ∧
      ∃ row ∈ tables'.bindings, key.keys row := by
  simp only [TaskTables.insertBinding, bind_eq_ok, refuse_eq_ok] at inserted
  obtain ⟨-, -, stored⟩ := inserted
  split at stored
  · next present =>
      cases stored
      exact ⟨sound, .refl tables, rfl, by simpa using present⟩
  · next absent =>
      cases stored
      have grown : Later tables { tables with
          bindings := tables.bindings ++ [key.row tables.nextTaskId now] } :=
        ⟨fun _ member => List.mem_append_left _ member, fun _ => id,
          fun row member => ⟨row, member, rfl, fun _ => id⟩⟩
      refine ⟨⟨?_, ?_, sound.slots, ?_⟩, grown, rfl, _,
        List.mem_append_right _ (List.mem_singleton_self _), ?_⟩
      · rw [List.map_append, List.map_singleton]
        apply List.Nodup.append sound.ids (List.nodup_singleton _)
        intro taskId old new
        obtain ⟨binding, member, rfl⟩ := List.mem_map.mp old
        have fresh := lt_nextTaskId member
        simp only [List.mem_singleton, TaskKey.row] at new
        omega
      · rw [List.map_append, List.map_singleton]
        apply List.Nodup.append sound.keys (List.nodup_singleton _)
        intro named old new
        obtain ⟨binding, member, rfl⟩ := List.mem_map.mp old
        refine absent (List.any_eq_true.mpr ⟨binding, member, keys_iff.mpr ?_⟩)
        simpa [TaskKey.row, bindingKey] using new
      · intro row member
        have holds := sound.rows row member
        exact ⟨holds.number, fun taskId given => (holds.task taskId given).later grown⟩
      · simp [TaskKey.keys, TaskKey.row]

theorem insertMembership_kept (sound : Sound tables) {repoKey : String} {taskId now : Int}
    (inserted : tables.insertMembership repoKey taskId now = .ok tables') :
    Sound tables' ∧ Later tables tables' ∧ tables'.links = tables.links ∧
      ∃ member ∈ tables'.memberships, member.repoKey = repoKey ∧ member.taskId = taskId := by
  simp only [TaskTables.insertMembership, bind_eq_ok, refuse_eq_ok] at inserted
  obtain ⟨-, -, stored⟩ := inserted
  split at stored
  · next present =>
      cases stored
      exact ⟨sound, .refl tables, rfl, by simpa using present⟩
  · cases stored
    refine ⟨⟨sound.ids, sound.keys, sound.slots, fun row member => ?_⟩, ⟨fun _ => id,
      fun _ member => List.mem_append_left _ member,
      fun row member => ⟨row, member, rfl, fun _ => id⟩⟩, rfl,
      _, List.mem_append_right _ (List.mem_singleton_self _), rfl, rfl⟩
    have holds := sound.rows row member
    exact ⟨holds.number, holds.task⟩

section Links
variable {issueNumber : Nat} {source : String} {now : Int}

theorem asI64_positive (positive : 0 < asI64 issueNumber) (unsigned : issueNumber < 2 ^ 64) :
    0 < issueNumber ∧ issueNumber < 2 ^ 63 ∧ asI64 issueNumber = issueNumber := by
  unfold asI64 at *
  split at positive
  · next small =>
      rw [if_pos small]
      omega
  · omega

theorem insertLink_kept (sound : Sound tables) (agrees : slot.externalId = toString issueNumber)
    (unsigned : issueNumber < 2 ^ 64)
    (inserted : tables.insertLink slot issueNumber source now = .ok tables') :
    Sound tables' ∧ Later tables tables' ∧
      tables' = { tables with
        links := tables.links ++ [TaskTables.newLink slot issueNumber source now] } := by
  simp only [TaskTables.insertLink, bind_eq_ok, refuse_eq_ok, Fallible.pure_eq, Except.ok.injEq,
    Bool.not_eq_true, Option.isSome_eq_false_iff, Option.isNone_iff_eq_none] at inserted
  obtain ⟨-, checked, -, absent, rfl⟩ := inserted
  have fresh := row?_none absent
  obtain ⟨positive, small, number⟩ := asI64_positive (by omega) unsigned
  refine ⟨⟨sound.ids, sound.keys, ?_, ?_⟩, ⟨fun _ => id, fun _ => id, ?_⟩, rfl⟩
  · rw [List.map_append, List.map_singleton]
    apply List.Nodup.append sound.slots (List.nodup_singleton _)
    intro named old new
    obtain ⟨row, member, rfl⟩ := List.mem_map.mp old
    exact fresh row member (List.mem_singleton.mp new)
  · intro row member
    rcases List.mem_append.mp member with old | new
    · exact ⟨(sound.rows row old).number, (sound.rows row old).task⟩
    · obtain rfl := List.mem_singleton.mp new
      exact ⟨⟨issueNumber, positive, small, agrees, number⟩, by rintro _ ⟨⟩⟩
  · exact fun row member => ⟨row, List.mem_append_left _ member, rfl, fun _ => id⟩

theorem relink_kept (sound : Sound tables) (agrees : slot.externalId = toString issueNumber)
    (unsigned : issueNumber < 2 ^ 64)
    (relinked : tables.relink slot issueNumber source now = .ok tables') :
    Sound tables' ∧ Later tables tables' ∧
      tables' = tables.updateLink slot (·.relinked issueNumber source now) := by
  simp only [TaskTables.relink, bind_eq_ok, refuse_eq_ok, Fallible.pure_eq, Except.ok.injEq]
    at relinked
  obtain ⟨-, checked, rfl⟩ := relinked
  refine ⟨updateLink_sound sound (fun _ => rfl) ?_, updateLink_later (fun _ => rfl)
    (fun _ _ _ _ => id), rfl⟩
  rintro row member rfl
  have present : (tables.row? row.slot).isSome := by
    cases found : tables.row? row.slot with
    | none => exact absurd rfl (row?_none found row member)
    | some _ => rfl
  obtain ⟨positive, small, number⟩ := asI64_positive (by
    by_contra low
    exact checked ⟨present, .inl (by omega)⟩) unsigned
  exact ⟨⟨issueNumber, positive, small, agrees, number⟩, (sound.rows row member).task⟩

theorem attachTask_kept {taskId : Int} (sound : Sound tables) (task : TaskOf tables slot taskId)
    (vacant : ∀ row ∈ tables.links, row.slot = slot →
      row.taskId = none ∨ row.taskId = some taskId) :
    Sound (tables.attachTask slot taskId) ∧ Later tables (tables.attachTask slot taskId) := by
  constructor
  · refine updateLink_sound sound (fun _ => rfl) ?_
    rintro row member rfl
    refine ⟨(sound.rows row member).number, ?_⟩
    rintro _ ⟨⟩
    exact task
  · refine updateLink_later (fun _ => rfl) ?_
    intro row member named other given
    rcases vacant row member named with none | same
    · simp [none] at given
    · exact same.symm.trans given

theorem detachLink_kept {reason : String} (sound : Sound tables)
    (detached : tables.detachLink slot reason now = .ok tables') :
    Sound tables' ∧ Later tables tables' ∧ tables' = tables.updateLink slot (·.detached reason now) := by
  simp only [TaskTables.detachLink, bind_eq_ok, refuse_eq_ok, Fallible.pure_eq, Except.ok.injEq]
    at detached
  obtain ⟨-, -, rfl⟩ := detached
  refine ⟨updateLink_sound sound (fun _ => rfl) ?_, updateLink_later (fun _ => rfl)
    (fun _ _ _ _ => id), rfl⟩
  intro row member _
  exact ⟨(sound.rows row member).number, (sound.rows row member).task⟩

end Links

theorem TaskTables.written_cases (tables : TaskTables) (result : Except String TaskTables) :
    (∃ tables', result = .ok tables' ∧ tables.written result = (.ok (), tables')) ∨
      (tables.written result).2 = tables := by
  cases result with
  | ok tables' => exact .inl ⟨tables', rfl, rfl⟩
  | error text => exact .inr rfl

theorem TaskTables.written_ok {tables : TaskTables} {result : Except String TaskTables} {u : Unit}
    (wrote : (tables.written result).1 = .ok u) : result = .ok (tables.written result).2 := by
  cases result with
  | ok tables' => rfl
  | error text => cases wrote

theorem Statement.kept {urls : UrlLibrary} (sound : Sound tables) {s : Statement}
    (agrees : s.Agrees tables) :
    Sound (s.perform urls tables).2 ∧ Later tables (s.perform urls tables).2 := by
  have unchanged : Sound tables ∧ Later tables tables := ⟨sound, .refl tables⟩
  have wrote : ∀ result : Except String TaskTables,
      (∀ tables', result = .ok tables' → Sound tables' ∧ Later tables tables') →
        Sound (tables.written result).2 ∧ Later tables (tables.written result).2 := by
    intro result kept
    rcases tables.written_cases result with ⟨tables', ok, wrote⟩ | same
    · rw [wrote]
      exact kept tables' ok
    · rw [same]
      exact unchanged
  cases s with
  | selectBinding | bindingsForRepoNumber | countBindings | linkStatus | linkTask
  | issuesForBranch => exact unchanged
  | insertBinding key now =>
      exact wrote _ fun _ inserted =>
        ⟨(insertBinding_kept sound inserted).1, (insertBinding_kept sound inserted).2.1⟩
  | insertMembership repoKey taskId now =>
      exact wrote _ fun _ inserted =>
        ⟨(insertMembership_kept sound inserted).1, (insertMembership_kept sound inserted).2.1⟩
  | insertLink slot issueNumber source now =>
      exact wrote _ fun _ inserted =>
        have kept := insertLink_kept sound agrees.1 agrees.2 inserted
        ⟨kept.1, kept.2.1⟩
  | relink slot issueNumber source now =>
      exact wrote _ fun _ relinked =>
        have kept := relink_kept sound agrees.1 agrees.2 relinked
        ⟨kept.1, kept.2.1⟩
  | attachTask slot taskId => exact attachTask_kept sound agrees.1 agrees.2
  | detachLink slot reason now =>
      exact wrote _ fun _ detached =>
        ⟨(detachLink_kept sound detached).1, (detachLink_kept sound detached).2.1⟩

end Rows

end Phasegent.Task
