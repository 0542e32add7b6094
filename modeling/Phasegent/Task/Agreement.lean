import Phasegent.Task.Canonical
import Phasegent.Task.Records

namespace Phasegent.Task
open Fallible Interleaving Sql Phasegent.Lease

section Relations

/-- What a linking transaction may do: it goes on from the tables and detaches nothing. -/
structure Linking (before after : TaskTables) : Prop where
  bindings : ∀ binding ∈ before.bindings, binding ∈ after.bindings
  memberships : ∀ member ∈ before.memberships, member ∈ after.memberships
  links : ∀ row ∈ before.links, ∃ row' ∈ after.links, row'.slot = row.slot ∧
    (∀ taskId, row.taskId = some taskId → row'.taskId = some taskId) ∧
    (row.status = .linked → row'.status = .linked)

structure Detaching (before after : TaskTables) : Prop where
  bindings : after.bindings = before.bindings
  memberships : after.memberships = before.memberships
  links : ∃ f : LinkRow → LinkRow, after.links = before.links.map f ∧ ∀ row,
    (f row).slot = row.slot ∧ (f row).taskId = row.taskId ∧
      ((f row).status = .linked → row.status = .linked)

theorem Linking.refl (tables : TaskTables) : Linking tables tables :=
  ⟨fun _ => id, fun _ => id, fun row member => ⟨row, member, rfl, fun _ => id, id⟩⟩

theorem Linking.trans {a b c : TaskTables} (first : Linking a b) (second : Linking b c) :
    Linking a c where
  bindings binding member := second.bindings binding (first.bindings binding member)
  memberships row member := second.memberships row (first.memberships row member)
  links row member := by
    obtain ⟨row', member', slot, task, status⟩ := first.links row member
    obtain ⟨row'', member'', slot', task', status'⟩ := second.links row' member'
    exact ⟨row'', member'', slot'.trans slot, fun taskId given => task' taskId (task taskId given),
      fun linked => status' (status linked)⟩

theorem Linking.later {before after : TaskTables} (linking : Linking before after) :
    Later before after where
  bindings := linking.bindings
  memberships := linking.memberships
  links row member := by
    obtain ⟨row', member', slot, task, -⟩ := linking.links row member
    exact ⟨row', member', slot, task⟩

theorem Linking.of_later {before after : TaskTables} (later : Later before after)
    (same : after.links = before.links) : Linking before after where
  bindings := later.bindings
  memberships := later.memberships
  links row member := ⟨row, same ▸ member, rfl, fun _ => id, id⟩

theorem Detaching.refl (tables : TaskTables) : Detaching tables tables :=
  ⟨rfl, rfl, id, by simp, fun _ => ⟨rfl, rfl, id⟩⟩

theorem Detaching.trans {a b c : TaskTables} (first : Detaching a b) (second : Detaching b c) :
    Detaching a c := by
  obtain ⟨f, mapped, kept⟩ := first.links
  obtain ⟨g, mapped', kept'⟩ := second.links
  refine ⟨second.bindings.trans first.bindings, second.memberships.trans first.memberships,
    g ∘ f, by rw [mapped', mapped, List.map_map], fun row => ?_⟩
  obtain ⟨slot, task, status⟩ := kept row
  obtain ⟨slot', task', status'⟩ := kept' (f row)
  exact ⟨slot'.trans slot, task'.trans task, fun linked => status (status' linked)⟩

theorem Detaching.later {before after : TaskTables} (detaching : Detaching before after) :
    Later before after := by
  obtain ⟨f, mapped, kept⟩ := detaching.links
  refine ⟨fun _ => detaching.bindings ▸ id, fun _ => detaching.memberships ▸ id, fun row member => ?_⟩
  refine ⟨f row, mapped ▸ List.mem_map_of_mem member, (kept row).1, fun taskId given => ?_⟩
  rw [(kept row).2.1, given]

theorem Detaching.unlinked {before after : TaskTables} {slot : Slot}
    (detaching : Detaching before after) (unlinked : ¬Linked before slot) : ¬Linked after slot := by
  obtain ⟨f, mapped, kept⟩ := detaching.links
  rintro ⟨row, member, named, linked⟩
  rw [mapped] at member
  obtain ⟨old, inside, rfl⟩ := List.mem_map.mp member
  exact unlinked ⟨old, inside, (kept old).1.symm.trans named, (kept old).2.2 linked⟩

end Relations

section Statements
variable {tables : TaskTables} {slot : Slot} {set : LinkRow → LinkRow}

theorem updateLink_linking (slots : ∀ row, (set row).slot = row.slot)
    (tasks : ∀ row ∈ tables.links, row.slot = slot →
      ∀ taskId, row.taskId = some taskId → (set row).taskId = some taskId)
    (status : ∀ row, row.status = .linked → (set row).status = .linked) :
    Linking tables (tables.updateLink slot set) where
  bindings _ := id
  memberships _ := id
  links row member := by
    refine ⟨_, mem_update.mpr ⟨row, member, rfl⟩, ?_⟩
    split
    · next selected =>
        exact ⟨slots row, tasks row member (by simpa using selected), status row⟩
    · exact ⟨rfl, fun _ => id, id⟩

theorem updateLink_detaching (slots : ∀ row, (set row).slot = row.slot)
    (tasks : ∀ row, (set row).taskId = row.taskId) (status : ∀ row, (set row).status ≠ .linked) :
    Detaching tables (tables.updateLink slot set) where
  bindings := rfl
  memberships := rfl
  links := by
    refine ⟨_, rfl, fun row => ?_⟩
    split
    · exact ⟨slots row, tasks row, fun linked => absurd linked (status row)⟩
    · exact ⟨rfl, rfl, id⟩

theorem mem_updateLink {row : LinkRow} (member : row ∈ tables.links) (named : row.slot = slot) :
    set row ∈ (tables.updateLink slot set).links :=
  mem_update.mpr ⟨row, member, by simp [named]⟩

theorem row?_of_mem (sound : Sound tables) {row : LinkRow} (member : row ∈ tables.links) :
    tables.row? row.slot = some row := by
  cases found : tables.row? row.slot with
  | none => exact absurd rfl (row?_none found row member)
  | some row' =>
      obtain ⟨member', named⟩ := row?_some found
      rw [sound.unique member' member named]

theorem linked_iff (sound : Sound tables) :
    Linked tables slot ↔ (tables.row? slot).map (·.status) = some .linked := by
  constructor
  · rintro ⟨row, member, rfl, status⟩
    rw [row?_of_mem sound member, Option.map_some, status]
  · intro found
    obtain ⟨row, found, status⟩ := Option.map_eq_some_iff.mp found
    exact ⟨row, (row?_some found).1, (row?_some found).2, status⟩

end Statements

def LinkedTo (tables : TaskTables) (slot : Slot) (taskId : Option Int) : Prop :=
  ∃ row ∈ tables.links, row.slot = slot ∧ row.status = .linked ∧
    ∀ task, taskId = some task → row.taskId = some task

theorem LinkedTo.linking {before after : TaskTables} {slot : Slot} {taskId : Option Int}
    (linked : LinkedTo before slot taskId) (linking : Linking before after) :
    LinkedTo after slot taskId := by
  obtain ⟨row, member, rfl, status, references⟩ := linked
  obtain ⟨row', member', named, task, kept⟩ := linking.links row member
  exact ⟨row', member', named, kept status, fun t given => task t (references t given)⟩

section Transactions
variable {urls : UrlLibrary} {start : TaskTables}

def LinkingFrom (start tables : TaskTables) : Prop := Sound tables ∧ Linking start tables

theorem within_linkStatus {P : TaskTables → Prop} (slot : Slot) (rename : String → String) :
    Within (Statement.perform urls) P
      (request (.linkStatus slot) (·.mapError rename) : StoreM String (Option LinkStatus))
      fun status tables => P tables ∧ (tables.row? slot).map (·.status) = status := by
  apply within_request
  intro tables status pre answer
  simp only [Statement.perform, mapError_eq_ok, Except.ok.injEq] at answer
  exact ⟨pre, answer⟩

theorem within_link {params : LinkParams}
    (agrees : params.issue.externalId = toString params.issueNumber)
    (unsigned : params.issueNumber < 2 ^ 64) :
    Within (Statement.perform urls) (LinkingFrom start) (link params)
      fun _ tables => LinkingFrom start tables ∧ Linked tables params.slot := by
  unfold link
  apply within_bind within_fromExcept
  intro _
  apply within_bind (within_linkStatus params.slot _)
  intro status
  cases status with
  | none =>
      apply within_bind (M := fun _ tables => LinkingFrom start tables ∧ Linked tables params.slot)
      · apply within_request
        rintro tables _ ⟨⟨_, sound, linking⟩, answer⟩ wrote
        simp only [Statement.perform, mapError_eq_ok] at wrote ⊢
        obtain ⟨sound', -, same⟩ := insertLink_kept sound agrees unsigned (TaskTables.written_ok wrote)
        refine ⟨⟨sound', linking.trans ?_⟩, ?_⟩
        · rw [same]
          exact ⟨fun _ => id, fun _ => id,
            fun row member => ⟨row, List.mem_append_left _ member, rfl, fun _ => id, id⟩⟩
        · rw [same]
          exact ⟨_, List.mem_append_right _ (List.mem_singleton_self _), rfl, rfl⟩
      · exact fun _ => within_pure fun _ => id
  | some status =>
      cases status with
      | linked =>
          apply within_pure
          rintro tables ⟨⟨_, sound, linking⟩, answer⟩
          exact ⟨⟨sound, linking⟩, (linked_iff sound).mpr answer⟩
      | detached =>
          apply within_bind (M := fun _ tables => LinkingFrom start tables ∧ Linked tables params.slot)
          · apply within_request
            rintro tables _ ⟨⟨_, sound, linking⟩, answer⟩ wrote
            simp only [Statement.perform, mapError_eq_ok] at wrote ⊢
            obtain ⟨sound', -, same⟩ := relink_kept sound agrees unsigned (TaskTables.written_ok wrote)
            obtain ⟨row, found, -⟩ := Option.map_eq_some_iff.mp answer
            obtain ⟨member, named⟩ := row?_some found
            refine ⟨⟨sound', linking.trans ?_⟩, ?_⟩
            · rw [same]
              exact updateLink_linking (fun _ => rfl) (fun _ _ _ _ => id) fun _ _ => rfl
            · rw [same]
              exact ⟨_, mem_updateLink member named, named, rfl⟩
          · exact fun _ => within_pure fun _ => id

theorem within_attachReference {slot : Slot} {taskId : Int} (task : TaskOf start slot taskId) :
    Within (Statement.perform urls) (fun tables => LinkingFrom start tables ∧ Linked tables slot)
      (attachReference slot taskId)
      fun _ tables => LinkingFrom start tables ∧ LinkedTo tables slot (some taskId) := by
  unfold attachReference
  apply within_bind (M := fun reference tables => (LinkingFrom start tables ∧ Linked tables slot) ∧
    (tables.row? slot).map (·.taskId) = reference)
  · apply within_request
    intro tables reference pre answer
    simp only [Statement.perform, mapError_eq_ok, Except.ok.injEq] at answer
    exact ⟨pre, answer⟩
  intro reference
  cases reference with
  | none => exact within_throw
  | some task =>
      cases task with
      | some current =>
          apply within_fromExcept.weaken
          rintro _ tables ⟨same, ⟨⟨sound, linking⟩, row, member, named, status⟩, answer⟩
          obtain rfl : current = taskId := by simpa using same
          obtain rfl := named
          rw [row?_of_mem sound member, Option.map_some, Option.some.injEq] at answer
          exact ⟨⟨sound, linking⟩, row, member, rfl, status, by simp [answer]⟩
      | none =>
          apply within_request
          rintro tables _ ⟨⟨⟨sound, linking⟩, row, member, named, status⟩, answer⟩ _
          obtain rfl := named
          rw [row?_of_mem sound member, Option.map_some, Option.some.injEq] at answer
          have vacant : ∀ other ∈ tables.links, other.slot = row.slot → other.taskId = none := by
            intro other member' same
            rw [sound.unique member' member same, answer]
          refine ⟨⟨(attachTask_kept sound (task.later linking.later) fun other member' same =>
            .inl (vacant other member' same)).1, linking.trans ?_⟩, ?_⟩
          · refine updateLink_linking (fun _ => rfl) ?_ fun _ => id
            intro other member' same t given
            simp [vacant other member' same] at given
          · refine ⟨_, mem_updateLink member rfl, rfl, status, ?_⟩
            simp

theorem within_linkWithTask {params : LinkParams} {taskId : Option Int}
    (agrees : params.issue.externalId = toString params.issueNumber)
    (unsigned : params.issueNumber < 2 ^ 64)
    (task : ∀ t, taskId = some t → TaskOf start params.slot t) :
    Within (Statement.perform urls) (LinkingFrom start) (linkWithTask params taskId)
      fun _ tables => LinkingFrom start tables ∧ LinkedTo tables params.slot taskId := by
  unfold linkWithTask
  apply within_bind (within_link agrees unsigned)
  intro outcome
  match taskId with
  | none =>
      apply within_pure
      intro tables ⟨pre, row, member, named, status⟩
      exact ⟨pre, row, member, named, status, by simp⟩
  | some t =>
      apply within_bind (within_attachReference (task t rfl))
      exact fun _ => within_pure fun _ => id

theorem within_detach {repoKey branch reason : String} {issue : IssueKey} {now : Int} :
    Within (Statement.perform urls) (fun tables => Sound tables ∧ Detaching start tables)
      (detach repoKey branch issue reason now)
      fun _ tables => (Sound tables ∧ Detaching start tables) ∧
        ¬Linked tables (issue.slot repoKey branch) := by
  unfold detach
  apply within_bind within_fromExcept
  intro _
  apply within_bind (within_linkStatus (issue.slot repoKey branch) _)
  intro status
  match status with
  | none =>
      apply within_pure
      intro tables ⟨⟨_, pre⟩, answer⟩
      exact ⟨pre, fun linked => by simp [(linked_iff pre.1).mp linked] at answer⟩
  | some .detached =>
      apply within_pure
      intro tables ⟨⟨_, pre⟩, answer⟩
      exact ⟨pre, fun linked => by simp [(linked_iff pre.1).mp linked] at answer⟩
  | some .linked =>
      apply within_bind (M := fun _ tables => (Sound tables ∧ Detaching start tables) ∧
        ¬Linked tables (issue.slot repoKey branch))
      · apply within_request
        intro tables _ ⟨⟨_, sound, detaching⟩, answer⟩ wrote
        simp only [Statement.perform, mapError_eq_ok] at wrote ⊢
        obtain ⟨sound', -, same⟩ := detachLink_kept sound (TaskTables.written_ok wrote)
        refine ⟨⟨sound', detaching.trans ?_⟩, ?_⟩
        · rw [same]
          exact updateLink_detaching (fun _ => rfl) (fun _ => rfl) fun _ => by simp [LinkRow.detached]
        · rw [same]
          rintro ⟨row, member, named, linked⟩
          obtain ⟨old, inside, rfl⟩ := mem_update.mp member
          by_cases selected : old.slot = issue.slot repoKey branch
          · simp [selected, LinkRow.detached] at linked
          · simp [selected] at named
      · exact fun _ => within_pure fun _ => id

theorem keys_of_names {key : TaskKey} {row : BindingRow} {binding : TaskBinding}
    (named : key.keys row) (decoded : decodeBinding urls row = .ok binding) : binding.key = key := by
  have shape := (decodeBinding_ok.mp decoded).2.2.2
  obtain ⟨provider, inst, project, externalId⟩ := key
  simp only [TaskKey.keys, Bool.and_eq_true, beq_iff_eq] at named
  obtain ⟨⟨⟨rfl, rfl⟩, rfl⟩, rfl⟩ := named
  rw [shape]
  rfl

def Stored (urls : UrlLibrary) (tables : TaskTables) (binding : TaskBinding) : Prop :=
  ∃ row ∈ tables.bindings, decodeBinding urls row = .ok binding

theorem within_ensureBindingWith {key : TaskKey} {now : Int} :
    Within (Statement.perform urls) (LinkingFrom start) (ensureBindingWith key now)
      fun binding tables => LinkingFrom start tables ∧ Stored urls tables binding ∧
        binding.key = key := by
  unfold ensureBindingWith
  apply within_bind within_fromExcept
  intro _
  apply within_bind (M := fun _ => LinkingFrom start)
  · apply within_request
    rintro tables _ ⟨_, sound, linking⟩ wrote
    simp only [Statement.perform, mapError_eq_ok] at wrote ⊢
    obtain ⟨sound', later, same, -⟩ := insertBinding_kept sound (TaskTables.written_ok wrote)
    exact ⟨sound', linking.trans (.of_later later same)⟩
  intro _
  apply within_bind (M := fun found tables => LinkingFrom start tables ∧
    tables.selectBinding urls key = .ok found)
  · apply within_request
    intro tables found pre answer
    exact ⟨pre, answer⟩
  intro found
  cases found with
  | none => exact within_throw
  | some binding =>
      apply within_pure
      rintro tables ⟨pre, answer⟩
      unfold TaskTables.selectBinding at answer
      split at answer
      · simp at answer
      · next row found =>
          simp only [bind_eq_ok, Fallible.pure_eq, Except.ok.injEq, Option.some.injEq] at answer
          obtain ⟨_, decoded, rfl⟩ := answer
          exact ⟨pre, ⟨row, List.mem_of_find?_eq_some found, decoded⟩,
            keys_of_names (List.find?_some found) decoded⟩

def Member (tables : TaskTables) (repoKey : String) (taskId : Int) : Prop :=
  ∃ member ∈ tables.memberships, member.repoKey = repoKey ∧ member.taskId = taskId

theorem within_addRepoMembershipWith {repoKey : String} {taskId now : Int} :
    Within (Statement.perform urls) (LinkingFrom start) (addRepoMembershipWith repoKey taskId now)
      fun _ tables => LinkingFrom start tables ∧ Member tables repoKey taskId := by
  unfold addRepoMembershipWith
  apply within_bind within_fromExcept
  intro text
  apply within_bind (within_fromExcept.weaken (M := fun _ tables => LinkingFrom start tables ∧
    text = repoKey) fun _ tables holds => ⟨holds.2.2, validateRepoKey_ok holds.2.1⟩)
  intro _
  apply within_bind within_fromExcept
  intro _
  apply within_bind (M := fun _ tables => LinkingFrom start tables ∧ text = repoKey)
  · exact within_request fun tables _ pre _ => pre.2
  intro _
  apply within_bind within_fromExcept
  intro _
  apply within_request
  intro tables _ ⟨_, ⟨sound, linking⟩, same⟩ wrote
  simp only [Statement.perform, mapError_eq_ok] at wrote ⊢
  obtain ⟨sound', later, links, member⟩ := insertMembership_kept sound (TaskTables.written_ok wrote)
  exact ⟨⟨sound', linking.trans (.of_later later links)⟩, same ▸ member⟩

theorem fromNumber_ok {provider project : String} {number : Nat} {issue : IssueKey}
    (built : IssueKey.fromNumber provider project number = .ok issue) :
    issue = ⟨trimText provider, trimText project, toString number⟩ := by
  simp only [IssueKey.fromNumber, IssueKey.new, bind_eq_ok, Fallible.pure_eq, Except.ok.injEq] at built
  obtain ⟨-, -, -, -, -, -, -, -, rfl⟩ := built
  rw [trimText_toString]

/-- The task is bound, a member of the repository, and the branch's row of its number links to it. -/
def Adopted (urls : UrlLibrary) (repoKey branch : String) (key : TaskKey) (tables : TaskTables) :
    Prop :=
  ∃ binding number, Stored urls tables binding ∧ binding.key = key ∧
    Member tables repoKey binding.taskId ∧ key.externalNumber = some number ∧
    LinkedTo tables ⟨repoKey, branch, key.provider, key.project, toString number⟩ (some binding.taskId)

theorem Stored.later {before after : TaskTables} {binding : TaskBinding}
    (stored : Stored urls before binding) (later : Later before after) : Stored urls after binding := by
  obtain ⟨row, member, decoded⟩ := stored
  exact ⟨row, later.bindings row member, decoded⟩

theorem Member.later {before after : TaskTables} {repoKey : String} {taskId : Int}
    (member : Member before repoKey taskId) (later : Later before after) :
    Member after repoKey taskId := by
  obtain ⟨row, inside, rest⟩ := member
  exact ⟨row, later.memberships row inside, rest⟩

theorem Adopted.linking {before after : TaskTables} {repoKey branch : String} {key : TaskKey}
    (adopted : Adopted urls repoKey branch key before) (linking : Linking before after) :
    Adopted urls repoKey branch key after := by
  obtain ⟨binding, number, stored, named, member, numbered, linked⟩ := adopted
  exact ⟨binding, number, stored.later linking.later, named, member.later linking.later, numbered,
    linked.linking linking⟩

theorem Stored.taskOf {tables : TaskTables} {binding : TaskBinding} {slot : Slot} {number : Nat}
    (stored : Stored urls tables binding) (numbered : binding.key.externalNumber = some number)
    (provider : slot.provider = binding.key.provider) (project : slot.project = binding.key.project)
    (text : slot.externalId = toString number) : TaskOf tables slot binding.taskId := by
  obtain ⟨row, member, decoded⟩ := stored
  have range := Text.parseU64_lt numbered
  have shape := (decodeBinding_ok.mp decoded).2.2.2
  refine ⟨row, member, ?_, ?_, ?_, ?_⟩
  · rw [shape]
    rfl
  · rw [shape, provider]
    rfl
  · rw [shape, project]
    rfl
  · rw [shape, text, Text.parseU64_toString range]
    exact numbered

theorem within_carry (start : TaskTables) {α ε : Type} {p : StoreM ε α} {F : TaskTables → Prop}
    {Q : α → TaskTables → Prop} (kept : ∀ {before after}, Linking before after → F before → F after)
    (within : ∀ here, Sound here → F here → Within (Statement.perform urls) (LinkingFrom here) p
      fun a tables => LinkingFrom here tables ∧ Q a tables) :
    Within (Statement.perform urls) (fun tables => LinkingFrom start tables ∧ F tables) p
      fun a tables => LinkingFrom start tables ∧ F tables ∧ Q a tables := by
  apply Within.of_start
  rintro here ⟨⟨sound, linking⟩, holds⟩
  have began := (within here sound holds).pre (P := (· = here)) (by
    intro tables same
    rw [same]
    exact ⟨sound, .refl here⟩)
  apply began.weaken
  intro a tables ⟨⟨sound', onward⟩, post⟩
  exact ⟨⟨sound', linking.trans onward⟩, kept onward holds, post⟩

theorem within_adoptKey {repoKey branch : String} {now : Int} {key : TaskKey} :
    Within (Statement.perform urls) (LinkingFrom start) (adoptKey repoKey branch now key)
      fun _ tables => LinkingFrom start tables ∧ Adopted urls repoKey branch key tables := by
  unfold adoptKey
  apply within_bind within_fromExcept
  intro number
  apply Within.of_pure
  intro read
  have numbered : key.externalNumber = some number := by
    cases parsed : key.externalNumber with
    | none => simp [parsed] at read
    | some n => simpa [parsed] using read
  apply within_bind (within_renameFailure within_ensureBindingWith)
  intro binding
  apply within_bind (M := fun _ tables => LinkingFrom start tables ∧ Stored urls tables binding ∧
    binding.key = key)
  · exact within_request fun tables _ pre _ => pre
  intro existing
  apply within_bind within_fromExcept
  intro _
  apply Within.of_pure
  intro _
  apply within_bind (within_renameFailure (within_carry start
    (fun linking holds => ⟨holds.1.later linking.later, holds.2⟩)
    fun _ _ _ => within_addRepoMembershipWith))
  intro _
  apply within_bind within_fromExcept
  intro issue
  apply Within.of_pure
  intro built
  simp only [mapError_eq_ok] at built
  have shape := fromNumber_ok built
  have range := Text.parseU64_lt numbered
  have agreed : ∀ here, Sound here →
      ((Stored urls here binding ∧ binding.key = key) ∧ Member here repoKey binding.taskId) →
        Within (Statement.perform urls) (LinkingFrom here)
          (linkWithTask ⟨repoKey, branch, issue, number, "cli-bind", now⟩ (some binding.taskId))
          fun _ tables => LinkingFrom here tables ∧
            LinkedTo tables (issue.slot repoKey branch) (some binding.taskId) := by
    rintro here - ⟨⟨stored, rfl⟩, -⟩
    apply within_linkWithTask
    · rw [shape]
    · exact range
    · rintro _ ⟨⟩
      obtain ⟨row, member, decoded⟩ := stored
      obtain ⟨provider, project⟩ := decodeBinding_trimmed decoded
      exact Stored.taskOf ⟨row, member, decoded⟩ numbered (by rw [shape]; exact provider)
        (by rw [shape]; exact project) (by rw [shape]; rfl)
  have linked := within_carry start (fun linking holds =>
    ⟨⟨holds.1.1.later linking.later, holds.1.2⟩, holds.2.later linking.later⟩) agreed
  apply within_bind (within_renameFailure (linked.pre fun tables holds =>
    ⟨holds.1, ⟨holds.2.1, holds.2.2⟩⟩))
  intro _
  apply within_pure
  rintro tables ⟨pre, ⟨⟨stored, named⟩, member⟩, links⟩
  refine ⟨pre, binding, number, stored, named, member, numbered, ?_⟩
  obtain ⟨row, inside, decoded⟩ := stored
  obtain ⟨provider, project⟩ := decodeBinding_trimmed decoded
  have slot : issue.slot repoKey branch =
      ⟨repoKey, branch, key.provider, key.project, toString number⟩ := by
    rw [shape, ← named, provider, project]
    rfl
  rw [← slot]
  exact links

theorem within_adoptAll {repoKey branch : String} {now : Int} {keys : List TaskKey} :
    Within (Statement.perform urls) (LinkingFrom start) (forEach (adoptKey repoKey branch now) keys)
      fun _ tables => LinkingFrom start tables ∧
        ∀ key ∈ keys, Adopted urls repoKey branch key tables := by
  apply within_forEach
  intro key _ done
  have each : ∀ here, Sound here → (∀ other ∈ done, Adopted urls repoKey branch other here) →
      Within (Statement.perform urls) (LinkingFrom here) (adoptKey repoKey branch now key)
        fun _ tables => LinkingFrom here tables ∧ Adopted urls repoKey branch key tables :=
    fun _ _ _ => within_adoptKey
  have adopted := within_carry start
    (fun linking holds other member => (holds other member).linking linking) each
  exact adopted.weaken fun _ _ post => ⟨post.1, post.2.2, post.2.1⟩

def EntryAgrees (tables : TaskTables) (entry : LinkParams × Option Int) : Prop :=
  entry.1.issue.externalId = toString entry.1.issueNumber ∧ entry.1.issueNumber < 2 ^ 64 ∧
    ∀ taskId ∈ entry.2, TaskOf tables entry.1.slot taskId

theorem within_linkAll {entries : List (LinkParams × Option Int)}
    (agree : ∀ entry ∈ entries, EntryAgrees start entry) :
    Within (Statement.perform urls) (LinkingFrom start) (forEach linkEntry entries)
      fun _ tables => LinkingFrom start tables ∧
        ∀ entry ∈ entries, LinkedTo tables entry.1.slot entry.2 := by
  apply within_forEach
  intro entry member done
  obtain ⟨named, unsigned, task⟩ := agree entry member
  have each : ∀ here, Sound here → ((∀ other ∈ done, LinkedTo here other.1.slot other.2) ∧
      ∀ taskId, entry.2 = some taskId → TaskOf here entry.1.slot taskId) →
        Within (Statement.perform urls) (LinkingFrom here) (linkWithTask entry.1 entry.2)
          fun _ tables => LinkingFrom here tables ∧ LinkedTo tables entry.1.slot entry.2 :=
    fun _ _ holds => within_linkWithTask named unsigned holds.2
  have linked := within_carry start
    (fun linking holds => ⟨fun other inside => (holds.1 other inside).linking linking,
      fun taskId given => (holds.2 taskId given).later linking.later⟩) each
  apply within_bind (linked.pre fun tables pre =>
    ⟨pre.1, pre.2, fun taskId given => (task taskId given).later pre.1.2.later⟩)
  exact fun _ => within_pure fun _ post => ⟨post.1, post.2.2, post.2.1.1⟩

theorem within_detachAll {repoKey branch reason : String} {now : Int}
    {issues : List (IssueKey × Nat)} :
    Within (Statement.perform urls) (fun tables => Sound tables ∧ Detaching start tables)
      (forEach (detachEntry repoKey branch reason now) issues)
      fun _ tables => (Sound tables ∧ Detaching start tables) ∧
        ∀ issue ∈ issues, ¬Linked tables (issue.1.slot repoKey branch) := by
  apply within_forEach
  intro issue _ done
  apply Within.of_start
  rintro here ⟨⟨sound, detaching⟩, earlier⟩
  have detached : Within (Statement.perform urls) (· = here)
      (detach repoKey branch issue.1 reason now) fun _ tables =>
        (Sound tables ∧ Detaching here tables) ∧ ¬Linked tables (issue.1.slot repoKey branch) := by
    apply within_detach.pre
    intro tables same
    rw [same]
    exact ⟨sound, .refl here⟩
  apply within_bind detached
  intro _
  apply within_pure
  intro tables ⟨⟨sound', onward⟩, unlinked⟩
  exact ⟨⟨sound', detaching.trans onward⟩, unlinked,
    fun other inside => onward.unlinked (earlier other inside)⟩

end Transactions

section Steps
variable {urls : UrlLibrary} {tables tables' : TaskTables}

/-- What the statements and the batches of a run have to respect. -/
def TaskOp.Agrees (tables : TaskTables) : TaskOp → Prop
  | .statement s => s.Agrees tables
  | .linkAll entries => ∀ entry ∈ entries, EntryAgrees tables entry
  | _ => True

theorem LinkingFrom.start (sound : Sound tables) : LinkingFrom tables tables := ⟨sound, .refl tables⟩

theorem transaction_kept {α ε : Type} {p : StoreM ε α} {P : TaskTables → Prop}
    {Q : α → TaskTables → Prop} (within : Within (Statement.perform urls) P p Q) (pre : P tables)
    (kept : ∀ a after, Q a after → Sound after ∧ Later tables after) (sound : Sound tables) :
    Sound (transaction (Statement.perform urls) p tables).2 ∧
      Later tables (transaction (Statement.perform urls) p tables).2 := by
  cases ended : (transaction (Statement.perform urls) p tables).1 with
  | ok a => exact kept a _ (within.transaction_ok pre ended)
  | error e =>
      rw [transaction_error ended]
      exact ⟨sound, .refl tables⟩

theorem TaskStep.kept {op : TaskOp} {answer : op.Ret} (sound : Sound tables)
    (agrees : op.Agrees tables) (step : TaskStep urls tables op answer tables') :
    Sound tables' ∧ Later tables tables' := by
  cases step with
  | fault => exact ⟨sound, .refl tables⟩
  | perform =>
      cases op with
      | statement s => exact s.kept sound agrees
      | ensure key now =>
          exact transaction_kept within_ensureBindingWith (.start sound)
            (fun _ _ post => ⟨post.1.1, post.1.2.later⟩) sound
      | addMembership repoKey taskId now =>
          exact transaction_kept within_addRepoMembershipWith (.start sound)
            (fun _ _ post => ⟨post.1.1, post.1.2.later⟩) sound
      | adoptAll repoKey branch keys now =>
          exact transaction_kept within_adoptAll (.start sound)
            (fun _ _ post => ⟨post.1.1, post.1.2.later⟩) sound
      | linkAll entries =>
          exact transaction_kept (within_linkAll agrees) (.start sound)
            (fun _ _ post => ⟨post.1.1, post.1.2.later⟩) sound
      | detachAll repoKey branch issues reason now =>
          exact transaction_kept within_detachAll ⟨sound, .refl tables⟩
            (fun _ _ post => ⟨post.1.1, post.1.2.later⟩) sound

end Steps

end Phasegent.Task
