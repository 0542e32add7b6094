import Mathlib
import Phasegent.Interleaving.Adversary
import Phasegent.Redmine.Provision

namespace Phasegent.Redmine
open Fallible Interleaving Record

abbrev ProvisionJournal := List (Event RoleStore ProvisionOp ProvisionOp.Ret)

abbrev ProvisionState := RoleStore × ProvisionJournal

def RoleStore.user (store : RoleStore) (role : Role) : Option (Nat × String) :=
  (store.users role).bind UserRow.identity

def GaveKey (journal : ProvisionJournal) (id : Nat) (key : String) : Prop :=
  ∃ event ∈ journal, ∃ user, event.act = ⟨.getUser id, .ok user⟩ ∧ user.apiKeyValue = some key

/-- The role's mapping is the user and its key one that was given for the user. -/
structure Paired (s : ProvisionState) (role : Role) (user : RedmineCurrentUser) : Prop where
  mapping : s.1.user role = some (user.id, trimText user.login)
  key : ∃ key, s.1.credentials role = some key ∧ GaveKey s.2 user.id key

/-- No other key stands beside the role's mapping. -/
def Matched (s : ProvisionState) (role : Role) : Prop :=
  ∀ id login key, s.1.user role = some (id, login) → s.1.credentials role = some key →
    trimText key ≠ "" → GaveKey s.2 id key

-- The mapping was written last, or the key was to be written and was not.
def Halfway (s : ProvisionState) (role : Role) : Prop :=
  ∃ act ∈ s.2.head?.map Event.act, (∃ row, act = ⟨.upsertUser role row, .ok ()⟩) ∨
    ∃ key e, act = ⟨.upsertCredential role key, .error e⟩

/-- A run may stop here: if between the mapping and the key of a role, then without another key. -/
def Clean (s : ProvisionState) : Prop := ∀ role ∈ provisionedRoles, Halfway s role → Matched s role

section Store
variable {store : RoleStore} {role other : Role} {row : UserRow} {key login : String} {id : Nat}
  {journal : ProvisionJournal} {event : Event RoleStore ProvisionOp ProvisionOp.Ret}

@[simp] theorem RoleStore.putUser_credentials :
    (store.putUser role row).credentials = store.credentials := rfl

@[simp] theorem RoleStore.putCredential_user : (store.putCredential role key).user = store.user := rfl

@[simp] theorem RoleStore.putUser_user : (store.putUser role row).user role = row.identity := by
  simp [RoleStore.user, RoleStore.putUser]

theorem RoleStore.putUser_other (apart : other ≠ role) :
    (store.putUser role row).user other = store.user other := by
  simp [RoleStore.user, RoleStore.putUser, apart]

@[simp] theorem RoleStore.putCredential_credentials :
    (store.putCredential role key).credentials role = some key := by
  simp [RoleStore.putCredential]

theorem RoleStore.putCredential_other (apart : other ≠ role) :
    (store.putCredential role key).credentials other = store.credentials other := by
  simp [RoleStore.putCredential, apart]

theorem identity_of_stored (long : id < 2 ^ 64) (positive : 0 < asI64 id)
    (spelled : trimText login ≠ "") :
    UserRow.identity ⟨asI64 id, trimText login⟩ = some (id, trimText login) := by
  have small : id < 2 ^ 63 := by
    by_contra large
    rw [asI64, if_neg large] at positive
    omega
  have fits : asI64 id = id := by rw [asI64, if_pos small]
  have above : 0 < id := by omega
  simp [UserRow.identity, fits, above, trimText_trimText, spelled]

theorem named_user {named : Nat × String} (known : store.user role = some named) :
    0 < named.1 ∧ trimText named.2 = named.2 ∧ trimText named.2 ≠ "" := by
  obtain ⟨row, -, identity⟩ := Option.bind_eq_some_iff.mp known
  unfold UserRow.identity at identity
  split at identity
  · next whole =>
      cases identity
      have trimmed := trimText_trimText row.login
      exact ⟨by omega, trimmed, by rw [trimmed]; exact whole.2⟩
  · cases identity

theorem GaveKey.cons (gave : GaveKey journal id key) : GaveKey (event :: journal) id key := by
  obtain ⟨found, among, user, same, given⟩ := gave
  exact ⟨found, List.mem_cons_of_mem _ among, user, same, given⟩

end Store

section Steps
variable {s s' : ProvisionState} {role other : Role} {i : Pid} {op : ProvisionOp} {answer : op.Ret}

theorem Matched.of_same (matched : Matched s role) (users : s'.1.user role = s.1.user role)
    (keys : s'.1.credentials role = s.1.credentials role) {event : Event RoleStore ProvisionOp ProvisionOp.Ret}
    (grown : s'.2 = event :: s.2) : Matched s' role := by
  intro id login key mapped stored nonblank
  rw [users] at mapped
  rw [keys] at stored
  rw [grown]
  exact (matched id login key mapped stored nonblank).cons

def isWrite : ProvisionOp → Bool
  | .upsertUser .. | .upsertCredential .. => true
  | _ => false

theorem step_quiet (quiet : isWrite op = false) (step : provisioning.record.step i s op answer s') :
    s'.1 = s.1 ∧ s'.2 = ⟨i, op, answer, s.1, s'.1⟩ :: s.2 := by
  obtain ⟨effect, grown⟩ := step
  refine ⟨?_, grown⟩
  cases op with
  | selectUser role => exact effect.2
  | selectCredential role => exact effect.2
  | upsertUser role row => cases quiet
  | upsertCredential role key => cases quiet
  | listUsers offset =>
      cases answer with
      | ok page => exact effect.2
      | error e => exact effect
  | createUser metadata =>
      cases answer with
      | ok user => exact effect.2
      | error e => exact effect
  | getUser id => exact effect

theorem Paired.matched {user : RedmineCurrentUser} (paired : Paired s role user) : Matched s role := by
  obtain ⟨mapping, key, stored, gave⟩ := paired
  intro id login key' mapped stored' _
  obtain ⟨rfl, -⟩ := Prod.mk.inj (Option.some.inj (mapping.symm.trans mapped))
  obtain rfl := Option.some.inj (stored.symm.trans stored')
  exact gave

theorem step_upsertUser {row : UserRow} {answer : Except String Unit}
    (step : provisioning.record.step i s (.upsertUser role row) answer s') :
    s'.2 = ⟨i, .upsertUser role row, answer, s.1, s'.1⟩ :: s.2 ∧
      ((answer = .ok () ∧ 0 < row.userId ∧ s'.1 = s.1.putUser role row) ∨
        ∃ e, answer = .error e ∧ s'.1 = s.1) := by
  obtain ⟨effect, grown⟩ := step
  refine ⟨grown, ?_⟩
  cases answer with
  | ok a => exact .inl ⟨rfl, effect⟩
  | error e => exact .inr ⟨e, rfl, effect⟩

theorem step_upsertCredential {key : String} {answer : Except String Unit}
    (step : provisioning.record.step i s (.upsertCredential role key) answer s') :
    s'.2 = ⟨i, .upsertCredential role key, answer, s.1, s'.1⟩ :: s.2 ∧
      ((answer = .ok () ∧ s'.1 = s.1.putCredential role key) ∨ ∃ e, answer = .error e ∧ s'.1 = s.1) := by
  obtain ⟨effect, grown⟩ := step
  refine ⟨grown, ?_⟩
  cases answer with
  | ok a => exact .inl ⟨rfl, effect⟩
  | error e => exact .inr ⟨e, rfl, effect⟩

end Steps

def Mending (s : ProvisionState) : Prop := ∀ role ∈ provisionedRoles, Matched s role ∨ Halfway s role

def Whole (s : ProvisionState) : Prop := ∀ role ∈ provisionedRoles, Matched s role

abbrev Alone : Contract ProvisionState := .alone 0 Mending

def Lasting (P : ProvisionState → Prop) : Prop :=
  ∀ s s' event, s'.1 = s.1 → s'.2 = event :: s.2 → P s → P s'

abbrev Leaves {α : Type} (P : ProvisionState → Prop) (p : ProvisionM α)
    (Q : α → ProvisionState → Prop) : Prop :=
  HoareElse provisioning.record Alone 0 P p Q fun _ => Whole

abbrev Does {α : Type} (P : ProvisionState → Prop) (p : ProvisionM α)
    (Q : α → ProvisionState → Prop) : Prop :=
  Hoare provisioning.record Alone 0 P p Q

section Quiet
variable {s : ProvisionState} {role : Role} {P : ProvisionState → Prop} {α : Type}

theorem Whole.mending (whole : Whole s) : Mending s := fun role known => .inl (whole role known)

theorem whole_lasting : Lasting Whole := by
  intro s s' event same grown whole role known
  exact (whole role known).of_same (by rw [same]) (by rw [same]) grown

theorem leaves_request {op : ProvisionOp} (quiet : isWrite op = false) {decode : op.Ret → Except PhasegentError α}
    {Q : α → ProvisionState → Prop} (lasting : Lasting P) (whole : ∀ s, P s → Whole s)
    (answered : ∀ i s r s' a, P s' → provisioning.record.step i s op r s' → decode r = .ok a → Q a s') :
    Leaves P (request op decode) Q := by
  apply else_request (Contract.stable_alone _) (fun _ => Contract.stable_alone _)
    fun _ => Contract.stable_alone _
  intro s r s' _ pre step
  obtain ⟨same, grown⟩ := step_quiet quiet step
  have kept := lasting s s' _ same grown pre
  refine ⟨(whole _ kept).mending, .inl rfl, ?_⟩
  cases decoded : decode r with
  | ok a => exact answered 0 s r s' a kept step decoded
  | error e => exact whole _ kept

theorem leaves_fromExcept {x : Except PhasegentError α} (whole : ∀ s, P s → Whole s) :
    Leaves P (fromExcept x) fun a s => x = .ok a ∧ P s :=
  else_fromExcept (Contract.stable_alone _) (fun s _ _ _ pre => whole s pre)
    fun _ => Contract.stable_alone _

theorem leaves_bind {β : Type} {M : α → ProvisionState → Prop} {Q : β → ProvisionState → Prop}
    {p : ProvisionM α} {f : α → ProvisionM β} (first : Leaves P p M)
    (rest : ∀ a, Leaves (M a) (f a) Q) : Leaves P (p >>= f) Q :=
  else_bind (fun _ => Contract.stable_alone _) first rest

theorem leaves_pure {Q : α → ProvisionState → Prop} {a : α} (holds : ∀ s, P s → Q a s) :
    Leaves P (pure a) Q :=
  else_pure (Contract.stable_alone _) fun s _ pre => holds s pre

theorem leaves_renameFailure {rename : PhasegentError → PhasegentError} {p : ProvisionM α}
    {Q : α → ProvisionState → Prop} (leaves : Leaves P p Q) : Leaves P (renameFailure rename p) Q :=
  else_renameFailure (fun _ => Contract.stable_alone _) (fun _ => Contract.stable_alone _)
    (fun _ _ whole => whole) leaves

end Quiet

section Reads
variable {role : Role} {metadata : RoleProvisioningMetadata} {id : Nat}

theorem leaves_loadRedmineUser : Leaves Whole (loadRedmineUser role)
    fun found s => Whole s ∧ found = s.1.user role := by
  unfold loadRedmineUser
  apply leaves_bind (leaves_request rfl whole_lasting (fun _ whole => whole) _) _
  · exact fun row s => Whole s ∧ row = s.1.users role
  · intro i s r s' row whole step decoded
    obtain ⟨⟨answer, same⟩, -⟩ := step
    refine ⟨whole, ?_⟩
    obtain rfl | ⟨e, rfl⟩ := answer
    · rw [same]
      cases decoded
      rfl
    · cases decoded
  · intro row
    apply leaves_pure
    rintro s ⟨whole, rfl⟩
    exact ⟨whole, rfl⟩

theorem leaves_loadCredential {found : Option (Nat × String)} :
    Leaves (fun s => Whole s ∧ found = s.1.user role) (loadCredential role)
      fun key s => Whole s ∧ found = s.1.user role ∧ key = s.1.credentials role := by
  unfold loadCredential
  apply leaves_request rfl
  · intro s s' event same grown pre
    exact ⟨whole_lasting s s' event same grown pre.1, by rw [same, pre.2]⟩
  · exact fun s pre => pre.1
  · intro i s r s' key pre step decoded
    obtain ⟨⟨answer, same⟩, -⟩ := step
    refine ⟨pre.1, pre.2, ?_⟩
    obtain rfl | ⟨e, rfl⟩ := answer
    · rw [same]
      cases decoded
      rfl
    · cases decoded

theorem leaves_persistedIdentity (known : role ∈ provisionedRoles) : Leaves Whole (persistedIdentity role)
    fun found s => Whole s ∧ ∀ user ∈ found, Paired s role user := by
  unfold persistedIdentity
  apply leaves_bind leaves_loadRedmineUser
  intro found
  apply leaves_bind leaves_loadCredential
  intro key
  cases found with
  | none => exact leaves_pure fun s pre => ⟨pre.1, by simp⟩
  | some named =>
      cases key with
      | none => exact leaves_pure fun s pre => ⟨pre.1, by simp⟩
      | some apiKey =>
          apply leaves_pure
          intro s ⟨whole, mapped, stored⟩
          refine ⟨whole, ?_⟩
          intro user own
          obtain ⟨⟨positive, spelled, nonblank⟩, rfl⟩ := by simpa using own
          have trimmed := (named_user mapped.symm).2.1
          exact ⟨by rw [← mapped, trimmed], apiKey, stored.symm,
            whole role known _ _ _ mapped.symm stored.symm nonblank⟩

theorem leaves_findUserFrom (pages offset : Nat) (previous : Option String) :
    Leaves Whole (findUserFrom metadata.login pages offset previous)
      fun found s => Whole s ∧ ∀ user ∈ found, user.id < 2 ^ 64 := by
  induction pages generalizing offset previous with
  | zero => exact else_throw (Contract.stable_alone _) fun s _ whole => whole
  | succ pages ih =>
      unfold findUserFrom
      apply leaves_bind (leaves_request rfl whole_lasting (fun _ whole => whole) _) _
      · exact fun page s => Whole s ∧ ∀ user ∈ page.users, user.id < 2 ^ 64
      · intro i s r s' page whole step decoded
        obtain rfl : r = .ok page := decoded
        exact ⟨whole, step.1.1⟩
      · intro page
        cases found : page.users.find? (·.login = metadata.login) with
        | some user =>
            apply leaves_pure
            intro s ⟨whole, small⟩
            refine ⟨whole, ?_⟩
            rintro _ ⟨⟩
            exact small user (List.mem_of_find?_eq_some found)
        | none =>
            apply leaves_bind (leaves_fromExcept fun s pre => pre.1)
            intro next
            apply HoareElse.pre _ fun s _ pre => pre.2.1
            cases next with
            | none => exact leaves_pure fun s whole => ⟨whole, by simp⟩
            | some next => exact ih next _

theorem trimText_login (provisioned : provisioningMetadata role = some metadata) :
    trimText metadata.login = metadata.login := by
  cases role <;> cases provisioned <;> decide

theorem leaves_lookup (provisioned : provisioningMetadata role = some metadata) (suffix : String) :
    Leaves Whole (lookup role metadata.login suffix)
      fun found s => Whole s ∧ ∀ user ∈ found, user.id < 2 ^ 64 := by
  unfold lookup findUserByLogin
  apply leaves_renameFailure
  apply leaves_bind (leaves_fromExcept fun _ whole => whole)
  intro _
  apply HoareElse.pre _ fun s _ pre => pre.2
  rw [trimText_login provisioned]
  exact leaves_findUserFrom maxPages 0 none

theorem leaves_createServiceUser : Leaves Whole (createServiceUser metadata)
    fun user s => Whole s ∧ user.id < 2 ^ 64 := by
  unfold createServiceUser
  iterate 4
    apply leaves_bind (leaves_fromExcept fun _ whole => whole)
    intro _
    apply HoareElse.pre _ fun s _ pre => pre.2
  apply leaves_request rfl whole_lasting fun _ whole => whole
  intro i s r s' user whole step decoded
  obtain rfl : r = .ok user := decoded
  exact ⟨whole, step.1.1⟩

theorem leaves_readApiKey : Leaves Whole (readApiKey role id)
    fun key s => Whole s ∧ GaveKey s.2 id key := by
  unfold readApiKey getUserApiKey
  apply leaves_renameFailure
  apply leaves_bind (leaves_fromExcept fun _ whole => whole)
  intro _
  apply HoareElse.pre _ fun s _ pre => pre.2
  apply leaves_request rfl whole_lasting fun _ whole => whole
  intro i s r s' key whole step decoded
  obtain ⟨user, rfl, usable⟩ := bind_eq_ok.mp decoded
  have given : user.apiKeyValue = some key := by
    unfold usableKey at usable
    split at usable
    · next value found =>
        cases usable
        exact (Option.filter_eq_some_iff.mp found).1
    · cases usable
  refine ⟨whole, ⟨i, .getUser id, .ok user, s.1, s'.1⟩, ?_, user, rfl, given⟩
  rw [step.2]
  exact List.mem_cons_self

end Reads

section Writes
variable {role : Role} {metadata : RoleProvisioningMetadata} {id : Nat} {key login : String}

structure Mapped (s : ProvisionState) (role : Role) (id : Nat) (login key : String) : Prop where
  others : ∀ other ∈ provisionedRoles, other ≠ role → Matched s other
  mapping : s.1.user role = some (id, trimText login)
  gave : GaveKey s.2 id key

theorem does_saveRedmineUser (long : id < 2 ^ 64) :
    Does (fun s => Whole s ∧ GaveKey s.2 id key) (saveRedmineUser role id login)
      fun _ s => Mapped s role id login key := by
  unfold saveRedmineUser
  apply hoare_bind (hoare_fromExcept (Contract.stable_alone _))
  intro _
  apply Hoare.of_pure
  intro _
  apply hoare_bind (hoare_fromExcept (Contract.stable_alone _))
  intro _
  apply Hoare.of_pure
  intro spelled
  apply hoare_bind (hoare_fromExcept (Contract.stable_alone _))
  intro _
  apply Hoare.of_pure
  intro _
  apply hoare_request (Contract.stable_alone _) fun _ => Contract.stable_alone _
  intro s r s' _ ⟨whole, gave⟩ step
  obtain ⟨grown, ⟨rfl, above, written⟩ | ⟨e, rfl, same⟩⟩ := step_upsertUser step
  · have others : ∀ other ∈ provisionedRoles, other ≠ role → Matched s' other := by
      intro other known apart
      apply (whole other known).of_same _ (by rw [written]; rfl) grown
      rw [written, RoleStore.putUser_other apart]
    have halfway : Halfway s' role := ⟨⟨.upsertUser role ⟨asI64 id, trimText login⟩, .ok ()⟩,
      by rw [grown]; rfl, .inl ⟨_, rfl⟩⟩
    refine ⟨fun other known => ?_, .inl rfl, others, ?_, ?_⟩
    · by_cases apart : other = role
      · exact .inr (apart ▸ halfway)
      · exact .inl (others other known apart)
    · rw [written, RoleStore.putUser_user]
      exact identity_of_stored long above (refuse_eq_ok.mp spelled)
    · rw [grown]
      exact gave.cons
  · exact ⟨(whole_lasting s s' _ same grown whole).mending, .inl rfl, trivial⟩

theorem does_saveCredential : Does (fun s => Mapped s role id login key) (saveCredential role key)
    fun _ s => Whole s ∧ s.1.user role = some (id, trimText login) ∧
      s.1.credentials role = some key ∧ GaveKey s.2 id key := by
  unfold saveCredential
  apply hoare_request (Contract.stable_alone _) fun _ => Contract.stable_alone _
  intro s r s' _ ⟨others, mapping, gave⟩ step
  obtain ⟨grown, ⟨rfl, written⟩ | ⟨e, rfl, same⟩⟩ := step_upsertCredential step
  · have users : s'.1.user = s.1.user := by rw [written, RoleStore.putCredential_user]
    have stored : s'.1.credentials role = some key := by
      rw [written, RoleStore.putCredential_credentials]
    have given : GaveKey s'.2 id key := by
      rw [grown]
      exact gave.cons
    have whole : Whole s' := by
      intro other known
      by_cases apart : other = role
      · subst apart
        intro id' login' key' mapped own _
        rw [users, mapping] at mapped
        rw [stored] at own
        cases mapped
        cases own
        exact given
      · apply (others other known apart).of_same (by rw [users]) _ grown
        rw [written, RoleStore.putCredential_other apart]
    exact ⟨whole.mending, .inl rfl, whole, by rw [users, mapping], stored, given⟩
  · refine ⟨fun other known => ?_, .inl rfl, trivial⟩
    by_cases apart : other = role
    · subst apart
      exact .inr ⟨⟨.upsertCredential other key, .error e⟩, by rw [grown]; rfl, .inr ⟨key, e, rfl⟩⟩
    · exact .inl ((others other known apart).of_same (by rw [same]) (by rw [same]) grown)

theorem does_adoptExistingUser {existing : RedmineUser} (long : existing.id < 2 ^ 64) :
    Does Whole (adoptExistingUser role existing) fun user s => Whole s ∧ Paired s role user := by
  unfold adoptExistingUser
  apply hoare_bind leaves_readApiKey.hoare
  intro key
  apply hoare_bind (does_saveRedmineUser long)
  intro _
  apply hoare_bind does_saveCredential
  intro _
  apply hoare_pure (Contract.stable_alone _)
  intro s _ ⟨whole, mapping, stored, gave⟩
  exact ⟨whole, mapping, key, stored, gave⟩

end Writes

section Runs
variable {role : Role} {metadata : RoleProvisioningMetadata}

theorem does_provisionRoleUser (provisioned : provisioningMetadata role = some metadata) :
    Does Whole (provisionRoleUser role metadata) fun user s => Whole s ∧ Paired s role user := by
  have known : role ∈ provisionedRoles := by
    cases role with
    | admin => cases provisioned
    | orchestrator | executor | reviewer | explore => decide
  unfold provisionRoleUser
  apply hoare_bind (leaves_persistedIdentity known).hoare
  intro found
  cases found with
  | some user =>
      exact hoare_pure (Contract.stable_alone _) fun s _ ⟨whole, paired⟩ => ⟨whole, paired user rfl⟩
  | none =>
      unfold provisionMissing
      apply Hoare.pre _ fun s _ pre => pre.1
      apply hoare_bind (leaves_lookup provisioned "").hoare
      intro existing
      cases existing with
      | some existing => exact Hoare.pre (Hoare.of_pure does_adoptExistingUser) fun s _ pre =>
          ⟨pre.2 existing rfl, pre.1⟩
      | none =>
          unfold createRoleUser
          apply hoare_bind (M := Ends (fun user s => Whole s ∧ user.id < 2 ^ 64) fun _ => Whole)
          · apply Hoare.pre _ fun s _ pre => pre.1
            apply HoareElse.hoare (F := fun _ _ => True)
            exact else_outcome (fun _ => Contract.stable_alone _) (fun _ => Contract.stable_alone _)
              leaves_createServiceUser
          · intro result
            cases result with
            | ok created => exact Hoare.pre (Hoare.of_pure does_adoptExistingUser) fun s _ pre => ⟨pre.2, pre.1⟩
            | error e =>
                change Does Whole _ _
                dsimp only
                split
                · unfold recoverDuplicate
                  apply hoare_bind (leaves_lookup provisioned " after duplicate").hoare
                  intro existing
                  cases existing with
                  | some existing => exact Hoare.pre (Hoare.of_pure does_adoptExistingUser) fun s _ pre =>
                      ⟨pre.2 existing rfl, pre.1⟩
                  | none => exact hoare_throw
                · exact hoare_throw

theorem nodup_of_ensureDistinct {provisioned : List ProvisionedRole} {user : RedmineCurrentUser} {u : Unit}
    (distinct : ensureDistinct provisioned role user = .ok u)
    (nodup : (provisioned.map (·.user.id)).Nodup) :
    ((provisioned ++ [ProvisionedRole.mk role user]).map (·.user.id)).Nodup := by
  unfold ensureDistinct at distinct
  split at distinct
  · next absent =>
      have apart : ∀ entry ∈ provisioned, entry.user.id ≠ user.id := by simpa using absent
      rw [List.map_append, List.map_singleton, List.nodup_append]
      refine ⟨nodup, by simp, ?_⟩
      simpa using apart
  · cases distinct

theorem does_provisionEach (roles : List Role) (provisioned : List ProvisionedRole)
    (nodup : (provisioned.map (·.user.id)).Nodup) :
    Does Whole (provisionEach roles provisioned) fun users _ => (users.map (·.user.id)).Nodup := by
  induction roles generalizing provisioned with
  | nil => exact hoare_pure (Contract.stable_alone _) fun _ _ _ => nodup
  | cons role rest ih =>
      apply hoare_bind (hoare_fromExcept (Contract.stable_alone _))
      intro metadata
      apply Hoare.of_pure
      intro found
      have provisioned' : provisioningMetadata role = some metadata := by
        unfold metadataOf at found
        split at found
        · next same =>
            cases found
            exact same
        · cases found
      apply hoare_bind (does_provisionRoleUser provisioned')
      intro user
      apply Hoare.pre _ fun s _ pre => pre.1
      apply hoare_bind (hoare_fromExcept (Contract.stable_alone _))
      intro _
      apply Hoare.of_pure
      intro distinct
      exact ih _ (nodup_of_ensureDistinct distinct nodup)

end Runs

def RoleStore.Separate (store : RoleStore) : Prop :=
  ∀ role ∈ provisionedRoles, store.users role = none ∨ store.credentials role = none

/-- Every success of `provisionRoleUser` leaves the role's mapping and key to that user, and every
success of `provisionAgentUsers` gives distinct users, after any runs that stopped where they may. -/
structure StaysPaired (W : World ProvisionState ProvisionOp ProvisionOp.Ret) (stop : ProvisionState → Prop)
    (store : RoleStore) : Prop where
  paired : ∀ s role metadata user c, Sessions W provisionAgentUsers.run stop (store, []) s →
    provisioningMetadata role = some metadata →
    Run W (.solo (provisionRoleUser role metadata).run s) c → c.result 0 = some (.ok user) →
    Paired c.shared role user
  distinct : ∀ s users c, Sessions W provisionAgentUsers.run stop (store, []) s →
    Run W (.solo provisionAgentUsers.run s) c → c.result 0 = some (.ok users) →
    (users.map (·.user.id)).Nodup

section Sessions
variable {stop : ProvisionState → Prop} {store : RoleStore} {s : ProvisionState}

theorem still (i : Pid) (s s' : ProvisionState) (crashed : provisioning.record.crash i s s') : s' = s :=
  Prod.ext crashed.1 crashed.2

theorem whole_of_sessions (separate : store.Separate)
    (clean : ∀ s, Sessions provisioning.record provisionAgentUsers.run stop (store, []) s → Clean s)
    (sessions : Sessions provisioning.record provisionAgentUsers.run stop (store, []) s) : Whole s := by
  have start : Whole (store, []) := by
    intro role known id login key mapped stored _
    obtain absent | absent := separate role known
    · simp [RoleStore.user, absent] at mapped
    · rw [absent] at stored
      cases stored
  induction sessions with
  | start => exact start
  | run before run stopped ih =>
      have does := does_provisionEach provisionedRoles [] List.nodup_nil
      have safe := run.solo still does.triple ih.mending ih
      have halted := clean _ (.run before run stopped)
      exact fun role known => (safe.1 role known).elim id (halted role known)

theorem known_of_metadata {role : Role} (known : role ∈ provisionedRoles) :
    ∃ metadata, provisioningMetadata role = some metadata := by
  cases role with
  | admin => exact absurd known (by decide)
  | orchestrator | executor | reviewer | explore => exact ⟨_, rfl⟩

/-- Where a run stopped with another role's key beside the mapping, the next one takes the two for a pair. -/
theorem returns_persisted {role : Role} (metadata : RoleProvisioningMetadata) {id : Nat}
    {login key : String} (mapped : s.1.user role = some (id, login)) (stored : s.1.credentials role = some key)
    (nonblank : trimText key ≠ "") :
    ∃ c, Run provisioning.record (.solo (provisionRoleUser role metadata).run s) c ∧
      c.result 0 = some (.ok ⟨id, login, "", "", ""⟩) ∧ c.shared.1 = s.1 ∧
      c.shared.2 = ⟨0, .selectCredential role, .ok (s.1.credentials role), s.1, s.1⟩ ::
        ⟨0, .selectUser role, .ok (s.1.users role), s.1, s.1⟩ :: s.2 := by
  have start : Run provisioning.record (.solo (provisionRoleUser role metadata).run s) _ := .refl
  have first := start.perform 0 (e := .selectUser role) (.ok (s.1.users role) : Except String _)
    (s.1, ⟨0, .selectUser role, .ok (s.1.users role), s.1, s.1⟩ :: s.2) rfl
    ⟨⟨.inl rfl, rfl⟩, rfl⟩
  have second := first.perform 0 (e := .selectCredential role)
    (.ok (s.1.credentials role) : Except String _)
    (s.1, ⟨0, .selectCredential role, .ok (s.1.credentials role), s.1, s.1⟩ :: _) rfl
    ⟨⟨.inl rfl, rfl⟩, rfl⟩
  refine ⟨_, second, ?_, rfl, rfl⟩
  have found : (s.1.users role).bind UserRow.identity = some (id, login) := mapped
  obtain ⟨positive, -, spelled⟩ := named_user mapped
  rw [Config.result_eq_some, Config.put_self]
  simp only [found, stored, Except.mapError, Prog.bind_done, ExceptT.bindCont]
  rw [if_pos ⟨positive, spelled, nonblank⟩]
  rfl

theorem GaveKey.of_reads {journal : ProvisionJournal} {a b : Event RoleStore ProvisionOp ProvisionOp.Ret}
    {id : Nat} {key : String} (gave : GaveKey (a :: b :: journal) id key)
    (reads : ∀ event ∈ [a, b], ∀ id user, event.act ≠ ⟨.getUser id, .ok user⟩) :
    GaveKey journal id key := by
  obtain ⟨event, among, user, same, given⟩ := gave
  obtain rfl | rfl | earlier := by simpa using among
  · exact absurd same (reads _ (by simp) _ _)
  · exact absurd same (reads _ (by simp) _ _)
  · exact ⟨event, earlier, user, same, given⟩

/-- The agents' users and keys stay paired exactly when no run stops between the mapping and the key
of a role whose store holds another key. -/
theorem stays_paired_iff (separate : store.Separate) :
    StaysPaired provisioning.record stop store ↔
      ∀ s, Sessions provisioning.record provisionAgentUsers.run stop (store, []) s → Clean s := by
  constructor
  · intro stays s sessions role known halfway id login key mapped stored nonblank
    obtain ⟨metadata, provisioned⟩ := known_of_metadata known
    obtain ⟨c, run, returned, same, reads⟩ := returns_persisted metadata mapped stored nonblank
    obtain ⟨-, key', stored', gave⟩ := stays.paired s role metadata _ c sessions provisioned run returned
    rw [same, stored] at stored'
    cases stored'
    rw [reads] at gave
    exact gave.of_reads (by simp [Event.act])
  · intro clean
    constructor
    · intro s role metadata user c sessions provisioned run returned
      have whole := whole_of_sessions separate clean sessions
      exact (run.returns still (does_provisionRoleUser provisioned).triple whole.mending whole returned).2
    · intro s users c sessions run returned
      have whole := whole_of_sessions separate clean sessions
      have does := does_provisionEach provisionedRoles [] List.nodup_nil
      exact run.returns still does.triple whole.mending whole returned

end Sessions

section Samples

def keyedStore : RoleStore :=
  ⟨fun _ => none, fun role => if role = .orchestrator then some "manual" else none⟩

theorem keyedStore_separate : keyedStore.Separate := fun _ _ => .inl rfl

theorem keyed_stays_paired : StaysPaired provisioning.record Clean keyedStore := by
  apply (stays_paired_iff keyedStore_separate).mpr
  intro s sessions
  cases sessions with
  | start =>
      rintro role known ⟨act, head, -⟩
      cases head
  | run before run stopped => exact stopped

def sampleUser : RedmineUser :=
  ⟨7, "phasegent-orchestrator", "Phasegent", "Orchestrator", "", some "issued"⟩

def sampleServer (_ : Pid) (store : RoleStore) : (op : ProvisionOp) → op.Ret × RoleStore
  | .selectUser role => (.ok (store.users role), store)
  | .selectCredential role => (.ok (store.credentials role), store)
  | .upsertUser role row =>
      if 0 < row.userId then (.ok (), store.putUser role row)
      else (.error "CHECK constraint failed: user_id > 0", store)
  | .upsertCredential role credential => (.ok (), store.putCredential role credential)
  | .listUsers _ => (.ok ⟨[sampleUser], some 1, none⟩, store)
  | .createUser _ => (.error (.http "user create" 422 "Login has already been taken"), store)
  | .getUser _ => (.ok sampleUser, store)

theorem sampleServer_sound (i : Pid) (store : RoleStore) (op : ProvisionOp) :
    provisioning.step i store op (sampleServer i store op).1 (sampleServer i store op).2 := by
  cases op with
  | selectUser role => exact ⟨.inl rfl, rfl⟩
  | selectCredential role => exact ⟨.inl rfl, rfl⟩
  | upsertUser role row =>
      by_cases above : 0 < row.userId
      · simp [provisioning, sampleServer, above]
      · simp [provisioning, sampleServer, above]
  | listUsers => exact ⟨by decide, rfl⟩
  | upsertCredential | createUser | getUser => rfl

abbrev Provisioning (α : Type) :=
  Config ProvisionState ProvisionOp ProvisionOp.Ret (Except PhasegentError α)

def halted : Provisioning (List ProvisionedRole) :=
  (Config.solo provisionAgentUsers.run (keyedStore, [])).replay (recording sampleServer)
    (List.replicate 5 0)

def orchestratorMetadata : RoleProvisioningMetadata :=
  ⟨"phasegent-orchestrator", "Phasegent", "Orchestrator", "phasegent-orchestrator@phasegent.local"⟩

def nextRun : Provisioning RedmineCurrentUser :=
  .solo (provisionRoleUser .orchestrator orchestratorMetadata).run halted.shared

def resumed : Provisioning RedmineCurrentUser :=
  nextRun.replay (recording sampleServer) (List.replicate 2 0)

def givesIssued (event : Event RoleStore ProvisionOp ProvisionOp.Ret) : Bool :=
  match event.act with
  | ⟨.getUser _, .ok user⟩ => user.apiKeyValue == some "issued"
  | _ => true

theorem crash_leaves_foreign_key :
    ¬∀ store : RoleStore, store.Separate → StaysPaired provisioning.record (fun _ => True) store := by
  intro claim
  have sessions : Sessions provisioning.record provisionAgentUsers.run (fun _ => True)
      (keyedStore, []) halted.shared :=
    .run .start (Run.replay (recording_sound sampleServer_sound) _ _) trivial
  have run : Run provisioning.record nextRun resumed :=
    Run.replay (recording_sound sampleServer_sound) _ _
  have returned : resumed.result 0 = some (.ok ⟨7, "phasegent-orchestrator", "", "", ""⟩) := by
    decide
  have stays := claim keyedStore keyedStore_separate
  obtain ⟨-, key, stored, event, among, user, same, given⟩ :=
    stays.paired halted.shared .orchestrator orchestratorMetadata _ resumed sessions rfl run returned
  have manual : resumed.shared.1.credentials .orchestrator = some "manual" := by decide
  have given' : givesIssued event = true := by
    have every : resumed.shared.2.all givesIssued = true := by decide
    exact List.all_eq_true.mp every event among
  obtain ⟨pid, effect, answer, before, after⟩ := event
  cases same
  have issued : user.apiKeyValue = some "issued" := eq_of_beq given'
  cases stored.symm.trans manual
  rw [issued] at given
  exact absurd given (by decide)

end Samples

end Phasegent.Redmine
