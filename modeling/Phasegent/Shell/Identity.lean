import Phasegent.Interleaving.Sequence
import Phasegent.Shell.Bridge
import Mathlib.Tactic.Linarith

namespace Phasegent.Shell
open Interleaving

variable {b : Bridge} {entries : Entries} {entry : Entry} {nonce : Text} {d : Decoration}
  {event : ShellEvent} {now : ℚ}

section Entries

@[simp] theorem mem_delete : entry ∈ entries.delete nonce ↔ entry ∈ entries ∧ entry.nonce ≠ nonce := by
  simp [Entries.delete]

@[simp] theorem mem_pruneExpired :
    entry ∈ pruneExpired b now entries ↔ entry ∈ entries ∧ expired b now entry = false := by
  simp [pruneExpired]

theorem get_eq_some (found : entries.get nonce = some entry) : entry ∈ entries ∧ entry.nonce = nonce :=
  ⟨List.mem_of_find?_eq_some found, by simpa using List.find?_some found⟩

theorem has_eq_false : entries.has nonce = false ↔ ∀ entry ∈ entries, entry.nonce ≠ nonce := by
  simp [Entries.has]

theorem evict_suffix (entries : Entries) : evictOldestIfNeeded b entries <:+ entries := by
  induction entries with
  | nil => exact List.suffix_rfl
  | cons oldest rest ih =>
      rw [evictOldestIfNeeded]
      split
      · exact ih.trans (List.suffix_cons oldest rest)
      · exact List.suffix_rfl

theorem evict_length (roomy : 0 < b.capacity) (entries : Entries) :
    (evictOldestIfNeeded b entries).length < b.capacity := by
  induction entries with
  | nil => exact roomy
  | cons oldest rest ih =>
      rw [evictOldestIfNeeded]
      split
      · exact ih
      · next fits => exact not_le.mp fits

theorem set_fresh (fresh : ∀ old ∈ entries, old.nonce ≠ entry.nonce) :
    entries.set entry = entries ++ [entry] := by
  rw [Entries.set, has_eq_false.mpr fresh]
  simp

end Entries

section Decorating

theorem generateNonce_eq_some {candidates : List Text} (drawn : generateNonce entries candidates = some nonce) :
    noncePattern nonce ∧ nonce ∈ candidates ∧ ∀ entry ∈ entries, entry.nonce ≠ nonce := by
  induction candidates with
  | nil => simp [generateNonce] at drawn
  | cons candidate rest ih =>
      simp only [generateNonce] at drawn
      split at drawn
      · next fits =>
          split at drawn
          · have later := ih drawn
            exact ⟨later.1, List.mem_cons_of_mem _ later.2.1, later.2.2⟩
          · next unused =>
              cases drawn
              exact ⟨fits, List.mem_cons_self, has_eq_false.mp (by simpa using unused)⟩
      · have later := ih drawn
        exact ⟨later.1, List.mem_cons_of_mem _ later.2.1, later.2.2⟩

theorem generateNonce_nil {candidates : List Text} (usable : nonce ∈ candidates)
    (fits : noncePattern nonce) : ∃ drawn, generateNonce [] candidates = some drawn := by
  induction candidates with
  | nil => cases usable
  | cons candidate rest ih =>
      by_cases own : noncePattern candidate
      · exact ⟨candidate, by simp [generateNonce, own, Entries.has]⟩
      · have later : nonce ∈ rest := by
          cases usable with
          | head => exact absurd fits own
          | tail _ member => exact member
        obtain ⟨drawn, found⟩ := ih later
        exact ⟨drawn, by simpa [generateNonce, own] using found⟩

structure Stores (b : Bridge) (entries : Entries) (d : Decoration) (entry : Entry) : Prop where
  session : isNonEmptyString d.sessionID = some entry.sessionID
  made : entry = newEntry d entry.sessionID entry.nonce
  returned : (decorate b entries d).1 = entry.expected
  drawn : generateNonce (pruneExpired b d.now entries) ((List.range 8).map d.randomUUID) =
    some entry.nonce
  left : (decorate b entries d).2 = evictOldestIfNeeded b (pruneExpired b d.now entries) ++ [entry]

theorem decorate_cases (b : Bridge) (entries : Entries) (d : Decoration) :
    (decorate b entries d = (d.rewritten, entries) ∧ isNonEmptyString d.sessionID = none) ∨
    (decorate b entries d = (d.rewritten, pruneExpired b d.now entries) ∧
      generateNonce (pruneExpired b d.now entries) ((List.range 8).map d.randomUUID) = none) ∨
    ∃ entry, Stores b entries d entry := by
  cases session : isNonEmptyString d.sessionID with
  | none => exact .inl ⟨by simp [decorate, session], rfl⟩
  | some sessionID =>
      cases drawn : generateNonce (pruneExpired b d.now entries) ((List.range 8).map d.randomUUID) with
      | none => exact .inr (.inl ⟨by simp [decorate, session, drawn], rfl⟩)
      | some nonce =>
          have unused := (generateNonce_eq_some drawn).2.2
          have kept : ∀ old ∈ evictOldestIfNeeded b (pruneExpired b d.now entries),
              old.nonce ≠ (newEntry d sessionID nonce).nonce :=
            fun old member => unused old ((evict_suffix _).subset member)
          refine .inr (.inr ⟨newEntry d sessionID nonce, session, rfl, ?_, drawn, ?_⟩)
          · simp [decorate, session, drawn]
          · simpa [decorate, session, drawn] using set_fresh kept

theorem Stores.expected (stores : Stores b entries d entry) :
    entry.expected = managedHeaderFor entry.nonce ++ d.rewritten := by
  rw [stores.made]
  rfl

end Decorating

section Consuming

def Env.Accepts (env : Env) (entry : Entry) : Prop :=
  (match entry.role with
    | some _ => env.assigns managedRoleEnv
    | none => (env.vars managedRoleEnv).isNone ∨ env.deletes managedRoleEnv) ∧
  env.assigns managedSessionEnv

def Env.identified (env : Env) (role : Option String) (sessionID : String) : Env :=
  { env with
    vars := Function.update (Function.update env.vars managedRoleEnv role) managedSessionEnv
      (some sessionID) }

theorem Env.assign_of {env : Env} {name value : String} (assigns : env.assigns name) :
    env.assign name value =
      some { env with vars := Function.update env.vars name (some value) } := by
  rw [Env.assign, if_pos assigns]

theorem Env.assign_refused {env : Env} {name value : String} (refuses : env.assigns name = false) :
    env.assign name value = none := by
  rw [Env.assign, refuses, if_neg Bool.false_ne_true]

theorem Env.delete_of {env : Env} {name : String}
    (deletes : (env.vars name).isNone ∨ env.deletes name) :
    env.delete name = some { env with vars := Function.update env.vars name none } := by
  rw [Env.delete, if_pos deletes]

theorem writeIdentity_of_accepts {env : Env} (accepts : env.Accepts entry) :
    writeIdentity entry env = (env.identified entry.role entry.sessionID, true) := by
  obtain ⟨cleared, assigned⟩ := accepts
  cases role : entry.role with
  | none =>
      simp only [role] at cleared
      simp only [writeIdentity, role, Env.delete_of cleared, Env.assign_of, assigned]
      rfl
  | some name =>
      simp only [role] at cleared
      simp only [writeIdentity, role, Env.assign_of, cleared, assigned]
      rfl

theorem writeIdentity_of_not_accepts {env : Env} (refuses : ¬env.Accepts entry) :
    (writeIdentity entry env).2 = false := by
  cases role : entry.role with
  | none =>
      simp only [Env.Accepts, role, not_and] at refuses
      by_cases cleared : (env.vars managedRoleEnv).isNone ∨ env.deletes managedRoleEnv
      · have refused := Bool.eq_false_iff.mpr (refuses cleared)
        simp only [writeIdentity, role, Env.delete_of cleared, Env.assign_refused, refused]
      · simp only [writeIdentity, role, Env.delete, if_neg cleared]
  | some name =>
      simp only [Env.Accepts, role, not_and] at refuses
      by_cases assigned : env.assigns managedRoleEnv
      · have refused := Bool.eq_false_iff.mpr (refuses assigned)
        simp only [writeIdentity, role, Env.assign_of assigned, Env.assign_refused, refused]
      · have refused := Bool.eq_false_iff.mpr assigned
        simp only [writeIdentity, role, Env.assign_refused, refused]

/-- The command of the event is the one a live entry expects. -/
structure Matches (b : Bridge) (entries : Entries) (event : ShellEvent) (now : ℚ) (entry : Entry) : Prop where
  command : event.command = some entry.expected
  header : parseManagedNonce entry.expected = some entry.nonce
  stored : entries.get entry.nonce = some entry
  live : expired b now entry = false

theorem consume_thrown (found : Matches b entries event now entry)
    (fixed : event.setsCommand = false) :
    consume b entries event now = (.threw, event, entries.delete entry.nonce) := by
  simp [consume, found.command, found.header, found.stored, found.live, fixed]

section Stripped
variable (found : Matches b entries event now entry) (sets : event.setsCommand = true)
include found sets

theorem consume_unplaced (unplaced : event.takenEnv = none) :
    consume b entries event now = (.threw,
      { event with command := some (entry.expected.drop (managedHeaderFor entry.nonce).length) },
      entries.delete entry.nonce) := by
  simp [consume, found.command, found.header, found.stored, found.live, sets, unplaced]

theorem consume_matching {env : Env} (taken : event.takenEnv = some env) :
    consume b entries event now =
      (if (writeIdentity entry env).2 then .consumed entry.nonce entry.role entry.sessionID
        else .refused .envFailed,
        { event with
          command := some (entry.expected.drop (managedHeaderFor entry.nonce).length)
          env := some (writeIdentity entry env).1 },
        entries.delete entry.nonce) := by
  simp only [consume, found.command, found.header, found.stored, found.live, sets, taken]
  cases written : writeIdentity entry env with
  | mk env all => cases all <;> simp

end Stripped

theorem consume_other (unmatched : ∀ entry, ¬Matches b entries event now entry) :
    ∃ reason left, consume b entries event now = (.refused reason, event, left) ∧ left.Sublist entries := by
  cases command : event.command with
  | none => exact ⟨.missingCommand, _, by simp only [consume, command], List.Sublist.refl _⟩
  | some text =>
      cases header : parseManagedNonce text with
      | none => exact ⟨.noHeader, _, by simp only [consume, command, header], List.Sublist.refl _⟩
      | some nonce =>
          cases stored : entries.get nonce with
          | none =>
              exact ⟨.unknownNonce, _, by simp only [consume, command, header, stored],
                List.Sublist.refl _⟩
          | some entry =>
              have shrinks : (entries.delete nonce).Sublist entries := List.filter_sublist
              cases live : expired b now entry with
              | true =>
                  exact ⟨.expired, _, by simp only [consume, command, header, stored, live, if_true],
                    shrinks⟩
              | false =>
                  by_cases same : text = entry.expected
                  · obtain ⟨_, named⟩ := get_eq_some stored
                    subst same named
                    exact absurd ⟨command, header, stored, live⟩ (unmatched entry)
                  · refine ⟨.mismatch, _, ?_, shrinks⟩
                    simp [consume, command, header, stored, live, same]

theorem consume_left (found : Matches b entries event now entry) :
    (consume b entries event now).2.2 = entries.delete entry.nonce := by
  cases sets : event.setsCommand with
  | false => rw [consume_thrown found sets]
  | true =>
      cases taken : event.takenEnv with
      | none => rw [consume_unplaced found sets taken]
      | some env => rw [consume_matching found sets taken]

theorem consume_sublist : (consume b entries event now).2.2.Sublist entries := by
  by_cases found : ∃ entry, Matches b entries event now entry
  · obtain ⟨entry, found⟩ := found
    rw [consume_left found]
    exact List.filter_sublist
  · obtain ⟨reason, left, same, shrinks⟩ := consume_other (not_exists.mp found)
    rw [same]
    exact shrinks

end Consuming

section Runs

inductive Call
  | decorate (d : Decoration)
  | consume (event : ShellEvent) (now : ℚ)
  | cleanupByToolCallId (toolCallId : Option String) (now : ℚ)
  | size (now : ℚ)
  | clear

def perform (b : Bridge) (entries : Entries) : Call → Entries
  | .decorate d => (decorate b entries d).2
  | .consume event now => (consume b entries event now).2.2
  | .cleanupByToolCallId toolCallId now => (cleanupByToolCallId b entries toolCallId now).2
  | .size now => (size b entries now).2
  | .clear => clear

/-- The map before call `k` of the run, a new bridge's map being empty. -/
def entriesAt (b : Bridge) (calls : List Call) (k : Nat) : Entries :=
  stateAt (perform b) [] calls k

theorem perform_cases (b : Bridge) (entries : Entries) (c : Call) : (perform b entries c).Sublist entries ∨
    ∃ d entry, c = .decorate d ∧ Stores b entries d entry := by
  have prunes : ∀ now, (pruneExpired b now entries).Sublist entries := fun now => List.filter_sublist
  cases c with
  | decorate d =>
      obtain ⟨same, _⟩ | ⟨same, _⟩ | ⟨entry, stores⟩ := decorate_cases b entries d
      · exact .inl (by simp [perform, same])
      · exact .inl (by simpa [perform, same] using prunes d.now)
      · exact .inr ⟨d, entry, rfl, stores⟩
  | consume event now => exact .inl consume_sublist
  | cleanupByToolCallId toolCallId now =>
      left
      simp only [perform, cleanupByToolCallId]
      split
      · exact List.Sublist.refl _
      · exact List.filter_sublist.trans List.filter_sublist
  | size now => exact .inl (prunes now)
  | clear => exact .inl (List.nil_sublist _)

variable {calls : List Call} {i j k : Nat} {c : Call}

theorem entriesAt_succ (call : calls[k]? = some c) :
    entriesAt b calls (k + 1) = perform b (entriesAt b calls k) c :=
  stateAt_succ call

structure Issued (b : Bridge) (calls : List Call) (i j : Nat) (d : Decoration) (entry : Entry) :
    Prop where
  earlier : i < j
  call : calls[i]? = some (.decorate d)
  stores : Stores b (entriesAt b calls i) d entry
  held : ∀ k, i < k → k ≤ j → entry ∈ entriesAt b calls k

theorem Issued.extend (issued : Issued b calls i j d entry)
    (member : entry ∈ entriesAt b calls (j + 1)) : Issued b calls i (j + 1) d entry where
  earlier := issued.earlier.trans j.lt_succ_self
  call := issued.call
  stores := issued.stores
  held k after before := by
    obtain earlier | rfl := Nat.lt_or_eq_of_le before
    · exact issued.held k after (Nat.le_of_lt_succ earlier)
    · exact member

theorem issued_of_mem (member : entry ∈ entriesAt b calls j) :
    ∃ i d, Issued b calls i j d entry := by
  induction j generalizing entry with
  | zero => simp [entriesAt] at member
  | succ j ih =>
      cases call : calls[j]? with
      | none =>
          have same : entriesAt b calls (j + 1) = entriesAt b calls j := stateAt_beyond call
          obtain ⟨i, d, issued⟩ := ih (same ▸ member)
          exact ⟨i, d, issued.extend member⟩
      | some c =>
          have after := entriesAt_succ (b := b) call
          have kept : entry ∈ entriesAt b calls j →
              ∃ i d, Issued b calls i (j + 1) d entry := by
            intro old
            obtain ⟨i, d, issued⟩ := ih old
            exact ⟨i, d, issued.extend member⟩
          obtain fewer | ⟨d, new, rfl, stores⟩ :=
            perform_cases b (entriesAt b calls j) c
          · exact kept (fewer.subset (after ▸ member))
          · have left : entriesAt b calls (j + 1) = _ := after.trans stores.left
            have split := left ▸ member
            simp only [List.mem_append, List.mem_singleton] at split
            obtain old | rfl := split
            · exact kept (mem_pruneExpired.mp ((evict_suffix _).subset old)).1
            · refine ⟨j, d, j.lt_succ_self, call, stores, fun k after before => ?_⟩
              obtain rfl : k = j + 1 := by omega
              exact member

end Runs

section Identity

/-- What a consume call may do to its event: nothing, or what an earlier call promised. -/
structure Identifies (b : Bridge) (calls : List Call) (i j : Nat) (event : ShellEvent) (now : ℚ)
    (result : Consumption × ShellEvent × Entries) (d : Decoration) (entry : Entry) : Prop where
  issued : Issued b calls i j d entry
  command : event.command = some (decorate b (entriesAt b calls i) d).1
  session : d.sessionID = some entry.sessionID
  young : now - d.now ≤ b.ttlMs
  named : result.1 = .consumed entry.nonce (trustedRole d.role) entry.sessionID
  restored : result.2.1.command = some d.rewritten
  identified : result.2.1.env =
    some ((event.env.getD .empty).identified (trustedRole d.role) entry.sessionID)

def Consumption.Declined : Consumption → Prop
  | .consumed .. => False
  | .refused _ | .threw => True

/-- Managed shell identity over a whole run of calls on a bridge. -/
structure Unforgeable (b : Bridge) (calls : List Call) : Prop where
  bounded : ∀ k, (entriesAt b calls k).length ≤ b.capacity
  origin : ∃ origin : Nat → Nat,
    (∀ j event now, calls[j]? = some (.consume event now) →
      let result := consume b (entriesAt b calls j) event now
      result.1.Declined ∧ result.2.1 = event ∨
      ∃ d entry, Identifies b calls (origin j) j event now result d entry) ∧
    ∀ j j' event event' now now', calls[j]? = some (.consume event now) →
      calls[j']? = some (.consume event' now') →
      (consume b (entriesAt b calls j) event now).2.1 ≠ event →
      (consume b (entriesAt b calls j') event' now').2.1 ≠ event' →
      origin j = origin j' → j = j'

variable {calls : List Call} {i j j' : Nat} {event' : ShellEvent} {now' : ℚ}
  {result result' : Consumption × ShellEvent × Entries} {d' : Decoration} {entry' : Entry}

theorem session_eq {value : Option String} {text : String} (found : isNonEmptyString value = some text) :
    value = some text := by
  cases value with
  | none => simp [isNonEmptyString] at found
  | some own =>
      simp only [isNonEmptyString] at found
      split at found
      · exact found
      · cases found

/-- An event whose command a live entry expects refuses the write of its command, or has or takes an
environment that accepts the identity. -/
def Honours (b : Bridge) (entries : Entries) (event : ShellEvent) (now : ℚ) : Prop :=
  ∀ entry, Matches b entries event now entry → event.setsCommand = false ∨
    ∃ env, event.takenEnv = some env ∧ env.Accepts entry

theorem takenEnv_getD {env : Env} (taken : event.takenEnv = some env) : event.env.getD .empty = env := by
  unfold ShellEvent.takenEnv at taken
  cases own : event.env with
  | some given => simpa [own] using taken
  | none =>
      simp only [own] at taken
      split at taken
      · exact Option.some.inj taken
      · cases taken

theorem consume_identifies (honours : Honours b (entriesAt b calls j) event now) :
    (consume b (entriesAt b calls j) event now).1.Declined ∧
      (consume b (entriesAt b calls j) event now).2.1 = event ∨
    ∃ i d entry, Identifies b calls i j event now (consume b (entriesAt b calls j) event now) d entry := by
  by_cases found : ∃ entry, Matches b (entriesAt b calls j) event now entry
  · obtain ⟨entry, found⟩ := found
    cases sets : event.setsCommand with
    | false =>
        left
        rw [consume_thrown found sets]
        exact ⟨trivial, rfl⟩
    | true =>
        right
        obtain fixed | ⟨env, taken, accepts⟩ := honours entry found
        · exact absurd fixed (by simp [sets])
        obtain ⟨i, d, issued⟩ := issued_of_mem (get_eq_some found.stored).1
        have made := issued.stores.made
        have role : entry.role = trustedRole d.role := by rw [made]; rfl
        have stamped : entry.timestamp = d.now := by rw [made]; rfl
        have written := writeIdentity_of_accepts accepts
        have live := found.live
        refine ⟨i, d, entry, issued, ?_, session_eq issued.stores.session, ?_, ?_, ?_, ?_⟩
        · rw [issued.stores.returned, found.command]
        · simpa [expired, stamped] using live
        · simp [consume_matching found sets taken, written, role]
        · simp [consume_matching found sets taken, issued.stores.expected]
        · simp [consume_matching found sets taken, written, role, takenEnv_getD taken]
  · left
    obtain ⟨reason, left, same, -⟩ := consume_other (not_exists.mp found)
    rw [same]
    exact ⟨trivial, rfl⟩

theorem left_of_consumed {role : Option String} {sessionID : String}
    (consumed : (consume b entries event now).1 = .consumed nonce role sessionID) :
    (consume b entries event now).2.2 = entries.delete nonce := by
  by_cases found : ∃ entry, Matches b entries event now entry
  · obtain ⟨entry, found⟩ := found
    have named : entry.nonce = nonce := by
      cases sets : event.setsCommand with
      | false =>
          rw [consume_thrown found sets] at consumed
          cases consumed
      | true =>
          cases taken : event.takenEnv with
          | none =>
              rw [consume_unplaced found sets taken] at consumed
              cases consumed
          | some env =>
              rw [consume_matching found sets taken] at consumed
              dsimp only at consumed
              split at consumed
              · cases consumed
                rfl
              · cases consumed
    rw [consume_left found, named]
  · obtain ⟨reason, left, same, -⟩ := consume_other (not_exists.mp found)
    rw [same] at consumed
    cases consumed

theorem Identifies.not_later
    (first : Identifies b calls i j event now (consume b (entriesAt b calls j) event now) d entry)
    (call : calls[j]? = some (.consume event now))
    (second : Identifies b calls i j' event' now' result' d' entry') : ¬j < j' := by
  intro before
  have same : d = d' := by
    have calls := first.issued.call.symm.trans second.issued.call
    cases calls
    rfl
  subst same
  have nonces : entry.nonce = entry'.nonce :=
    Option.some.inj (first.issued.stores.drawn.symm.trans second.issued.stores.drawn)
  have held := second.issued.held (j + 1) (first.issued.earlier.trans j.lt_succ_self) before
  rw [entriesAt_succ call] at held
  simp only [perform, left_of_consumed first.named, mem_delete] at held
  exact held.2 nonces.symm

theorem bounded_of_roomy (roomy : 0 < b.capacity) (k : Nat) :
    (entriesAt b calls k).length ≤ b.capacity := by
  apply stateAt_invariant (P := fun entries : Entries => entries.length ≤ b.capacity)
  · exact Nat.zero_le _
  · intro entries c _ bounded
    obtain fewer | ⟨d, entry, rfl, stores⟩ := perform_cases b entries c
    · exact fewer.length_le.trans bounded
    · have evicted := evict_length roomy (pruneExpired b d.now entries)
      simp only [perform, stores.left, List.length_append, List.length_singleton]
      exact evicted

def Draws (d : Decoration) : Prop :=
  (isNonEmptyString d.sessionID).isSome ∧
    ∃ nonce ∈ (List.range 8).map d.randomUUID, noncePattern nonce

theorem empty_of_undrawn (undrawn : ∀ d, .decorate d ∈ calls → ¬Draws d) (k : Nat) :
    entriesAt b calls k = [] := by
  apply stateAt_invariant (P := fun entries : Entries => entries = [])
  · rfl
  · rintro _ c member rfl
    obtain fewer | ⟨d, entry, rfl, stores⟩ := perform_cases b [] c
    · exact List.sublist_nil.mp fewer
    · obtain ⟨fits, drawn, -⟩ := generateNonce_eq_some stores.drawn
      exact absurd ⟨by simp [stores.session], entry.nonce, drawn, fits⟩ (undrawn d member)

theorem Unforgeable.undrawn (holds : Unforgeable b calls) (none : b.capacity = 0)
    (d : Decoration) (member : .decorate d ∈ calls) : ¬Draws d := by
  rintro ⟨session, nonce, usable, fits⟩
  obtain ⟨sessionID, session⟩ := Option.isSome_iff_exists.mp session
  obtain ⟨j, call⟩ := List.getElem?_of_mem member
  have bounded : ∀ k, entriesAt b calls k = [] := fun k =>
    List.length_eq_zero_iff.mp (Nat.le_zero.mp (none ▸ holds.bounded k))
  have after := entriesAt_succ (b := b) call
  rw [bounded, bounded, perform] at after
  obtain ⟨drawn, generated⟩ := generateNonce_nil usable fits
  have live : pruneExpired b d.now [] = [] := rfl
  simp [decorate, session, live, generated, evictOldestIfNeeded, Entries.set, Entries.has] at after

theorem stripped_differs (found : Matches b (entriesAt b calls j) event now entry) :
    some (entry.expected.drop (managedHeaderFor entry.nonce).length) ≠ event.command := by
  intro same
  simp only [found.command, Option.some.injEq] at same
  have lengths := congrArg List.length same
  have header : 0 < (managedHeaderFor entry.nonce).length := by simp [managedHeaderFor]
  obtain ⟨i, d, issued⟩ := issued_of_mem (get_eq_some found.stored).1
  rw [issued.stores.expected, List.drop_left, List.length_append] at lengths
  omega

theorem Unforgeable.honours (holds : Unforgeable b calls)
    (call : calls[j]? = some (.consume event now)) : Honours b (entriesAt b calls j) event now := by
  intro entry found
  by_contra refuses
  obtain ⟨settable, refused⟩ := not_or.mp refuses
  have sets : event.setsCommand = true := by simpa using settable
  obtain ⟨origin, origins, -⟩ := holds.origin
  cases taken : event.takenEnv with
  | none =>
      obtain ⟨-, same⟩ | ⟨d, entry', identifies⟩ := origins j event now call
      · rw [consume_unplaced found sets taken] at same
        exact stripped_differs found (congrArg ShellEvent.command same)
      · have named := identifies.named
        simp [consume_unplaced found sets taken] at named
  | some env =>
      have failed := writeIdentity_of_not_accepts fun accepts => refused ⟨env, taken, accepts⟩
      obtain ⟨-, same⟩ | ⟨d, entry', identifies⟩ := origins j event now call
      · rw [consume_matching found sets taken] at same
        exact stripped_differs found (congrArg ShellEvent.command same)
      · have named := identifies.named
        simp [consume_matching found sets taken, failed] at named

theorem origins_of_honours (honours : ∀ j event now, calls[j]? = some (.consume event now) →
      Honours b (entriesAt b calls j) event now) (j : Nat) :
    ∃ i, ∀ event now, calls[j]? = some (.consume event now) →
      (consume b (entriesAt b calls j) event now).1.Declined ∧
        (consume b (entriesAt b calls j) event now).2.1 = event ∨
      ∃ d entry,
        Identifies b calls i j event now (consume b (entriesAt b calls j) event now) d entry := by
  by_cases call : ∃ event now, calls[j]? = some (.consume event now)
  · obtain ⟨event, now, call⟩ := call
    have unique : ∀ event' now', calls[j]? = some (.consume event' now') → event' = event ∧ now' = now := by
      intro event' now' call'
      have same := call.symm.trans call'
      cases same
      exact ⟨rfl, rfl⟩
    obtain refused | ⟨i, identifies⟩ := consume_identifies (honours j event now call)
    · refine ⟨0, fun event' now' call' => .inl ?_⟩
      obtain ⟨rfl, rfl⟩ := unique event' now' call'
      exact refused
    · refine ⟨i, fun event' now' call' => .inr ?_⟩
      obtain ⟨rfl, rfl⟩ := unique event' now' call'
      exact identifies
  · exact ⟨0, fun event now call' => absurd ⟨event, now, call'⟩ call⟩

/-- The identity of managed shells is unforgeable in exactly the runs whose matching events take
all of the writes or none, on a bridge with room for an entry. -/
theorem managed_identity_iff (options : Options) (calls : List Call) :
    Unforgeable (createManagedShellBridge options) calls ↔
      (∀ j event now, calls[j]? = some (.consume event now) →
        Honours (createManagedShellBridge options)
          (entriesAt (createManagedShellBridge options) calls j) event now) ∧
      (capacityOf options = 0 → ∀ d, .decorate d ∈ calls → ¬Draws d) := by
  constructor
  · exact fun holds => ⟨fun j event now => holds.honours, holds.undrawn⟩
  · rintro ⟨honours, undrawn⟩
    constructor
    · intro k
      obtain none | roomy := Nat.eq_zero_or_pos (capacityOf options)
      · simp [empty_of_undrawn (undrawn none) k]
      · exact bounded_of_roomy roomy k
    · choose origin origins using origins_of_honours honours
      refine ⟨origin, origins, ?_⟩
      intro j j' event event' now now' call call' changed changed' same
      obtain ⟨-, kept⟩ | ⟨d, entry, first⟩ := origins j event now call
      · exact absurd kept changed
      obtain ⟨-, kept⟩ | ⟨d', entry', second⟩ := origins j' event' now' call'
      · exact absurd kept changed'
      have before := first.not_later call (same ▸ second)
      have after := second.not_later call' (same ▸ first)
      omega

section Sample

def Env.frozen : Env where
  vars := fun _ => none
  assigns := fun _ => false
  deletes := fun _ => false

def sampleDecoration : Decoration where
  rewritten := "ls".toList
  sessionID := some "ses_a"
  role := none
  toolCallId := none
  now := 0
  randomUUID := fun _ => ['n']

def sampleEntry : Entry :=
  newEntry sampleDecoration "ses_a" ['n']

def sampleEvent (env : Env) : ShellEvent where
  command := some sampleEntry.expected
  env := some env
  setsCommand := true
  setsEnv := true

def sampleCalls (env : Env) : List Call :=
  [.decorate sampleDecoration, .consume (sampleEvent env) 0]

/-- A frozen environment is left without an identity, but its command loses the header. -/
theorem frozen_environment_strips_header :
    ¬Unforgeable (createManagedShellBridge ⟨none, none⟩) (sampleCalls .frozen) := by
  intro holds
  have stored : entriesAt (createManagedShellBridge ⟨none, none⟩) (sampleCalls .frozen) 1 =
      [sampleEntry] := by decide
  have found : Matches (createManagedShellBridge ⟨none, none⟩) [sampleEntry] (sampleEvent .frozen) 0
      sampleEntry := ⟨rfl, by decide +kernel, by decide +kernel, by decide +kernel⟩
  obtain fixed | ⟨env, taken, accepts⟩ := holds.honours (j := 1) rfl sampleEntry (stored ▸ found)
  · cases fixed
  · cases taken
    exact Bool.false_ne_true accepts.2

end Sample

end Identity

end Phasegent.Shell
