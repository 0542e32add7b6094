import Phasegent.Lease.Holder

namespace Phasegent.Lease
open Fallible Interleaving

section Names

/-- `format!("{:x}")`. -/
def lowerHex (n : Nat) : String := String.ofList (Nat.toDigits 16 n)

def shortHexSuffix (nanos counter : Nat) : String :=
  let mix := (nanos + counter * 0x9E3779B97F4A7C15) % 2 ^ 64
  String.ofList (hexDigits (mix % 2 ^ 24) 6)

def newLeaseId (secs counter : Nat) : String :=
  "lease-" ++ lowerHex secs ++ "-" ++ lowerHex counter

theorem hexDigit_injective {a b : Nat} (smallA : a < 16) (smallB : b < 16)
    (same : a.digitChar = b.digitChar) : a = b := by
  have table : ∀ a < 16, ∀ b < 16, a.digitChar = b.digitChar → a = b := by decide
  exact table a smallA b smallB same

theorem toDigits_injective {a b : Nat} (same : Nat.toDigits 16 a = Nat.toDigits 16 b) : a = b := by
  induction a using Nat.strong_induction_on generalizing b with
  | _ a ih =>
      have lengths := congrArg List.length same
      rw [Nat.toDigits_eq_if (by decide), Nat.toDigits_eq_if (n := b) (by decide)] at same lengths
      have some := Nat.length_toDigits_pos (b := 16) (n := a / 16)
      have some' := Nat.length_toDigits_pos (b := 16) (n := b / 16)
      by_cases smallA : a < 16
      · by_cases smallB : b < 16
        · simp only [smallA, smallB, ↓reduceIte, List.cons.injEq, and_true] at same
          exact hexDigit_injective smallA smallB same
        · simp only [smallA, smallB, ↓reduceIte, List.length_append, List.length_singleton] at lengths
          omega
      · by_cases smallB : b < 16
        · simp only [smallA, smallB, ↓reduceIte, List.length_append, List.length_singleton] at lengths
          omega
        · simp only [smallA, smallB, ↓reduceIte] at same
          obtain ⟨front, last⟩ := List.append_inj' same rfl
          have high := ih (a / 16) (by omega) front
          have low := hexDigit_injective (Nat.mod_lt a (by decide)) (Nat.mod_lt b (by decide))
            (List.cons.inj last).1
          omega

theorem dash_notMem_toDigits (n : Nat) : '-' ∉ Nat.toDigits 16 n := by
  induction n using Nat.strong_induction_on with
  | _ n ih =>
      rw [Nat.toDigits_eq_if (by decide)]
      by_cases small : n < 16
      · simp [small]
      · have before := ih (n / 16) (by omega)
        simp [small, before]

theorem newLeaseId_injective {secs secs' counter counter' : Nat}
    (same : newLeaseId secs counter = newLeaseId secs' counter') :
    (secs, counter) = (secs', counter') := by
  have chars := congrArg String.toList same
  simp only [newLeaseId, lowerHex, String.toList_append, String.toList_ofList, List.append_assoc,
    List.append_cancel_left_eq] at chars
  have dash : "-".toList = ['-'] := rfl
  rw [dash, List.cons_append, List.cons_append, List.nil_append, List.nil_append] at chars
  rw [List.append_cons_inj_of_notMem (dash_notMem_toDigits _) (dash_notMem_toDigits _)] at chars
  exact Prod.ext (toDigits_injective chars.1) (toDigits_injective chars.2.2)

end Names

section Calls
variable {F : Type}

structure Clock where
  secs : Pid → Nat → Nat
  nanos : Pid → Nat → Nat

def LeaseOp.draws : LeaseOp → Bool
  | .newLeaseId | .shortHexSuffix => true
  | _ => false

def LeaseOp.mints : LeaseOp → Bool
  | .newLeaseId => true
  | _ => false

-- `SHORT_SUFFIX_COUNTER` of a process, which starts at zero.
def drawn (i : Pid) (past : Past F) : Nat :=
  past.countP fun event => event.pid == i && event.effect.draws

def Mints (clock : Clock) (i : Pid) (s : (LeaseDb × F) × Past F) : (op : LeaseOp) → op.Ret → Prop
  | .newLeaseId, leaseId => leaseId = newLeaseId (clock.secs i (drawn i s.2)) (drawn i s.2)
  | .shortHexSuffix, suffix => suffix = shortHexSuffix (clock.nanos i (drawn i s.2)) (drawn i s.2)
  | _, _ => True

instance (clock : Clock) (i : Pid) (s : (LeaseDb × F) × Past F) (op : LeaseOp) (answer : op.Ret) :
    Decidable (Mints clock i s op answer) := by
  cases op with
  | newLeaseId => exact inferInstanceAs (Decidable (answer = newLeaseId _ _))
  | shortHexSuffix => exact inferInstanceAs (Decidable (answer = shortHexSuffix _ _))
  | _ => exact inferInstanceAs (Decidable True)

def mintingWorld (urls : UrlLibrary) (outside : F → (op : LeaseOp) → op.Ret → F → Prop)
    (clock : Clock) : World ((LeaseDb × F) × Past F) LeaseOp LeaseOp.Ret :=
  (leaseWorld urls outside).record.guard (Mints clock)

def minted (clock : Clock) : Past F → List (Pid × Nat × Nat)
  | [] => []
  | event :: past =>
      if event.effect.mints then
        (event.pid, clock.secs event.pid (drawn event.pid past), drawn event.pid past) ::
          minted clock past
      else minted clock past

def LeaseOp.attempted : LeaseOp → List LeaseRow
  | .sql op => op.inserted
  | _ => []

/-- Nobody calls `new_lease_id` in a second and at a counter that another process, or one of those
that left the rows the store started with, called it. -/
def Apart (clock : Clock) (born : List (Nat × Nat)) (i : Pid) (s : (LeaseDb × F) × Past F)
    (op : LeaseOp) (_ : op.Ret) : Prop :=
  op.mints → (clock.secs i (drawn i s.2), drawn i s.2) ∉ born ∧
    ∀ call ∈ minted clock s.2, call.1 ≠ i → call.2 ≠ (clock.secs i (drawn i s.2), drawn i s.2)

instance (clock : Clock) (born : List (Nat × Nat)) (i : Pid) (s : (LeaseDb × F) × Past F)
    (op : LeaseOp) (answer : op.Ret) : Decidable (Apart clock born i s op answer) :=
  inferInstanceAs (Decidable (op.mints → _ ∧ ∀ call ∈ minted clock s.2, _))

end Calls

section Uniqueness
variable {F : Type} {urls : UrlLibrary} {outside : F → (op : LeaseOp) → op.Ret → F → Prop}
  {clock : Clock} {born : List (Nat × Nat)} {i : Pid}

theorem LeaseStep.rows {s s' : LeaseDb × F} {op : LeaseOp} {answer : op.Ret}
    (step : LeaseStep urls outside s op answer s') :
    ∀ row' ∈ s'.1.leases, (∃ row ∈ s.1.leases, row.leaseId = row'.leaseId) ∨ row' ∈ op.attempted := by
  refine step.related (fun op' _ => op'.attempted = op.attempted)
    (fun db db' => ∀ row' ∈ db'.leases,
      (∃ row ∈ db.leases, row.leaseId = row'.leaseId) ∨ row' ∈ op.attempted) ?_ ?_ rfl
  · intro row' member
    exact Or.inl ⟨row', member, rfl⟩
  · intro op' a db' run same row' member
    obtain ⟨edit, rows, moved⟩ := (tx_writes run).leases
    rw [rows, List.mem_append] at member
    cases member with
    | inl edited =>
        obtain ⟨row, old, rfl⟩ := List.mem_map.mp edited
        exact Or.inl ⟨row, old, (moved row old).1.leaseId.symm⟩
    | inr fresh => exact Or.inr (same ▸ fresh)

theorem drawn_cons_le (event : Event (LeaseDb × F) LeaseOp LeaseOp.Ret) (past : Past F) :
    drawn i past ≤ drawn i (event :: past) := by
  rw [drawn, drawn, List.countP_cons]
  exact Nat.le_add_right _ _

theorem minted_cons_subset (clock : Clock) (event : Event (LeaseDb × F) LeaseOp LeaseOp.Ret)
    (past : Past F) : minted clock past ⊆ minted clock (event :: past) := by
  intro call member
  rw [minted]
  split
  · exact List.mem_cons_of_mem _ member
  · exact member

/-- What runs without a repeated call keep: calls and rows are told apart by what they read. -/
structure Sound (clock : Clock) (born : List (Nat × Nat)) (s : (LeaseDb × F) × Past F) : Prop where
  distinct : ((minted clock s.2).map (·.2)).Nodup
  unborn : ∀ call ∈ minted clock s.2, call.2 ∉ born
  behind : ∀ call ∈ minted clock s.2, call.2.2 < drawn call.1 s.2
  named : ∀ row ∈ s.1.1.leases, ∃ read, row.leaseId = newLeaseId read.1 read.2 ∧
    (read ∈ born ∨ ∃ call ∈ minted clock s.2, call.2 = read)
  free : ∀ event ∈ s.2, ∀ row ∈ event.effect.attempted, ∀ old ∈ event.before.1.leases,
    old.leaseId ≠ row.leaseId

def Unspent (clock : Clock) (i : Pid) (leaseId : String) (s : (LeaseDb × F) × Past F) : Prop :=
  ∃ read, leaseId = newLeaseId read.1 read.2 ∧ (i, read) ∈ minted clock s.2 ∧
    ∀ row ∈ s.1.1.leases, row.leaseId ≠ leaseId

def mintingContract (clock : Clock) (born : List (Nat × Nat)) :
    Contract ((LeaseDb × F) × Past F) where
  Inv := Sound clock born
  guarantee j s s' := s' = s ∨ ∃ event : Event (LeaseDb × F) LeaseOp LeaseOp.Ret, event.pid = j ∧
    s'.2 = event :: s.2 ∧ ∀ row' ∈ s'.1.1.leases,
      (∃ row ∈ s.1.1.leases, row.leaseId = row'.leaseId) ∨
        ∃ read, row'.leaseId = newLeaseId read.1 read.2 ∧ (j, read) ∈ minted clock s.2

theorem Sound.owner {s : (LeaseDb × F) × Past F} (sound : Sound clock born s) {i j : Pid}
    {read read' : Nat × Nat} (mine : (i, read) ∈ minted clock s.2)
    (theirs : (j, read') ∈ minted clock s.2)
    (same : newLeaseId read.1 read.2 = newLeaseId read'.1 read'.2) : i = j := by
  have sameRead : read = read' := newLeaseId_injective same
  have sameCall := List.inj_on_of_nodup_map sound.distinct mine theirs sameRead
  exact congrArg Prod.fst sameCall

theorem stable_unspent (leaseId : String) :
    (mintingContract (F := F) clock born).Stable i (Unspent clock i leaseId) := by
  intro s s' _ sound' moved unspent
  obtain ⟨j, other, given⟩ := moved
  obtain ⟨read, named, mine, unused⟩ := unspent
  cases given with
  | inl same =>
      rw [same]
      exact ⟨read, named, mine, unused⟩
  | inr recorded =>
      obtain ⟨event, -, past, rows⟩ := recorded
      have kept : minted clock s.2 ⊆ minted clock s'.2 := by
        rw [past]
        exact minted_cons_subset clock event s.2
      refine ⟨read, named, kept mine, ?_⟩
      intro row' member same
      cases rows row' member with
      | inl old =>
          obtain ⟨row, member, sameId⟩ := old
          exact unused row member (sameId.trans same)
      | inr fresh =>
          obtain ⟨read', named', theirs⟩ := fresh
          have owner := sound'.owner (kept mine) (kept theirs)
            (named.symm.trans (same.symm.trans named'))
          exact other owner.symm

theorem minting_step {s s' : (LeaseDb × F) × Past F} {op : LeaseOp} {answer : op.Ret}
    (sound : Sound clock born s)
    (step : ((mintingWorld urls outside clock).guard (Apart clock born)).step i s op answer s')
    (own : ∀ row ∈ op.attempted, Unspent clock i row.leaseId s) :
    Sound clock born s' ∧ (mintingContract (F := F) clock born).guarantee i s s' := by
  obtain ⟨⟨⟨stepped, past⟩, -⟩, apart⟩ := step
  have rows := stepped.rows
  have kept : minted clock s.2 ⊆ minted clock s'.2 := by
    rw [past]
    exact minted_cons_subset clock _ s.2
  have grown : ∀ j, drawn j s.2 ≤ drawn j s'.2 := by
    intro j
    rw [past]
    exact drawn_cons_le _ _
  have came : ∀ row' ∈ s'.1.1.leases, (∃ row ∈ s.1.1.leases, row.leaseId = row'.leaseId) ∨
      ∃ read, row'.leaseId = newLeaseId read.1 read.2 ∧ (i, read) ∈ minted clock s.2 := by
    intro row' member
    cases rows row' member with
    | inl old => exact Or.inl old
    | inr fresh =>
        obtain ⟨read, named, mine, -⟩ := own row' fresh
        exact Or.inr ⟨read, named, mine⟩
  refine ⟨?_, Or.inr ⟨_, rfl, past, came⟩⟩
  have named : ∀ row' ∈ s'.1.1.leases, ∃ read, row'.leaseId = newLeaseId read.1 read.2 ∧
      (read ∈ born ∨ ∃ call ∈ minted clock s'.2, call.2 = read) := by
    intro row' member
    cases came row' member with
    | inl old =>
        obtain ⟨row, member, same⟩ := old
        obtain ⟨read, ofRead, source⟩ := sound.named row member
        refine ⟨read, same.symm.trans ofRead, source.imp_right ?_⟩
        intro ⟨call, before, same⟩
        exact ⟨call, kept before, same⟩
    | inr fresh =>
        obtain ⟨read, ofRead, mine⟩ := fresh
        exact ⟨read, ofRead, Or.inr ⟨_, kept mine, rfl⟩⟩
  have free : ∀ event ∈ s'.2, ∀ row ∈ event.effect.attempted, ∀ old ∈ event.before.1.leases,
      old.leaseId ≠ row.leaseId := by
    rw [past, List.forall_mem_cons]
    refine ⟨?_, sound.free⟩
    intro row attempted old member
    obtain ⟨read, -, -, unused⟩ := own row attempted
    exact unused old member
  by_cases mints : op.mints
  · have calls : minted clock s'.2 =
        (i, clock.secs i (drawn i s.2), drawn i s.2) :: minted clock s.2 := by
      rw [past, minted, if_pos mints]
    obtain ⟨unborn, others⟩ := apart mints
    have counted : drawn i s'.2 = drawn i s.2 + 1 := by
      have draws : op.draws := by
        cases op with
        | newLeaseId => rfl
        | _ => cases mints
      rw [past, drawn, List.countP_cons]
      simp [draws, drawn]
    refine ⟨?_, ?_, ?_, named, free⟩
    · rw [calls, List.map_cons, List.nodup_cons]
      refine ⟨?_, sound.distinct⟩
      intro repeated
      obtain ⟨call, member, same⟩ := List.mem_map.mp repeated
      by_cases mine : call.1 = i
      · have before := sound.behind call member
        rw [mine, same] at before
        exact Nat.lt_irrefl _ before
      · exact others call member mine same
    · rw [calls, List.forall_mem_cons]
      exact ⟨unborn, sound.unborn⟩
    · rw [calls, List.forall_mem_cons]
      refine ⟨by rw [counted]; exact Nat.lt_succ_self _, ?_⟩
      intro call member
      exact Nat.lt_of_lt_of_le (sound.behind call member) (grown call.1)
  · have calls : minted clock s'.2 = minted clock s.2 := by
      rw [past, minted, if_neg mints]
    refine ⟨by rw [calls]; exact sound.distinct, by rw [calls]; exact sound.unborn, ?_, named, free⟩
    rw [calls]
    intro call member
    exact Nat.lt_of_lt_of_le (sound.behind call member) (grown call.1)

section Programs
variable {P : (LeaseDb × F) × Past F → Prop}

abbrev apartWorld (urls : UrlLibrary) (outside : F → (op : LeaseOp) → op.Ret → F → Prop)
    (clock : Clock) (born : List (Nat × Nat)) :
    World ((LeaseDb × F) × Past F) LeaseOp LeaseOp.Ret :=
  (mintingWorld urls outside clock).guard (Apart clock born)

theorem stable_true : (mintingContract (F := F) clock born).Stable i fun _ => True :=
  Contract.stable_const i True

def Storeless (op : LeaseOp) : Prop := op.attempted = []

theorem External.storeless (op : LeaseOp) (external : External op) : Storeless op := by
  cases op with
  | sql op => cases external
  | _ => rfl

theorem Quiet.storeless (op : LeaseOp) (quiet : Quiet op) : Storeless op := by
  cases op with
  | sql op =>
      cases op with
      | insertLease lease => exact absurd (quiet.idle (.ok ())) (by simp [inserted])
      | insertLeaseScoped lease scope repoKey => exact absurd quiet.plain (by simp [LeaseOp.plain, SqlOp.isScopedInsert])
      | _ => rfl
  | _ => rfl

theorem storeless_step {s s' : (LeaseDb × F) × Past F} {op : LeaseOp} {answer : op.Ret}
    (sound : Sound clock born s) (storeless : Storeless op)
    (step : (apartWorld urls outside clock born).step i s op answer s') :
    Sound clock born s' ∧ (mintingContract (F := F) clock born).guarantee i s s' := by
  apply minting_step sound step
  intro row attempted
  rw [storeless] at attempted
  cases attempted

theorem minting_idle {α : Type} {p : LeaseM α} (performs : Performs Storeless p) :
    Hoare (apartWorld urls outside clock born) (mintingContract (F := F) clock born) i
      (fun _ => True) p fun _ _ => True := by
  apply hoare_performs stable_true _ performs
  intro s op answer s' sound _ storeless step
  obtain ⟨sound', given⟩ := storeless_step sound storeless step
  exact ⟨sound', given, trivial⟩

theorem minting_external {α : Type} {p : LeaseM α} (performs : Performs External p) :
    Hoare (apartWorld urls outside clock born) (mintingContract (F := F) clock born) i
      (fun _ => True) p fun _ _ => True :=
  minting_idle (performs.mono External.storeless)

theorem minting_newLeaseId :
    Hoare (apartWorld urls outside clock born) (mintingContract (F := F) clock born) i
      (fun _ => True) (ask .newLeaseId) (Unspent clock i) := by
  refine hoare_request stable_true stable_unspent ?_
  intro s leaseId s' sound _ step
  obtain ⟨sound', given⟩ := storeless_step sound (External.storeless .newLeaseId rfl) step
  refine ⟨sound', given, ?_⟩
  obtain ⟨⟨⟨stepped, past⟩, minting⟩, apart⟩ := step
  have named : leaseId = newLeaseId (clock.secs i (drawn i s.2)) (drawn i s.2) := minting
  have calls : minted clock s'.2 =
      (i, clock.secs i (drawn i s.2), drawn i s.2) :: minted clock s.2 := by
    rw [past, minted, if_pos (by simp [LeaseOp.mints])]
  refine ⟨(clock.secs i (drawn i s.2), drawn i s.2), named, ?_, ?_⟩
  · rw [calls]
    exact List.mem_cons_self
  · intro row' member same
    obtain ⟨row, old, sameId⟩ := (stepped.rows row' member).resolve_right (by simp [LeaseOp.attempted])
    obtain ⟨read, ofRead, source⟩ := sound.named row old
    have reads : read = (clock.secs i (drawn i s.2), drawn i s.2) :=
      newLeaseId_injective (ofRead.symm.trans (sameId.trans (same.trans named)))
    obtain ⟨unborn, -⟩ := apart rfl
    cases source with
    | inl before => exact unborn (reads ▸ before)
    | inr call =>
        obtain ⟨call, member, same⟩ := call
        have fresh := sound'.distinct
        rw [calls, List.map_cons, List.nodup_cons] at fresh
        exact fresh.1 (List.mem_map.mpr ⟨call, member, same.trans reads⟩)

theorem minting_clock (leaseId : String) :
    Hoare (apartWorld urls outside clock born) (mintingContract (F := F) clock born) i
      (Unspent clock i leaseId) (ask .nowUnixSecs) fun _ => Unspent clock i leaseId := by
  refine hoare_request (stable_unspent leaseId) (fun _ => stable_unspent leaseId) ?_
  intro s now s' sound unspent step
  obtain ⟨sound', given⟩ := storeless_step sound (External.storeless .nowUnixSecs rfl) step
  refine ⟨sound', given, ?_⟩
  obtain ⟨read, named, mine, unused⟩ := unspent
  have past := step.1.1.2
  refine ⟨read, named, ?_, ?_⟩
  · rw [past]
    exact minted_cons_subset clock _ s.2 mine
  · intro row' member same
    obtain ⟨row, old, sameId⟩ :=
      (step.1.1.1.rows row' member).resolve_right (by simp [LeaseOp.attempted])
    exact unused row old (sameId.trans same)

theorem minting_insertSelected {request : AcquireRequest} {lease : NewLease} {leaseId : String}
    (own : lease.leaseId = leaseId) :
    Hoare (apartWorld urls outside clock born) (mintingContract (F := F) clock born) i
      (Unspent clock i leaseId) (insertSelectedLease request lease) fun _ _ => True := by
  subst own
  have stores : ∀ op : SqlOp, op.inserted = [lease.row] → ∀ s answer s',
      Sound clock born s → Unspent clock i lease.leaseId s →
      (apartWorld (F := F) urls outside clock born).step i s (.sql op) answer s' →
      Sound clock born s' ∧ (mintingContract (F := F) clock born).guarantee i s s' := by
    intro op stores s answer s' sound unspent step
    apply minting_step sound step
    intro row attempted
    rw [LeaseOp.attempted, stores, List.mem_singleton] at attempted
    rw [attempted]
    exact unspent
  unfold insertSelectedLease
  cases request.scope with
  | none =>
      refine hoare_sql (stable_unspent _) (fun _ => stable_true) ?_
      intro s answer s' sound unspent step
      obtain ⟨sound', given⟩ := stores _ rfl s answer s' sound unspent step
      exact ⟨sound', given, by cases answer <;> trivial⟩
  | some scope =>
      refine hoare_sql (stable_unspent _) (fun _ => stable_true) ?_
      intro s answer s' sound unspent step
      obtain ⟨sound', given⟩ := stores _ rfl s answer s' sound unspent step
      exact ⟨sound', given, by cases answer <;> trivial⟩

section Acquire
variable {request : AcquireRequest}

theorem minting_withWarnings {result : LeaseM AcquireOutcome} (warnings : List String)
    (hoare : Hoare (apartWorld urls outside clock born) (mintingContract (F := F) clock born) i
      (fun _ => True) result fun _ _ => True) :
    Hoare (apartWorld urls outside clock born) (mintingContract (F := F) clock born) i
      (fun _ => True) (withWarnings result warnings) fun _ _ => True := by
  refine hoare_bind hoare fun outcome => ?_
  refine hoare_bind (minting_external (external_ask rfl)) fun finalized => ?_
  exact hoare_pure stable_true fun _ _ _ => trivial

theorem minting_reuseCurrent :
    Hoare (apartWorld urls outside clock born) (mintingContract (F := F) clock born) i
      (fun _ => True) (acquireReuseCurrent request) fun _ _ => True := by
  refine hoare_bind (minting_external (performs_attempt (external_ask rfl))) fun branch => ?_
  refine hoare_bind minting_newLeaseId fun leaseId => ?_
  refine hoare_bind (minting_clock leaseId) fun now => ?_
  refine hoare_bind (minting_insertSelected rfl) fun _ => ?_
  exact hoare_pure stable_true fun _ _ _ => trivial

theorem minting_insertOrRemove {lease : NewLease} {leaseId : String}
    (own : lease.leaseId = leaseId) :
    Hoare (apartWorld urls outside clock born) (mintingContract (F := F) clock born) i
      (Unspent clock i leaseId) (insertOrRemove request lease) fun _ _ => True := by
  apply hoare_tryCatch (fun _ => stable_true) (minting_insertSelected own)
  intro error
  exact hoare_bind (minting_external (external_ask rfl)) fun _ => hoare_throw

theorem minting_newWorktree (base : Option String) :
    Hoare (apartWorld urls outside clock born) (mintingContract (F := F) clock born) i
      (fun _ => True) (acquireNewWorktree request base) fun _ _ => True := by
  refine hoare_bind (minting_external (probing_validateBase _ base).external) fun _ => ?_
  refine hoare_bind (minting_external (probing_nameWorktree request).external) fun tree => ?_
  refine hoare_bind (minting_external (external_ask rfl)) fun present => ?_
  refine hoare_bind (minting_external (performs_fromExcept _)) fun _ => ?_
  refine hoare_bind (minting_external (performs_attempt (external_ask rfl))) fun _ => ?_
  refine hoare_bind minting_newLeaseId fun leaseId => ?_
  refine hoare_bind (minting_clock leaseId) fun now => ?_
  refine hoare_bind (minting_insertOrRemove rfl) fun _ => ?_
  exact hoare_pure stable_true fun _ _ _ => trivial

theorem minting_occupied (occupant : LeaseRow) (warnings : List String) :
    Hoare (apartWorld urls outside clock born) (mintingContract (F := F) clock born) i
      (fun _ => True) (acquireOccupied request occupant warnings) fun _ _ => True := by
  unfold acquireOccupied
  extract_lets trigger
  split
  · exact hoare_throw
  · exact minting_withWarnings _ (minting_newWorktree _)

theorem minting_free (warnings : List String) :
    Hoare (apartWorld urls outside clock born) (mintingContract (F := F) clock born) i
      (fun _ => True) (acquireFree request warnings) fun _ _ => True := by
  unfold acquireFree
  split
  · exact minting_withWarnings _ (minting_newWorktree _)
  · exact minting_withWarnings _ minting_reuseCurrent

theorem minting_fresh :
    Hoare (apartWorld urls outside clock born) (mintingContract (F := F) clock born) i
      (fun _ => True) (acquireFresh request) fun _ _ => True := by
  unfold acquireFresh
  split
  · exact minting_withWarnings _ (minting_newWorktree _)
  · refine hoare_bind (minting_external (probing_probeDirtyState _).external) fun probed => ?_
    dsimp only
    split
    · exact minting_withWarnings _ (minting_newWorktree _)
    · refine hoare_bind (minting_idle (performs_sql rfl)) fun found => ?_
      cases found with
      | some occupant => exact minting_occupied occupant _
      | none => exact minting_free _

theorem minting_inner :
    Hoare (apartWorld urls outside clock born) (mintingContract (F := F) clock born) i
      (fun _ => True) (acquireLeaseInner request) fun _ _ => True := by
  have lookup : Performs Storeless (findExisting request) := by
    unfold findExisting
    split
    · exact performs_sql rfl
    · exact performs_sql rfl
  refine hoare_bind (minting_idle lookup) fun found => ?_
  cases found with
  | none => exact minting_fresh
  | some existing =>
      refine hoare_bind (minting_external (external_ask rfl)) fun now => ?_
      refine hoare_bind (minting_idle (performs_sql rfl)) fun _ => ?_
      exact minting_withWarnings _ (hoare_pure stable_true fun _ _ _ => trivial)

theorem minting_some {p : LeaseM AcquireOutcome}
    (hoare : Hoare (apartWorld urls outside clock born) (mintingContract (F := F) clock born) i
      (fun _ => True) p fun _ _ => True) :
    Hoare (apartWorld urls outside clock born) (mintingContract (F := F) clock born) i
      (fun _ => True) (do return some (← p)) fun _ _ => True :=
  hoare_bind hoare fun _ => hoare_pure stable_true fun _ _ _ => trivial

theorem minting_run (command : Command) :
    Hoare (apartWorld urls outside clock born) (mintingContract (F := F) clock born) i
      (fun _ => True) command.run fun _ _ => True := by
  cases command with
  | acquire identity repoPath issue session options =>
      apply minting_some
      exact hoare_bind (minting_external (performs_fromExcept _)) fun _ => minting_inner
  | acquireScoped identity repoPath session options scope =>
      apply minting_some
      refine hoare_bind (minting_external (performs_fromExcept _)) fun _ => ?_
      refine hoare_bind (minting_idle (performs_sql rfl)) fun _ => ?_
      exact hoare_bind (minting_external (external_ask rfl)) fun repoKey => minting_inner
  | _ =>
      apply minting_idle
      apply Performs.mono (quiet_run rfl _) Quiet.storeless
      intro _ _ _ _ _ same
      cases same

end Acquire

end Programs

/-- No acquire meets a row under the id it has just minted, while no two processes mint in one
second at one value of their counters. -/
theorem lease_ids_identify (commands : Pid → Option Command) {start : LeaseDb × F}
    {c : Config ((LeaseDb × F) × Past F) LeaseOp LeaseOp.Ret
      (Except WorktreeError (Option AcquireOutcome))}
    (named : ∀ row ∈ start.1.leases, ∃ read ∈ born, row.leaseId = newLeaseId read.1 read.2)
    (run : Run ((mintingWorld urls outside clock).guard (Apart clock born))
      (fleet commands start).record c) :
    ∀ event ∈ c.shared.2, ∀ row ∈ event.effect.attempted, ∀ old ∈ event.before.1.leases,
      old.leaseId ≠ row.leaseId := by
  have initial : Sound clock born ((fleet commands start).record).shared := by
    refine ⟨List.nodup_nil, by simp [Config.record, minted], by simp [Config.record, minted], ?_,
      by simp [Config.record]⟩
    intro row member
    obtain ⟨read, before, ofRead⟩ := named row member
    exact ⟨read, ofRead, Or.inl before⟩
  have safe : c.Safe (apartWorld urls outside clock born) (mintingContract clock born)
      fun _ result s => OnOk (fun _ _ => True) result s := by
    refine run.safe ?_ ⟨initial, ?_⟩
    · intro j s s' sound crashed
      have same : s' = s := Prod.ext crashed.1 crashed.2
      rw [same]
      exact ⟨sound, Or.inl rfl⟩
    · intro j p running
      obtain ⟨command, -, rfl⟩ := Option.map_eq_some_iff.mp running
      exact (minting_run command).triple _ initial trivial
  exact safe.1.free

end Uniqueness

section Collision

def stillMachine (_ : Unit) (op : LeaseOp) (answer : op.Ret) (_ : Unit) : Prop :=
  op.draws = false → answer = (sandbox 100 op).1

def drawing (clock : Clock) (i : Pid) (s : (LeaseDb × Unit) × Past Unit) : (op : LeaseOp) → op.Ret
  | .sql op => ((op.tx forgejoTest).commit s.1.1).1
  | .newLeaseId => newLeaseId (clock.secs i (drawn i s.2)) (drawn i s.2)
  | .shortHexSuffix => shortHexSuffix (clock.nanos i (drawn i s.2)) (drawn i s.2)
  | op => (sandbox 100 op).1

def written (s : LeaseDb × Unit) : LeaseOp → LeaseDb × Unit
  | .sql op => (((op.tx forgejoTest).commit s.1).2, ())
  | _ => s

def mint (clock : Clock) (i : Pid) (s : (LeaseDb × Unit) × Past Unit) (op : LeaseOp) :
    op.Ret × ((LeaseDb × Unit) × Past Unit) :=
  (drawing clock i s op, written s.1 op, ⟨i, op, drawing clock i s op, s.1, written s.1 op⟩ :: s.2)

theorem mint_sound (clock : Clock) (i : Pid) (s : (LeaseDb × Unit) × Past Unit) (op : LeaseOp) :
    (mintingWorld forgejoTest stillMachine clock).step i s op (mint clock i s op).1
      (mint clock i s op).2 := by
  refine ⟨⟨?_, rfl⟩, ?_⟩
  · cases op with
    | sql op => exact .sql
    | newLeaseId => exact .outside rfl fun drawn => by cases drawn
    | shortHexSuffix => exact .outside rfl fun drawn => by cases drawn
    | _ => exact .outside rfl fun _ => rfl
  · cases op with
    | newLeaseId => rfl
    | shortHexSuffix => rfl
    | _ => trivial

def twoRepositories : Pid → Option Command
  | 0 => some (.acquire "/repo/.git" "/repo" 7 "main" ⟨none, false, none, false⟩)
  | 1 => some (.acquire "/other/.git" "/other" 9 "side" ⟨none, false, none, false⟩)
  | _ => none

def minting (clock : Clock) : Config ((LeaseDb × Unit) × Past Unit) LeaseOp LeaseOp.Ret
    (Except WorktreeError (Option AcquireOutcome)) :=
  (fleet twoRepositories (emptyStore, ())).record.replay (mint clock)
    (List.replicate 8 0 ++ List.replicate 8 1)

def ticking : Clock := ⟨fun i _ => 100 + i, fun _ _ => 0⟩

theorem two_seconds_identify :
    Run ((mintingWorld forgejoTest stillMachine ticking).guard (Apart ticking []))
        (fleet twoRepositories (emptyStore, ())).record (minting ticking) ∧
      ∀ event ∈ (minting ticking).shared.2, ∀ row ∈ event.effect.attempted,
        ∀ old ∈ event.before.1.leases, old.leaseId ≠ row.leaseId := by
  have run : Run ((mintingWorld forgejoTest stillMachine ticking).guard (Apart ticking []))
      (fleet twoRepositories (emptyStore, ())).record (minting ticking) := by
    unfold minting
    apply Run.replay_guard (mint_sound ticking)
    decide
  refine ⟨run, ?_⟩
  apply lease_ids_identify twoRepositories _ run
  intro row member
  cases member

def standing : Clock := ⟨fun _ _ => 100, fun _ _ => 0⟩

theorem one_second_collides :
    Run (mintingWorld forgejoTest stillMachine standing)
        (fleet twoRepositories (emptyStore, ())).record (minting standing) ∧
      (minting standing).result 1 =
        some (.error (labelled "insert lease" "UNIQUE constraint failed: worktree_leases.lease_id")) ∧
      ¬∀ event ∈ (minting standing).shared.2, ∀ row ∈ event.effect.attempted,
        ∀ old ∈ event.before.1.leases, old.leaseId ≠ row.leaseId := by
  refine ⟨?_, ?_, ?_⟩
  · unfold minting
    exact .replay (mint_sound standing) _ _
  · decide
  · decide

end Collision

end Phasegent.Lease
