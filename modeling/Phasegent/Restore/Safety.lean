import Phasegent.Restore.Evidence
import Phasegent.Restore.Store

namespace Phasegent.Restore
open Fallible Interleaving
open Cleanup (HostOp HostHistory Listing LocatedSession allSessions isOpencodeSession sameDirectory)
open Lease (GitOutput LeaseRow)

section Readers
variable {ε α : Type}

theorem reads_git {arguments : List String} {decode : GitOutput → Except String α}
    (quiet : (CheckoutOp.git arguments).Quiet) :
    Reads CheckoutOp.Quiet (git arguments decode) fun a part =>
      ∃ output, part = [ran arguments output] ∧ decode output = .ok a := by
  apply reads_request quiet
  intro answer a decoded
  cases answer with
  | ok output => exact ⟨output, rfl, decoded⟩
  | error error => nomatch decoded

theorem reads_currentBranch :
    Reads CheckoutOp.Quiet currentBranch fun branch part =>
      ∃ head, part = [ran symbolicRef head] ∧ OnBranch branch head :=
  reads_git rfl

theorem reads_headRev :
    Reads CheckoutOp.Quiet headRev fun current part =>
      ∃ head, part = [ran verifyHead head] ∧ readHead head = .ok current :=
  reads_git rfl

theorem quiet_config (key : String) : (CheckoutOp.git ["config", "--get", key]).Quiet := rfl

theorem quiet_status : (CheckoutOp.git statusPorcelain).Quiet := rfl

theorem quiet_leases (identity : String) : (CheckoutOp.leases identity).Quiet := rfl

theorem reads_requireClean :
    Reads CheckoutOp.Quiet requireClean fun _ part => ∃ status, part = [ran statusPorcelain status] ∧
      status.status = 0 ∧ isBlank status.stdout = true := by
  apply reads_request quiet_status
  intro answer a decoded
  cases answer with
  | ok output =>
      simp only [readClean, bind_eq_ok, refuse_eq_ok, not_not, Bool.not_eq_false] at decoded
      obtain ⟨_, zero, blank⟩ := decoded
      exact ⟨output, rfl, zero, blank⟩
  | error error => cases decoded

theorem activeLease_ok {rows : List LeaseRow} {u : Unit} (none : activeLease rows = .ok u) :
    ∀ row ∈ rows, ¬row.isActive := by
  unfold activeLease at none
  split at none
  · nomatch none
  · rename_i absent
    exact fun row among => by simpa using List.find?_eq_none.mp absent row among

section Gates
variable {env : Surroundings} {params : CloseParams}

theorem closingSession_ok {session : String} (closing : closingSession params = .ok session) :
    params.session.map trimText = some session ∧ isOpencodeSession session = true := by
  unfold closingSession at closing
  split at closing
  · rename_i found present
    cases closing
    obtain ⟨named, opencode⟩ := Option.filter_eq_some_iff.mp present
    exact ⟨named, opencode⟩
  · nomatch closing

theorem otherOccupant_ok {session : String} {sessions : List LocatedSession} {u : Unit}
    (alone : otherOccupant env params session sessions = .ok u) :
    ∀ located ∈ sessions,
      sameDirectory env.canonical located.directory params.target.mainCheckout = true →
        located.id = session := by
  unfold otherOccupant at alone
  split at alone
  · nomatch alone
  · rename_i absent
    intro located among here
    have notOther := List.find?_eq_none.mp absent located among
    simpa [here] using notOther

theorem quiet_of_looks (op : HostOp) (looks : op.Looks) : (hostEmbedding.effect op).Quiet := by
  cases op <;> first | rfl | exact looks.elim

theorem reads_mainGates (branch : String) :
    Reads CheckoutOp.Quiet (mainGates env params branch) fun _ part => Gated env params branch part := by
  apply reads_bind reads_requireClean
  rintro _ _ ⟨status, rfl, clean⟩
  apply reads_bind reads_currentBranch
  rintro current _ ⟨head, rfl, onBranch⟩
  apply reads_bind (reads_fromExcept (Q := fun _ part => part = [] ∧ current = branch) fun _ passed =>
    ⟨rfl, not_not.mp (refuse_eq_ok.mp passed)⟩)
  rintro _ _ ⟨rfl, rfl⟩
  apply reads_bind (M := fun rows part => part = [⟨.leases params.target.identity, .ok rows⟩])
  · apply reads_request (quiet_leases params.target.identity)
    intro answer rows decoded
    rw [mapError_eq_ok] at decoded
    rw [decoded]
  rintro rows _ rfl
  apply reads_bind (reads_fromExcept (Q := fun _ part => part = [] ∧ ∀ row ∈ rows, ¬row.isActive)
    fun _ passed => ⟨rfl, activeLease_ok passed⟩)
  rintro _ _ ⟨rfl, idle⟩
  apply reads_bind (reads_fromExcept (Q := fun session part => part = [] ∧
    params.session.map trimText = some session ∧ isOpencodeSession session = true)
    fun _ passed => ⟨rfl, closingSession_ok passed⟩)
  rintro session _ ⟨rfl, closing⟩
  apply reads_bind (reads_renameFailure (reads_embed quiet_of_looks
    (Cleanup.reads_walkPages Cleanup.maxListPages [] none)))
  rintro sessions listing ⟨seen, shows', complete⟩
  apply reads_fromExcept
  intro _ passed
  exact ⟨listing, rows, head, status, seen, sessions, session, by simp, clean, onBranch, idle,
    ⟨complete, shows'⟩, closing, otherOccupant_ok passed⟩

end Gates

theorem reads_configured (key what : String) :
    Reads CheckoutOp.Quiet (configured key what) fun value part =>
      ∃ output, part = [ran ["config", "--get", key] output] ∧
        ∀ text, value = some text → output.status = 0 ∧ trimText output.stdout = text := by
  apply (reads_git (quiet_config key)).weaken
  rintro value part ⟨output, rfl, decoded⟩
  refine ⟨output, rfl, ?_⟩
  rintro text rfl
  unfold readConfig at decoded
  split at decoded
  · rename_i zero
    cases decoded
    exact ⟨zero, rfl⟩
  · split at decoded <;> nomatch decoded

theorem admitUpstream_early {remote mergeRef remote' mergeRef' name : String} {upstream : Upstream}
    (early : admitUpstream remote mergeRef = .error upstream) :
    upstream ≠ .configured remote' mergeRef' name := by
  rintro rfl
  by_cases empty : remote = ""
  · simp [admitUpstream, refuse, empty] at early
  cases valid : validateRemote remote with
  | error reason => simp [admitUpstream, refuse, empty, valid, Except.mapError] at early
  | ok =>
      by_cases onlyLocal : remote = "."
      · subst onlyLocal
        simp [admitUpstream, refuse, valid, Except.mapError] at early
      · cases named : validateMergeRef mergeRef <;>
          simp [admitUpstream, refuse, empty, onlyLocal, valid, named, Except.mapError] at early

theorem reads_resolveUpstream (branch : String) :
    Reads CheckoutOp.Quiet (resolveUpstream branch) fun upstream part =>
      ∀ remote mergeRef name, upstream = .configured remote mergeRef name →
        Configured branch remote mergeRef part := by
  apply reads_bind (reads_fromExcept (Q := fun _ part => part = []) fun _ _ => rfl)
  rintro _ _ rfl
  apply reads_bind (reads_configured _ _)
  rintro (_ | remote) _ ⟨origin, rfl, named⟩
  · exact reads_pure (by simp)
  apply reads_bind (reads_configured _ _)
  rintro (_ | mergeRef) _ ⟨merge, rfl, merged⟩
  · exact reads_pure (by simp)
  unfold confirmUpstream
  dsimp only
  split
  · rename_i early admitted
    exact reads_pure fun remote' mergeRef' name' same => absurd same (admitUpstream_early admitted)
  · rename_i name admitted
    apply reads_bind (reads_git (quiet_config _))
    rintro missing _ ⟨url, rfl, decoded⟩
    apply reads_pure
    intro remote' mergeRef' name' same
    cases missing with
    | some reason => nomatch same
    | none =>
        cases same
        exact ⟨url, merge, origin, by simp, named _ rfl, merged _ rfl⟩

theorem quiet_fetch (remote mergeRef : String) :
    (CheckoutOp.git ["fetch", "--no-tags", remote, mergeRef]).Quiet := rfl

theorem quiet_fetched : (CheckoutOp.git ["rev-parse", "--verify", "FETCH_HEAD"]).Quiet := rfl

theorem quiet_ancestor (ancestor descendant : String) :
    (CheckoutOp.git ["merge-base", "--is-ancestor", ancestor, descendant]).Quiet := rfl

theorem quiet_showRef (reference : String) :
    (CheckoutOp.git ["show-ref", "--verify", "--quiet", reference]).Quiet := rfl

theorem reads_fetchUpstream (remote mergeRef : String) :
    Reads CheckoutOp.Quiet (fetchUpstream remote mergeRef) fun commit part =>
      Fetched remote mergeRef commit part := by
  apply reads_bind (reads_fromExcept (Q := fun _ part => part = []) fun _ _ => rfl)
  rintro _ _ rfl
  apply reads_bind (reads_fromExcept (Q := fun _ part => part = []) fun _ _ => rfl)
  rintro _ _ rfl
  apply reads_bind (reads_git (quiet_fetch remote mergeRef))
  rintro _ _ ⟨done, rfl, fetched⟩
  apply (reads_git quiet_fetched).weaken
  rintro commit _ ⟨head, rfl, resolved⟩
  refine ⟨head, done, by simp, not_not.mp (refuse_eq_ok.mp fetched), ?_⟩
  unfold readFetched at resolved
  split at resolved
  · rename_i there
    cases resolved
    exact ⟨there.1, rfl⟩
  · nomatch resolved

theorem reads_isAncestor (ancestor descendant : String) :
    Reads CheckoutOp.Quiet (isAncestor ancestor descendant) fun answer part =>
      ∃ output, part = [ran ["merge-base", "--is-ancestor", ancestor, descendant] output] ∧
        (answer = true → output.status = 0) := by
  apply (reads_git (quiet_ancestor ancestor descendant)).weaken
  rintro answer _ ⟨output, rfl, decoded⟩
  refine ⟨output, rfl, ?_⟩
  rintro rfl
  unfold readAnswer at decoded
  split at decoded
  · assumption
  · split at decoded <;> nomatch decoded

theorem reads_localBranchExists (branch : String) :
    Reads CheckoutOp.Quiet (localBranchExists branch) fun _ part => ∃ output,
      part = [ran ["show-ref", "--verify", "--quiet", "refs/heads/" ++ branch] output] := by
  apply reads_bind (reads_fromExcept (Q := fun _ part => part = []) fun _ _ => rfl)
  rintro _ _ rfl
  apply (reads_git (quiet_showRef _)).weaken
  rintro found _ ⟨output, rfl, _⟩
  exact ⟨output, rfl⟩

theorem reads_existingBranch (branch : String) :
    Reads CheckoutOp.Quiet (existingBranch branch) fun _ part => ∃ output,
      part = [ran ["show-ref", "--verify", "--quiet", "refs/heads/" ++ branch] output] := by
  apply reads_bind (reads_renameFailure (reads_localBranchExists branch))
  rintro found _ ⟨output, rfl⟩
  exact reads_fromExcept fun _ _ => ⟨output, rfl⟩

theorem reads_verifySwitched (branch : String) :
    Reads CheckoutOp.Quiet (verifySwitched branch) fun _ part =>
      ∃ head, part = [ran symbolicRef head] ∧ OnBranch branch head := by
  apply reads_bind reads_currentBranch
  rintro current _ ⟨head, rfl, onBranch⟩
  apply reads_fromExcept
  intro _ passed
  exact ⟨head, rfl, not_not.mp (refuse_eq_ok.mp passed) ▸ onBranch⟩

end Readers

section Effects
variable {env : Surroundings} {params : CloseParams}

theorem performs_git {α : Type} {arguments : List String} {decode : GitOutput → Except String α}
    (quiet : (CheckoutOp.git arguments).Quiet) : Performs CheckoutOp.Quiet (git arguments decode) :=
  performs_request quiet

theorem performs_transitionTo (record : BaselineRecord) (state : CheckoutState) :
    Performs CheckoutOp.Quiet (transitionTo record state) := by
  have quiet : (CheckoutOp.baseline (.transitionPending record.scope state)).Quiet := rfl
  exact performs_bind (performs_request quiet) fun _ => performs_pure _

theorem performs_currentBranch : Performs CheckoutOp.Quiet currentBranch :=
  performs_git (show (CheckoutOp.git symbolicRef).Quiet from rfl)

theorem performs_headRev : Performs CheckoutOp.Quiet headRev :=
  performs_git (show (CheckoutOp.git verifyHead).Quiet from rfl)

theorem performs_recoverPending (record : BaselineRecord) :
    Performs CheckoutOp.Quiet (recoverPending record) := by
  apply performs_bind performs_currentBranch
  intro branch
  split
  · exact performs_transitionTo record .active
  · apply performs_bind performs_headRev
    intro head
    split
    · exact performs_transitionTo record .aborted
    · exact performs_throw _

theorem performs_recoveredState (record : BaselineRecord) :
    Performs CheckoutOp.Quiet (recoveredState params record) := by
  unfold recoveredState
  split
  · exact performs_renameFailure (performs_recoverPending record)
  · exact performs_pure _

theorem performs_mainGates (branch : String) :
    Performs CheckoutOp.Quiet (mainGates env params branch) := by
  apply performs_bind (performs_request quiet_status)
  intro _
  apply performs_bind performs_currentBranch
  intro current
  apply performs_bind (performs_fromExcept _)
  intro _
  apply performs_bind (performs_request (quiet_leases params.target.identity))
  intro rows
  apply performs_bind (performs_fromExcept _)
  intro _
  apply performs_bind (performs_fromExcept _)
  intro session
  apply performs_bind (performs_renameFailure
    (performs_embed (Cleanup.performs_walkPages Cleanup.maxListPages [] none) quiet_of_looks))
  exact fun sessions => performs_fromExcept _

theorem performs_resolveUpstream (branch : String) :
    Performs CheckoutOp.Quiet (resolveUpstream branch) := by
  apply performs_bind (performs_fromExcept _)
  intro _
  apply performs_bind (performs_git (quiet_config _))
  rintro (_ | remote)
  · exact performs_pure _
  apply performs_bind (performs_git (quiet_config _))
  rintro (_ | mergeRef)
  · exact performs_pure _
  unfold confirmUpstream
  dsimp only
  split
  · exact performs_pure _
  · exact performs_bind (performs_git (quiet_config _)) fun _ => performs_pure _

theorem performs_fetchUpstream (remote mergeRef : String) :
    Performs CheckoutOp.Quiet (fetchUpstream remote mergeRef) := by
  apply performs_bind (performs_fromExcept _)
  intro _
  apply performs_bind (performs_fromExcept _)
  intro _
  exact performs_bind (performs_git (quiet_fetch remote mergeRef)) fun _ => performs_git quiet_fetched

theorem performs_existingBranch (branch : String) :
    Performs CheckoutOp.Quiet (existingBranch branch) := by
  apply performs_bind (performs_renameFailure (performs_bind (performs_fromExcept _) fun _ =>
    performs_git (quiet_showRef _)))
  exact fun found => performs_fromExcept _

def CheckoutOp.Plain (op : CheckoutOp) : Prop :=
  (∀ scope, op ≠ .baseline (.read scope)) ∧ op.Unmarked

theorem plain_of_quiet (op : CheckoutOp) (quiet : op.Quiet) : op.Plain := by
  refine ⟨?_, ?_⟩
  · rintro scope rfl
    nomatch quiet
  · cases op with
    | baseline op => cases op <;> first | rfl | nomatch quiet
    | _ => rfl

theorem plain_git (arguments : List String) : (CheckoutOp.git arguments).Plain := ⟨nofun, rfl⟩

theorem plain_advance (branch : String) :
    Performs CheckoutOp.Plain (advance env params branch) := by
  apply performs_bind (performs_renameFailure ((performs_resolveUpstream branch).mono plain_of_quiet))
  intro upstream
  apply performs_bind (performs_fromExcept _)
  rintro ⟨remote, mergeRef⟩
  apply performs_bind (performs_renameFailure ((performs_mainGates branch).mono plain_of_quiet))
  intro _
  apply performs_bind
    (performs_renameFailure ((performs_fetchUpstream remote mergeRef).mono plain_of_quiet))
  intro commit
  apply performs_bind (performs_renameFailure (performs_headRev.mono plain_of_quiet))
  intro found
  apply performs_bind (performs_fromExcept _)
  intro head
  apply performs_bind (performs_renameFailure (performs_request (plain_git _)))
  intro ancestor
  apply performs_bind (performs_fromExcept _)
  intro _
  apply performs_bind (performs_renameFailure ((performs_mainGates branch).mono plain_of_quiet))
  intro _
  apply performs_bind (performs_renameFailure (performs_request (plain_git _)))
  intro _
  apply performs_bind (performs_renameFailure (performs_headRev.mono plain_of_quiet))
  intro found
  apply performs_bind (performs_fromExcept _)
  exact fun head => performs_fromExcept _

theorem plain_finishUpstream (record : BaselineRecord) :
    Performs CheckoutOp.Plain (finishUpstream env params record) := by
  apply performs_bind (performs_renameFailure ?_)
  · exact fun _ => performs_pure _
  · apply performs_bind (performs_outcome (plain_advance record.baselineBranch))
    intro result
    exact performs_bind (performs_request ⟨nofun, rfl⟩) fun _ => performs_pure _

theorem plain_switchBack (record : BaselineRecord) (current : String) :
    Performs CheckoutOp.Plain (switchBack env params record current) := by
  apply performs_bind (performs_renameFailure (performs_fromExcept _))
  intro _
  apply performs_bind
    (performs_renameFailure ((performs_mainGates record.issueBranch).mono plain_of_quiet))
  intro _
  apply performs_bind
    (performs_renameFailure ((performs_existingBranch record.baselineBranch).mono plain_of_quiet))
  intro _
  apply performs_bind (performs_renameFailure (performs_bind (performs_fromExcept _) fun _ =>
    performs_request (plain_git _)))
  intro _
  exact performs_renameFailure (performs_bind (performs_currentBranch.mono plain_of_quiet) fun _ =>
    performs_fromExcept _)

end Effects

section Guarded
variable {env : Surroundings} {params : CloseParams}

theorem justified_of_quiet (h : CheckoutHistory) (op : CheckoutOp) (quiet : op.Quiet) :
    Justified env params h op where
  switch _ _ switches := absurd switches (not_switches quiet)
  forward _ _ forwards := absurd forwards (not_forwards quiet)
  record _ _ _ same := by
    subst same
    nomatch quiet
  otherwise := .inl quiet

def Loaded (record : BaselineRecord) (h : CheckoutHistory) : Prop :=
  RowRead record h ∧ ∀ act ∈ h, ¬Switches act.effect

theorem RowRead.append {record : BaselineRecord} {h : CheckoutHistory} (read : RowRead record h)
    (part : CheckoutHistory) : RowRead record (part ++ h) := by
  obtain ⟨row, among, same⟩ := read
  exact ⟨row, List.mem_append_right part among, same⟩

theorem Loaded.append {record : BaselineRecord} {h part : CheckoutHistory} (loaded : Loaded record h)
    (still : ∀ act ∈ part, ¬Switches act.effect) : Loaded record (part ++ h) := by
  refine ⟨loaded.1.append part, fun act among => ?_⟩
  exact (List.mem_append.mp among).elim (still act) (loaded.2 act)

theorem Gated.quiet {branch : String} {gates : CheckoutHistory} (gated : Gated env params branch gates) :
    ∀ act ∈ gates, ¬Switches act.effect := by
  obtain ⟨listing, rows, head, status, seen, sessions, session, rfl, _, _, _, ⟨_, shows'⟩, _⟩ := gated
  intro act among
  obtain listed | rest := List.mem_append.mp among
  · have shown := List.mem_map_of_mem (f := (·.effect)) listed
    rw [shows'.effects] at shown
    obtain ⟨_, _, same⟩ := List.mem_map.mp shown
    rw [← same]
    nofun
  · simp only [List.mem_cons, List.not_mem_nil, or_false] at rest
    obtain rfl | rfl | rfl := rest
    all_goals exact not_switches rfl

theorem justified_forward {h : CheckoutHistory} {commit : String}
    (forward : ForwardJustified env params h ["merge", "--ff-only", commit]) :
    Justified env params h (.git ["merge", "--ff-only", commit]) where
  switch _ _ switches := absurd (Option.some.inj switches) (by decide)
  forward arguments same _ := by
    cases same
    exact forward
  record _ _ _ same := nomatch same
  otherwise := .inr (.inr (.inl rfl))

theorem justified_switch {h : CheckoutHistory} {branch : String}
    (switch : SwitchJustified env params h ["switch", "--no-guess", branch]) :
    Justified env params h (.git ["switch", "--no-guess", branch]) where
  switch arguments same _ := by
    cases same
    exact switch
  forward _ _ forwards := absurd (Option.some.inj forwards) (by decide)
  record _ _ _ same := nomatch same
  otherwise := .inr (.inl rfl)

theorem justified_baseline {h : CheckoutHistory} {op : BaselineOp}
    (record : ∀ scope update now, op = .markRestored scope update now → RecordJustified h scope) :
    Justified env params h (.baseline op) where
  switch _ same := nomatch same
  forward _ same := nomatch same
  record scope update now same := record scope update now (by simpa using same)
  otherwise := .inr (.inr (.inr ⟨op, rfl⟩))

theorem usableUpstream_ok {upstream : Upstream} {remote mergeRef : String}
    (usable : usableUpstream upstream = .ok (remote, mergeRef)) :
    ∃ name, upstream = .configured remote mergeRef name := by
  cases upstream with
  | configured remote' mergeRef' name =>
      by_cases blank : isBlank name
      · rw [usableUpstream, if_pos blank] at usable
        nomatch usable
      · rw [usableUpstream, if_neg blank] at usable
        cases usable
        exact ⟨name, rfl⟩
  | none => nomatch usable
  | unsupported reason => nomatch usable

theorem requireHead_ok {found : Option String} {current : String}
    (born : requireHead found = .ok current) : found = some current := by
  cases found with
  | none => nomatch born
  | some head =>
      cases born
      rfl

theorem traced_advance (record : BaselineRecord) :
    Traced (Justified env params) (RowRead record) (advance env params record.baselineBranch)
      (fun _ _ => True) fun _ _ => True := by
  apply traced_bind ((reads_renameFailure (reads_resolveUpstream record.baselineBranch)).after
    justified_of_quiet)
  intro upstream
  apply traced_bind (traced_fromExcept fun _ _ _ _ => trivial)
  rintro ⟨remote, mergeRef⟩
  apply traced_bind ((reads_renameFailure (reads_mainGates record.baselineBranch)).after
    justified_of_quiet)
  intro _
  apply traced_bind ((reads_renameFailure (reads_fetchUpstream remote mergeRef)).after
    justified_of_quiet)
  intro commit
  apply traced_bind ((reads_renameFailure reads_headRev).after justified_of_quiet)
  intro found
  apply traced_bind (traced_fromExcept fun _ _ _ _ => trivial)
  intro current
  apply traced_bind ((reads_renameFailure (reads_isAncestor current commit)).after justified_of_quiet)
  intro ancestor
  apply traced_bind (traced_fromExcept fun _ _ _ _ => trivial)
  intro _
  apply traced_bind ((reads_renameFailure (reads_mainGates record.baselineBranch)).after
    justified_of_quiet)
  intro _
  apply traced_bind (M := fun _ _ => True)
  · refine traced_renameFailure (fun _ _ _ => trivial) (traced_requested ?_)
    rintro h ⟨_, secondGates, rfl, ⟨passed, _, _, rfl, ⟨born, _, _, rfl, ⟨_, fetch, rfl, ⟨_, firstGates,
      rfl, ⟨usable, older, up, rfl, read, configured⟩, first⟩, fetched⟩, head, rfl, known⟩, output, rfl,
      zero⟩, second⟩
    obtain ⟨name, rfl⟩ := usableUpstream_ok usable
    obtain rfl := requireHead_ok born
    apply justified_forward
    exact ⟨record, commit, secondGates, output, head, current, fetch, remote, mergeRef, firstGates, up,
      older, by simp, rfl, read, second, zero (by simpa [requireAncestor] using passed), known, fetched,
      first, configured remote mergeRef name rfl⟩
  intro _
  apply traced_bind ((reads_renameFailure reads_headRev).after justified_of_quiet)
  intro found
  apply traced_bind (traced_fromExcept fun _ _ _ _ => trivial)
  intro current
  exact (traced_fromExcept fun _ _ _ _ => trivial).weaken (fun _ _ _ => trivial) fun _ _ _ => trivial

theorem traced_statement {P : CheckoutHistory → Prop} (op : BaselineOp)
    (unmarked : ∀ scope update now, op ≠ .markRestored scope update now) :
    Traced (Justified env params) P (statement op) (fun _ h => ∃ r before, h = ⟨.baseline op, r⟩ :: before ∧
      P before) fun _ _ => True := by
  apply traced_request
  · exact fun h _ => justified_baseline fun scope update now same => absurd same (unmarked scope update now)
  · intro h r holds
    cases r with
    | ok answer => exact ⟨.ok answer, h, rfl, holds⟩
    | error error => trivial

theorem traced_finishUpstream (record : BaselineRecord) :
    Traced (Justified env params) (RowRead record) (finishUpstream env params record)
      (fun _ _ => True) fun _ _ => True := by
  apply traced_bind (M := fun _ _ => True)
  · refine traced_renameFailure (F := fun _ _ => True) (fun _ _ _ => trivial) ?_
    apply traced_bind (Traced.any (F := fun _ _ => True) (traced_outcome (traced_advance record)))
    intro result
    apply traced_bind (traced_statement _ (by nofun)).any
    exact fun _ => traced_pure fun _ _ => trivial
  · exact fun _ => traced_pure fun _ _ => trivial

theorem traced_recordRestored (record : BaselineRecord) (what : String) :
    Traced (Justified env params) (fun h => ∃ head before, h = ran symbolicRef head :: before ∧
        OnBranch record.baselineBranch head ∧ RowRead record before)
      (recordRestored params record what) (fun _ => RowRead record) fun _ _ => True := by
  apply traced_bind (M := fun now h => ∃ head before, h = ⟨.now, now⟩ :: ran symbolicRef head :: before ∧
    OnBranch record.baselineBranch head ∧ RowRead record before)
  · apply traced_request fun h _ => justified_of_quiet h .now rfl
    rintro h now ⟨head, before, rfl, onBranch, read⟩
    exact ⟨head, before, rfl, onBranch, read⟩
  intro now
  apply traced_bind (M := fun _ => RowRead record)
  · refine traced_renameFailure (F := fun _ _ => True) (fun _ _ _ => trivial) (traced_request ?_ ?_)
    · rintro h ⟨head, before, rfl, onBranch, read⟩
      apply justified_baseline
      rintro scope update now' same
      cases same
      exact ⟨record, now, head, before, rfl, rfl, read, onBranch⟩
    · rintro h r ⟨head, before, rfl, onBranch, read⟩
      exact ends_of_ok fun _ _ => read.append [⟨.baseline _, r⟩, ⟨.now, now⟩, ran symbolicRef head]
  · exact fun _ => traced_pure fun _ read => read

theorem traced_switchBack (record : BaselineRecord) (current : String) :
    Traced (Justified env params) (Loaded record) (switchBack env params record current)
      (fun _ h => ∃ head before, h = ran symbolicRef head :: before ∧
        OnBranch record.baselineBranch head ∧ RowRead record before) fun _ _ => True := by
  apply traced_bind ((reads_renameFailure (reads_fromExcept (Q := fun _ part => part = [])
    fun _ _ => rfl)).after justified_of_quiet)
  intro _
  apply traced_bind ((reads_renameFailure (reads_mainGates record.issueBranch)).after justified_of_quiet)
  intro _
  apply traced_bind ((reads_renameFailure (reads_existingBranch record.baselineBranch)).after
    justified_of_quiet)
  intro _
  apply traced_bind (M := fun _ => RowRead record)
  · refine traced_renameFailure (F := fun _ _ => True) (fun _ _ _ => trivial) ?_
    apply traced_bind (traced_fromExcept fun _ _ _ _ => trivial)
    intro _
    apply traced_request
    · rintro h ⟨_, _, _, rfl, ⟨_, gates, rfl, ⟨older, _, rfl, loaded, rfl⟩, gated⟩, exists', rfl⟩
      apply justified_switch
      refine ⟨record, exists', gates, older, rfl, rfl, loaded.1, gated, ?_⟩
      intro act among
      obtain rfl | later := List.mem_cons.mp among
      · exact not_switches (quiet_showRef _)
      · have either : act ∈ gates ++ older := later
        exact (List.mem_append.mp either).elim (gated.quiet act) (loaded.2 act)
    · rintro h r ⟨_, _, _, rfl, ⟨_, gates, rfl, ⟨older, _, rfl, loaded, rfl⟩, gated⟩, exists', rfl⟩
      have read := (loaded.1.append gates).append
        [⟨.git ["switch", "--no-guess", record.baselineBranch], r⟩,
          ran ["show-ref", "--verify", "--quiet", "refs/heads/" ++ record.baselineBranch] exists']
      exact ends_of_ok fun _ _ => read
  intro _
  refine ((reads_renameFailure (reads_verifySwitched record.baselineBranch)).after
    justified_of_quiet).weaken ?_ fun _ _ _ => trivial
  rintro _ h ⟨before, _, rfl, read, head, rfl, onBranch⟩
  exact ⟨head, before, rfl, onBranch, read⟩

theorem traced_restoreBranch (record : BaselineRecord) :
    Traced (Justified env params) (Loaded record) (restoreBranch env params record)
      (fun _ _ => True) fun _ _ => True := by
  apply traced_bind ((reads_renameFailure reads_currentBranch).after justified_of_quiet)
  intro current
  split
  · rename_i same
    apply traced_bind ((traced_recordRestored record _).pre ?_) fun _ => traced_finishUpstream record
    rintro h ⟨before, _, rfl, loaded, head, rfl, onBranch⟩
    exact ⟨head, before, rfl, same ▸ onBranch, loaded.1⟩
  · apply traced_bind ((traced_switchBack record current).pre ?_)
    · exact fun _ => traced_bind (traced_recordRestored record _) fun _ => traced_finishUpstream record
    · rintro h ⟨before, _, rfl, loaded, head, rfl, onBranch⟩
      apply loaded.append
      intro act among
      obtain rfl := List.mem_singleton.mp among
      exact not_switches rfl

theorem traced_restoreRecord (record : BaselineRecord) :
    Traced (Justified env params) (Loaded record) (restoreRecord env params record)
      (fun _ _ => True) fun _ _ => True := by
  apply traced_bind (M := fun _ => Loaded record)
  · refine ((reads_of_performs (performs_recoveredState record)).after justified_of_quiet).weaken ?_
      fun _ _ _ => trivial
    rintro state h ⟨before, part, rfl, loaded, quiet⟩
    exact loaded.append fun act among => not_switches (quiet act among)
  intro state
  split
  · exact traced_pure fun _ _ => trivial
  · split
    · split
      · exact traced_pure fun _ _ => trivial
      · exact (traced_finishUpstream record).pre fun _ loaded => loaded.1
    · exact traced_restoreBranch record

end Guarded

end Phasegent.Restore
