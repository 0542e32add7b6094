import Phasegent.Auth.Setup
import Phasegent.Sql.Stages

namespace Phasegent.Auth
open Fallible Interleaving Sql
open Record (Role)

variable {faults : Faults} {α β : Type}

section Units
variable {unit : AuthUnit} {subject writing committing context : String} {changes : List (AuthWrite × String)}
  (db : AuthDb)

structure Quiet (faults : Faults) (unit : AuthUnit) (changes : List AuthWrite) : Prop where
  began : failure faults (.begin unit) = none
  wrote : ∀ change ∈ changes, failure faults (.write unit change) = none
  ended : failure faults (.commit unit) = none

def written (changes : List AuthWrite) (store : AuthStore) : AuthStore := changes.foldl applyWrite store

theorem execute_statement_ok {op : AuthOp} (passes : failure faults op = none) :
    execute (respond faults) (statement op context).run db = (.ok (effect db op).1, (effect db op).2) := by
  rw [statement, execute_request, respond, passes]
  rfl

theorem execute_statement_error {op : AuthOp} {message : String} (fails : failure faults op = some message) :
    execute (respond faults) (statement op context).run db = (.error (context ++ message), db) := by
  rw [statement, execute_request, respond, fails]
  rfl

theorem execute_perform_ok {op : AuthOp} (passes : failure faults op = none) :
    execute (respond faults) (perform op).run db = (.ok (effect db op).1, (effect db op).2) := by
  rw [perform, execute_request, respond, passes]
  rfl

theorem execute_perform_error {op : AuthOp} {message : String} (fails : failure faults op = some message) :
    execute (respond faults) (perform op).run db = (.error message, db) := by
  rw [perform, execute_request, respond, fails]
  rfl

theorem execute_writes_ok (passes : ∀ change ∈ changes, failure faults (.write unit change.1) = none) :
    ∃ answers, execute (respond faults)
      (forEach (fun change => statement (.write unit change.1) (change.2 ++ ": ")) changes).run db =
        (.ok answers, { db with working := written (changes.map Prod.fst) db.working }) := by
  induction changes generalizing db with
  | nil => exact ⟨_, rfl⟩
  | cons change rest ih =>
      rw [List.forall_mem_cons] at passes
      obtain ⟨answers, last⟩ := ih (effect db (.write unit change.1)).2 passes.2
      rw [forEach, execute_bind_ok (execute_statement_ok db passes.1), execute_bind_ok last]
      exact ⟨_, rfl⟩

theorem execute_writes_error (fails : ¬∀ change ∈ changes, failure faults (.write unit change.1) = none) :
    ∃ message after, execute (respond faults)
      (forEach (fun change => statement (.write unit change.1) (change.2 ++ ": ")) changes).run db =
        (.error message, after) := by
  induction changes generalizing db with
  | nil => simp at fails
  | cons change rest ih =>
      rw [forEach]
      cases first : failure faults (.write unit change.1) with
      | some message =>
          rw [execute_bind_error (execute_statement_error db first)]
          exact ⟨_, _, rfl⟩
      | none =>
          rw [List.forall_mem_cons, not_and] at fails
          obtain ⟨message, after, later⟩ := ih (effect db (.write unit change.1)).2 (fails first)
          rw [execute_bind_ok (execute_statement_ok db first), execute_bind_error later]
          exact ⟨_, _, rfl⟩

theorem execute_writes_committed :
    (execute (respond faults)
      (forEach (fun change => statement (.write unit change.1) (change.2 ++ ": ")) changes).run db).2.committed =
        db.committed := by
  induction changes generalizing db with
  | nil => rfl
  | cons change rest ih =>
      rw [forEach]
      cases fails : failure faults (.write unit change.1) with
      | some message => rw [execute_bind_error (execute_statement_error db fails)]
      | none =>
          rw [execute_bind_ok (execute_statement_ok db fails), run_bind, execute_bind]
          have same := ih (effect db (.write unit change.1)).2
          generalize execute (respond faults) _ _ = ran at same ⊢
          obtain ⟨answer, after⟩ := ran
          cases answer <;> exact same

theorem execute_inTransaction_ok (quiet : Quiet faults unit (changes.map Prod.fst)) :
    ∃ working, execute (respond faults) (inTransaction unit subject writing committing changes).run db =
      (.ok (), ⟨written (changes.map Prod.fst) db.committed, working⟩) := by
  have wrote : ∀ change ∈ changes, failure faults (.write unit change.1) = none := fun change member =>
    quiet.wrote _ (List.mem_map_of_mem member)
  obtain ⟨answers, writes⟩ := execute_writes_ok (effect db (.begin unit)).2 wrote
  rw [inTransaction, execute_bind_ok (execute_statement_ok db quiet.began), execute_bind_ok writes,
    execute_bind_ok (execute_statement_ok _ quiet.ended)]
  exact ⟨_, rfl⟩

theorem execute_inTransaction_error (loud : ¬Quiet faults unit (changes.map Prod.fst)) :
    ∃ message working,
      execute (respond faults) (inTransaction unit subject writing committing changes).run db =
        (.error message, ⟨db.committed, working⟩) := by
  rw [inTransaction]
  cases began : failure faults (.begin unit) with
  | some message =>
      rw [execute_bind_error (execute_statement_error db began)]
      exact ⟨_, _, rfl⟩
  | none =>
      rw [execute_bind_ok (execute_statement_ok db began), run_bind, execute_bind]
      by_cases passes : ∀ change ∈ changes, failure faults (.write unit change.1) = none
      · obtain ⟨answers, writes⟩ := execute_writes_ok (effect db (.begin unit)).2 passes
        cases ended : failure faults (.commit unit) with
        | some message =>
            rw [writes, execute_bind_error (execute_statement_error _ ended)]
            exact ⟨_, _, rfl⟩
        | none =>
            refine absurd ⟨began, ?_, ended⟩ loud
            intro change member
            obtain ⟨pair, inside, rfl⟩ := List.mem_map.mp member
            exact passes pair inside
      · obtain ⟨message, after, writes⟩ := execute_writes_error (effect db (.begin unit)).2 passes
        have kept := @execute_writes_committed faults unit changes (effect db (.begin unit)).2
        rw [writes] at kept ⊢
        obtain ⟨committed, working⟩ := after
        obtain rfl : committed = db.committed := kept
        exact ⟨message, working, rfl⟩

end Units

section Reading

theorem undone_inTransaction {unit : AuthUnit} {subject writing committing : String}
    {changes : List (AuthWrite × String)} (db : AuthDb) :
    Undone (respond faults) AuthDb.committed (inTransaction unit subject writing committing changes)
      db.committed db := by
  by_cases quiet : Quiet faults unit (changes.map Prod.fst)
  · obtain ⟨working, ran⟩ := execute_inTransaction_ok db quiet
    exact undone_of_ok ran
  · obtain ⟨message, working, ran⟩ := execute_inTransaction_error db quiet
    rw [undone_of_error ran]

end Reading

section Stages
variable (faults)

abbrev AuthStage := Stage (respond faults) AuthDb.committed String

def unitStage (unit : AuthUnit) (subject writing committing : String) (changes : List (AuthWrite × String)) :
    AuthStage faults where
  action := inTransaction unit subject writing committing changes
  Passes _ := Quiet faults unit (changes.map Prod.fst)
  effect := written (changes.map Prod.fst)
  passed := by
    intro db quiet
    obtain ⟨working, ran⟩ := execute_inTransaction_ok db quiet
    exact ⟨_, ran, rfl⟩
  failed := by
    intro db loud
    obtain ⟨message, working, ran⟩ := execute_inTransaction_error db loud
    exact ⟨_, _, ran, rfl⟩

def readingStage (role : Role) (stage : Option RedmineStoredConfig → AuthStage faults) : AuthStage faults where
  action := statement (.selectRedmineConfig role) "could not read redmine config: " >>= fun row =>
    (stage row).action
  Passes store := failure faults (.selectRedmineConfig role) = none ∧
    (stage (store.redmineConfig role)).Passes store
  effect store := (stage (store.redmineConfig role)).effect store
  passed := by
    intro db ⟨reads, passes⟩
    obtain ⟨after, ran, seen⟩ := (stage (db.committed.redmineConfig role)).passed db passes
    exact ⟨after, (execute_bind_ok (execute_statement_ok db reads)).trans ran, seen⟩
  failed := by
    intro db fails
    cases reads : failure faults (.selectRedmineConfig role) with
    | some message => exact ⟨_, db, execute_bind_error (execute_statement_error db reads), rfl⟩
    | none =>
        obtain ⟨e, after, ran, seen⟩ := (stage (db.committed.redmineConfig role)).failed db
          fun passes => fails ⟨reads, passes⟩
        exact ⟨e, after, (execute_bind_ok (execute_statement_ok db reads)).trans ran, seen⟩

variable (urls : UrlLibrary) (clock : Option Nat) (role : Role)

def credentialStage (credential : String) : AuthStage faults :=
  unitStage faults .credential "credential" " write" " write"
    [(.credential role providerRedmine ⟨credential, credentialFingerprint credential, clock.getD 0⟩,
      "could not write credential")]

def apiBaseStage (apiBase : Option String) : AuthStage faults :=
  .whenGiven apiBase fun value => .checked (checkedApiBase urls value) fun base =>
    unitStage faults .globalSetting "global setting" " write" " write"
      [(.globalSetting globalRedmineApiBase (trimText base), "could not write global setting")]

def closeStatusStage (closeStatusId : Option String) : AuthStage faults :=
  .whenGiven closeStatusId fun value => readingStage faults role fun config =>
    .checked (parsedCloseStatusId value) fun id =>
      unitStage faults .redmineConfig "redmine config" " write" " write"
        [(.redmineConfig role { config.getD ⟨none, none⟩ with closeStatusId := some id },
          "could not write redmine config")]

def providerStage : AuthStage faults :=
  unitStage faults .provider "provider" " update" " update"
    [(.provider role providerRedmine, "could not update provider")]

def redmineStages (credential : String) (options : SetupOptions) : List (AuthStage faults) :=
  [credentialStage faults clock role credential, apiBaseStage faults urls options.apiBase,
    closeStatusStage faults role options.closeStatusId, providerStage faults role]

theorem stages_eq (credential : String) (options : SetupOptions) (configured : Configured) :
    (saveCredential clock role providerRedmine credential >>= fun _ =>
      saveRedmineConfig urls role options.apiBase options.closeStatusId >>= fun _ => pure configured) =
        Stage.inOrder (pure configured) (redmineStages faults urls clock role credential options) := by
  have base : saveApiBase urls options.apiBase = (apiBaseStage faults urls options.apiBase).action := by
    cases options.apiBase <;> rfl
  have close : saveCloseStatusId role options.closeStatusId =
      (closeStatusStage faults role options.closeStatusId).action := by
    cases options.closeStatusId <;> rfl
  simp only [redmineStages, Stage.inOrder, saveRedmineConfig, base, close, attempt_bind_assoc]
  rfl

end Stages

section Setup
variable (faults) (urls : UrlLibrary) (clock : Option Nat) (prompt : Prompt) (describe : PhasegentError → String)
  (role : Role) (provider : String) (options : SetupOptions)

/-- A failed setup leaves the committed tables of every role. -/
def AllOrNothing (db : AuthDb) : Prop :=
  Undone (respond faults) AuthDb.committed (setupProvider urls clock prompt describe role provider options)
    db.committed db

/-- A Redmine setup that fails after a write which changed the tables. -/
def HalfDone (store : AuthStore) : Prop :=
  provider = providerRedmine ∧ options.repository = none ∧ failure faults .openStore = none ∧
    ∃ credential, prompt "Redmine API key" = .ok credential ∧ trimText credential ≠ "" ∧
      Stage.Spoils (redmineStages faults urls clock role (trimText credential) options) store store

variable {faults urls clock prompt describe role provider options}

theorem undone_setupLocal (db : AuthDb) :
    Undone (respond faults) AuthDb.committed (setupLocal role) db.committed db := by
  unfold setupLocal
  cases opens : failure faults .openStore with
  | some message => 
      rw [undone_bind_error (execute_perform_error db opens)]
  | none =>
      rw [undone_bind_ok (execute_perform_ok db opens), undone_then_pure]
      exact undone_inTransaction db

theorem undone_fromExcept {x : Except String α} {f : α → AuthM β} {db : AuthDb}
    (rest : ∀ a, x = .ok a → Undone (respond faults) AuthDb.committed (f a) db.committed db) :
    Undone (respond faults) AuthDb.committed (fromExcept x >>= f) db.committed db := by
  cases x with
  | error e => exact (undone_bind_error rfl).mpr rfl
  | ok a => exact (undone_bind_ok rfl).mpr (rest a rfl)

theorem readCredential_eq (label : String) :
    readCredential prompt label = fromExcept ((prompt label).map trimText) := by
  cases given : prompt label <;> simp only [readCredential, given] <;> rfl

theorem undone_setupForgejo (db : AuthDb) :
    Undone (respond faults) AuthDb.committed (setupForgejo urls clock prompt describe role options)
      db.committed db := by
  unfold setupForgejo
  rw [readCredential_eq]
  refine undone_fromExcept fun base _ => undone_fromExcept fun repo _ => undone_fromExcept fun config _ =>
    undone_fromExcept fun credential _ => undone_fromExcept fun _ _ => ?_
  cases opens : failure faults .openStore with
  | some message => rw [undone_bind_error (execute_perform_error db opens)]
  | none =>
      rw [undone_bind_ok (execute_perform_ok db opens), undone_then_pure]
      cases clock with
      | none => exact (undone_of_error rfl).mpr rfl
      | some now => exact undone_inTransaction db

theorem undone_setupRedmine_iff (db : AuthDb) :
    Undone (respond faults) AuthDb.committed (setupRedmine urls clock prompt role options) db.committed db ↔
      ¬(failure faults .openStore = none ∧
        ∃ credential, prompt "Redmine API key" = .ok credential ∧ trimText credential ≠ "" ∧
          Stage.Spoils (redmineStages faults urls clock role (trimText credential) options)
            db.committed db.committed) := by
  rw [setupRedmine, readCredential_eq]
  cases given : prompt "Redmine API key" with
  | error e => exact iff_of_true ((undone_bind_error rfl).mpr rfl) (by simp)
  | ok credential =>
      refine (undone_bind_ok rfl).trans ?_
      rw [trimText_trimText]
      by_cases blank : trimText credential = ""
      · refine iff_of_true ?_ (by simp [blank])
        apply undone_fromExcept
        intro u accepted
        exact absurd blank (refuse_eq_ok.mp accepted)
      · rw [refuse_of_not blank]
        refine (undone_bind_ok rfl).trans ?_
        cases opens : failure faults .openStore with
        | some message =>
            rw [undone_bind_error (execute_perform_error db opens)]
            simp
        | none =>
            rw [undone_bind_ok (execute_perform_ok db opens), stages_eq faults, Stage.undone_inOrder]
            simp [effect, blank]

theorem setup_all_or_nothing_iff (db : AuthDb) :
    AllOrNothing faults urls clock prompt describe role provider options db ↔
      ¬HalfDone faults urls clock prompt role provider options db.committed := by
  rw [AllOrNothing, setupProvider]
  cases valid : validateProviderOptions provider options with
  | error message =>
      refine iff_of_true ((undone_bind_error rfl).mpr rfl) ?_
      intro ⟨redmine, bare, _⟩
      subst redmine
      simp [validateProviderOptions, bare, refuse, providerRedmine, providerLocal, providerForgejo] at valid
  | ok accepted =>
      refine (undone_bind_ok rfl).trans ?_
      by_cases here : provider = providerLocal
      · rw [if_pos here]
        exact iff_of_true (undone_setupLocal db) fun half => absurd (half.1.symm.trans here) (by decide)
      · rw [if_neg here]
        by_cases forgejo : provider = providerForgejo
        · rw [if_pos forgejo]
          exact iff_of_true (undone_setupForgejo db) fun half => absurd (half.1.symm.trans forgejo) (by decide)
        · rw [if_neg forgejo]
          by_cases redmine : provider = providerRedmine
          · have bare : options.repository = none := by
              simp only [validateProviderOptions, bind_eq_ok, refuse_eq_ok, redmine, true_and] at valid
              obtain ⟨-, bare, -⟩ := valid
              simpa using bare
            rw [if_neg (not_not.mpr redmine), undone_setupRedmine_iff]
            simp [HalfDone, redmine, bare]
          · rw [if_pos redmine]
            exact iff_of_true ((undone_of_error rfl).mpr rfl) fun half => redmine half.1

end Setup

section Samples

def opaqueUrls : UrlLibrary where
  Url := String
  parse := .ok
  toString := id
  scheme _ := "https"
  username _ := ""
  password _ := none
  hostStr := some
  path _ := "/"
  query _ := none
  fragment _ := none
  setPath url _ := url

def emptyStore : AuthStore := ⟨fun _ => none, fun _ => none, fun _ => none, fun _ => none, fun _ => none⟩

/-- The credential stays behind when the close status id is no number. -/
theorem close_status_after_credential :
    ¬∀ (faults : Faults) (urls : UrlLibrary) (clock : Option Nat) (prompt : Prompt)
      (describe : PhasegentError → String) (role : Role) (provider : String) (options : SetupOptions)
      (db : AuthDb), AllOrNothing faults urls clock prompt describe role provider options db := by
  intro atomic
  have undone := atomic (fun _ => none) opaqueUrls (some 7) (fun _ => .ok "key-1") (·.message) .executor
    providerRedmine ⟨none, none, some "soon"⟩ ⟨emptyStore, emptyStore⟩
  have same := undone "Redmine close status id must be numeric" _ (Prod.ext (by decide) rfl)
  have row := congrArg (fun store => store.credentials (.executor, "redmine")) same
  revert row
  decide

end Samples

end Phasegent.Auth
