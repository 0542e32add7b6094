import Mathlib
import Phasegent.Interleaving.Replay
import Phasegent.Task.Agreement

namespace Phasegent.Task
open Fallible Interleaving Sql Phasegent.Lease

section Batches
variable {urls : UrlLibrary} {tables tables' : TaskTables}

def TaskCommand.isBatch : TaskCommand → Bool
  | .commitAdoptionSet .. | .linkManyWithTask _ | .detachMany .. => true
  | _ => false

def TaskCommand.Done (urls : UrlLibrary) (tables : TaskTables) : TaskCommand → Prop
  | .commitAdoptionSet repoKey branch keys _ => ∀ key ∈ keys, Adopted urls repoKey branch key tables
  | .linkManyWithTask entries => ∀ entry ∈ entries, LinkedTo tables entry.1.slot entry.2
  | .detachMany repoKey branch issues _ _ =>
      ∀ issue ∈ issues, ¬Linked tables (issue.1.slot repoKey branch)
  | _ => True

theorem TaskStep.outcome {op : TaskOp} {answer : op.Ret}
    (step : TaskStep urls tables op answer tables') :
    op.Fails answer ∧ tables' = tables ∨
      answer = (op.perform urls tables).1 ∧ tables' = (op.perform urls tables).2 := by
  cases step with
  | fault fails => exact .inl ⟨fails, rfl⟩
  | perform => exact .inr ⟨rfl, rfl⟩

theorem transaction_unchanged {α ε : Type} {p : StoreM ε α}
    (failed : (transaction (Statement.perform urls) p tables).1.toBool = false) :
    (transaction (Statement.perform urls) p tables).2 = tables := by
  cases ended : (transaction (Statement.perform urls) p tables).1 with
  | ok a => simp [ended, Except.toBool] at failed
  | error e => exact transaction_error ended

theorem written_unchanged {result : Except String TaskTables}
    (failed : (tables.written result).1.toBool = false) : (tables.written result).2 = tables := by
  cases result with
  | ok tables' => cases failed
  | error text => rfl

theorem TaskStep.unchanged {op : TaskOp} {answer : op.Ret}
    (step : TaskStep urls tables op answer tables') (fails : op.Fails answer) : tables' = tables := by
  rcases step.outcome with ⟨-, same⟩ | ⟨rfl, rfl⟩
  · exact same
  · cases op with
    | ensure | addMembership | adoptAll | linkAll | detachAll => exact transaction_unchanged fails
    | statement s =>
        cases s with
        | insertBinding | insertMembership | insertLink | relink | detachLink =>
            exact written_unchanged fails
        | attachTask => cases fails
        | selectBinding | bindingsForRepoNumber | countBindings | linkStatus | linkTask
        | issuesForBranch => rfl

theorem transaction_settles {α ε : Type} {p : StoreM ε α} {P : TaskTables → Prop}
    {Q : α → TaskTables → Prop} (within : Within (Statement.perform urls) P p Q) (pre : P tables)
    {answer : Except ε α} (step : answer.toBool = false ∧ tables' = tables ∨
      answer = (transaction (Statement.perform urls) p tables).1 ∧
        tables' = (transaction (Statement.perform urls) p tables).2) :
    (∀ error, answer = .error error → tables' = tables) ∧ ∀ a, answer = .ok a → Q a tables' := by
  rcases step with ⟨failed, rfl⟩ | ⟨rfl, rfl⟩
  · refine ⟨fun _ _ => rfl, fun a done => ?_⟩
    rw [done] at failed
    cases failed
  · exact ⟨fun error failed => transaction_error failed, fun a done => within.transaction_ok pre done⟩

def verdict {ε α : Type} (rename : ε → PhasegentError) (answer : Except ε α) :
    Prog TaskOp TaskOp.Ret (Except PhasegentError Unit) :=
  .done ((answer.mapError rename).map fun _ => ())

theorem verdict_settles {ε α : Type} {rename : ε → PhasegentError} {Q : Prop} {answer : Except ε α}
    (settles : (∀ error, answer = .error error → tables' = tables) ∧ ∀ a, answer = .ok a → Q) :
    (∀ error, verdict rename answer = .done (.error error) → tables' = tables) ∧
      (verdict rename answer = .done (.ok ()) → Q) := by
  cases answer with
  | ok a => exact ⟨fun _ ended => by simp [verdict, Except.mapError, Except.map] at ended,
      fun _ => settles.2 a rfl⟩
  | error e => exact ⟨fun _ _ => settles.1 e rfl,
      fun ended => by simp [verdict, Except.mapError, Except.map] at ended⟩

theorem reported_batch {α : Type} (valid : Except String Unit) (op : TaskOp)
    (decode : op.Ret → Except String α) :
    (∃ error, (reported (do
        fromExcept valid
        request op decode)).run = .done (.error error)) ∨
      (reported (do
        fromExcept valid
        request op decode)).run = .call op fun r => verdict .config (decode r) := by
  cases valid with
  | error error => exact .inl ⟨.config error, rfl⟩
  | ok _ =>
      right
      change Prog.call _ _ = _
      congr 1
      funext r
      cases answer : decode r <;> simp only [answer] <;> rfl

theorem TaskCommand.batch_run {command : TaskCommand} (batch : command.isBatch) :
    (∃ error, command.run.run = .done (.error error)) ∨
      ∃ op next, command.run.run = .call op next ∧ (∀ r, ∃ a, next r = .done a) ∧
        ∀ tables tables' answer, Sound tables → TaskStep urls tables op answer tables' →
          op.Fails answer ∨ op.Agrees tables →
            (∀ error, next answer = .done (.error error) → tables' = tables) ∧
              (next answer = .done (.ok ()) → command.Done urls tables') := by
  cases command with
  | ensureBinding | addRepoMembership | link | attachCreatedTask => cases batch
  | commitAdoptionSet repoKey branch keys now =>
      refine .inr ⟨.adoptAll repoKey branch keys now, verdict id, ?_, fun r => ⟨_, rfl⟩, ?_⟩
      · change Prog.call _ _ = _
        congr 1
        funext r
        cases r <;> rfl
      · intro tables tables' answer sound step _
        have settled := transaction_settles within_adoptAll (.start sound) step.outcome
        exact verdict_settles ⟨settled.1, fun a done => (settled.2 a done).2⟩
  | linkManyWithTask entries =>
      rcases reported_batch (validateEntries entries) (.linkAll entries) id with refused | ran
      · exact .inl refused
      · refine .inr ⟨_, _, ran, fun r => ⟨_, rfl⟩, ?_⟩
        intro tables tables' answer sound step admitted
        rcases admitted with fails | agrees
        · refine verdict_settles ⟨fun _ _ => step.unchanged fails, fun a done => ?_⟩
          subst done
          cases fails
        · have settled := transaction_settles (within_linkAll agrees) (.start sound) step.outcome
          exact verdict_settles ⟨settled.1, fun a done => (settled.2 a done).2⟩
  | detachMany repoKey branch issues reason now =>
      rcases reported_batch (validateIssues repoKey branch reason now issues)
        (.detachAll repoKey branch issues reason now) id with refused | ran
      · exact .inl refused
      · refine .inr ⟨_, _, ran, fun r => ⟨_, rfl⟩, ?_⟩
        intro tables tables' answer sound step _
        have settled := transaction_settles within_detachAll ⟨sound, .refl tables⟩ step.outcome
        exact verdict_settles ⟨settled.1, fun a done => (settled.2 a done).2⟩

end Batches

section Runs
variable {urls : UrlLibrary} {commands : Pid → Option TaskCommand}
  {c c' : Config TaskTables TaskOp TaskOp.Ret (Except PhasegentError Unit)}

def Admitted (_ : Pid) (tables : TaskTables) (op : TaskOp) (answer : op.Ret) : Prop :=
  op.Fails answer ∨ op.Agrees tables

def agreeingWorld (urls : UrlLibrary) : World TaskTables TaskOp TaskOp.Ret :=
  (taskWorld urls).guard Admitted

theorem step_kept {i : Pid} {tables tables' : TaskTables} {op : TaskOp} {answer : op.Ret}
    (sound : Sound tables) (step : (agreeingWorld urls).step i tables op answer tables') :
    Sound tables' ∧ Later tables tables' := by
  rcases step.2 with fails | agrees
  · rw [step.1.unchanged fails]
    exact ⟨sound, .refl tables⟩
  · exact step.1.kept sound agrees

theorem sound_empty : Sound .empty :=
  ⟨List.nodup_nil, List.nodup_nil, List.nodup_nil, fun _ member => by cases member⟩

theorem run_sound (run : Run (agreeingWorld urls) c c') (sound : Sound c.shared) :
    Sound c'.shared :=
  run.invariant Sound (fun sound step => (step_kept sound step).1)
    (fun sound crash => by rwa [show _ = _ from crash]) sound

theorem run_later (run : Run (agreeingWorld urls) c c') (sound : Sound c.shared) :
    Later c.shared c'.shared := by
  have both : Sound c.shared → Sound c'.shared ∧ Later c.shared c'.shared :=
    run.related (fun tables tables' => Sound tables → Sound tables' ∧ Later tables tables')
      (fun tables sound => ⟨sound, .refl tables⟩)
      (fun first second sound => ⟨(second (first sound).1).1,
        (first sound).2.trans (second (first sound).1).2⟩)
      (fun step sound => step_kept sound step)
      (fun crash sound => by
        rw [show _ = _ from crash]
        exact ⟨sound, .refl _⟩)
  exact (both sound).2

/-- In every run whose statements and batches agree with the tables and write a task reference only
where none other stands: no row is lost, no key has two tasks, no task reference changes, every row
agrees with its task, a batch that fails changes nothing, and one that succeeds has done all of its
list. -/
theorem branch_links_agree (run : Run (agreeingWorld urls) (taskFleet commands .empty) c)
    (more : Run (agreeingWorld urls) c c') :
    Sound c'.shared ∧ Later c.shared c'.shared ∧
      ∀ i command e next answer tables', commands i = some command → command.isBatch →
        c'.procs i = some (.call e next) →
        (agreeingWorld urls).step i c'.shared e answer tables' →
          (∀ error, next answer = .done (.error error) → tables' = c'.shared) ∧
            (next answer = .done (.ok ()) → command.Done urls tables') := by
  have sound := run_sound run sound_empty
  have sound' := run_sound more sound
  have whole : Run (agreeingWorld urls) (taskFleet commands .empty) c' := run.trans more
  refine ⟨sound', run_later more sound, ?_⟩
  intro i command e next answer tables' given batch running step
  have started : (taskFleet commands .empty).procs i = some command.run.run := by
    simp [taskFleet, given]
  rcases TaskCommand.batch_run batch with ⟨error, refused⟩ | ⟨op, rest, program, short, settles⟩
  · rcases whole.one_call started (by simp [refused]) running with same | ⟨_, ended⟩
    · rw [refused] at same
      cases same
    · cases ended
  · have once : ∀ e next, command.run.run = .call e next → ∀ r, ∃ a, next r = .done a := by
      intro e next called
      rw [program] at called
      cases called
      exact short
    rcases whole.one_call started once running with same | ⟨_, ended⟩
    · rw [program] at same
      cases same
      exact settles c'.shared tables' answer sound' step.1 step.2
    · cases ended

end Runs

section Race

def twoForges : UrlLibrary where
  Url := Bool
  parse text :=
    if text = "https://a.test" then .ok true
    else if text = "https://b.test" then .ok false
    else .error "relative URL without a base"
  toString url := if url then "https://a.test/" else "https://b.test/"
  scheme _ := "https"
  username _ := ""
  password _ := none
  hostStr url := some (if url then "a.test" else "b.test")
  path _ := "/"
  query _ := none
  fragment _ := none
  setPath url _ := url

def forgeKey (inst : String) : TaskKey := ⟨"forgejo", inst, "owner/repo", "7"⟩

def linkOf (number : Nat) : LinkParams :=
  ⟨"repo", "work", ⟨"forgejo", "owner/repo", toString number⟩, number, "cli", 1⟩

def linkCommands : Pid → Option TaskCommand
  | 0 => some (.ensureBinding (forgeKey "https://a.test") 1)
  | 1 => some (.link (linkOf 7))
  | 2 => some (.attachCreatedTask (some ("repo", "work")) (.ok (forgeKey "https://a.test")) 7 1 1)
  | 3 => some (.commitAdoptionSet "repo" "work" [forgeKey "https://b.test"] 1)
  | 4 => some (.linkManyWithTask [(linkOf 8, some 1)])
  | _ => none

def faultless (_ : Pid) (tables : TaskTables) (op : TaskOp) : op.Ret × TaskTables :=
  op.perform twoForges tables

theorem faultless_sound (i : Pid) (tables : TaskTables) (op : TaskOp) :
    (taskWorld twoForges).step i tables op (faultless i tables op).1 (faultless i tables op).2 :=
  .perform

def linkRun (schedule : List Pid) :
    Config TaskTables TaskOp TaskOp.Ret (Except PhasegentError Unit) :=
  (taskFleet linkCommands .empty).replay faultless schedule

theorem linkRun_run (schedule : List Pid) :
    Run (taskWorld twoForges) (taskFleet linkCommands .empty) (linkRun schedule) :=
  .replay faultless_sound _ schedule

def references (tables : TaskTables) : List (Option Int × Int) :=
  tables.links.map fun row => (row.taskId, row.issueNumber)

theorem mem_references {tables : TaskTables} {task : Option Int} {number : Int}
    (listed : (task, number) ∈ references tables) :
    ∃ row ∈ tables.links, row.taskId = task ∧ row.issueNumber = number := by
  obtain ⟨row, member, same⟩ := List.mem_map.mp listed
  cases same
  exact ⟨row, member, rfl, rfl⟩

/-- An adoption between the read and the write of an attach, whose reference is then overwritten,
and a batch that references another task's number. -/
theorem racing_attach_moves_reference :
    (Run (taskWorld twoForges) (taskFleet linkCommands .empty) (linkRun [0, 1, 1, 2, 2, 2, 3]) ∧
      Run (taskWorld twoForges) (linkRun [0, 1, 1, 2, 2, 2, 3]) (linkRun [0, 1, 1, 2, 2, 2, 3, 2]) ∧
      ¬Later (linkRun [0, 1, 1, 2, 2, 2, 3]).shared (linkRun [0, 1, 1, 2, 2, 2, 3, 2]).shared) ∧
    Run (taskWorld twoForges) (taskFleet linkCommands .empty) (linkRun [0, 4]) ∧
      ¬Sound (linkRun [0, 4]).shared := by
  have more : Run (taskWorld twoForges) (linkRun [0, 1, 1, 2, 2, 2, 3])
      (linkRun [0, 1, 1, 2, 2, 2, 3, 2]) :=
    .replay faultless_sound (linkRun [0, 1, 1, 2, 2, 2, 3]) [2]
  refine ⟨⟨linkRun_run _, more, ?_⟩, linkRun_run _, ?_⟩
  · intro later
    have before : references (linkRun [0, 1, 1, 2, 2, 2, 3]).shared = [(some 2, 7)] := by
      decide
    have after : references (linkRun [0, 1, 1, 2, 2, 2, 3, 2]).shared = [(some 1, 7)] := by
      decide
    obtain ⟨row, member, adopted, -⟩ := mem_references (before ▸ List.mem_singleton_self _)
    obtain ⟨row', member', -, kept⟩ := later.links row member
    have moved : (row'.taskId, row'.issueNumber) ∈
        references (linkRun [0, 1, 1, 2, 2, 2, 3, 2]).shared := List.mem_map_of_mem member'
    rw [after, kept 2 adopted, List.mem_singleton, Prod.mk.injEq] at moved
    exact absurd moved.1 (by decide)
  · intro sound
    have stored : references (linkRun [0, 4]).shared = [(some 1, 8)] := by decide
    have bound : (linkRun [0, 4]).shared.bindings = [(forgeKey "https://a.test").row 1 1] := by
      decide
    obtain ⟨row, member, task, number⟩ := mem_references (stored ▸ List.mem_singleton_self _)
    obtain ⟨n, -, small, text, same⟩ := (sound.rows row member).number
    obtain ⟨binding, inside, -, -, -, agreed⟩ := (sound.rows row member).task 1 task
    rw [bound, List.mem_singleton] at inside
    obtain rfl : n = 8 := by omega
    rw [inside, show row.slot.externalId = row.externalId from rfl, text] at agreed
    exact absurd agreed (by decide)

instance (op : TaskOp) (answer : op.Ret) : Decidable (op.Fails answer) :=
  match op, answer with
  | .statement s, answer =>
      match s, answer with
      | .insertBinding .., answer | .insertMembership .., answer | .insertLink .., answer
      | .relink .., answer | .attachTask .., answer | .detachLink .., answer
      | .selectBinding _, answer | .bindingsForRepoNumber .., answer | .countBindings _, answer
      | .linkStatus _, answer | .linkTask _, answer | .issuesForBranch .., answer =>
          instDecidableEqBool answer.toBool false
  | .ensure .., answer | .addMembership .., answer | .adoptAll .., answer | .linkAll _, answer
  | .detachAll .., answer => instDecidableEqBool answer.toBool false

instance (tables : TaskTables) (slot : Slot) (taskId : Int) : Decidable (TaskOf tables slot taskId) :=
  inferInstanceAs (Decidable (∃ binding ∈ tables.bindings, _))

instance (tables : TaskTables) (s : Statement) : Decidable (s.Agrees tables) :=
  match s with
  | .insertLink .. | .relink .. => inferInstanceAs (Decidable (_ ∧ _))
  | .attachTask .. => inferInstanceAs (Decidable (_ ∧ ∀ row ∈ tables.links, _))
  | .insertBinding .. | .selectBinding _ | .bindingsForRepoNumber .. | .countBindings _
  | .insertMembership .. | .linkStatus _ | .linkTask _ | .detachLink .. | .issuesForBranch .. =>
      inferInstanceAs (Decidable True)

instance (tables : TaskTables) (op : TaskOp) : Decidable (op.Agrees tables) :=
  match op with
  | .statement s => inferInstanceAs (Decidable (s.Agrees tables))
  | .linkAll entries => inferInstanceAs (Decidable (∀ entry ∈ entries, _ ∧ _ ∧ ∀ taskId ∈ entry.2, _))
  | .ensure .. | .addMembership .. | .adoptAll .. | .detachAll .. => inferInstanceAs (Decidable True)

instance (i : Pid) (tables : TaskTables) (op : TaskOp) (answer : op.Ret) :
    Decidable (Admitted i tables op answer) :=
  inferInstanceAs (Decidable (_ ∨ _))

theorem attach_in_turn_agrees :
    Later (linkRun [0, 1, 1]).shared (linkRun [0, 1, 1, 2, 2, 2, 2]).shared ∧
      Sound (linkRun [0, 1, 1, 2, 2, 2, 2]).shared ∧
      (linkRun [0, 1, 1, 2, 2, 2, 2, 3]).shared = (linkRun [0, 1, 1, 2, 2, 2, 2]).shared := by
  have first : Run (agreeingWorld twoForges) (taskFleet linkCommands .empty) (linkRun [0, 1, 1]) :=
    .replay_guard faultless_sound _ [0, 1, 1] (by decide)
  have more : Run (agreeingWorld twoForges) (linkRun [0, 1, 1]) (linkRun [0, 1, 1, 2, 2, 2, 2]) :=
    .replay_guard faultless_sound (linkRun [0, 1, 1]) [2, 2, 2, 2] (by decide)
  obtain ⟨sound, later, -⟩ := branch_links_agree first more
  exact ⟨later, sound, by decide⟩

end Race

end Phasegent.Task
