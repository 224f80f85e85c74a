import Workflow.Proofs.Course.Chronicle
import Workflow.Proofs.Ledger.Mirror
import Workflow.Proofs.Store.History
import Workflow.Proofs.Text.Lines

/-!
# What is said about a failure

The message of a failure goes to three places: the event that the dispatcher tells, the report on
the step and its record. Whatever stands in one of them comes from a failure that an invocation has
ended with, word by word, but for the report on a failure without a message. So all that is said is
on one line if and only if each of these failures is plain.
-/

namespace Workflow

/-! ### What a repository keeps of failures -/

namespace MemoryStore

theorem mem_adjustFirst {p : StepRecord → Bool} {f : StepRecord → StepRecord}
    {steps : List StepRecord} {step : StepRecord} (h : step ∈ adjustFirst p f steps) :
    step ∈ steps ∨ ∃ before ∈ steps, p before = true ∧ step = f before := by
  induction steps with
  | nil => cases h
  | cons head rest ih =>
      rw [adjustFirst] at h
      split at h
      · rename_i hhead
        rcases List.mem_cons.mp h with rfl | hrest
        · exact .inr ⟨head, List.mem_cons_self, hhead, rfl⟩
        · exact .inl (List.mem_cons_of_mem _ hrest)
      · rcases List.mem_cons.mp h with rfl | hrest
        · exact .inl List.mem_cons_self
        · rcases ih hrest with hbefore | ⟨before, hbefore, hclosed⟩
          · exact .inl (List.mem_cons_of_mem _ hbefore)
          · exact .inr ⟨before, List.mem_cons_of_mem _ hbefore, hclosed⟩

/-- The records of the steps of a run. -/
def stepsOf (store : MemoryStore) (runId : String) : List StepRecord :=
  ((store.run? runId).map (·.steps)).getD []

theorem stepsOf_of_find? {store : MemoryStore} {runId : String} {record : RunRecord}
    (h : Table.find? store.runs runId = some record) : store.stepsOf runId = record.steps := by
  rw [stepsOf, run?, h]
  rfl

theorem mem_stepsOf_adjust {store : MemoryStore} {runId : String} {f : RunRecord → RunRecord}
    {step : StepRecord} (h : step ∈
      ({ store with runs := Table.adjust store.runs runId f } : MemoryStore).stepsOf runId) :
    ∃ record, Table.find? store.runs runId = some record ∧ step ∈ (f record).steps := by
  rw [stepsOf, run?, Table.find?_adjust, if_pos rfl] at h
  cases hrecord : Table.find? store.runs runId with
  | none =>
      rw [hrecord] at h
      cases h
  | some record =>
      rw [hrecord] at h
      exact ⟨record, rfl, h⟩

theorem exists_of_write {store : MemoryStore} {repository : Repository} {runId : String}
    {entry : Entry} {now : Moment} (hrun : entry.runId = runId)
    (h : (Repository.memory store).write now entry = .ok repository) :
    ∃ store', repository = .memory store' ∧ ∀ step ∈ store'.stepsOf runId,
      step ∈ store.stepsOf runId ∨ step.error = none ∨
        ∃ closing, entry = .closeStep runId step.stepId closing ∧ step.error = closing.error := by
  cases entry with
  | createRun _ definition payload =>
      obtain rfl := hrun
      obtain ⟨store', hcreate, rfl⟩ := exists_of_map_eq_ok h
      obtain ⟨record, hrecord, rfl⟩ := exists_createRun_eq hcreate
      obtain ⟨_, _, -, -, rfl⟩ := RunRecord.ofParts_eq_ok_iff.mp hrecord
      refine ⟨_, rfl, fun step hstep => ?_⟩
      rw [stepsOf_of_find? ((Table.find?_insert _ _ _ _).trans (if_pos rfl))] at hstep
      cases hstep
  | startStep _ stepId =>
      obtain rfl := hrun
      refine ⟨_, (Except.ok.inj h).symm, fun step hstep => ?_⟩
      unfold startStep at hstep
      split at hstep
      · exact .inl hstep
      · rename_i record hrecord
        split at hstep
        · exact .inl hstep
        · rw [stepsOf_of_find? ((Table.find?_insert _ _ _ _).trans (if_pos rfl))] at hstep
          rcases List.mem_append.mp hstep with hbefore | hnew
          · exact .inl (stepsOf_of_find? hrecord ▸ hbefore)
          · obtain rfl := List.mem_singleton.mp hnew
            exact .inr (.inl rfl)
  | closeStep _ stepId closing =>
      obtain rfl := hrun
      refine ⟨_, (Except.ok.inj h).symm, fun step hstep => ?_⟩
      obtain ⟨record, hrecord, hstep⟩ := mem_stepsOf_adjust hstep
      rcases mem_adjustFirst hstep with hbefore | ⟨before, -, hbefore, rfl⟩
      · exact .inl (stepsOf_of_find? hrecord ▸ hbefore)
      · rw [Bool.and_eq_true, decide_eq_true_eq] at hbefore
        exact .inr (.inr ⟨closing, by rw [← hbefore.1]; rfl, rfl⟩)
  | closeRun _ status error =>
      obtain rfl := hrun
      refine ⟨_, (Except.ok.inj h).symm, fun step hstep => ?_⟩
      obtain ⟨record, hrecord, hstep⟩ := mem_stepsOf_adjust hstep
      exact .inl (stepsOf_of_find? hrecord ▸ hstep)

end MemoryStore

theorem Database.exists_of_write {db : Database} {repository : Repository} {runId : String}
    {entry : Entry} {now : Moment} (hrun : entry.runId = runId)
    (h : (Repository.database db).write now entry = .ok repository) :
    ∃ db', repository = .database db' ∧ ∀ row ∈ db'.steps, row.runId = runId →
      row ∈ db.steps ∨ row.error = none ∨
        ∃ closing, entry = .closeStep runId row.stepId closing ∧ row.error = closing.error := by
  subst hrun
  cases entry with
  | createRun runId definition payload =>
      obtain ⟨db', hcreate, rfl⟩ := exists_of_map_eq_ok h
      obtain ⟨_, _, -, -, -, rfl⟩ := createRun_eq_ok hcreate
      exact ⟨_, rfl, fun row hrow _ => .inl hrow⟩
  | startStep runId stepId =>
      refine ⟨_, (Except.ok.inj h).symm, fun row hrow _ => ?_⟩
      rcases List.mem_append.mp hrow with hbefore | hnew
      · exact .inl hbefore
      · obtain rfl := List.mem_singleton.mp hnew
        exact .inr (.inl rfl)
  | closeStep runId stepId closing =>
      obtain ⟨db', hclose, rfl⟩ := exists_of_map_eq_ok h
      obtain ⟨text, -, rfl⟩ := closeStep_eq_ok hclose
      refine ⟨_, rfl, fun row hrow _ => ?_⟩
      obtain ⟨before, hbefore, rfl⟩ := List.mem_map.mp hrow
      by_cases hown : before.runId = runId ∧ before.stepId = stepId
      · rw [if_pos hown]
        exact .inr (.inr ⟨closing, by rw [← hown.2]; rfl, rfl⟩)
      · rw [if_neg hown]
        exact .inl hbefore
  | closeRun runId status error =>
      cases h
      exact ⟨_, rfl, fun row hrow _ => .inl hrow⟩

namespace Repository

variable {repository repository' : Repository} {runId : String} {record : RunRecord}
  {entry : Entry} {now : Moment} {kept : String × Option String}

/-- The steps of a run for which something is kept, each with the error that is kept of it. -/
def stepErrors (runId : String) : Repository → List (String × Option String)
  | .memory store => (store.stepsOf runId).map fun step => (step.stepId, step.error)
  | .database db =>
    (db.steps.filter (·.runId = runId)).map fun row => (row.stepId, row.error)

theorem stepErrors_of_run? (h : repository.run? runId = .ok (some record)) :
    repository.stepErrors runId = record.steps.map fun step => (step.stepId, step.error) := by
  cases repository with
  | memory store =>
      rw [stepErrors, MemoryStore.stepsOf, Except.ok.inj h]
      rfl
  | database db =>
      obtain ⟨row, steps, -, hsteps, hrecord⟩ := Database.run?_eq_some_iff.mp h
      rw [Database.steps_of_recordOf hrecord]
      refine (map_eq_of_mapM (fun row step hstep => ?_) hsteps).symm
      obtain ⟨output, rfl⟩ := Database.stepOf_eq_ok hstep
      rfl

theorem stepErrors_of_isUnknown (h : repository.IsUnknown runId) :
    repository.stepErrors runId = [] := by
  cases repository with
  | memory store =>
      rw [stepErrors, MemoryStore.stepsOf, MemoryStore.run?, Table.find?_eq_none_iff.mpr h]
      rfl
  | database db =>
      obtain ⟨-, hsteps⟩ := h
      have hnil : db.steps.filter (·.runId = runId) = [] := by simpa using hsteps
      rw [stepErrors, hnil, List.map_nil]

theorem Spares.stepErrors (h : Spares runId repository repository') :
    repository'.stepErrors runId = repository.stepErrors runId := by
  cases repository with
  | memory store =>
      cases repository' with
      | memory store' =>
          have hrun : store'.run? runId = store.run? runId := h
          rw [Repository.stepErrors, Repository.stepErrors, MemoryStore.stepsOf,
            MemoryStore.stepsOf, hrun]
      | database db' => exact h.elim
  | database db =>
      cases repository' with
      | memory store' => exact h.elim
      | database db' =>
          rw [Repository.stepErrors, Repository.stepErrors, h.2]

/-- An error is kept of a step because the end of its invocation is written. -/
theorem mem_stepErrors_of_write (h : repository.write now entry = .ok repository')
    (hmem : kept ∈ repository'.stepErrors runId) :
    kept ∈ repository.stepErrors runId ∨ kept.2 = none ∨
      ∃ closing, entry = .closeStep runId kept.1 closing ∧ kept.2 = closing.error := by
  by_cases hrun : entry.runId = runId
  case neg =>
    rw [(spares_write h hrun).stepErrors] at hmem
    exact .inl hmem
  cases repository with
  | memory store =>
      obtain ⟨store', rfl, hsteps⟩ := MemoryStore.exists_of_write hrun h
      obtain ⟨step, hstep, rfl⟩ := List.mem_map.mp hmem
      rcases hsteps step hstep with hbefore | hopen | ⟨closing, hentry, hclosed⟩
      · exact .inl (List.mem_map_of_mem hbefore)
      · exact .inr (.inl hopen)
      · exact .inr (.inr ⟨closing, hentry, hclosed⟩)
  | database db =>
      obtain ⟨db', rfl, hrows⟩ := Database.exists_of_write hrun h
      obtain ⟨row, hrow, rfl⟩ := List.mem_map.mp hmem
      obtain ⟨hrow, hown⟩ := List.mem_filter.mp hrow
      rcases hrows row hrow (of_decide_eq_true hown) with
        hbefore | hopen | ⟨closing, hentry, hclosed⟩
      · exact .inl (List.mem_map_of_mem (List.mem_filter.mpr ⟨hbefore, hown⟩))
      · exact .inr (.inl hopen)
      · exact .inr (.inr ⟨closing, hentry, hclosed⟩)

end Repository

/-! ### What is told and reported of failures -/

theorem Outcome.exists_of_error_message {step : Step} {outcome : Outcome}
    (h : (outcome.message step).level = .error) :
    ∃ e, outcome.result = .error e ∧ (outcome.message step).text = e.message := by
  unfold message at h ⊢
  cases hresult : outcome.result with
  | error e => exact ⟨e, rfl, rfl⟩
  | ok value =>
      rw [hresult] at h
      dsimp only at h
      split at h <;> cases h

namespace Course

variable {runId : String} {graph : Graph} {payload : Fields} {mode : FailureMode}
  {observers : List Observer} {moves : List Move} {c : Course} {id : String}

/-- An invocation of a step has ended with a failure, and was not merely cancelled. -/
def FailedWith (moves : List Move) (id : String) (failure : Failure) : Prop :=
  failure ≠ .cancelled ∧ ∃ now incoming attempts,
    .finish now id incoming ⟨.error failure, attempts⟩ ∈ moves

theorem FailedWith.append {failure : Failure} (h : FailedWith moves id failure)
    (moves' : List Move) : FailedWith (moves ++ moves') id failure := by
  obtain ⟨hne, now, incoming, attempts, hmem⟩ := h
  exact ⟨hne, now, incoming, attempts, List.mem_append_left _ hmem⟩

theorem hasEnded_of_outcome? {move : Move} {outcome : Outcome} (hmem : move ∈ moves)
    (h : move.outcome? id = some outcome) : HasEnded moves id outcome := by
  unfold Move.outcome? at h
  split at h
  · obtain ⟨rfl, houtcome⟩ := Option.ite_none_right_eq_some.mp h
    exact ⟨_, _, _, hmem, houtcome⟩
  · cases h

theorem HasEnded.failedWith {outcome : Outcome} (h : HasEnded moves id outcome) {e : StepError}
    (hresult : outcome.result = .error e) :
    ∃ failure, FailedWith moves id failure ∧ e.message = failure.describe := by
  obtain ⟨now, incoming, ending, hmem, houtcome⟩ := h
  have hsome : (Outcome.ofEnding? ending).isSome = true := by rw [houtcome, Option.isSome_some]
  have hended := Outcome.ofEnding?_isSome_iff.mp hsome
  rw [Outcome.result_of_ofEnding? houtcome] at hresult
  obtain ⟨result, attempts⟩ := ending
  cases result with
  | ok value => cases hresult
  | error failure =>
      have hne : failure ≠ .cancelled := fun hcancelled => hended (hcancelled ▸ rfl)
      refine ⟨failure, ⟨hne, now, incoming, attempts, hmem⟩, ?_⟩
      exact (congrArg StepError.message (Except.error.inj hresult)).symm

/-- What the dispatcher tells of a step is the outcome of the invocation that the move has ended. -/
theorem message_of_mem_annals
    (hplay : (register runId graph payload mode observers).play moves = some c)
    {entry : Move × Event}
    (hmem : entry ∈ (register runId graph payload mode observers).annals moves)
    {outcome : Outcome} (houtcome : entry.1.outcome? id = some outcome) :
    entry.1 ∈ moves ∧ ∃ step, entry.2.message = outcome.message step := by
  refine ((sound_register runId graph payload mode observers).play_induction
    (P := fun moves after => (register runId graph payload mode observers).play moves = some after →
      ∀ entry ∈ (register runId graph payload mode observers).annals moves, ∀ outcome,
        entry.1.outcome? id = some outcome →
          entry.1 ∈ moves ∧ ∃ step, entry.2.message = outcome.message step)
    (fun _ entry hmem => by cases hmem) ?_ hplay).2 hplay entry hmem outcome houtcome
  intro moves before move after hmoves _ hsofar htakes hplay entry hmem outcome houtcome
  rw [annals_append hmoves] at hmem
  rcases List.mem_append.mp hmem with hearlier | hnew
  · obtain ⟨hmove, hmessage⟩ := hsofar hmoves entry hearlier outcome houtcome
    exact ⟨List.mem_append_left _ hmove, hmessage⟩
  · obtain ⟨messages, htells, hspeaks⟩ := htakes.speaks
    obtain ⟨events, -, rfl, hannals⟩ :=
      annals_singleton (step_of_play_append hmoves hplay) htells
    rw [hannals] at hnew
    obtain ⟨event, hevent, rfl⟩ := List.mem_map.mp hnew
    obtain ⟨step, hmessages⟩ := hspeaks.eq_message_of_outcome? houtcome
    refine ⟨List.mem_append_right _ (List.mem_singleton_self _), step, ?_⟩
    exact List.mem_singleton.mp (hmessages ▸ List.mem_map_of_mem hevent)

/-- A failed step is reported with the message of a failure that its invocation has ended with. -/
def Blames (moves : List Move) (run : Run) : Prop :=
  ∀ id report, run.report? id = some report → report.status = .failed →
    ∃ failure, FailedWith moves id failure ∧
      report.error = some (if failure.describe = "" then "Step failed" else failure.describe)

theorem blames_of_play
    (hplay : (register runId graph payload mode observers).play moves = some c) :
    Blames moves c.run := by
  intro id report hreport hfailed
  obtain ⟨now, outcome, opened, hended, rfl⟩ := exists_closedBy_of_play hplay hreport hfailed
  obtain ⟨e, hresult, herror⟩ := exists_error_of_failed now outcome opened hfailed
  obtain ⟨failure, hfailure, hmessage⟩ := hended.failedWith hresult
  exact ⟨failure, hfailure, by rw [herror, hmessage]⟩

end Course

/-! ### What is recorded of failures -/

namespace Ledger

variable {repository : Repository} {runId : String} {graph : Graph} {payload : Fields}
  {mode : FailureMode} {observers : List Observer} {acts : List Act} {l : Ledger} {id : String}

/-- Whatever is kept, or is to be kept, of the end of an invocation is what it has ended with. -/
structure RecordsFailures (moves : List Move) (l : Ledger) : Prop where
  owed : ∀ entry ∈ l.owed, ∀ id closing, entry = .closeStep l.course.run.id id closing →
    ∃ outcome, Course.HasEnded moves id outcome ∧ closing = outcome.closing
  kept : ∀ kept ∈ l.repository.stepErrors l.course.run.id, ∀ text, kept.2 = some text →
    ∃ failure, Course.FailedWith moves kept.1 failure ∧ text = failure.describe

theorem exists_of_error_closing {outcome : Outcome} {text : String}
    (h : outcome.closing.error = some text) :
    ∃ e, outcome.result = .error e ∧ text = e.message := by
  unfold Outcome.closing at h
  cases hresult : outcome.result with
  | ok value =>
      rw [hresult] at h
      cases h
  | error e =>
      rw [hresult] at h
      exact ⟨e, rfl, (Option.some.inj h).symm⟩

/-- A move that ends an invocation owes the repository the outcome, and no other move owes one. -/
theorem hasEnded_of_owed {c c' : Course} {move : Move} {runId : String} {closing : StepClosing}
    (h : .closeStep runId id closing ∈ c.owed c' move) (moves : List Move) :
    ∃ outcome, Course.HasEnded (moves ++ [move]) id outcome ∧ closing = outcome.closing := by
  rcases List.mem_append.mp h with hstep | hending
  · rw [Option.mem_toList] at hstep
    unfold Course.stepOwed at hstep
    split at hstep
    · split at hstep
      · cases hstep
      · cases hstep
    · cases hstep
    · rename_i now stepId incoming ending
      obtain ⟨outcome, houtcome, hentry⟩ := Option.map_eq_some_iff.mp hstep
      cases hentry
      refine ⟨outcome, ⟨now, incoming, ending, ?_, houtcome⟩, rfl⟩
      exact List.mem_append_right _ (List.mem_singleton_self _)
    · cases hstep
  · split at hending
    · cases List.mem_singleton.mp hending
    · cases hending

theorem RecordsFailures.of_move {moves : List Move} {move : Move} {l' : Ledger}
    (h : l.RecordsFailures moves) (hsound : l.course.Sound)
    (hstep : l.step (.move move) = some l') : l'.RecordsFailures (moves ++ [move]) := by
  rw [step] at hstep
  split at hstep
  case isFalse => cases hstep
  obtain ⟨course, hcourse, rfl⟩ := Option.map_eq_some_iff.mp hstep
  have hid : course.run.id = l.course.run.id := (hsound.advances (hsound.takes hcourse)).id
  refine ⟨fun entry hentry id closing heq => ?_, fun kept hkept text htext => ?_⟩
  · subst heq
    rcases List.mem_append.mp hentry with hearlier | hnew
    · obtain ⟨outcome, hended, hclosing⟩ :=
        h.owed _ (List.mem_filter.mp hearlier).1 id closing (by rw [hid])
      exact ⟨outcome, hended.append _, hclosing⟩
    · exact hasEnded_of_owed hnew moves
  · have hkept : kept ∈ l.repository.stepErrors l.course.run.id := hid ▸ hkept
    obtain ⟨failure, hfailure, hmessage⟩ := h.kept kept hkept text htext
    exact ⟨failure, hfailure.append _, hmessage⟩

theorem RecordsFailures.of_write {moves : List Move} {now : Moment} {entry : Entry}
    {repository : Repository} (h : l.RecordsFailures moves) (howed : entry ∈ l.owed)
    (hwrite : l.repository.write now entry = .ok repository) :
    RecordsFailures moves { l with repository, owed := l.owed.filter (· ≠ entry) } := by
  refine ⟨fun other hother => h.owed other (List.mem_filter.mp hother).1,
    fun kept hkept text htext => ?_⟩
  rcases Repository.mem_stepErrors_of_write hwrite hkept with
    hearlier | hnone | ⟨closing, heq, herror⟩
  · exact h.kept kept hearlier text htext
  · rw [hnone] at htext
    cases htext
  · obtain ⟨outcome, hended, rfl⟩ := h.owed entry howed kept.1 closing heq
    obtain ⟨e, hresult, rfl⟩ := exists_of_error_closing (herror.symm.trans htext)
    exact hended.failedWith hresult

/-- In every play, and whatever the repository does, the errors that it keeps of the steps are the
messages of failures. -/
theorem recordsFailures_of_play (hunknown : repository.IsUnknown runId)
    (hplay : (register repository runId graph payload mode observers).play acts = some l) :
    l.RecordsFailures (Act.moves acts) := by
  induction acts using List.reverseRecOn generalizing l with
  | nil =>
      obtain rfl := Option.some.inj hplay
      refine ⟨fun entry hentry id closing heq => ?_, fun kept hkept => ?_⟩
      · subst heq
        cases List.mem_singleton.mp hentry
      · have hnil : (register repository runId graph payload mode observers).repository.stepErrors
            (register repository runId graph payload mode observers).course.run.id = [] :=
          Repository.stepErrors_of_isUnknown hunknown
        rw [hnil] at hkept
        cases hkept
  | append_singleton acts act ih =>
      obtain ⟨middle, hmiddle, hact⟩ := play_concat_eq hplay
      have hcourse := course_of_play hmiddle
      have hsound := ((Course.sound_register runId graph payload mode observers).play hcourse).1
      have hbefore := ih hmiddle
      rw [moves_concat]
      cases act with
      | move move => exact hbefore.of_move hsound hact
      | write now entry =>
          obtain ⟨howed, repository', hwrite, rfl⟩ := step_write_eq hact
          rw [Act.move?, Option.toList_none, List.append_nil]
          exact hbefore.of_write howed hwrite
      | other now entry =>
          obtain ⟨hne, repository', hwrite, rfl⟩ := step_other_eq hact
          rw [Act.move?, Option.toList_none, List.append_nil]
          refine ⟨hbefore.owed, fun kept hkept => hbefore.kept kept ?_⟩
          exact (Repository.spares_write hwrite hne).stepErrors ▸ hkept

/-! ### Failures on one line -/

/-- Whatever is said about a failure, and wherever, is one line. -/
structure FailsInLines (start : Course) (moves : List Move) (l : Ledger) : Prop where
  described : ∀ id failure, Course.FailedWith moves id failure → Text.IsLine failure.describe
  told : ∀ entry ∈ start.annals moves, ∀ id, (entry.1.outcome? id).isSome →
    entry.2.message.level = .error → Text.IsLine entry.2.message.text
  reported : ∀ id report, l.course.run.report? id = some report → report.status = .failed →
    ∃ text, report.error = some text ∧ Text.IsLine text
  recorded : ∀ record, l.repository.run? l.course.run.id = .ok (some record) →
    ∀ step ∈ record.steps, ∀ text, step.error = some text → Text.IsLine text

/-- In every play, what is said about the failures of the steps is said in lines if and only if each
of these failures is plain. -/
theorem failures_are_lines_iff_plain (repository : Repository) (runId : String) (graph : Graph)
    (payload : Fields) (mode : FailureMode) (observers : List Observer) (acts : List Act)
    (l : Ledger) (hunknown : repository.IsUnknown runId)
    (hplay : (register repository runId graph payload mode observers).play acts = some l) :
    l.FailsInLines (.register runId graph payload mode observers) (Act.moves acts) ↔
      ∀ id failure, Course.FailedWith (Act.moves acts) id failure → failure.IsPlain := by
  have hcourse := course_of_play hplay
  have hrecords := recordsFailures_of_play hunknown hplay
  constructor
  · intro h id failure hfailed
    exact failure.isLine_describe_iff.mp (h.described id failure hfailed)
  · intro hplain
    have hline {id : String} {failure : Failure}
        (hfailed : Course.FailedWith (Act.moves acts) id failure) : Text.IsLine failure.describe :=
      failure.isLine_describe_iff.mpr (hplain id failure hfailed)
    refine ⟨fun _ _ => hline, ?told, ?reported, ?recorded⟩
    case told =>
      intro entry hentry id houtcome hlevel
      obtain ⟨outcome, houtcome⟩ := Option.isSome_iff_exists.mp houtcome
      obtain ⟨hmove, step, hmessage⟩ := Course.message_of_mem_annals hcourse hentry houtcome
      obtain ⟨e, hresult, htext⟩ := Outcome.exists_of_error_message (hmessage ▸ hlevel)
      obtain ⟨failure, hfailure, hdescribed⟩ :=
        (Course.hasEnded_of_outcome? hmove houtcome).failedWith hresult
      rw [hmessage, htext, hdescribed]
      exact hline hfailure
    case reported =>
      intro id report hreport hfailed
      obtain ⟨failure, hfailure, herror⟩ := Course.blames_of_play hcourse id report hreport hfailed
      -- A line is not empty, so nothing is put in its place.
      rw [if_neg (hline hfailure).1] at herror
      exact ⟨_, herror, hline hfailure⟩
    case recorded =>
      intro record hrecord step hstep text herror
      obtain ⟨failure, hfailure, rfl⟩ := hrecords.kept (step.stepId, step.error)
        (Repository.stepErrors_of_run? hrecord ▸ List.mem_map_of_mem hstep) text herror
      exact hline hfailure

/-- The right step of the diamond fails. -/
def failingActs (failure : Failure) : List Act :=
  openingActs ++ invocation "right" ⟨.error failure, 1⟩
    { status := some "failed", error := some failure.describe }

def rejected : Failure := .typed .activityFailure "Rejected" false

/-- A fault whose text has a break. -/
def broken : Failure := .fault "ValueError" "first\nsecond"

theorem isSome_play_failingActs_rejected : ((register (.memory {}) "run" Course.diamond [] .failFast
    []).play (failingActs rejected)).isSome := by decide +kernel

theorem isSome_play_failingActs_broken : ((register (.memory {}) "run" Course.diamond [] .failFast
    []).play (failingActs broken)).isSome := by decide +kernel

/-- The play in which the right step is rejected. -/
def rejection : Ledger :=
  ((register (.memory {}) "run" Course.diamond [] .failFast []).play (failingActs rejected)).get
    isSome_play_failingActs_rejected

/-- The play in which the right step fails with a text that has a break. -/
def breakage : Ledger :=
  ((register (.memory {}) "run" Course.diamond [] .failFast []).play (failingActs broken)).get
    isSome_play_failingActs_broken

theorem rejection_in_lines : rejection.FailsInLines
    (.register "run" Course.diamond [] .failFast []) (Act.moves (failingActs rejected)) := by
  have hplay : (register (.memory {}) "run" Course.diamond [] .failFast []).play
      (failingActs rejected) = some rejection := (Option.some_get _).symm
  refine (failures_are_lines_iff_plain (.memory {}) "run" Course.diamond [] .failFast []
    (failingActs rejected) rejection List.not_mem_nil hplay).mpr ?_
  rintro id failure ⟨-, now, incoming, attempts, hmem⟩
  have hfailure : failure = rejected := by
    simp [failingActs, openingActs, invocation, Act.moves, Act.move?] at hmem
    exact hmem.2.2.2.1.symm
  rw [hfailure]
  show Text.IsLine "Rejected"
  decide

/-- What is told, reported and recorded of the right step goes over two lines. -/
theorem breakage_over_two_lines :
    (breakage.course.run.report? "right").bind (·.error) = some "ValueError: first\nsecond" ∧
      breakage.repository.stepErrors "run" =
        [("start", none), ("right", some "ValueError: first\nsecond")] ∧
      (breakage.course.run.log.events.map (·.message)).contains
        (.error "ValueError: first\nsecond" (some "right")) = true ∧
      ¬breakage.FailsInLines (.register "run" Course.diamond [] .failFast [])
        (Act.moves (failingActs broken)) := by
  refine ⟨by decide +kernel, by decide +kernel, by decide +kernel, fun h => ?_⟩
  have hfailed : Course.FailedWith (Act.moves (failingActs broken)) "right" broken := by
    refine ⟨nofun, .origin, [], 1, ?_⟩
    simp [failingActs, openingActs, invocation, Act.moves, Act.move?]
  have hline : Text.IsLine broken.describe := h.described "right" broken hfailed
  exact absurd hline (by decide)

end Ledger

end Workflow
