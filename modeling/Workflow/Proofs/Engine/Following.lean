import Workflow.Proofs.Course.Invariant
import Workflow.Proofs.Engine.View
import Workflow.Proofs.Ledger

/-!
# An engine follows the ledgers of its runs

An engine decides in which order the moves around its runs are made: at every moment each of its
runs stands where some play of its ledger leads, and each task on the agenda is a move that is
possible there. What an engine does about a run is a simulation of moves and of the writes that are
owed from them on; between two tasks nothing is owed.
-/

namespace Workflow

namespace Ledger

variable {l l' l'' : Ledger} {c c' : Course} {repository repository' : Repository} {move : Move}
  {now : Moment} {entry : Entry} {owed : List Entry}

/-- One ledger comes from another by acts. -/
def Becomes (l l' : Ledger) : Prop := ∃ acts, l.play acts = some l'

theorem Becomes.refl (l : Ledger) : l.Becomes l := ⟨[], rfl⟩

theorem Becomes.trans (h : l.Becomes l') (h' : l'.Becomes l'') : l.Becomes l'' := by
  obtain ⟨acts, hacts⟩ := h
  obtain ⟨acts', hacts'⟩ := h'
  refine ⟨acts ++ acts', ?_⟩
  rw [play_append, hacts]
  exact hacts'

theorem Becomes.of_act (act : Act) (hstep : l.step act = some l') : l.Becomes l' := by
  refine ⟨[act], ?_⟩
  rw [play, hstep]
  rfl

theorem Becomes.of_move (hstep : c.step move = some c') (howed : c.owed c' move = owed) :
    Becomes ⟨c, repository, []⟩ ⟨c', repository, owed⟩ := by
  refine .of_act (.move move) ?_
  simp [step, hstep, howed]

/-- The repository has refused the write that the move comes after. -/
theorem Becomes.of_refusal (hstep : c.step move = some c') (hrefusal : move.isRefusal = true)
    (hfollows : move.follows entry = true) (howed : c.owed c' move = []) :
    Becomes ⟨c, repository, [entry]⟩ ⟨c', repository, []⟩ := by
  refine .of_act (.move move) ?_
  simp [step, hstep, hrefusal, hfollows, howed]

theorem Becomes.of_write (hwrite : repository.write now entry = .ok repository') :
    Becomes ⟨c, repository, [entry]⟩ ⟨c, repository', []⟩ := by
  refine .of_act (.write now entry) ?_
  simp [step, hwrite]

/-- Other runs are written about. -/
theorem Becomes.of_isTold {runId : String} (htold : repository.IsTold runId repository')
    (hne : runId ≠ c.run.id) : Becomes ⟨c, repository, []⟩ ⟨c, repository', []⟩ := by
  induction htold with
  | refl => exact .refl _
  | tail _ hwrite ih =>
      obtain ⟨now, entry, rfl, hwrite⟩ := hwrite
      refine ih.trans (.of_act (.other now entry) ?_)
      simp [step, hne, hwrite]

end Ledger

namespace Course

variable {c c' : Course} {move : Move}

/-- The driver has not taken the trigger to the dispatcher, or is back from there. -/
def IsFree (c : Course) : Prop := c.progress? c.triggerId = none

theorem owed_of_phase_eq {entries : List Entry} (hphase : c'.phase = c.phase)
    (hstep : (c.stepOwed c' move).toList = entries) : c.owed c' move = entries := by
  simp [owed, hphase, hstep]

theorem owed_of_closing (hbefore : c.phase.isClosing = false) (hafter : c'.phase.isClosing = true)
    (hstep : c.stepOwed c' move = none) : c.owed c' move = [c'.run.ending] := by
  simp [owed, hbefore, hafter, hstep]

end Course

/-- What the state of a driver says about the phase of its run. A driver that has been woken has not
said anything yet. -/
def DriverState.Shows : Option DriverState → Phase → Prop
  | none, phase => phase.isUnstored
  | some .waiting, phase => phase = .waiting
  | some .driving, phase => phase = .driving
  | some .closing, phase => phase = .driving
  | some (.done failure), phase => phase = .closed failure

/-- What a task says about its run, whose driver is in some state. -/
def Task.Fits (c : Course) (driver : Option DriverState) : Task → Prop
  | .begin _ => driver = some .waiting
  | .start _ stepId => c.progress? stepId = some .released
  | .resume _ stepId _ => ∃ incoming, c.progress? stepId = some (.working incoming)
  | .conclude _ => driver = some .closing ∧ c.run.isFinished = true
  | .abandon _ => driver = some .closing

namespace View

/-- What an engine has of a run is where the run stands in its course, and each task on the agenda
can be done there. -/
structure Follows (view : View) (c : Course) : Prop where
  sound : c.Sound
  id : c.run.id = view.runId
  run : view.run = some c.run
  driver : DriverState.Shows view.driver c.phase
  tasks : ∀ task ∈ view.tasks, task.Fits c view.driver
  nodup : (view.tasks.map Task.holder).Nodup

/-- Between two tasks, the driver has no invocation of its own in hand. -/
structure Rests (view : View) (c : Course) : Prop extends Follows view c where
  free : c.IsFree

/-- The engine has just taken up an invocation, which is not on the agenda meanwhile. -/
structure Handles (view : View) (c : Course) (step : Step) : Prop extends Follows view c where
  found : c.run.graph.step? step.id = some step
  alone : ∀ task ∈ view.tasks, task.holder ≠ (view.runId, some step.id)
  free : c.IsFree ∨ c.triggerId = step.id

end View

namespace Engine

/-- One run has gone on from some place in its course, at which some writes were owed; no other run
has been touched. -/
def Continues (e : Engine) (runId : String) (c : Course) (owed : List Entry) (e' : Engine) : Prop :=
  Spares runId e e' ∧ ∃ c', Ledger.Becomes ⟨c, e.repository, owed⟩ ⟨c', e'.repository, []⟩ ∧
    (e'.view runId).Rests c'

variable {e e' e'' : Engine} {runId : String} {c c' : Course} {owed owed' : List Entry}

theorem Continues.after (h : e'.Continues runId c' owed' e'') (hspares : Spares runId e e')
    (hbecomes : Ledger.Becomes ⟨c, e.repository, owed⟩ ⟨c', e'.repository, owed'⟩) :
    e.Continues runId c owed e'' := by
  obtain ⟨hspares', c'', hlater, hrests⟩ := h
  exact ⟨hspares.trans hspares', c'', hbecomes.trans hlater, hrests⟩

theorem Continues.of_stage (stage : Stage)
    (h : Continues { e with stage } runId c owed e') : e.Continues runId c owed e' :=
  h.after ⟨rfl, fun _ _ => rfl, .refl⟩ (.refl _)

end Engine

theorem Task.Fits.holder_ne {c : Course} {task : Task} (h : task.Fits c (some .driving)) :
    task.holder.2 ≠ none := by
  cases task with
  | start => exact Option.some_ne_none _
  | resume => exact Option.some_ne_none _
  | begin => cases h
  | conclude => cases h.1
  | abandon => cases h

theorem Task.Fits.of_holder_ne {c : Course} {driver : Option DriverState} {task : Task}
    (h : task.Fits c driver) (hholder : task.holder.2 ≠ none) (driver' : Option DriverState) :
    task.Fits c driver' := by
  cases task with
  | start => exact h
  | resume => exact h
  | begin => exact absurd rfl hholder
  | conclude => exact absurd rfl hholder
  | abandon => exact absurd rfl hholder

theorem Task.Fits.exists_progress {c : Course} {driver : Option DriverState} {task : Task}
    {id : String} (h : task.Fits c driver) (hholder : task.holder.2 = some id) :
    ∃ progress, c.progress? id = some progress := by
  cases task with
  | start runId stepId =>
      obtain rfl := Option.some.inj hholder
      exact ⟨_, h⟩
  | resume runId stepId rest =>
      obtain rfl := Option.some.inj hholder
      obtain ⟨incoming, hprogress⟩ := h
      exact ⟨_, hprogress⟩
  | begin => cases hholder
  | conclude => cases hholder
  | abandon => cases hholder

/-- A task still fits after a move that its holder has no part in. -/
theorem Task.Fits.of_keeps {c c' : Course} {driver : Option DriverState} {task : Task}
    (h : task.Fits c driver) (hfinished : c.run.isFinished = true → c'.run.isFinished = true)
    (hkeeps : ∀ id progress, task.holder.2 = some id → c.progress? id = some progress →
      c'.progress? id = some progress) : task.Fits c' driver := by
  cases task with
  | start runId stepId => exact hkeeps stepId _ rfl h
  | resume runId stepId rest =>
      obtain ⟨incoming, hprogress⟩ := h
      exact ⟨incoming, hkeeps stepId _ rfl hprogress⟩
  | begin => exact h
  | conclude => exact ⟨h.1, hfinished h.2⟩
  | abandon => exact h

namespace View

variable {e e' : Engine} {runId : String} {c c' : Course} {step : Step}

theorem Follows.schedule (h : (e.view runId).Follows c) (time : Float) (task : Task)
    (hholder : task.holder.1 = runId) (hfits : task.Fits c (Table.find? e.drivers runId))
    (halone : ∀ other ∈ e.tasksOf runId, other.holder ≠ task.holder) :
    ((e.schedule time task).view runId).Follows c := by
  have hperm := e.tasksOf_schedule_perm time task hholder
  refine ⟨h.sound, h.id, h.run, h.driver, fun other hmem => ?_, ?_⟩
  · rcases List.mem_cons.mp (hperm.mem_iff.mp hmem) with rfl | hmem
    · exact hfits
    · exact h.tasks other hmem
  · refine (hperm.map Task.holder).nodup_iff.mpr ?_
    rw [List.map_cons, List.nodup_cons]
    refine ⟨fun hmem => ?_, h.nodup⟩
    obtain ⟨other, hother, hsame⟩ := List.mem_map.mp hmem
    exact halone other hother hsame

theorem Follows.scheduleStarts (h : (e.view runId).Follows c) {ids : List String}
    (hnodup : ids.Nodup) (hreleased : ∀ id ∈ ids, c.progress? id = some .released)
    (halone : ∀ id ∈ ids, ∀ task ∈ e.tasksOf runId, task.holder ≠ (runId, some id)) :
    ((ids.foldl (fun e id => e.schedule e.stage.now (.start runId id)) e).view runId).Follows
      c := by
  induction ids generalizing e with
  | nil => exact h
  | cons id ids ih =>
      obtain ⟨hnew, hnodup⟩ := List.nodup_cons.mp hnodup
      have hfirst := h.schedule e.stage.now (.start runId id) rfl
        (hreleased id List.mem_cons_self) (halone id List.mem_cons_self)
      refine ih hfirst hnodup
        (fun other hother => hreleased other (List.mem_cons_of_mem id hother)) ?_
      intro other hother task hmem hholder
      have hperm := e.tasksOf_schedule_perm e.stage.now (.start runId id) rfl
      rcases List.mem_cons.mp (hperm.mem_iff.mp hmem) with rfl | hmem
      · obtain rfl := Option.some.inj (congrArg Prod.snd hholder)
        exact hnew hother
      · exact halone other (List.mem_cons_of_mem id hother) task hmem hholder

/-- A run is put in place after a move; if that ends the run, its driver is woken. -/
theorem Follows.setRun (h : (e.view runId).Follows c) {move : Move} (hstep : c.step move = some c')
    (hphase : c'.phase = c.phase)
    (htasks : ∀ task ∈ e.tasksOf runId, task.Fits c' (Table.find? e.drivers runId)) :
    ((e.setRun c'.run).view runId).Follows c' := by
  have htakes := h.sound.takes hstep
  have hsound := h.sound.of_takes htakes
  obtain rfl : c'.run.id = runId := (h.sound.advances htakes).id.trans h.id
  have hfound : Table.find? (Table.insert e.runs c'.run.id c'.run) c'.run.id = some c'.run :=
    (Table.find?_insert _ _ _ _).trans (if_pos rfl)
  by_cases hwakes : e.Wakes c'.run
  · rw [Engine.setRun_of_wakes hwakes]
    have hdriver : Table.find? e.drivers c'.run.id = some .driving := hwakes.2
    have hwoken : Table.find? (Table.insert e.drivers c'.run.id .closing) c'.run.id =
        some .closing := (Table.find?_insert _ _ _ _).trans (if_pos rfl)
    have hdriving := h.driver
    rw [Engine.view, hdriver] at hdriving
    rw [hdriver] at htasks
    have hset : ((Engine.setDriver { e with
        runs := Table.insert e.runs c'.run.id c'.run
        observed := e.observed ++ e.news c'.run } c'.run.id .closing).view c'.run.id).Follows
          c' := by
      refine ⟨hsound, rfl, hfound, ?_, fun task hmem => ?_, h.nodup⟩
      · rw [Engine.view, Engine.setDriver, hwoken]
        exact hphase.trans hdriving
      · exact (htasks task hmem).of_holder_ne (htasks task hmem).holder_ne _
    refine hset.schedule _ (.conclude c'.run.id) rfl ⟨hwoken, hwakes.1⟩ fun other hmem hholder => ?_
    exact (htasks other hmem).holder_ne (congrArg Prod.snd hholder)
  · rw [Engine.setRun_of_not_wakes hwakes]
    exact ⟨hsound, rfl, hfound, hphase ▸ h.driver, htasks, h.nodup⟩

/-! ### Invocations -/

namespace Handles

/-- The tasks on the agenda are not concerned by a move of the invocation that is in hand. -/
theorem fits (h : (e.view runId).Handles c step)
    (hfinished : c.run.isFinished = true → c'.run.isFinished = true)
    (hkeeps : ∀ id progress, id ≠ step.id → c.progress? id = some progress →
      c'.progress? id = some progress) :
    ∀ task ∈ e.tasksOf runId, task.Fits c' (Table.find? e.drivers runId) := by
  intro task hmem
  refine (h.tasks task hmem).of_keeps hfinished fun id progress hholder hprogress =>
    hkeeps id progress ?_ hprogress
  rintro rfl
  exact h.alone task hmem (Prod.ext (Engine.holder_of_mem_tasksOf hmem) hholder)

theorem setRun (h : (e.view runId).Handles c step) {move : Move} (hstep : c.step move = some c')
    (hphase : c'.phase = c.phase)
    (hkeeps : ∀ id progress, id ≠ step.id → c.progress? id = some progress →
      c'.progress? id = some progress) : ((e.setRun c'.run).view runId).Follows c' :=
  h.toFollows.setRun hstep hphase
    (h.fits (h.sound.advances (h.sound.takes hstep)).finished hkeeps)

theorem alone_setRun (h : (e.view runId).Handles c step) {run : Run} (hid : run.id = runId) :
    ∀ task ∈ (e.setRun run).tasksOf runId, task.holder ≠ (runId, some step.id) := by
  intro task hmem hholder
  rcases Engine.mem_tasksOf_setRun hid hmem with hmem | hdriver
  · exact h.alone task hmem hholder
  · rw [hholder] at hdriver
    cases hdriver

theorem change (h : (e.view runId).Handles c step) (f : Run → Run) :
    e.change runId f = e.setRun (f c.run) := by
  rw [Engine.change, show Table.find? e.runs runId = some c.run from h.run]

theorem put (h : (e.view runId).Handles c step) {before progress : Progress}
    (hbefore : c.progress? step.id = some before) (hfits : progress.Fits c.run step.id) :
    (e.view runId).Handles (c.put step.id progress) step where
  sound := h.sound.put hbefore hfits
  id := h.id
  run := h.run
  driver := h.driver
  tasks := h.fits (fun hfinished => hfinished) fun id progress' hne hprogress => by
    rw [Course.progress?_put, if_neg hne]
    exact hprogress
  nodup := h.nodup
  found := h.found
  alone := h.alone
  free := by
    by_cases htrigger : c.triggerId = step.id
    · exact Or.inr htrigger
    · refine Or.inl ?_
      rw [Course.IsFree, Course.progress?_put]
      exact (if_neg htrigger).trans (h.free.resolve_right htrigger)

theorem failInternally (h : (e.view runId).Handles c step)
    (hprogress : (∃ incoming, c.progress? step.id = some (.entering incoming)) ∨
      ∃ outcome, c.progress? step.id = some (.leaving outcome)) (failure : Failure)
    {entry : Entry} (hentry : Move.follows (.breakOff step.id failure) entry = true) :
    e.Continues runId c [entry] (e.failInternally runId step.id failure) := by
  have hstep : c.step (.breakOff step.id failure) = some (c.breakOff step.id failure) := by
    rcases hprogress with ⟨_, hprogress⟩ | ⟨_, hprogress⟩ <;> simp only [Course.step, hprogress]
  have hdrop (id : String) : (c.breakOff step.id failure).progress? id =
      if id = step.id then none else c.progress? id := h.sound.progress?_drop step.id id
  have hid := (c.run.quiet_failInternally step.id failure).id.trans h.id
  rw [Engine.failInternally, h.change]
  refine ⟨e.spares_setRun hid, c.breakOff step.id failure, ?_, ?_, ?_⟩
  · rw [Engine.repository_setRun]
    exact .of_refusal hstep rfl hentry (Course.owed_of_phase_eq rfl rfl)
  · refine h.setRun hstep rfl fun id progress hne hid => ?_
    rw [hdrop, if_neg hne, hid]
  · have htrigger : (c.breakOff step.id failure).triggerId = c.triggerId :=
      congrArg (·.trigger.id) (c.run.quiet_failInternally step.id failure).graph
    rw [Course.IsFree, hdrop, htrigger, ite_eq_left_iff]
    exact fun hne => h.free.resolve_right hne

theorem complete (h : (e.view runId).Handles c step) {outcome : Outcome}
    (hprogress : c.progress? step.id = some (.leaving outcome)) :
    e.Continues runId c [] (e.complete runId step outcome) := by
  have hrunning := h.sound.running _ _ hprogress
  have hcompletes := h.sound.run.completes (h.sound.stored (h.sound.stored_of_progress hprogress))
    hrunning e.now outcome
  have hstep : c.step (.report e.now step.id) = some (c.report e.now step outcome) := by
    simp only [Course.step, hprogress, h.found]
  have hreport (id : String) := h.sound.progress?_report hprogress hcompletes id
  -- What is released was idle, so it was not being invoked and has no task yet.
  have hnone {id : String} {progress : Progress} (hid : c.progress? id = some progress) :
      id ∉ (c.run.applyFor step.id (Change.complete e.now step outcome)).1 := by
    intro hmem
    have hidle := (hcompletes.idle_of_mem_released hrunning hmem).2
    rw [h.sound.running id progress hid] at hidle
    cases hidle
  have hset := h.setRun hstep rfl fun id progress hne hid => by
    refine (hreport id).trans ?_
    rw [if_neg (hnone hid), if_neg hne, hid]
  rw [Engine.complete, show Table.find? e.runs runId = some c.run from h.run]
  refine ⟨(e.spares_setRun hset.id).trans (Engine.spares_scheduleStarts _ _ _),
    c.report e.now step outcome, ?_, ?_, ?_⟩
  · rw [Engine.repository_scheduleStarts, Engine.repository_setRun]
    exact .of_move hstep (Course.owed_of_phase_eq rfl rfl)
  · refine hset.scheduleStarts hcompletes.nodup (fun id hmem => (hreport id).trans (if_pos hmem)) ?_
    intro id hmem task htask hholder
    rcases Engine.mem_tasksOf_setRun hset.id htask with htask | hdriver
    · obtain ⟨progress, hid⟩ := (h.tasks task htask).exists_progress (congrArg Prod.snd hholder)
      exact hnone hid hmem
    · rw [hholder] at hdriver
      cases hdriver
  · have htrigger : (c.report e.now step outcome).triggerId = c.triggerId :=
      congrArg (·.trigger.id) (hcompletes.advances h.sound.run hrunning).graph
    have hbegun := (h.sound.run.trigger_leadsTo (.of_eq hrunning (by decide))).1
    have hunreleased : c.triggerId ∉ (c.run.applyFor step.id
        (Change.complete e.now step outcome)).1 :=
      fun hmem => hbegun.not_idle (hcompletes.idle_of_mem_released hrunning hmem).2
    rw [Course.IsFree, htrigger]
    refine (hreport c.triggerId).trans ?_
    rw [if_neg hunreleased, ite_eq_left_iff]
    exact fun hne => h.free.resolve_right hne

theorem announce (h : (e.view runId).Handles c step) {incoming : Fields}
    {ending : Retry.Ending Value} {outcome : Outcome}
    (hprogress : c.progress? step.id = some (.working incoming))
    (houtcome : Outcome.ofEnding? ending = some outcome) :
    Engine.Spares runId e (e.change runId (Run.announce e.now step outcome)) ∧
      ∃ c', Ledger.Becomes ⟨c, e.repository, []⟩
          ⟨c', (e.change runId (Run.announce e.now step outcome)).repository,
            [.closeStep runId step.id outcome.closing]⟩ ∧
        c'.progress? step.id = some (.leaving outcome) ∧
        ((e.change runId (Run.announce e.now step outcome)).view runId).Handles c' step := by
  have hstep : c.step (.finish e.now step.id incoming ending) =
      some { c.put step.id (.leaving outcome) with run := c.run.announce e.now step outcome } := by
    simp [Course.step, Course.finish, hprogress, h.found, houtcome]
  have hput : (e.view runId).Handles (c.put step.id (.leaving outcome)) step :=
    h.put hprogress (Outcome.code_ne_of_ofEnding? houtcome)
  have howed : c.owed { c.put step.id (.leaving outcome) with
      run := c.run.announce e.now step outcome } (.finish e.now step.id incoming ending) =
        [.closeStep runId step.id outcome.closing] := by
    refine Course.owed_of_phase_eq rfl ?_
    rw [Course.stepOwed, houtcome, h.id]
    rfl
  rw [h.change, Engine.repository_setRun]
  refine ⟨e.spares_setRun h.id, _, .of_move hstep howed,
    (Course.progress?_put _ _ _ _).trans (if_pos rfl), ?_⟩
  refine ⟨h.setRun hstep rfl fun id progress hne hid => ?_, h.found, ?_, hput.free⟩
  · exact (Course.progress?_put _ _ _ _).trans ((if_neg hne).trans hid)
  · exact h.alone_setRun h.id

theorem finishStep (h : (e.view runId).Handles c step) {incoming : Fields}
    {ending : Retry.Ending Value} (hprogress : c.progress? step.id = some (.working incoming))
    (hending : Outcome.ofEnding? ending = none → step.id ≠ c.triggerId) :
    e.Continues runId c [] (e.finishStep runId step ending) := by
  unfold Engine.finishStep
  cases houtcome : Outcome.ofEnding? ending with
  | none =>
      have hstep : c.step (.finish e.now step.id incoming ending) = some (c.drop step.id) := by
        simp [Course.step, Course.finish, hprogress, h.found, houtcome, hending houtcome]
      have hquiet : c.owed (c.drop step.id) (.finish e.now step.id incoming ending) = [] := by
        refine Course.owed_of_phase_eq rfl ?_
        rw [Course.stepOwed, houtcome]
        rfl
      refine ⟨.refl _ _, c.drop step.id, .of_move hstep hquiet, ⟨h.sound.drop step.id, h.id, h.run,
        h.driver, ?_, h.nodup⟩, ?_⟩
      · refine h.fits (fun hfinished => hfinished) fun id progress hne hid => ?_
        rw [h.sound.progress?_drop, if_neg hne, hid]
      · rw [Course.IsFree, h.sound.progress?_drop, ite_eq_left_iff]
        exact fun hne => h.free.resolve_right hne
  | some outcome =>
      obtain ⟨hspares, c', hbecomes, hleaving, hannounced⟩ := h.announce hprogress houtcome
      refine Engine.Continues.after ?_ hspares hbecomes
      dsimp only
      split
      · exact hannounced.failInternally (Or.inr ⟨outcome, hleaving⟩) _ (by simp [Move.follows])
      · rename_i repository hstore
        exact (complete (e := { e.change runId _ with repository }) hannounced hleaving).after
          (Engine.spares_store rfl hstore) (.of_write (Engine.store_eq_ok hstore))

theorem goOn (h : (e.view runId).Handles c step) {incoming : Fields}
    (hprogress : c.progress? step.id = some (.working incoming)) (hne : step.id ≠ c.triggerId)
    (program : Program (Retry.Ending Value)) :
    e.Continues runId c [] (Engine.goOn runId step program e) := by
  have hwait {e : Engine} (h : (e.view runId).Handles c step) (stage : Stage) (time : Float)
      (rest : Program (Retry.Ending Value)) :
      e.Continues runId c []
        (Engine.schedule { e with stage } time (.resume runId step.id rest)) :=
    .of_stage stage ⟨Engine.spares_schedule _ time (.resume runId step.id rest) rfl, c,
      .refl _, Follows.schedule h.toFollows time (.resume runId step.id rest) rfl
        ⟨incoming, hprogress⟩ h.alone, h.free.resolve_right hne.symm⟩
  induction program generalizing e with
  | done ending => exact h.finishStep hprogress fun _ => hne
  | ask call next ih =>
      rw [Engine.goOn]
      dsimp only
      split
      · exact .of_stage _ (ih _ h)
      · exact hwait h _ _ _
  | askBefore deadline call next late ih =>
      rw [Engine.goOn]
      dsimp only
      split
      · exact .of_stage _ (ih _ h)
      · split
        · exact hwait h _ _ _
        · exact hwait h _ _ _

/-- The trigger is never waited for. -/
theorem goOn_trigger (h : (e.view runId).Handles c step) {incoming : Fields}
    (hprogress : c.progress? step.id = some (.working incoming)) (payload : Fields) :
    e.Continues runId c [] (Engine.goOn runId step (Dispatcher.runTrigger payload) e) := by
  have hprogram : Dispatcher.runTrigger payload = .ask .clock fun now =>
      .done ⟨.ok (.map (payload.set "startedAt" (.str (Moment.ofSeconds now).iso))), 1⟩ := rfl
  rw [hprogram, Engine.goOn]
  dsimp only [Stage.react, Reaction.atOnce]
  rw [Bool.true_or, if_pos rfl, Engine.goOn]
  refine .of_stage _ (finishStep h hprogress fun hnone => ?_)
  cases hnone

theorem startStep (h : (e.view runId).Handles c step) {incoming : Fields}
    (hprogress : c.progress? step.id = some (.entering incoming)) :
    e.Continues runId c [.startStep runId step.id] (e.startStep runId step.id) := by
  have hincoming : incoming = c.run.incoming step.id := h.sound.fits _ _ hprogress
  have hhand : c.step (.hand step.id incoming) = some (c.put step.id (.working incoming)) := by
    simp [Course.step, hprogress]
  have hworking : (c.put step.id (.working incoming)).progress? step.id =
      some (.working incoming) :=
    (Course.progress?_put _ _ _ _).trans (if_pos rfl)
  have hput : (e.view runId).Handles (c.put step.id (.working incoming)) step :=
    h.put hprogress hincoming
  unfold Engine.startStep
  rw [show Table.find? e.runs runId = some c.run from h.run]
  simp only [h.found]
  split
  · exact h.failInternally (Or.inl ⟨incoming, hprogress⟩) _ (by simp [Move.follows])
  · rename_i repository hstore
    refine Engine.Continues.after ?_ (Engine.spares_store rfl hstore)
      (.trans (.of_write (Engine.store_eq_ok hstore))
        (.of_move hhand (Course.owed_of_phase_eq rfl rfl)))
    by_cases htrigger : step.id = c.triggerId
    · have hfound := h.found
      rw [htrigger, Course.triggerId, Graph.step?_trigger] at hfound
      obtain rfl := Option.some.inj hfound
      rw [Dispatcher.invoke, Graph.work_trigger]
      exact goOn_trigger (e := { e with repository }) hput hworking c.run.payload
    · exact goOn (e := { e with repository }) hput hworking htrigger _

end Handles

/-! ### Drivers -/

/-- A driver that is through has nothing more to do about its run. -/
theorem Rests.closed {view : View} {run : Run} {failure : Option Failure} (h : view.Rests c)
    (hquiet : c.run.Quiet run) (hsound : Course.Sound { c with run, phase := .closed failure })
    (hinvocation : ∀ task ∈ view.tasks, task.holder.2 ≠ none) :
    Rests { view with run := some run, driver := some (.done failure) }
      { c with run, phase := .closed failure } where
  sound := hsound
  id := hquiet.id.trans h.id
  run := rfl
  driver := rfl
  tasks := fun task hmem => by
    have hfits := (h.tasks task hmem).of_holder_ne (hinvocation task hmem) (some (.done failure))
    exact hfits.of_keeps hquiet.advances.finished fun _ _ _ hprogress => hprogress
  nodup := h.nodup
  free := by
    rw [Course.IsFree, Course.triggerId, hquiet.graph]
    exact h.free

theorem Rests.conclude {run : Run} {failure : Option Failure} (h : (e.view runId).Rests c)
    (hquiet : c.run.Quiet run) (hview : e'.view runId = { e.view runId with run := some run })
    {move : Move}
    (hstep : c.step move = some { c with run := run.conclude e'.now, phase := .closing failure })
    (howed : c.owed { c with run := run.conclude e'.now, phase := .closing failure } move =
      [(run.conclude e'.now).ending])
    (hdriver : Table.find? e.drivers runId ≠ some .driving)
    (hinvocation : ∀ task ∈ e.tasksOf runId, task.holder.2 ≠ none) :
    e'.Continues runId c [] (e'.conclude runId failure) := by
  have hsaid := hquiet.trans (run.quiet_conclude e'.now)
  have hid : (run.conclude e'.now).id = runId := hsaid.id.trans h.id
  have hsound := h.sound.of_takes (h.sound.takes hstep)
  have hspares := e'.spares_setRun hid
  have hset : (e'.setRun (run.conclude e'.now)).view runId =
      { e.view runId with run := some (run.conclude e'.now) } := by
    have hsame : Table.find? e'.drivers runId = Table.find? e.drivers runId :=
      congrArg View.driver hview
    rw [Engine.view_setRun hid (hsame ▸ hdriver), hview]
  have hclosed (problem : Option Failure) {c' : Course}
      (hclose : Course.step { c with run := run.conclude e'.now, phase := .closing failure }
        (.close problem) = some c') : c'.Sound :=
    hsound.of_takes (hsound.takes hclose)
  have hrepository := e'.repository_setRun (run.conclude e'.now)
  have hlast : Ledger.Becomes ⟨c, e'.repository, []⟩
      ⟨{ c with run := run.conclude e'.now, phase := .closing failure }, e'.repository,
        [(run.conclude e'.now).ending]⟩ := .of_move hstep howed
  unfold Engine.conclude
  rw [show Table.find? e'.runs runId = some run from congrArg View.run hview]
  dsimp only
  generalize run.conclude e'.now = said at *
  generalize e'.setRun said = e₁ at *
  split
  · rename_i problem _
    refine ⟨hspares.trans (Engine.spares_setDriver _ _ _),
      { c with run := said, phase := .closed (some problem) }, hlast.trans ?_, ?_⟩
    · rw [← hrepository]
      exact .of_refusal (show Course.step _ (.close (some problem)) = _ from rfl) rfl rfl rfl
    · rw [Engine.view_setDriver, hset]
      exact h.closed hsaid (hclosed (some problem) rfl) hinvocation
  · rename_i repository hstore
    have hfound : Table.find? e₁.runs runId = some said := congrArg View.run hset
    have hlog : (Engine.setRun { e₁ with repository } said.closeLog).view runId =
        { e.view runId with run := some said.closeLog } := by
      have hsame : Table.find? e₁.drivers runId = Table.find? e.drivers runId :=
        congrArg View.driver hset
      rw [Engine.view_setRun (show said.closeLog.id = runId from hid) (hsame ▸ hdriver)]
      exact congrArg (fun view : View => { view with run := some said.closeLog }) hset
    have hspares' : Engine.Spares runId e' (Engine.setRun { e₁ with repository } said.closeLog) :=
      (hspares.trans (Engine.spares_store (show said.ending.runId = runId from hid) hstore)).trans
        (Engine.spares_setRun { e₁ with repository } hid)
    have hwrite := hrepository ▸ Engine.store_eq_ok hstore
    rw [Engine.change, hfound]
    refine ⟨hspares'.trans (Engine.spares_setDriver _ _ _),
      { c with run := said.closeLog, phase := .closed failure },
      hlast.trans (.trans (.of_write hwrite) ?_), ?_⟩
    · show Ledger.Becomes _ ⟨_, (Engine.setRun _ _).repository, _⟩
      rw [Engine.repository_setRun]
      exact .of_move (show Course.step _ (.close none) = _ from rfl) rfl
    · rw [Engine.view_setDriver, hlog]
      exact h.closed (hsaid.trans said.quiet_closeLog) (hclosed none rfl) hinvocation

theorem Rests.begin (h : (e.view runId).Rests c)
    (hwaiting : Table.find? e.drivers runId = some .waiting)
    (hinvocation : ∀ task ∈ e.tasksOf runId, task.holder.2 ≠ none) :
    e.Continues runId c [] (e.begin runId) := by
  have hphase : c.phase = .waiting := by
    have hshown := h.driver
    rwa [Engine.view, hwaiting] at hshown
  have hdriver : Table.find? e.drivers runId ≠ some .driving := by
    rw [hwaiting]
    simp
  have hstep (now : Moment) : c.step (.begin now) = some (c.begin now) := by
    simp only [Course.step, hphase]
  unfold Engine.begin
  rw [show Table.find? e.runs runId = some c.run from h.run]
  dsimp only
  by_cases hended : c.run.isTerminated
  · rw [Change.begin_run_terminated hended]
    have hstep := hstep (e.setRun c.run).now
    rw [Course.begin, Change.begin_run_terminated hended] at hstep
    exact (h.conclude (.refl c.run) (Engine.view_setRun h.id hdriver) hstep
      (Course.owed_of_closing (hphase ▸ rfl) rfl rfl) hdriver hinvocation).after
      (e.spares_setRun h.id) (e.repository_setRun _ ▸ .refl _)
  · rw [Bool.not_eq_true] at hended
    obtain ⟨hfresh, hnil⟩ := h.sound.unbegun (by rw [hphase]; rfl)
    have hgraph : ((c.run.introduce e.now).begun e.now).graph = c.run.graph :=
      (c.run.quiet_introduce e.now).graph
    have hnone : e.tasksOf runId = [] := by
      refine List.eq_nil_iff_forall_not_mem.mpr fun task hmem => ?_
      obtain ⟨id, hholder⟩ := Option.ne_none_iff_exists'.mp (hinvocation task hmem)
      obtain ⟨progress, hprogress⟩ := (h.tasks task hmem).exists_progress hholder
      rw [Course.progress?, hnil] at hprogress
      cases hprogress
    have hstep := hstep e.now
    rw [hfresh.begin_run hended]
    rw [Course.begin, hfresh.begin_run hended, hnil] at hstep
    dsimp only at hstep ⊢
    have hsound := h.sound.of_takes (h.sound.takes hstep)
    have hid : ((c.run.introduce e.now).begun e.now).id = runId :=
      (h.sound.advances (h.sound.takes hstep)).id.trans h.id
    generalize (c.run.introduce e.now).begun e.now = run at hstep hsound hid hgraph ⊢
    have hview : ((e.setRun run).setDriver runId .driving).view runId =
        ⟨runId, some run, some .driving, []⟩ := by
      rw [Engine.view_setDriver, Engine.view_setRun hid hdriver, Engine.view, hnone]
    have hspares : Engine.Spares runId e ((e.setRun run).setDriver runId .driving) :=
      (e.spares_setRun hid).trans (Engine.spares_setDriver _ _ _)
    have hrepository : ((e.setRun run).setDriver runId .driving).repository = e.repository :=
      e.repository_setRun run
    generalize (e.setRun run).setDriver runId .driving = e₁ at hview hspares hrepository ⊢
    have hbegun : Ledger.Becomes ⟨c, e.repository, []⟩
        ⟨⟨run, .driving, [(run.graph.trigger.id, .entering (run.incoming run.graph.trigger.id))]⟩,
          e₁.repository, [.startStep runId run.graph.trigger.id]⟩ := by
      rw [hrepository]
      refine .of_move hstep ?_
      rw [hgraph, ← show c.run.id = runId from h.id]
      rfl
    refine Engine.Continues.after ?_ hspares hbegun
    refine Handles.startStep ?_ (if_pos rfl)
    rw [hview]
    exact ⟨⟨hsound, hid, rfl, rfl, by simp, List.nodup_nil⟩, Graph.step?_trigger, by simp,
      Or.inr rfl⟩

theorem Rests.concludeWoken (h : (e.view runId).Rests c)
    (hclosing : Table.find? e.drivers runId = some .closing) (hfinished : c.run.isFinished = true)
    (hinvocation : ∀ task ∈ e.tasksOf runId, task.holder.2 ≠ none) :
    e.Continues runId c [] (e.conclude runId) := by
  have hphase : c.phase = .driving := by
    have hshown := h.driver
    rwa [Engine.view, hclosing] at hshown
  have hfree : c.progress? c.triggerId = none := h.free
  have hstep : c.step (.conclude e.now) =
      some { c with run := c.run.conclude e.now, phase := .closing none } := by
    simp [Course.step, hphase, hfinished, hfree]
  refine h.conclude (.refl c.run) ?_ hstep (Course.owed_of_closing (hphase ▸ rfl) rfl rfl)
    (by simp [hclosing]) hinvocation
  rw [← h.run]

theorem Rests.abandon (h : (e.view runId).Rests c)
    (hclosing : Table.find? e.drivers runId = some .closing)
    (hinvocation : ∀ task ∈ e.tasksOf runId, task.holder.2 ≠ none) :
    e.Continues runId c [] ((e.change runId Run.abandon).conclude runId (some .cancelled)) := by
  have hphase : c.phase = .driving := by
    have hshown := h.driver
    rwa [Engine.view, hclosing] at hshown
  have hdrop : c.drop c.triggerId = c := by
    have hkeys := Table.find?_eq_none_iff.mp h.free
    rw [Course.drop, List.eraseP_of_forall_not]
    intro entry hmem heq
    have htrigger : entry.1 = c.triggerId := by simpa using heq
    exact hkeys (htrigger ▸ Table.mem_keys_of_mem hmem)
  have hstep (now : Moment) : c.step (.stopDriver now) =
      some { c with run := c.run.abandon.conclude now, phase := .closing (some .cancelled) } := by
    simp only [Course.step, hphase, Course.stopDriving, hdrop]
  have habandon := c.run.quiet_abandon
  have hid := habandon.id.trans h.id
  have hdriver : Table.find? e.drivers runId ≠ some .driving := by
    rw [hclosing]
    simp
  rw [Engine.change, show Table.find? e.runs runId = some c.run from h.run]
  exact (h.conclude habandon (Engine.view_setRun hid hdriver) (hstep _)
    (Course.owed_of_closing (hphase ▸ rfl) rfl rfl) hdriver hinvocation).after
    (e.spares_setRun hid) (e.repository_setRun _ ▸ .refl _)

/-- Whatever is due for a run takes it further on its course. -/
theorem Rests.perform (h : (e.view runId).Rests c) {task : Task} (hholder : task.holder.1 = runId)
    (hfits : task.Fits c (Table.find? e.drivers runId))
    (halone : ∀ other ∈ e.tasksOf runId, other.holder ≠ task.holder) :
    e.Continues runId c [] (e.perform task) := by
  have hinvocation (hdriver : task.holder = (runId, none)) :
      ∀ other ∈ e.tasksOf runId, other.holder.2 ≠ none := by
    intro other hmem hother
    exact halone other hmem (hdriver ▸ Prod.ext (Engine.holder_of_mem_tasksOf hmem) hother)
  have hsteps {stepId : String} {progress : Progress}
      (hprogress : c.progress? stepId = some progress) :
      ∃ step, c.run.graph.step? stepId = some step ∧ step.id = stepId := by
    have hrunning := h.sound.running _ _ hprogress
    exact Graph.step?_eq_some_of_mem (Run.mem_ids_of_statusOf? h.sound.run.keys hrunning)
  cases task with
  | begin id =>
      obtain rfl : id = runId := hholder
      exact h.begin hfits (hinvocation rfl)
  | conclude id =>
      obtain rfl : id = runId := hholder
      exact h.concludeWoken hfits.1 hfits.2 (hinvocation rfl)
  | abandon id =>
      obtain rfl : id = runId := hholder
      exact h.abandon hfits (hinvocation rfl)
  | start id stepId =>
      obtain rfl : id = runId := hholder
      have hreleased : c.progress? stepId = some .released := hfits
      obtain ⟨step, hfound, rfl⟩ := hsteps hreleased
      have hhandles : (e.view id).Handles c step := ⟨h.toFollows, hfound, halone, Or.inl h.free⟩
      have hput : (e.view id).Handles (c.put step.id (.entering (c.run.incoming step.id))) step :=
        hhandles.put hreleased rfl
      have hstep : c.step (.enter step.id) =
          some (c.put step.id (.entering (c.run.incoming step.id))) := by
        simp only [Course.step, hreleased]
      have howed : c.owed (c.put step.id (.entering (c.run.incoming step.id))) (.enter step.id) =
          [.startStep id step.id] :=
        Course.owed_of_phase_eq rfl (by rw [Course.stepOwed, h.id]; rfl)
      exact (hput.startStep ((Course.progress?_put _ _ _ _).trans (if_pos rfl))).after (.refl _ _)
        (.of_move hstep howed)
  | resume id stepId rest =>
      obtain rfl : id = runId := hholder
      obtain ⟨incoming, hworking⟩ := hfits
      obtain ⟨step, hfound, rfl⟩ := hsteps hworking
      have hhandles : (e.view id).Handles c step := ⟨h.toFollows, hfound, halone, Or.inl h.free⟩
      have hne : step.id ≠ c.triggerId := by
        intro heq
        rw [heq, show c.progress? c.triggerId = none from h.free] at hworking
        cases hworking
      rw [Engine.perform, show Table.find? e.runs id = some c.run from h.run]
      simp only [Option.bind_some, hfound]
      exact hhandles.goOn hworking hne rest

theorem Rests.dropTasks (h : (e.view runId).Rests c) (p : Task → Bool) :
    ((e.dropTasks p).view runId).Rests c := by
  rw [Engine.view_dropTasks]
  exact ⟨⟨h.sound, h.id, h.run, h.driver,
    fun task hmem => h.tasks task (List.mem_of_mem_filter hmem),
    h.nodup.sublist (List.filter_sublist.map _)⟩, h.free⟩

end View

end Workflow
