import Workflow.Proofs.Engine.View
import Workflow.Proofs.Run.Operations

/-!
# What is done in a turn

An engine works in turns: it takes the task that is due next from its agenda, puts its clock to the
time of that task and performs it. Whatever the task is, performing it is a sequence of strokes, and
there are few kinds of them. So what each stroke preserves is preserved by a whole turn, and what
each turn preserves is preserved by all the work of an engine.
-/

namespace Workflow

/-! ### Changes of a run -/

namespace Change

variable {α β : Type}

/-- The run that a change leaves behind, whether or not it succeeds, has the id it had. -/
def KeepsId (change : Change α) : Prop :=
  ∀ run, match change.run run with
    | .ok _ run' | .error _ run' => run'.id = run.id

theorem keepsId_pure (a : α) : KeepsId (pure a : Change α) := fun _ => rfl

theorem keepsId_get : KeepsId (get : Change Run) := fun _ => rfl

theorem keepsId_throw (failure : Failure) : KeepsId (throw failure : Change α) := fun _ => rfl

theorem keepsId_modify {f : Run → Run} (h : ∀ run, (f run).id = run.id) :
    KeepsId (modify f : Change Unit) := h

theorem KeepsId.bind {change : Change α} {next : α → Change β} (h : KeepsId change)
    (hnext : ∀ a, KeepsId (next a)) : KeepsId (change >>= next) := by
  intro run
  have hfirst := h run
  rw [EStateM.run_bind]
  cases hrun : change.run run with
  | ok a run' =>
      rw [hrun] at hfirst
      have hsecond := hnext a run'
      dsimp only at hfirst ⊢
      cases hnextRun : (next a).run run' <;> rw [hnextRun] at hsecond <;>
        exact hsecond.trans hfirst
  | error failure run' =>
      rw [hrun] at hfirst
      exact hfirst

theorem KeepsId.ite {p : Prop} [Decidable p] {change change' : Change α} (h : KeepsId change)
    (h' : KeepsId change') : KeepsId (if p then change else change') := by
  split
  · exact h
  · exact h'

theorem keepsId_emit (now : Moment) (message : Message) : KeepsId (emit now message) :=
  keepsId_modify fun _ => rfl

theorem keepsId_reportOf (id : String) : KeepsId (reportOf id) := by
  refine keepsId_get.bind fun run => ?_
  split
  · exact keepsId_pure _
  · exact keepsId_throw _

theorem keepsId_markRunning (now : Moment) (id : String) : KeepsId (markRunning now id) := by
  refine (keepsId_reportOf id).bind fun report => ?_
  refine .ite ?_ ?_
  · exact (keepsId_throw _).bind fun _ => keepsId_modify fun _ => rfl
  · exact keepsId_modify fun _ => rfl

theorem keepsId_markCompleted (now : Moment) (id : String) (result : Value) (attempts : Int)
    (commit : Bool) : KeepsId (markCompleted now id result attempts commit) := by
  refine (keepsId_reportOf id).bind fun _ => .bind ?_ fun _ => .ite ?_ (keepsId_pure ())
  · exact keepsId_modify fun _ => rfl
  · refine keepsId_get.bind fun run => .ite ?_ (keepsId_modify fun _ => rfl)
    exact (keepsId_throw _).bind fun _ => keepsId_modify fun _ => rfl

theorem keepsId_markFailed (now : Moment) (id error errorCode : String) (attempts : Int)
    (commit : Bool) : KeepsId (markFailed now id error errorCode attempts commit) := by
  refine (keepsId_reportOf id).bind fun _ => .bind ?_ fun _ => .ite ?_ (keepsId_pure ())
  · exact keepsId_modify fun _ => rfl
  · exact keepsId_modify fun _ => rfl

theorem keepsId_dispatch (now : Moment) (step : Step) : KeepsId (dispatch now step) :=
  (keepsId_markRunning now step.id).bind fun _ => (keepsId_emit now _).bind fun _ =>
    keepsId_modify fun _ => rfl

theorem keepsId_dispatchReady (now : Moment) (ids : List String) :
    KeepsId (dispatchReady now ids) := by
  induction ids with
  | nil => exact keepsId_pure []
  | cons id ids ih =>
      refine keepsId_get.bind fun run => ?_
      split
      · exact .ite ((keepsId_dispatch now _).bind fun _ => ih.bind fun _ => keepsId_pure _) ih
      · exact ih

theorem keepsId_record (now : Moment) (step : Step) (outcome : Outcome) (commit : Bool) :
    KeepsId (record now step outcome commit) := by
  unfold record
  split
  · exact keepsId_markCompleted now step.id _ _ commit
  · exact keepsId_markFailed now step.id _ _ _ commit

theorem keepsId_handleFailure (now : Moment) (step : Step) (e : StepError) :
    KeepsId (handleFailure now step e) := by
  refine keepsId_get.bind fun run => ?_
  split
  · exact (keepsId_emit now _).bind fun _ =>
      keepsId_modify fun run => (run.quiet_finish rfl _ _).id
  · refine .bind ?_ fun _ => .ite (keepsId_emit now _) (keepsId_pure ())
    exact keepsId_modify fun _ => rfl

theorem keepsId_begin (now : Moment) : KeepsId (begin now) := by
  refine keepsId_get.bind fun run => .ite (keepsId_pure false) ?_
  refine (keepsId_emit now _).bind fun _ => .ite ?_ ?_
  · exact (keepsId_emit now _).bind fun _ => (keepsId_markRunning now _).bind fun _ =>
      keepsId_pure true
  · exact (keepsId_markRunning now _).bind fun _ => keepsId_pure true

theorem keepsId_complete (now : Moment) (step : Step) (outcome : Outcome) :
    KeepsId (complete now step outcome) := by
  refine .bind ?_ fun _ => keepsId_get.bind fun run =>
    (keepsId_record now step outcome _).bind fun _ => .ite ?_ ?_
  · exact keepsId_modify fun _ => rfl
  · exact (keepsId_emit now _).bind fun _ => keepsId_pure []
  · have hend (released : List String) :
        KeepsId (do modify (·.settleIfIdle); return released : Change (List String)) :=
      (keepsId_modify fun run => run.quiet_settleIfIdle.id).bind fun _ => keepsId_pure released
    split
    · exact (keepsId_dispatchReady now _).bind hend
    · exact (keepsId_handleFailure now step _).bind fun _ => hend []

end Change

theorem Run.id_applyFor (run : Run) (stepId : String) {change : Change (List String)}
    (h : change.KeepsId) : (run.applyFor stepId change).2.id = run.id := by
  have hrun := h run
  unfold applyFor
  split at hrun <;> rename_i hresult <;> rw [hresult]
  · exact hrun
  · exact (Run.quiet_failInternally _ stepId _).id.trans hrun

namespace Engine

/-! ### Strokes -/

/-- What a driver can fail with while a task is performed, other than with a failure of the
repository: its run cannot be begun, or somebody has stopped the driver. -/
inductive Fails (start : Engine) : Task → Failure → Prop
  | begin {runId : String} {run run' : Run} {failure : Failure}
    (hrun : Table.find? start.runs runId = some run)
    (hbegin : (Change.begin start.now).run run = .error failure run') :
    Fails start (.begin runId) failure
  | abandon (runId : String) : Fails start (.abandon runId) .cancelled

/-- One thing that an engine does while it performs a task. -/
inductive Stroke (start : Engine) (task : Task) (e : Engine) : Engine → Prop
  | ask (call : Call) : Stroke start task e { e with stage := (e.stage.react call).2 }
  | write {operation : StoreOperation} {entry : Entry} {repository : Repository}
    (hstore : e.store operation (Repository.write e.now entry) = .ok repository) :
    Stroke start task e { e with repository }
  | put {runId : String} {run run' : Run} (hrun : Table.find? e.runs runId = some run)
    (hid : run'.id = run.id) : Stroke start task e (e.setRun run')
  /-- An invocation is put on the agenda, or the rest of one. -/
  | schedule (time : Float) {next : Task} (hnext : next.holder.2 ≠ none) :
    Stroke start task e (e.schedule time next)
  | drive {runId : String} (htask : task.holder = (runId, none)) {state : DriverState}
    (hstate : ∀ failure, state = .done (some failure) → Fails start task failure) :
    Stroke start task e (e.setDriver runId state)
  /-- The end of the run is not recorded. -/
  | giveUp {runId : String} (htask : task.holder = (runId, none)) {run : Run} {failure : Failure}
    (hstore : e.store .closeRun (Repository.write e.now run.ending) = .error failure) :
    Stroke start task e (e.setDriver runId (.done (some failure)))

/-- One engine comes from another by strokes. -/
def Strokes (start : Engine) (task : Task) : Engine → Engine → Prop :=
  Relation.ReflTransGen (Stroke start task)

variable {start e e' e'' : Engine} {task : Task} {runId : String}

theorem Stroke.strokes (h : Stroke start task e e') : Strokes start task e e' := .single h

namespace Strokes

theorem refl (e : Engine) : Strokes start task e e := Relation.ReflTransGen.refl

theorem trans (h : Strokes start task e e') (h' : Strokes start task e' e'') :
    Strokes start task e e'' :=
  Relation.ReflTransGen.trans h h'

end Strokes

variable (e)

theorem strokes_change (runId : String) {f : Run → Run} (hid : ∀ run, (f run).id = run.id) :
    Strokes start task e (e.change runId f) := by
  unfold change
  split
  · rename_i run hrun
    exact (Stroke.put hrun (hid run)).strokes
  · exact .refl e

theorem strokes_failInternally (runId stepId : String) (failure : Failure) :
    Strokes start task e (e.failInternally runId stepId failure) :=
  strokes_change e runId fun run => (run.quiet_failInternally stepId failure).id

theorem strokes_scheduleStarts (runId : String) (ids : List String) :
    Strokes start task e
      (ids.foldl (fun e id => e.schedule e.stage.now (.start runId id)) e) := by
  induction ids generalizing e with
  | nil => exact .refl e
  | cons id ids ih =>
      have hfirst : Stroke start task e (e.schedule e.stage.now (.start runId id)) :=
        .schedule _ (Option.some_ne_none id)
      exact hfirst.strokes.trans (ih _)

theorem strokes_complete (runId : String) (step : Step) (outcome : Outcome) :
    Strokes start task e (e.complete runId step outcome) := by
  unfold complete
  split
  · exact .refl e
  · rename_i run hrun
    have hput : Stroke start task e
        (e.setRun (run.applyFor step.id (Change.complete e.now step outcome)).2) :=
      .put hrun (run.id_applyFor step.id (Change.keepsId_complete e.now step outcome))
    exact hput.strokes.trans (strokes_scheduleStarts _ runId _)

theorem strokes_finishStep (runId : String) (step : Step) (ending : Retry.Ending Value) :
    Strokes start task e (e.finishStep runId step ending) := by
  unfold finishStep
  split
  · exact .refl e
  · rename_i outcome _
    have htold : Strokes start task e (e.change runId (Run.announce e.now step outcome)) :=
      strokes_change e runId fun run => (run.quiet_announce e.now step outcome).id
    dsimp only
    split
    · exact htold.trans (strokes_failInternally _ runId step.id _)
    · rename_i hstore
      exact (htold.trans (Stroke.write hstore).strokes).trans
        (strokes_complete _ runId step outcome)

theorem strokes_goOn (runId : String) (step : Step) (program : Program (Retry.Ending Value)) :
    Strokes start task e (goOn runId step program e) := by
  have hasked (e : Engine) (call : Call) :
      Strokes start task e { e with stage := (e.stage.react call).2 } :=
    (Stroke.ask call).strokes
  have hwaits (e : Engine) (call : Call) (time : Float) (rest : Program (Retry.Ending Value)) :
      Strokes start task e (schedule { e with stage := (e.stage.react call).2 } time
        (.resume runId step.id rest)) := by
    refine (hasked e call).trans (Stroke.schedule time ?_).strokes
    exact Option.some_ne_none step.id
  -- A call that takes time ends the turn: the rest of the program becomes a task of its own.
  induction program generalizing e with
  | done ending => exact strokes_finishStep e runId step ending
  | ask call next ih =>
      rw [goOn]
      dsimp only
      split
      · exact (hasked e call).trans (ih _ _)
      · exact hwaits e call _ _
  | askBefore deadline call next late ih =>
      rw [goOn]
      dsimp only
      split
      · exact (hasked e call).trans (ih _ _)
      · split
        · exact hwaits e call _ _
        · exact hwaits e call _ _

theorem strokes_startStep (runId stepId : String) :
    Strokes start task e (e.startStep runId stepId) := by
  unfold startStep
  split
  · exact .refl e
  · split
    · exact .refl e
    · dsimp only
      split
      · exact strokes_failInternally e runId stepId _
      · rename_i hstore
        exact (Stroke.write hstore).strokes.trans (strokes_goOn _ runId _ _)

theorem strokes_conclude (htask : task.holder = (runId, none)) {failure : Option Failure}
    (hfailure : ∀ problem, failure = some problem → Fails start task problem) :
    Strokes start task e (e.conclude runId failure) := by
  unfold conclude
  split
  · exact .refl e
  · rename_i run hrun
    have hsaid : Stroke start task e (e.setRun (run.conclude e.now)) :=
      .put hrun (run.quiet_conclude e.now).id
    dsimp only
    split
    · rename_i hstore
      exact hsaid.strokes.trans (Stroke.giveUp htask hstore).strokes
    · rename_i hstore
      have hwritten := hsaid.strokes.trans (Stroke.write hstore).strokes
      have hclosed := hwritten.trans
        (strokes_change _ runId fun run => run.quiet_closeLog.id)
      refine hclosed.trans (Stroke.drive htask fun problem hdone => ?_).strokes
      exact hfailure problem (DriverState.done.inj hdone)

theorem strokes_begin (runId : String) : Strokes e (.begin runId) e (e.begin runId) := by
  have hput {run run' : Run} (hrun : Table.find? e.runs runId = some run)
      (hid : run'.id = run.id) : Strokes e (.begin runId) e (e.setRun run') :=
    (Stroke.put hrun hid).strokes
  unfold begin
  split
  · exact .refl e
  · rename_i run hrun
    have hid := Change.keepsId_begin e.now run
    split <;> rename_i run' hbegin <;> rw [hbegin] at hid
    · refine (hput hrun hid).trans (strokes_conclude _ rfl fun problem hproblem => ?_)
      obtain rfl := Option.some.inj hproblem
      exact .begin hrun hbegin
    · exact (hput hrun hid).trans (strokes_conclude _ rfl nofun)
    · have hdriving : Stroke e (.begin runId) (e.setRun run')
          ((e.setRun run').setDriver runId .driving) := .drive rfl fun _ => nofun
      exact ((hput hrun hid).trans hdriving.strokes).trans (strokes_startStep _ runId _)

/-- Whatever the task is, it is performed by strokes. -/
theorem strokes_perform (task : Task) : Strokes e task e (e.perform task) := by
  cases task with
  | begin runId => exact e.strokes_begin runId
  | start runId stepId => exact strokes_startStep e runId stepId
  | resume runId stepId rest =>
      unfold perform
      dsimp only
      split
      · exact strokes_goOn e runId _ rest
      · exact .refl e
  | conclude runId => exact strokes_conclude e rfl nofun
  | abandon runId =>
      have hended : Strokes e (.abandon runId) e (e.change runId Run.abandon) :=
        strokes_change e runId fun run => run.quiet_abandon.id
      refine hended.trans (strokes_conclude _ rfl fun problem hproblem => ?_)
      obtain rfl := Option.some.inj hproblem
      exact .abandon runId

/-! ### Turns -/

variable {e} {until? : Option Float} {next : Engine}

/-- A task that is performed by some time is the next one anyway. -/
theorem exists_turn (h : e.advance? until? = some next) :
    ∃ entry agenda, e.agenda = entry :: agenda ∧ until?.all (entry.1 ≤ ·) = true ∧
      next = { e with agenda, stage := { e.stage with now := entry.1 } }.perform entry.2 ∧
      e.advance? none = some next := by
  unfold advance? at h ⊢
  split at h
  · cases h
  · rename_i time task agenda hagenda
    split at h <;> cases h
    exact ⟨(time, task), agenda, hagenda, ‹_›, rfl, rfl⟩

/-- What holds at first, and after every turn if it has held before, holds after all the work. -/
theorem work_of_turns {P : Engine → Prop} (stop : Engine → Bool) (until? : Option Float)
    (fuel : Nat) (hfirst : P e) (hturn : ∀ e next, P e → e.advance? until? = some next → P next) :
    P (work stop until? fuel e) := by
  induction fuel generalizing e with
  | zero => exact hfirst
  | succ fuel ih =>
      rw [work]
      split
      · exact hfirst
      · split
        · exact ih (hturn e _ hfirst ‹_›)
        · exact hfirst

/-- What holds at first, and after every reading if it has held before, holds when all followers
have read. -/
theorem informFollowers_of_reads {P : Engine → Prop} (hfirst : P e)
    (hread : ∀ e (follower : Follower), P e → P { e with
      runs := Table.adjust e.runs follower.runId fun run =>
        { run with log := run.log.modifySubscription follower.index Subscription.readAll } }) :
    P e.informFollowers := by
  unfold informFollowers
  generalize e.followers = followers
  induction followers generalizing e with
  | nil => exact hfirst
  | cons follower followers ih => exact ih (hread e follower hfirst)

/-- Whoever waits for a run lets the engine work, if there is something to wait for, and puts its
clock forward if he is late. -/
theorem wait_of_work {P : Engine → Prop} (runId : String) (timeout : Option Float) (hfirst : P e)
    (hworked : ∀ until?, P (work (driverIsDone runId) until? patience e).informFollowers)
    (hclock : ∀ e time, P e → P (e.setClock time)) : P (e.wait runId timeout).2 := by
  unfold wait
  split
  · exact hfirst
  · exact hfirst
  · exact hfirst
  · exact hfirst
  · dsimp only
    split
    · exact hclock _ _ (hworked _)
    · split
      · exact hworked _
      · exact hworked _
      · exact hclock _ _ (hworked _)

end Engine

end Workflow
