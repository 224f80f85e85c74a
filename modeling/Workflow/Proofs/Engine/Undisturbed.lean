import Workflow.Proofs.Engine.Starting

/-!
# Engines that nobody disturbs

A repository that is in order takes the end of every run, and a driver that nobody stops has nothing
to fail with. So whoever starts a run in a new engine and waits for it is told that its data are not
fit to be run, that the repository does not take it, or that he has waited long enough; otherwise
the run has ended when the wait is over, and its end is final.
-/

namespace Workflow

namespace Repository

/-- The end of a run is taken by every repository. -/
theorem exists_write_ending (repository : Repository) (now : Moment) (run : Run) :
    ∃ repository', repository.write now run.ending = .ok repository' := by
  cases repository <;> exact ⟨_, rfl⟩

end Repository

/-- What has not moved yet can be begun. -/
theorem Run.Fresh.begin_run_ne_error {run run' : Run} (h : run.Fresh) {now : Moment}
    {failure : Failure} : (Change.begin now).run run ≠ .error failure run' := by
  by_cases hended : run.isTerminated = true
  · rw [Change.begin_run_terminated hended]
    nofun
  · rw [h.begin_run (Bool.eq_false_of_not_eq_true hended)]
    nofun

namespace Engine

variable {e e' : Engine} {runId : String}

/-- The repository is in order, no driver is to be stopped, and none has failed. -/
structure Undisturbed (e : Engine) : Prop where
  outOfOrder : e.outOfOrder = []
  tasks : ∀ entry ∈ e.agenda, ∀ runId, entry.2 ≠ .abandon runId
  drivers : ∀ runId failure, Table.find? e.drivers runId ≠ some (.done (some failure))

theorem store_eq {α : Type} (h : e.outOfOrder = []) (operation : StoreOperation)
    (f : Repository → Except Failure α) : e.store operation f = f e.repository := by
  rw [store, h]
  exact if_neg (by simp)

/-- What is on the agenda to be begun has not moved yet. -/
theorem Sound.fresh_of_begin (h : e.Sound) {time : Float}
    (hmem : (time, .begin runId) ∈ e.agenda) {run : Run}
    (hrun : Table.find? e.runs runId = some run) : run.Fresh := by
  obtain ⟨c, rfl, hrests⟩ := h.exists_rests hrun
  have htask : Task.begin runId ∈ e.tasksOf runId := by
    refine List.mem_filter.mpr ⟨List.mem_map.mpr ⟨_, hmem, rfl⟩, ?_⟩
    exact decide_eq_true rfl
  have hwaiting : Table.find? e.drivers runId = some .waiting := hrests.tasks _ htask
  have hshown := hrests.driver
  rw [view, hwaiting] at hshown
  have hphase : c.phase = .waiting := hshown
  exact (hrests.sound.unbegun (by rw [hphase]; rfl)).1

namespace Undisturbed

variable (h : e.Undisturbed)
include h

theorem setRepository (repository : Repository) : Undisturbed { e with repository } :=
  ⟨h.outOfOrder, h.tasks, h.drivers⟩

theorem setStage (stage : Stage) : Undisturbed { e with stage } :=
  ⟨h.outOfOrder, h.tasks, h.drivers⟩

theorem schedule (time : Float) {task : Task} (htask : ∀ runId, task ≠ .abandon runId) :
    (e.schedule time task).Undisturbed := by
  refine ⟨h.outOfOrder, fun entry hmem => ?_, h.drivers⟩
  rcases List.mem_cons.mp ((insertTask_perm time task e.agenda).mem_iff.mp hmem) with rfl | hmem
  · exact htask
  · exact h.tasks entry hmem

theorem setDriver (runId : String) (state : DriverState)
    (hstate : ∀ failure, state ≠ .done (some failure)) : (e.setDriver runId state).Undisturbed := by
  refine ⟨h.outOfOrder, h.tasks, fun other failure hfind => ?_⟩
  rw [Engine.setDriver, Table.find?_insert] at hfind
  split at hfind
  · exact hstate failure (Option.some.inj hfind)
  · exact h.drivers other failure hfind

theorem setRun (run : Run) : (e.setRun run).Undisturbed := by
  have hput : Undisturbed { e with
      runs := Table.insert e.runs run.id run
      observed := e.observed ++ e.news run } := ⟨h.outOfOrder, h.tasks, h.drivers⟩
  by_cases hwakes : e.Wakes run
  · rw [setRun_of_wakes hwakes]
    exact (hput.setDriver run.id .closing fun _ => nofun).schedule _ nofun
  · rw [setRun_of_not_wakes hwakes]
    exact hput

theorem change (runId : String) (f : Run → Run) : (e.change runId f).Undisturbed := by
  unfold Engine.change
  split
  · exact h.setRun _
  · exact h

/-- The end of a run is taken, so that its driver has nothing else to fail with. -/
theorem stroke {start : Engine} {task : Task} (hstroke : Stroke start task e e')
    (hfails : ∀ failure, ¬ Fails start task failure) : e'.Undisturbed := by
  cases hstroke with
  | ask call => exact h.setStage _
  | write _ => exact h.setRepository _
  | put _ _ => exact h.setRun _
  | schedule time hnext =>
      refine h.schedule time fun runId habandon => hnext ?_
      rw [habandon]
      rfl
  | drive _ hstate => exact h.setDriver _ _ fun failure hdone => hfails failure (hstate _ hdone)
  | @giveUp _ _ run failure hrefused =>
      obtain ⟨repository, hwrite⟩ := e.repository.exists_write_ending e.now run
      rw [store_eq h.outOfOrder, hwrite] at hrefused
      cases hrefused

theorem perform {task : Task} (hfails : ∀ failure, ¬ Fails e task failure) :
    (e.perform task).Undisturbed := by
  have hstrokes := e.strokes_perform task
  generalize e.perform task = e' at hstrokes ⊢
  induction hstrokes with
  | refl => exact h
  | tail _ hstroke ih => exact ih.stroke hstroke hfails

theorem advance (hsound : e.Sound) {until? : Option Float}
    (hadvance : e.advance? until? = some e') : e'.Undisturbed := by
  obtain ⟨⟨time, task⟩, agenda, hagenda, -, rfl, -⟩ := exists_turn hadvance
  have hmem : (time, task) ∈ e.agenda := hagenda ▸ List.mem_cons_self
  have hpopped : Undisturbed { e with agenda, stage := { e.stage with now := time } } :=
    ⟨h.outOfOrder, fun entry hrest => h.tasks entry (hagenda ▸ List.mem_cons_of_mem _ hrest),
      h.drivers⟩
  refine hpopped.perform fun failure hfails => ?_
  cases hfails with
  | begin hrun hbegin => exact (hsound.fresh_of_begin hmem hrun).begin_run_ne_error hbegin
  | abandon runId => exact h.tasks _ hmem runId rfl

theorem work (hsound : e.Sound) (stop : Engine → Bool) (until? : Option Float) (fuel : Nat) :
    (Engine.work stop until? fuel e).Undisturbed := by
  have hboth := work_of_turns (P := fun e => e.Undisturbed ∧ e.Sound) stop until? fuel ⟨h, hsound⟩
    fun e next ⟨hbefore, hsound⟩ hadvance =>
      ⟨hbefore.advance hsound hadvance, (hsound.advance hadvance).sound hsound⟩
  exact hboth.1

theorem informFollowers : e.informFollowers.Undisturbed :=
  informFollowers_of_reads h fun _ _ hbefore =>
    ⟨hbefore.outOfOrder, hbefore.tasks, hbefore.drivers⟩

theorem launch (hlaunch : e.launch runId = (.ok (), e')) : e'.Undisturbed := by
  unfold Engine.launch at hlaunch
  split at hlaunch
  · cases hlaunch
  · split at hlaunch <;> cases hlaunch
    rename_i repository _
    exact (((h.setRepository repository).change runId Run.stored).setDriver runId .waiting
      fun _ => nofun).schedule _ nofun

end Undisturbed

/-! ### Waiting -/

theorem Undisturbed.submit (h : e.Undisturbed) {order : Order}
    (hsubmit : e.submit order = (.ok runId, e')) : e'.Undisturbed := by
  unfold Engine.submit at hsubmit
  split at hsubmit
  · cases hsubmit
  · split at hsubmit <;> cases hsubmit
    rename_i hregister
    obtain ⟨payload, mode, rfl⟩ := register_eq_ok hregister
    have hcounted : Undisturbed { e with runCount := e.runCount + 1 } :=
      ⟨h.outOfOrder, h.tasks, h.drivers⟩
    exact hcounted.setRun _

/-- Whoever waits for a driver that nobody stops is told that it is through without a failure, or
that he has waited long enough. -/
theorem Undisturbed.wait (h : e.Undisturbed) (hsound : e.Sound) (hlisted : runId ∈ e.listRuns)
    (hdriven : e.IsDriven runId) (timeout : Option Float) :
    (e.wait runId timeout).1 = .error .timedOut ∨
      (e.wait runId timeout).1 = .ok () ∧
        Table.find? (e.wait runId timeout).2.drivers runId = some (.done none) := by
  have hafter : (e.wait runId timeout).2.Undisturbed :=
    wait_of_work runId timeout h
      (fun until? => (h.work hsound (driverIsDone runId) until? patience).informFollowers)
      fun _ _ hworked => hworked.setStage _
  rcases wait_answers hlisted hdriven timeout with hlate | hthrough | ⟨failure, -, hfailed⟩
  · exact .inl hlate
  · exact .inr hthrough
  · exact absurd hfailed (hafter.drivers runId failure)

/-- What can come of starting a run and waiting for it. -/
inductive Yields (e : Engine) (order : Order) : Except Failure String × Engine → Prop
  /-- There is no run of that kind. -/
  | unfit (failure : Failure) (e' : Engine) (hsubmit : e.submit order = (.error failure, e')) :
    Yields e order (.error failure, e')
  | refused (failure : Failure) (e' : Engine) (hrefuses : e.Refuses order) :
    Yields e order (.error failure, e')
  | late (e' : Engine) : Yields e order (.error .timedOut, e')
  | ended (e' : Engine) (run : Run)
    (hrun : Table.find? e'.runs (idOf (e.runCount + 1)) = some run)
    (hended : run.isTerminated = true) : Yields e order (.ok (idOf (e.runCount + 1)), e')

end Engine

end Workflow
