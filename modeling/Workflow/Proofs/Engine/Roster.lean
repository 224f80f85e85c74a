import Workflow.Proofs.Engine.Stroke
import Workflow.Proofs.Secrecy.Deeds

/-!
# The roster of an engine

An engine has a list of the runs it answers for, and drivers for the runs on it. Only a start adds
to either: whatever else is done with an engine, the same runs are listed and the same runs have a
driver afterwards.
-/

namespace Workflow

namespace Engine

variable {e e' e'' : Engine} {runId : String}

/-- The ids of the runs that an engine answers for. -/
def listRuns (e : Engine) : List String := Table.keys e.runs

def IsDriven (e : Engine) (runId : String) : Prop := runId ∈ Table.keys e.drivers

/-- Each run is kept under its own id, and drivers that have something to do are known. -/
structure IsOrderly (e : Engine) : Prop where
  ids : ∀ runId run, Table.find? e.runs runId = some run → run.id = runId
  tasks : ∀ entry ∈ e.agenda, entry.2.holder.2 = none → e.IsDriven entry.2.holder.1

/-- The same runs are listed as before, and the same runs have drivers. -/
structure KeepsRoster (e e' : Engine) : Prop where
  listed : e'.listRuns = e.listRuns
  driven : Table.keys e'.drivers = Table.keys e.drivers
  runCount : e'.runCount = e.runCount
  orderly : e'.IsOrderly

theorem KeepsRoster.trans (h : KeepsRoster e e') (h' : KeepsRoster e' e'') :
    KeepsRoster e e'' where
  listed := h'.listed.trans h.listed
  driven := h'.driven.trans h.driven
  runCount := h'.runCount.trans h.runCount
  orderly := h'.orderly

theorem KeepsRoster.isDriven_iff (h : KeepsRoster e e') : e'.IsDriven runId ↔ e.IsDriven runId := by
  rw [IsDriven, IsDriven, h.driven]

theorem isDriven_setDriver {other : String} {state : DriverState} :
    (e.setDriver runId state).IsDriven other ↔ other = runId ∨ e.IsDriven other :=
  Table.mem_keys_insert

theorem isDriven_of_find? {state : DriverState} (h : Table.find? e.drivers runId = some state) :
    e.IsDriven runId :=
  Table.find?_isSome_iff.mp (by rw [h, Option.isSome_some])

theorem mem_listRuns_of_find? {run : Run} (h : Table.find? e.runs runId = some run) :
    runId ∈ e.listRuns :=
  Table.find?_isSome_iff.mp (by rw [h, Option.isSome_some])

namespace IsOrderly

variable (h : e.IsOrderly)
include h

theorem refl : KeepsRoster e e := ⟨rfl, rfl, rfl, h⟩

theorem setRepository (repository : Repository) : KeepsRoster e { e with repository } :=
  ⟨rfl, rfl, rfl, h.ids, h.tasks⟩

theorem setStage (stage : Stage) : KeepsRoster e { e with stage } :=
  ⟨rfl, rfl, rfl, h.ids, h.tasks⟩

theorem setAgenda {agenda : List (Float × Task)} (hsub : ∀ entry ∈ agenda, entry ∈ e.agenda) :
    KeepsRoster e { e with agenda } :=
  ⟨rfl, rfl, rfl, h.ids, fun entry hmem => h.tasks entry (hsub entry hmem)⟩

theorem schedule (time : Float) (task : Task)
    (htask : task.holder.2 = none → e.IsDriven task.holder.1) :
    KeepsRoster e (e.schedule time task) := by
  refine ⟨rfl, rfl, rfl, h.ids, fun entry hmem => ?_⟩
  rcases List.mem_cons.mp ((insertTask_perm time task e.agenda).mem_iff.mp hmem) with rfl | hmem
  · exact htask
  · exact h.tasks entry hmem

/-- Whether or not there has been a driver, putting one in place does no harm. -/
theorem engage (runId : String) (state : DriverState) : (e.setDriver runId state).IsOrderly :=
  ⟨h.ids, fun entry hmem hholder => isDriven_setDriver.mpr (.inr (h.tasks entry hmem hholder))⟩

theorem setDriver (hdriven : e.IsDriven runId) (state : DriverState) :
    KeepsRoster e (e.setDriver runId state) :=
  ⟨rfl, Table.keys_insert_of_mem state hdriven, rfl, h.engage runId state⟩

theorem setRun {run : Run} (hlisted : run.id ∈ e.listRuns) : KeepsRoster e (e.setRun run) := by
  have hput : KeepsRoster e { e with
      runs := Table.insert e.runs run.id run
      observed := e.observed ++ e.news run } := by
    refine ⟨Table.keys_insert_of_mem run hlisted, rfl, rfl, fun other run' hfind => ?_, h.tasks⟩
    rw [Table.find?_insert] at hfind
    split at hfind
    · rename_i heq
      rw [heq, ← Option.some.inj hfind]
    · exact h.ids other run' hfind
  by_cases hwakes : e.Wakes run
  · rw [setRun_of_wakes hwakes]
    have hdriven := isDriven_of_find? hwakes.2
    have hset := hput.orderly.setDriver hdriven .closing
    exact (hput.trans hset).trans (hset.orderly.schedule _ _ fun _ => hset.isDriven_iff.mpr hdriven)
  · rw [setRun_of_not_wakes hwakes]
    exact hput

theorem setFound {run run' : Run} (hrun : Table.find? e.runs runId = some run)
    (hid : run'.id = run.id) : KeepsRoster e (e.setRun run') := by
  refine h.setRun ?_
  rw [hid, h.ids runId run hrun]
  exact mem_listRuns_of_find? hrun

theorem change (runId : String) {f : Run → Run} (hid : ∀ run, (f run).id = run.id) :
    KeepsRoster e (e.change runId f) := by
  unfold Engine.change
  split
  · rename_i run hrun
    exact h.setFound hrun (hid run)
  · exact h.refl

theorem stroke {start : Engine} {task : Task} (hstroke : Stroke start task e e')
    (htask : task.holder.2 = none → e.IsDriven task.holder.1) : KeepsRoster e e' := by
  cases hstroke with
  | ask call => exact h.setStage _
  | write _ => exact h.setRepository _
  | put hrun hid => exact h.setFound hrun hid
  | schedule time hnext => exact h.schedule time _ fun hnone => absurd hnone hnext
  | drive hholder _ =>
      rw [hholder] at htask
      exact h.setDriver (htask rfl) _
  | giveUp hholder _ =>
      rw [hholder] at htask
      exact h.setDriver (htask rfl) _

theorem perform {task : Task} (htask : task.holder.2 = none → e.IsDriven task.holder.1) :
    KeepsRoster e (e.perform task) := by
  have hstrokes := e.strokes_perform task
  generalize e.perform task = e' at hstrokes ⊢
  induction hstrokes with
  | refl => exact h.refl
  | tail _ hstroke ih =>
      exact ih.trans (ih.orderly.stroke hstroke fun hnone => ih.isDriven_iff.mpr (htask hnone))

/-- Whichever task is taken from the agenda, at whatever time. -/
theorem performAt {time time' : Float} {task : Task} {agenda : List (Float × Task)}
    (hmem : (time, task) ∈ e.agenda) (hsub : ∀ entry ∈ agenda, entry ∈ e.agenda) :
    KeepsRoster e ({ e with agenda, stage := { e.stage with now := time' } }.perform task) := by
  have hpopped := h.setAgenda hsub
  have hset := hpopped.trans (hpopped.orderly.setStage { e.stage with now := time' })
  exact hset.trans (hset.orderly.perform (h.tasks (time, task) hmem))

theorem pick (index : Nat) (time : Float) : KeepsRoster e (e.pick index time) := by
  unfold Engine.pick
  split
  · exact h.refl
  · rename_i due task rest hdrop
    have hagenda : e.agenda = e.agenda.take index ++ (due, task) :: rest := by
      rw [← hdrop, List.take_append_drop]
    have htask : (due, task) ∈ e.agenda :=
      hagenda ▸ List.mem_append_right _ List.mem_cons_self
    refine h.performAt htask fun entry hmem => ?_
    rw [hagenda]
    rcases List.mem_append.mp hmem with hmem | hmem
    · exact List.mem_append_left _ hmem
    · exact List.mem_append_right _ (List.mem_cons_of_mem _ hmem)

theorem advance {until? : Option Float} (hadvance : e.advance? until? = some e') :
    KeepsRoster e e' := by
  obtain ⟨entry, agenda, hagenda, -, rfl, -⟩ := exists_turn hadvance
  refine h.performAt (hagenda ▸ List.mem_cons_self) fun other hmem => ?_
  exact hagenda ▸ List.mem_cons_of_mem _ hmem

theorem work (stop : Engine → Bool) (until? : Option Float) (fuel : Nat) :
    KeepsRoster e (Engine.work stop until? fuel e) :=
  work_of_turns stop until? fuel h.refl fun _ _ hkeeps hadvance =>
    hkeeps.trans (hkeeps.orderly.advance hadvance)

theorem read (runId : String) (index : Nat) : KeepsRoster e { e with
    runs := Table.adjust e.runs runId fun run =>
      { run with log := run.log.modifySubscription index Subscription.readAll } } := by
  refine ⟨?_, rfl, rfl, fun other run hfind => ?_, h.tasks⟩
  · simp [listRuns]
  · rw [Table.find?_adjust] at hfind
    split at hfind
    · obtain ⟨run', hrun', rfl⟩ := Option.map_eq_some_iff.mp hfind
      exact h.ids other run' hrun'
    · exact h.ids other run hfind

theorem informFollowers : KeepsRoster e e.informFollowers :=
  informFollowers_of_reads h.refl fun _ follower hkeeps =>
    hkeeps.trans (hkeeps.orderly.read follower.runId follower.index)

theorem setClock (time : Float) : KeepsRoster e (e.setClock time) := h.setStage _

theorem sleep (seconds : Float) : KeepsRoster e (e.sleep seconds) := by
  have hworked := h.work (fun _ => false) (some (e.stage.advance seconds).now) patience
  have hclock := hworked.trans (hworked.orderly.setClock (e.stage.advance seconds).now)
  exact hclock.trans hclock.orderly.informFollowers

theorem drain : KeepsRoster e e.drain := by
  have hworked := h.work (fun _ => false) none patience
  exact hworked.trans hworked.orderly.informFollowers

theorem wait (runId : String) (timeout : Option Float) :
    KeepsRoster e (e.wait runId timeout).2 := by
  refine wait_of_work runId timeout h.refl (fun until? => ?_) fun _ time hkeeps =>
    hkeeps.trans (hkeeps.orderly.setClock time)
  have hworked := h.work (driverIsDone runId) until? patience
  exact hworked.trans hworked.orderly.informFollowers

theorem cancel (runId reason : String) : KeepsRoster e (e.cancel runId reason).2 := by
  unfold Engine.cancel
  split
  · exact h.refl
  · rename_i run hrun
    exact h.setFound (run?_eq_ok_iff.mp hrun) (run.quiet_cancel e.now reason).id

theorem dropTasks (p : Task → Bool) : KeepsRoster e (e.dropTasks p) :=
  h.setAgenda fun _ hmem => (List.mem_filter.mp hmem).1

theorem stopDriver (runId : String) : KeepsRoster e (e.stopDriver runId).2 := by
  have hset (state state' : DriverState) (hdriver : Table.find? e.drivers runId = some state) :
      KeepsRoster e ((e.dropTasks (isFor runId)).setDriver runId state') :=
    have hdropped := h.dropTasks (isFor runId)
    hdropped.trans (hdropped.orderly.setDriver
      (hdropped.isDriven_iff.mpr (isDriven_of_find? hdriver)) state')
  unfold Engine.stopDriver
  split
  · exact h.refl
  · exact h.refl
  · rename_i hdriver
    exact hset _ _ hdriver
  · rename_i hdriver
    have hclosing := hset _ .closing hdriver
    exact hclosing.trans (hclosing.orderly.schedule _ _ fun _ =>
      hclosing.isDriven_iff.mpr (isDriven_of_find? hdriver))

theorem stopStep (runId stepId : String) : KeepsRoster e (e.stopStep runId stepId).2 := by
  unfold Engine.stopStep
  split
  · exact h.refl
  · split
    · exact h.dropTasks _
    · exact h.refl

theorem follow (hfollow : e.follow runId = .ok e') : KeepsRoster e e' := by
  obtain ⟨run, -, rfl⟩ := follow_eq_ok hfollow
  have hsubscribed := h.change runId (f := fun run => { run with log := run.log.subscribe })
    fun _ => rfl
  exact ⟨hsubscribed.listed, hsubscribed.driven, hsubscribed.runCount, hsubscribed.orderly.ids,
    hsubscribed.orderly.tasks⟩

end IsOrderly

end Engine

end Workflow
