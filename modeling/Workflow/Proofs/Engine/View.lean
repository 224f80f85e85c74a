import Workflow.Engine
import Workflow.Proofs.Fallible
import Workflow.Proofs.Store.Writes
import Workflow.Proofs.Table
import Mathlib.Data.List.Perm.Basic
import Mathlib.Logic.Relation

/-!
# What an engine has of one run

An engine keeps many runs, and all of their tasks stand on one agenda. A view is what concerns a
single run: the run itself, where its driver stands, and its own tasks. Each operation changes the
view of the run that it is about, and leaves the views of all other runs as they are; what it has to
say to the repository is about that run too.
-/

namespace Workflow

/-- Whose task it is: that of the driver of a run, or that of the invocation of a step. -/
def Task.holder : Task → String × Option String
  | .begin runId | .conclude runId | .abandon runId => (runId, none)
  | .start runId stepId | .resume runId stepId _ => (runId, some stepId)

/-- What concerns a single run. -/
structure View where
  runId : String
  run : Option Run
  driver : Option DriverState
  tasks : List Task

/-- One repository comes from another by writes about a single run. -/
def Repository.IsTold (runId : String) : Repository → Repository → Prop :=
  Relation.ReflTransGen fun repository repository' =>
    ∃ now entry, Entry.runId entry = runId ∧ repository.write now entry = .ok repository'

namespace Engine

variable {e e' e'' : Engine} {runId other : String}

def tasksOf (e : Engine) (runId : String) : List Task :=
  (e.agenda.map (·.2)).filter (·.holder.1 = runId)

def view (e : Engine) (runId : String) : View where
  runId
  run := Table.find? e.runs runId
  driver := Table.find? e.drivers runId
  tasks := e.tasksOf runId

/-- Nothing changes but what concerns one run. -/
structure Spares (runId : String) (e e' : Engine) : Prop where
  runCount : e'.runCount = e.runCount
  views : ∀ other, other ≠ runId → e'.view other = e.view other
  repository : e.repository.IsTold runId e'.repository

theorem Spares.refl (runId : String) (e : Engine) : Spares runId e e := ⟨rfl, fun _ _ => rfl, .refl⟩

theorem Spares.trans (h : Spares runId e e') (h' : Spares runId e' e'') : Spares runId e e'' :=
  ⟨h'.runCount.trans h.runCount, fun other hne => (h'.views other hne).trans (h.views other hne),
    h.repository.trans h'.repository⟩

/-! ### The repository -/

theorem store_eq_ok {α : Type} {operation : StoreOperation} {f : Repository → Except Failure α}
    {a : α} (h : e.store operation f = .ok a) : f e.repository = .ok a := by
  unfold store at h
  split at h
  · cases h
  · exact h

theorem spares_store {operation : StoreOperation} {now : Moment} {entry : Entry}
    {repository : Repository} (hid : entry.runId = runId)
    (hstore : e.store operation (Repository.write now entry) = .ok repository) :
    Spares runId e { e with repository } :=
  ⟨rfl, fun _ _ => rfl, .single ⟨now, entry, hid, store_eq_ok hstore⟩⟩

/-! ### Tasks -/

theorem holder_of_mem_tasksOf {task : Task} (hmem : task ∈ e.tasksOf runId) :
    task.holder.1 = runId := by
  simpa using (List.mem_filter.mp hmem).2

theorem insertTask_perm (time : Float) (task : Task) (agenda : List (Float × Task)) :
    (insertTask time task agenda).Perm ((time, task) :: agenda) := by
  induction agenda with
  | nil => exact List.Perm.refl _
  | cons entry agenda ih =>
      rw [insertTask]
      split
      · exact (ih.cons entry).trans (List.Perm.swap _ _ _)
      · exact List.Perm.refl _

theorem filter_insertTask {p : Task → Bool} {task : Task} (htask : p task = false) (time : Float)
    (agenda : List (Float × Task)) :
    ((insertTask time task agenda).map (·.2)).filter p = (agenda.map (·.2)).filter p := by
  induction agenda with
  | nil => simp [insertTask, htask]
  | cons entry agenda ih =>
      rw [insertTask]
      split
      · rw [List.map_cons, List.map_cons, List.filter_cons, List.filter_cons, ih]
      · rw [List.map_cons, List.filter_cons, htask]
        rfl

theorem tasksOf_schedule_perm (e : Engine) (time : Float) (task : Task)
    (htask : task.holder.1 = runId) :
    ((e.schedule time task).tasksOf runId).Perm (task :: e.tasksOf runId) := by
  have hperm := ((insertTask_perm time task e.agenda).map (·.2)).filter (·.holder.1 = runId)
  rwa [List.map_cons, List.filter_cons, if_pos (by simpa using htask)] at hperm

theorem spares_schedule (e : Engine) (time : Float) (task : Task) (htask : task.holder.1 = runId) :
    Spares runId e (e.schedule time task) := by
  refine ⟨rfl, fun other hne => ?_, .refl⟩
  have htasks : (e.schedule time task).tasksOf other = e.tasksOf other :=
    filter_insertTask (by simpa [htask] using hne.symm) time e.agenda
  rw [view, htasks]
  rfl

theorem tasksOf_dropTasks (e : Engine) (p : Task → Bool) (runId : String) :
    (e.dropTasks p).tasksOf runId = (e.tasksOf runId).filter (!p ·) := by
  simp [tasksOf, dropTasks, List.filter_map, List.filter_filter, Function.comp_def, Bool.and_comm]

theorem view_dropTasks (e : Engine) (p : Task → Bool) (runId : String) :
    (e.dropTasks p).view runId =
      { e.view runId with tasks := (e.tasksOf runId).filter (!p ·) } :=
  congrArg (View.mk _ _ _) (e.tasksOf_dropTasks p runId)

theorem isFor_iff {task : Task} : isFor runId task = true ↔ task.holder = (runId, none) := by
  cases task <;> simp [isFor, Task.holder]

theorem isOf_iff {stepId : String} {task : Task} :
    isOf runId stepId task = true ↔ task.holder = (runId, some stepId) := by
  cases task <;> simp [isOf, Task.holder]

theorem spares_dropTasks (e : Engine) {p : Task → Bool}
    (hp : ∀ task, p task = true → task.holder.1 = runId) : Spares runId e (e.dropTasks p) := by
  refine ⟨rfl, fun other hne => ?_, .refl⟩
  have htasks : (e.dropTasks p).tasksOf other = e.tasksOf other := by
    rw [tasksOf_dropTasks, List.filter_eq_self]
    intro task hmem
    have hother := holder_of_mem_tasksOf hmem
    rw [Bool.not_eq_true', Bool.eq_false_iff]
    exact fun htask => hne (hother.symm.trans (hp task htask))
  rw [view, htasks]
  rfl

/-! ### Runs and drivers -/

theorem run?_eq_ok_iff {run : Run} :
    e.run? runId = .ok run ↔ Table.find? e.runs runId = some run := by
  unfold run?
  split <;> simp_all

theorem follow_eq_ok (h : e.follow runId = .ok e') :
    ∃ run, Table.find? e.runs runId = some run ∧
      e' = { e.change runId fun run => { run with log := run.log.subscribe } with
        followers := e.followers ++ [⟨runId, run.log.subscriptions.length⟩] } := by
  obtain ⟨run, hrun, hsubscribed⟩ := bind_eq_ok_iff.mp h
  exact ⟨run, run?_eq_ok_iff.mp hrun, (Except.ok.inj hsubscribed).symm⟩

theorem spares_setDriver (e : Engine) (runId : String) (state : DriverState) :
    Spares runId e (e.setDriver runId state) := by
  refine ⟨rfl, fun other hne => ?_, .refl⟩
  have hdriver : Table.find? (e.setDriver runId state).drivers other =
      Table.find? e.drivers other :=
    (Table.find?_insert _ _ _ _).trans (if_neg hne)
  rw [view, hdriver]
  rfl

theorem view_setDriver (e : Engine) (runId : String) (state : DriverState) :
    (e.setDriver runId state).view runId = { e.view runId with driver := some state } :=
  congrArg (View.mk _ _ · _) ((Table.find?_insert _ _ _ _).trans (if_pos rfl))

/-- Whether the driver of a run has been waiting for what is put in place. -/
def Wakes (e : Engine) (run : Run) : Prop :=
  run.isFinished = true ∧ Table.find? e.drivers run.id = some .driving

theorem setRun_of_wakes {run : Run} (hwakes : e.Wakes run) :
    e.setRun run = ({ e with
      runs := Table.insert e.runs run.id run
      observed := e.observed ++ e.news run }.setDriver run.id .closing).schedule e.stage.now
        (.conclude run.id) := by
  rw [setRun, wakeDriver, hwakes.1]
  simp only [hwakes.2]

theorem setRun_of_not_wakes {run : Run} (hwakes : ¬ e.Wakes run) :
    e.setRun run = { e with
      runs := Table.insert e.runs run.id run
      observed := e.observed ++ e.news run } := by
  rw [setRun, wakeDriver]
  split
  · exact absurd ⟨‹_›, ‹_›⟩ hwakes
  · rfl

/-- A driver that does not wait is not woken. -/
theorem view_setRun {run : Run} (hid : run.id = runId)
    (hdriver : Table.find? e.drivers runId ≠ some .driving) :
    (e.setRun run).view runId = { e.view runId with run := some run } := by
  subst hid
  rw [setRun_of_not_wakes fun hwakes => hdriver hwakes.2]
  exact congrArg (View.mk _ · _ _) ((Table.find?_insert _ _ _ _).trans (if_pos rfl))

@[simp] theorem repository_setRun (e : Engine) (run : Run) :
    (e.setRun run).repository = e.repository := by
  by_cases hwakes : e.Wakes run
  · rw [setRun_of_wakes hwakes]
    rfl
  · rw [setRun_of_not_wakes hwakes]

theorem mem_tasksOf_setRun {run : Run} {task : Task} (hrun : run.id = runId)
    (hmem : task ∈ (e.setRun run).tasksOf runId) :
    task ∈ e.tasksOf runId ∨ task.holder = (runId, none) := by
  by_cases hwakes : e.Wakes run
  · have hperm := tasksOf_schedule_perm ({ e with
      runs := Table.insert e.runs run.id run
      observed := e.observed ++ e.news run }.setDriver run.id .closing) e.stage.now
      (.conclude run.id) hrun
    rw [setRun_of_wakes hwakes, hperm.mem_iff, List.mem_cons] at hmem
    rcases hmem with rfl | hmem
    · exact Or.inr (by rw [← hrun]; rfl)
    · exact Or.inl hmem
  · rw [setRun_of_not_wakes hwakes] at hmem
    exact Or.inl hmem

theorem spares_setRun (e : Engine) {run : Run} (hid : run.id = runId) :
    Spares runId e (e.setRun run) := by
  subst hid
  have hrun : Spares run.id e { e with
      runs := Table.insert e.runs run.id run
      observed := e.observed ++ e.news run } := by
    refine ⟨rfl, fun other hne => ?_, .refl⟩
    have hfind : Table.find? (Table.insert e.runs run.id run) other = Table.find? e.runs other :=
      (Table.find?_insert _ _ _ _).trans (if_neg hne)
    simp only [view, hfind]
    rfl
  by_cases hwakes : e.Wakes run
  · rw [setRun_of_wakes hwakes]
    exact (hrun.trans (spares_setDriver _ _ _)).trans (spares_schedule _ _ _ rfl)
  · rw [setRun_of_not_wakes hwakes]
    exact hrun

theorem view_adjust (e : Engine) (runId other : String) (f : Run → Run) :
    view { e with runs := Table.adjust e.runs runId f } other =
      if other = runId then { e.view other with run := (Table.find? e.runs other).map f }
      else e.view other := by
  have hfind := Table.find?_adjust e.runs runId other f
  split at hfind <;> rename_i heq
  · rw [if_pos heq]
    exact congrArg (View.mk _ · _ _) hfind
  · rw [if_neg heq]
    exact congrArg (View.mk _ · _ _) hfind

@[simp] theorem repository_scheduleStarts (e : Engine) (runId : String) (ids : List String) :
    (ids.foldl (fun e id => e.schedule e.stage.now (.start runId id)) e).repository =
      e.repository := by
  induction ids generalizing e with
  | nil => rfl
  | cons id ids ih => exact ih _

theorem spares_scheduleStarts (e : Engine) (runId : String) (ids : List String) :
    Spares runId e (ids.foldl (fun e id => e.schedule e.stage.now (.start runId id)) e) := by
  induction ids generalizing e with
  | nil => exact .refl _ _
  | cons id ids ih => exact (spares_schedule _ _ (.start runId id) rfl).trans (ih _)

end Engine

end Workflow
