import Workflow.Proofs.Engine.Rehearsal
import Workflow.Proofs.Engine.Stroke
import Workflow.Proofs.Secrecy.Stage

/-!
# The clock stands still while a task is performed

An engine puts its clock to the time of the task that is due next before it performs it. No stroke
of the task moves the clock, so every call of an action or a model is recorded with the time of the
task that has made it.
-/

namespace Workflow

/-! ### Calls -/

namespace Stage

variable {stage stage' stage'' : Stage} {P Q : Float → Prop}

/-- Whatever has been called between two stages was called at a time of some kind. -/
structure CallsWithin (P : Float → Prop) (stage stage' : Stage) : Prop where
  external : ∀ call ∈ stage'.record.external, call ∈ stage.record.external ∨ P call.time
  models : ∀ entry ∈ stage'.record.models, entry ∈ stage.record.models ∨ P entry.1

namespace CallsWithin

theorem of_eq (hexternal : stage'.record.external = stage.record.external)
    (hmodels : stage'.record.models = stage.record.models) : CallsWithin P stage stage' :=
  ⟨fun _ hmem => .inl (hexternal ▸ hmem), fun _ hmem => .inl (hmodels ▸ hmem)⟩

theorem refl (stage : Stage) : CallsWithin P stage stage := .of_eq rfl rfl

theorem trans (h : CallsWithin P stage stage') (h' : CallsWithin P stage' stage'') :
    CallsWithin P stage stage'' :=
  ⟨fun call hmem => (h'.external call hmem).elim (h.external call) .inr,
    fun entry hmem => (h'.models entry hmem).elim (h.models entry) .inr⟩

theorem mono (h : CallsWithin P stage stage') (himp : ∀ time, P time → Q time) :
    CallsWithin Q stage stage' :=
  ⟨fun call hmem => (h.external call hmem).imp_right (himp _),
    fun entry hmem => (h.models entry hmem).imp_right (himp _)⟩

end CallsWithin

/-- Some calls are made, and the clock stands still. -/
structure Asks (stage stage' : Stage) : Prop where
  now : stage'.now = stage.now
  calls : CallsWithin (· = stage.now) stage stage'

namespace Asks

theorem of_eq (hnow : stage'.now = stage.now)
    (hexternal : stage'.record.external = stage.record.external)
    (hmodels : stage'.record.models = stage.record.models) : Asks stage stage' :=
  ⟨hnow, .of_eq hexternal hmodels⟩

theorem refl (stage : Stage) : Asks stage stage := ⟨rfl, .refl stage⟩

theorem trans (h : Asks stage stage') (h' : Asks stage' stage'') : Asks stage stage'' :=
  ⟨h'.now.trans h.now, h.calls.trans (h.now ▸ h'.calls)⟩

end Asks

theorem asks_noteExternal (stage : Stage) (action : String) (input : ActionInput) :
    stage.Asks (stage.noteExternal ⟨stage.now, action, input⟩) := by
  refine ⟨rfl, fun call hmem => ?_, fun entry hmem => .inl hmem⟩
  rcases List.mem_append.mp hmem with hbefore | hnew
  · exact .inl hbefore
  · obtain rfl := List.mem_singleton.mp hnew
    exact .inr rfl

theorem asks_noteModel (stage : Stage) (request : ModelRequest) :
    stage.Asks (stage.noteModel request) := by
  refine ⟨rfl, fun call hmem => .inl hmem, fun entry hmem => ?_⟩
  rcases List.mem_append.mp hmem with hbefore | hnew
  · exact .inl hbefore
  · obtain rfl := List.mem_singleton.mp hnew
    exact .inr rfl

theorem asks_callAction (stage : Stage) (serviceId actionId : String) (input : ActionInput) :
    stage.Asks (stage.callAction serviceId actionId input).2 := by
  unfold callAction
  dsimp only
  split
  · exact .refl stage
  · exact .refl stage
  · obtain ⟨requests, responses, hsent⟩ := stage.exists_sendRequest_eq input
    rw [hsent]
    exact .of_eq rfl rfl rfl
  · unfold playAction
    dsimp only
    split <;> exact .of_eq rfl rfl rfl
  · split <;> exact .refl stage

theorem asks_askModel (stage : Stage) (request : ModelRequest) :
    stage.Asks (stage.askModel request).2 := by
  have hnoted := stage.asks_noteModel request
  unfold askModel
  dsimp only
  split
  · exact hnoted.trans (.of_eq rfl rfl rfl)
  · exact hnoted

theorem asks_askProvider (stage : Stage) (script : ProviderScript) (request : ModelRequest) :
    stage.Asks (stage.askProvider script request).2 := by
  have hclient : stage.Asks (stage.noteClient request) := .of_eq rfl rfl rfl
  have hnoted := hclient.trans ((stage.noteClient request).asks_noteModel request)
  unfold askProvider
  dsimp only
  split
  · exact hclient
  · split <;> exact hnoted.trans (.of_eq rfl rfl rfl)

theorem asks_callTool (stage : Stage) (name : String) (arguments : Value) :
    stage.Asks (stage.callTool name arguments).2 := by
  unfold callTool
  split
  · exact .refl stage
  · exact .refl stage
  · exact .of_eq rfl rfl rfl
  · unfold playTool
    dsimp only
    split <;> exact .of_eq rfl rfl rfl

/-- A call is recorded with the time that the clock shows. -/
theorem asks_react (stage : Stage) (call : Call) : stage.Asks (stage.react call).2 := by
  cases call with
  | external serviceId actionId parameters secret incoming =>
      exact (stage.asks_noteExternal _ _).trans (asks_callAction _ serviceId actionId _)
  | model request =>
      unfold react
      dsimp only
      split
      · exact stage.asks_askProvider _ request
      · exact stage.asks_askModel request
  | tool name arguments => exact stage.asks_callTool name _
  | attempt number => exact .of_eq rfl rfl rfl
  | _ => exact .refl stage

end Stage

namespace Engine

/-! ### Tasks -/

variable {e e' e'' : Engine}

/-- Nothing is called, and nobody begins or ceases to follow a run. -/
structure StaysQuiet (e e' : Engine) : Prop where
  stage : e'.stage = e.stage
  followers : e'.followers = e.followers

theorem StaysQuiet.trans (h : StaysQuiet e e') (h' : StaysQuiet e' e'') : StaysQuiet e e'' :=
  ⟨h'.stage.trans h.stage, h'.followers.trans h.followers⟩

/-- What is done in one turn: some calls are made, and nobody begins or ceases to follow a run. -/
structure TakesTurn (e e' : Engine) : Prop where
  stage : e.stage.Asks e'.stage
  followers : e'.followers = e.followers

theorem StaysQuiet.takesTurn (h : StaysQuiet e e') : TakesTurn e e' :=
  ⟨h.stage ▸ .refl e.stage, h.followers⟩

namespace TakesTurn

theorem refl (e : Engine) : TakesTurn e e := StaysQuiet.takesTurn ⟨rfl, rfl⟩

theorem trans (h : TakesTurn e e') (h' : TakesTurn e' e'') : TakesTurn e e'' :=
  ⟨h.stage.trans h'.stage, h'.followers.trans h.followers⟩

end TakesTurn

variable (e)

theorem staysQuiet_setRepository (repository : Repository) : StaysQuiet e { e with repository } :=
  ⟨rfl, rfl⟩

theorem staysQuiet_setDriver (runId : String) (state : DriverState) :
    StaysQuiet e (e.setDriver runId state) :=
  ⟨rfl, rfl⟩

theorem staysQuiet_schedule (time : Float) (task : Task) : StaysQuiet e (e.schedule time task) :=
  ⟨rfl, rfl⟩

theorem staysQuiet_setRun (run : Run) : StaysQuiet e (e.setRun run) := by
  unfold setRun wakeDriver
  dsimp only
  split <;> exact ⟨rfl, rfl⟩

theorem staysQuiet_change (runId : String) (f : Run → Run) : StaysQuiet e (e.change runId f) := by
  unfold change
  split
  · exact e.staysQuiet_setRun _
  · exact ⟨rfl, rfl⟩

theorem staysQuiet_launch (runId : String) : StaysQuiet e (e.launch runId).2 := by
  unfold launch
  split
  · exact ⟨rfl, rfl⟩
  · split
    · exact ⟨rfl, rfl⟩
    · rename_i repository _
      have hstored := (e.staysQuiet_setRepository repository).trans
        (staysQuiet_change _ runId Run.stored)
      exact (hstored.trans (staysQuiet_setDriver _ runId .waiting)).trans
        (staysQuiet_schedule _ _ _)

/-- Nothing is called when a run is started. -/
theorem staysQuiet_start (order : Order) : StaysQuiet e (e.start order).2 := by
  unfold start
  split
  · exact ⟨rfl, rfl⟩
  · dsimp only
    split
    · exact ⟨rfl, rfl⟩
    · rename_i hregister
      obtain ⟨payload, mode, rfl⟩ := register_eq_ok hregister
      have hcounted : StaysQuiet e { e with runCount := e.runCount + 1 } := ⟨rfl, rfl⟩
      exact (hcounted.trans (staysQuiet_setRun _ _)).trans (staysQuiet_launch _ _)

variable {e}

theorem Stroke.takesTurn {start : Engine} {task : Task} (h : Stroke start task e e') :
    TakesTurn e e' := by
  cases h with
  | ask call => exact ⟨e.stage.asks_react call, rfl⟩
  | @write _ _ repository _ => exact (e.staysQuiet_setRepository repository).takesTurn
  | @put _ _ run' _ _ => exact (e.staysQuiet_setRun run').takesTurn
  | schedule time _ => exact (e.staysQuiet_schedule time _).takesTurn
  | drive _ _ => exact (e.staysQuiet_setDriver _ _).takesTurn
  | giveUp _ _ => exact (e.staysQuiet_setDriver _ _).takesTurn

/-- A task is performed in one turn. -/
theorem takesTurn_perform (e : Engine) (task : Task) : TakesTurn e (e.perform task) := by
  have hstrokes := e.strokes_perform task
  generalize e.perform task = e' at hstrokes ⊢
  induction hstrokes with
  | refl => exact .refl e
  | tail _ hstroke ih => exact ih.trans hstroke.takesTurn

end Engine

end Workflow
