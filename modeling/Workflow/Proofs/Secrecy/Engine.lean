import Workflow.Proofs.Engine.View
import Workflow.Proofs.Secrecy.Stage

/-!
# Secrets do not interfere

Two engines that differ in the secrets they keep are asked for the same. They go on in lockstep: the
same tasks stand on their agendas, for the same times, and when a task is performed both engines
make the same calls but for the secrets these carry. So nothing that can be asked of them shows
which secrets they keep.
-/

namespace Workflow

variable {R : String → String → Prop} {P : Stage → Stage → Prop}

/-- Two tasks are the same but for what the rest of an invocation knows of a secret. -/
inductive Task.Alike (R : String → String → Prop) : Task → Task → Prop
  | begin (runId : String) : Alike R (.begin runId) (.begin runId)
  | start (runId stepId : String) : Alike R (.start runId stepId) (.start runId stepId)
  | resume (runId stepId : String) {rest rest' : Program (Retry.Ending Value)}
    (hrest : Program.Alike R Eq rest rest') :
    Alike R (.resume runId stepId rest) (.resume runId stepId rest')
  | conclude (runId : String) : Alike R (.conclude runId) (.conclude runId)
  | abandon (runId : String) : Alike R (.abandon runId) (.abandon runId)

namespace Engine

/-- The same tasks are due at the same times. -/
def AgendasAlike (R : String → String → Prop) :
    List (Float × Task) → List (Float × Task) → Prop :=
  List.Forall₂ fun entry entry' => entry'.1 = entry.1 ∧ entry.2.Alike R entry'.2

/-- Two engines differ at most in their stages and in the rests of invocations. -/
inductive Alike (R : String → String → Prop) (P : Stage → Stage → Prop) (e : Engine) :
    Engine → Prop
  | mk {stage : Stage} {agenda : List (Float × Task)} (hstage : P e.stage stage)
    (hagenda : AgendasAlike R e.agenda agenda) : Alike R P e { e with stage, agenda }

variable {e e' : Engine} {task task' : Task} {runId : String}

/-! ### What both engines have -/

theorem Alike.stage (h : e.Alike R P e') : P e.stage e'.stage := by
  cases h
  assumption

theorem Alike.agenda (h : e.Alike R P e') : AgendasAlike R e.agenda e'.agenda := by
  cases h
  assumption

theorem Alike.runs (h : e.Alike R P e') : e'.runs = e.runs := by
  cases h
  rfl

theorem Alike.find?_runs (h : e.Alike R P e') (runId : String) :
    Table.find? e'.runs runId = Table.find? e.runs runId := by
  rw [h.runs]

theorem Alike.drivers (h : e.Alike R P e') : e'.drivers = e.drivers := by
  cases h
  rfl

theorem Alike.dispatcher (h : e.Alike R P e') : e'.dispatcher = e.dispatcher := by
  cases h
  rfl

theorem Alike.store {α : Type} (h : e.Alike R P e') (operation : StoreOperation)
    (f : Repository → Except Failure α) : e'.store operation f = e.store operation f := by
  cases h
  rfl

theorem Alike.setStage (h : e.Alike R P e') {stage stage' : Stage} (hstage : P stage stage') :
    Alike R P { e with stage } { e' with stage := stage' } := by
  cases h with
  | mk _ hagenda => exact .mk hstage hagenda

theorem Alike.setRepository (h : e.Alike R P e') (repository : Repository) :
    Alike R P { e with repository } { e' with repository } := by
  cases h with
  | mk hstage hagenda => exact .mk hstage hagenda

theorem Alike.setDriver (h : e.Alike R P e') (runId : String) (state : DriverState) :
    (e.setDriver runId state).Alike R P (e'.setDriver runId state) := by
  cases h with
  | mk hstage hagenda => exact .mk hstage hagenda

theorem AgendasAlike.insertTask {agenda agenda' : List (Float × Task)}
    (h : AgendasAlike R agenda agenda') (time : Float) (htask : task.Alike R task') :
    AgendasAlike R (Engine.insertTask time task agenda) (Engine.insertTask time task' agenda') := by
  induction h with
  | nil => exact .cons ⟨rfl, htask⟩ .nil
  | @cons entry entry' rest rest' hentry hrest ih =>
      unfold Engine.insertTask
      rw [hentry.1]
      split
      · exact .cons ⟨rfl, hentry.2⟩ ih
      · exact .cons ⟨rfl, htask⟩ (.cons ⟨rfl, hentry.2⟩ hrest)

theorem Alike.schedule (h : e.Alike R P e') {time time' : Float} (htime : time' = time)
    (htask : task.Alike R task') : (e.schedule time task).Alike R P (e'.schedule time' task') := by
  subst htime
  cases h with
  | mk hstage hagenda => exact .mk hstage (hagenda.insertTask _ htask)

theorem AgendasAlike.filter {agenda agenda' : List (Float × Task)}
    (h : AgendasAlike R agenda agenda') {p : Task → Bool}
    (hp : ∀ task task', task.Alike R task' → p task' = p task) :
    AgendasAlike R (agenda.filter fun entry => !p entry.2)
      (agenda'.filter fun entry => !p entry.2) := by
  induction h with
  | nil => exact .nil
  | @cons entry entry' rest rest' hentry hrest ih =>
      rw [List.filter_cons, List.filter_cons, hp _ _ hentry.2]
      split
      · exact .cons hentry ih
      · exact ih

theorem Alike.dropTasks (h : e.Alike R P e') {p : Task → Bool}
    (hp : ∀ task task', task.Alike R task' → p task' = p task) :
    (e.dropTasks p).Alike R P (e'.dropTasks p) := by
  cases h with
  | mk hstage hagenda => exact .mk hstage (hagenda.filter hp)

section Rapport

variable (hP : Stage.Rapport R P)

include hP

theorem Alike.seconds (h : e.Alike R P e') : e'.stage.now = e.stage.now := hP.now h.stage

theorem Alike.now (h : e.Alike R P e') : e'.now = e.now :=
  congrArg Moment.ofSeconds (h.seconds hP)

theorem Alike.setRun (h : e.Alike R P e') (run : Run) :
    (e.setRun run).Alike R P (e'.setRun run) := by
  have hput : Alike R P
      { e with
        runs := Table.insert e.runs run.id run
        observed := e.observed ++ e.news run }
      { e' with
        runs := Table.insert e'.runs run.id run
        observed := e'.observed ++ e'.news run } := by
    cases h with
    | mk hstage hagenda => exact .mk hstage hagenda
  by_cases hwakes : e.Wakes run
  · have hwakes' : e'.Wakes run := ⟨hwakes.1, h.drivers ▸ hwakes.2⟩
    rw [setRun_of_wakes hwakes, setRun_of_wakes hwakes']
    exact (hput.setDriver run.id .closing).schedule (h.seconds hP) (.conclude run.id)
  · have hwakes' : ¬ e'.Wakes run := fun hwakes' => hwakes ⟨hwakes'.1, h.drivers ▸ hwakes'.2⟩
    rw [setRun_of_not_wakes hwakes, setRun_of_not_wakes hwakes']
    exact hput

theorem Alike.change (h : e.Alike R P e') (runId : String) (f : Run → Run) :
    (e.change runId f).Alike R P (e'.change runId f) := by
  unfold Engine.change
  rw [h.runs]
  split
  · exact h.setRun hP _
  · exact h

theorem Alike.scheduleStarts (h : e.Alike R P e') (runId : String) (ids : List String) :
    Alike R P (ids.foldl (fun e id => e.schedule e.stage.now (.start runId id)) e)
      (ids.foldl (fun e id => e.schedule e.stage.now (.start runId id)) e') := by
  induction ids generalizing e e' with
  | nil => exact h
  | cons id ids ih => exact ih (h.schedule (h.seconds hP) (.start runId id))

theorem Alike.complete (h : e.Alike R P e') (runId : String) (step : Step) (outcome : Outcome) :
    (e.complete runId step outcome).Alike R P (e'.complete runId step outcome) := by
  unfold Engine.complete
  rw [h.runs, h.now hP]
  split
  · exact h
  · exact (h.setRun hP _).scheduleStarts hP runId _

theorem Alike.finishStep (h : e.Alike R P e') (runId : String) (step : Step)
    (ending : Retry.Ending Value) :
    (e.finishStep runId step ending).Alike R P (e'.finishStep runId step ending) := by
  unfold Engine.finishStep
  split
  · exact h
  · rename_i outcome _
    have hannounced := h.change hP runId (Run.announce e.now step outcome)
    rw [h.now hP]
    dsimp only
    rw [hannounced.now hP, hannounced.store]
    split
    · exact hannounced.change hP runId _
    · exact (hannounced.setRepository _).complete hP runId step outcome

/-- Both engines wait equally long for replies that have to do with each other. -/
theorem Alike.react (h : e.Alike R P e') {call call' : Call}
    {related : call.Reply → call'.Reply → Prop} (hcall : Call.Alike R call call' related) :
    (e'.stage.react call').1.isAtOnce = (e.stage.react call).1.isAtOnce ∧
      (e'.stage.react call').2.now = (e.stage.react call).2.now ∧
      (e'.stage.react call').2.timeAfter (e'.stage.react call').1.delay =
        (e.stage.react call).2.timeAfter (e.stage.react call).1.delay ∧
      (∀ time, related ((e.stage.react call).1.reply time) ((e'.stage.react call').1.reply time)) ∧
      Alike R P { e with stage := (e.stage.react call).2 }
        { e' with stage := (e'.stage.react call').2 } := by
  have hreaction := hP.reaction h.stage hcall
  have hstage := hP.react h.stage hcall
  have hnow := hP.now hstage
  refine ⟨hreaction.isAtOnce, hnow, ?_, hreaction.reply, h.setStage hstage⟩
  rw [hreaction.delay]
  exact hP.advance hstage _

/-- Both engines go on with an invocation to the same point. -/
theorem Alike.goOn (runId : String) (step : Step) {rest rest' : Program (Retry.Ending Value)}
    (hrest : Program.Alike R Eq rest rest') (h : e.Alike R P e') :
    (goOn runId step rest e).Alike R P (goOn runId step rest' e') := by
  induction hrest generalizing e e' with
  | done hend =>
      subst hend
      exact h.finishStep hP runId step _
  | @ask call call' related next next' hcall hnext ih =>
      obtain ⟨hatOnce, hnow, htime, hreplies, hafter⟩ := h.react hP hcall
      unfold Engine.goOn
      dsimp only
      rw [hatOnce, htime, hnow]
      split
      · exact ih _ _ (hreplies _) hafter
      · exact hafter.schedule rfl (.resume runId step.id (hnext _ _ (hreplies _)))
  | @askBefore deadline call call' related next next' late late' hcall hnext hlate ih _ =>
      obtain ⟨hatOnce, hnow, htime, hreplies, hafter⟩ := h.react hP hcall
      unfold Engine.goOn
      dsimp only
      rw [hatOnce, htime, hnow]
      split
      · exact ih _ _ (hreplies _) hafter
      · split
        · exact hafter.schedule rfl (.resume runId step.id (hnext _ _ (hreplies _)))
        · exact hafter.schedule rfl (.resume runId step.id hlate)

theorem Alike.startStep (h : e.Alike R P e') (runId stepId : String) :
    (e.startStep runId stepId).Alike R P (e'.startStep runId stepId) := by
  unfold Engine.startStep
  rw [h.find?_runs, h.now hP, h.store]
  split
  · exact h
  · split
    · exact h
    · dsimp only
      split
      · exact h.change hP runId _
      · refine (h.setRepository _).goOn hP runId _ ?_
        rw [h.dispatcher]
        exact e.dispatcher.alike_invoke _ _ _

theorem Alike.conclude (h : e.Alike R P e') (runId : String) (failure : Option Failure) :
    (e.conclude runId failure).Alike R P (e'.conclude runId failure) := by
  unfold Engine.conclude
  rw [h.runs, h.now hP]
  split
  · exact h
  · rename_i run _
    have hset := h.setRun hP (run.conclude e.now)
    dsimp only
    rw [hset.store, hset.now hP]
    split
    · exact hset.setDriver runId _
    · exact ((hset.setRepository _).change hP runId _).setDriver runId _

theorem Alike.begin (h : e.Alike R P e') (runId : String) :
    (e.begin runId).Alike R P (e'.begin runId) := by
  unfold Engine.begin
  rw [h.runs, h.now hP]
  split
  · exact h
  · split
    · exact (h.setRun hP _).conclude hP runId _
    · exact (h.setRun hP _).conclude hP runId _
    · exact ((h.setRun hP _).setDriver runId .driving).startStep hP runId _

theorem Alike.perform (h : e.Alike R P e') (htask : task.Alike R task') :
    (e.perform task).Alike R P (e'.perform task') := by
  cases htask with
  | begin runId => exact h.begin hP runId
  | start runId stepId => exact h.startStep hP runId stepId
  | conclude runId => exact h.conclude hP runId none
  | abandon runId => exact (h.change hP runId Run.abandon).conclude hP runId _
  | resume runId stepId hrest =>
      unfold Engine.perform
      dsimp only
      rw [h.runs]
      split
      · exact h.goOn hP runId _ hrest
      · exact h

theorem Alike.setClock (h : e.Alike R P e') (time : Float) :
    (e.setClock time).Alike R P (e'.setClock time) :=
  h.setStage (hP.clock h.stage time)

/-- The same task is taken from both agendas, and performed at the same time. -/
theorem Alike.performAt (h : e.Alike R P e') (htask : task.Alike R task')
    {agenda agenda' : List (Float × Task)} (hagenda : AgendasAlike R agenda agenda')
    (time : Float) :
    Alike R P ({ e with agenda, stage := { e.stage with now := time } }.perform task)
      ({ e' with agenda := agenda', stage := { e'.stage with now := time } }.perform task') := by
  refine Alike.perform hP ?_ htask
  cases h with
  | mk hstage _ => exact .mk (hP.clock hstage time) hagenda

/-- What is due next is due at the same time in both engines. -/
theorem Alike.advance? (h : e.Alike R P e') (until? : Option Float) :
    Option.Rel (Alike R P) (e.advance? until?) (e'.advance? until?) := by
  have hagenda := h.agenda
  unfold Engine.advance?
  generalize e.agenda = agenda at hagenda ⊢
  generalize e'.agenda = agenda' at hagenda ⊢
  cases hagenda with
  | nil => exact .none
  | @cons entry entry' rest rest' hentry hrest =>
      obtain ⟨time, task⟩ := entry
      obtain ⟨time', task'⟩ := entry'
      obtain ⟨rfl, htask⟩ : time' = time ∧ task.Alike R task' := hentry
      dsimp only
      split
      · exact .some (h.performAt hP htask hrest time')
      · exact .none

theorem Alike.work (h : e.Alike R P e') {stop : Engine → Bool}
    (hstop : ∀ e e', Alike R P e e' → stop e' = stop e) (until? : Option Float) (fuel : Nat) :
    (work stop until? fuel e).Alike R P (work stop until? fuel e') := by
  induction fuel generalizing e e' with
  | zero => exact h
  | succ fuel ih =>
      rw [Engine.work, Engine.work, hstop e e' h]
      split
      · exact h
      · have hadvance := h.advance? hP until?
        generalize e.advance? until? = next at hadvance ⊢
        generalize e'.advance? until? = next' at hadvance ⊢
        cases hadvance with
        | none => exact h
        | some hnext => exact ih hnext

end Rapport

theorem Alike.informFollowers (h : e.Alike R P e') :
    e.informFollowers.Alike R P e'.informFollowers := by
  have hfollowers : e'.followers = e.followers := by
    cases h
    rfl
  unfold Engine.informFollowers
  rw [hfollowers]
  generalize e.followers = followers
  clear hfollowers
  induction followers generalizing e e' with
  | nil => exact h
  | cons follower followers ih =>
      refine ih ?_
      cases h with
      | mk hstage hagenda => exact .mk hstage hagenda

/-! ### What is asked of both engines -/

/-- Two answers are the same, and the engines that have given them are alike. -/
def Agree {α : Type} (R : String → String → Prop) (P : Stage → Stage → Prop)
    (answered answered' : α × Engine) : Prop :=
  answered'.1 = answered.1 ∧ answered.2.Alike R P answered'.2

theorem Agree.map {α β : Type} {answered answered' : α × Engine}
    (h : Agree R P answered answered') (f : α → β) :
    Agree R P (f answered.1, answered.2) (f answered'.1, answered'.2) :=
  ⟨congrArg f h.1, h.2⟩

section Rapport

variable (hP : Stage.Rapport R P)

include hP

theorem Alike.sleep (h : e.Alike R P e') (seconds : Float) :
    (e.sleep seconds).Alike R P (e'.sleep seconds) := by
  unfold Engine.sleep
  rw [hP.advance h.stage]
  exact ((h.work hP (fun _ _ _ => rfl) _ _).setClock hP _).informFollowers

theorem Alike.drain (h : e.Alike R P e') : e.drain.Alike R P e'.drain :=
  (h.work hP (fun _ _ _ => rfl) _ _).informFollowers

theorem Alike.wait (h : e.Alike R P e') (runId : String) (timeout : Option Float) :
    Agree R P (e.wait runId timeout) (e'.wait runId timeout) := by
  have hdone (e e' : Engine) (h : e.Alike R P e') :
      driverIsDone runId e' = driverIsDone runId e := by
    rw [driverIsDone, driverIsDone, h.drivers]
  have hdeadline : (timeout.map fun seconds => (e'.stage.advance seconds).now) =
      timeout.map fun seconds => (e.stage.advance seconds).now := by
    cases timeout with
    | none => rfl
    | some seconds => exact congrArg some (hP.advance h.stage seconds)
  unfold Engine.wait run?
  rw [h.find?_runs, h.drivers, hdeadline]
  split
  · exact ⟨rfl, h⟩
  · exact ⟨rfl, h⟩
  · exact ⟨rfl, h⟩
  · exact ⟨rfl, h⟩
  · have hworked := (h.work hP hdone
      (timeout.map fun seconds => (e.stage.advance seconds).now) patience).informFollowers
    dsimp only
    rw [hworked.drivers, hworked.seconds hP]
    have hlate := hworked.setClock hP
    split
    · exact ⟨rfl, hlate _⟩
    · split
      · exact ⟨rfl, hworked⟩
      · exact ⟨rfl, hworked⟩
      · exact ⟨rfl, hlate _⟩

theorem Alike.cancel (h : e.Alike R P e') (runId reason : String) :
    Agree R P (e.cancel runId reason) (e'.cancel runId reason) := by
  unfold Engine.cancel run?
  rw [h.find?_runs, h.now hP]
  split
  · exact ⟨rfl, h⟩
  · exact ⟨rfl, h.setRun hP _⟩

theorem Alike.stopDriver (h : e.Alike R P e') (runId : String) :
    Agree R P (e.stopDriver runId) (e'.stopDriver runId) := by
  have hfor (task task' : Task) (htask : task.Alike R task') :
      isFor runId task' = isFor runId task := by
    cases htask <;> rfl
  have hdropped := h.dropTasks hfor
  unfold Engine.stopDriver
  rw [h.drivers]
  split
  · exact ⟨rfl, h⟩
  · exact ⟨rfl, h⟩
  · exact ⟨rfl, hdropped.setDriver runId _⟩
  · exact ⟨rfl, (hdropped.setDriver runId _).schedule (h.seconds hP) (.abandon runId)⟩

omit hP in
theorem AgendasAlike.any {agenda agenda' : List (Float × Task)} (h : AgendasAlike R agenda agenda')
    {p : Task → Bool} (hp : ∀ task task', task.Alike R task' → p task' = p task) :
    (agenda'.any fun entry => p entry.2) = agenda.any fun entry => p entry.2 := by
  induction h with
  | nil => rfl
  | @cons entry entry' rest rest' hentry hrest ih =>
      rw [List.any_cons, List.any_cons, hp _ _ hentry.2, ih]

omit hP in
theorem Alike.stopStep (h : e.Alike R P e') (runId stepId : String) :
    Agree R P (e.stopStep runId stepId) (e'.stopStep runId stepId) := by
  have hof (task task' : Task) (htask : task.Alike R task') :
      isOf runId stepId task' = isOf runId stepId task := by
    cases htask <;> rfl
  unfold Engine.stopStep run?
  rw [h.find?_runs, h.agenda.any hof]
  split
  · exact ⟨rfl, h⟩
  · split
    · exact ⟨rfl, h.dropTasks hof⟩
    · exact ⟨rfl, h⟩

theorem Alike.launch (h : e.Alike R P e') (runId : String) :
    Agree R P (e.launch runId) (e'.launch runId) := by
  unfold Engine.launch
  rw [h.find?_runs]
  split
  · exact ⟨rfl, h⟩
  · rw [h.store, h.now hP]
    split
    · exact ⟨rfl, h⟩
    · rename_i repository _
      have hstored := (h.setRepository repository).change hP runId Run.stored
      exact ⟨rfl, (hstored.setDriver runId .waiting).schedule (hstored.seconds hP) (.begin runId)⟩

theorem Alike.register (h : e.Alike R P e') (runId : String) (graph : Graph) (order : Order) :
    Concur (Alike R P) (e.register runId graph order) (e'.register runId graph order) := by
  have hmode : e'.failureMode = e.failureMode := by
    cases h
    rfl
  have hobservers : e'.observers = e.observers := by
    cases h
    rfl
  unfold Engine.register
  rw [hmode, hobservers]
  exact Concur.bind_same fun mode => Concur.bind_same fun payload => .ok (h.setRun hP _)

theorem Alike.start (h : e.Alike R P e') (order : Order) :
    Agree R P (e.start order) (e'.start order) := by
  have hcounted : Alike R P { e with runCount := e.runCount + 1 }
      { e' with runCount := e'.runCount + 1 } := by
    cases h with
    | mk hstage hagenda => exact .mk hstage hagenda
  have hnumber : e'.runCount = e.runCount := by
    cases h
    rfl
  unfold Engine.start
  split
  · exact ⟨rfl, h⟩
  · rename_i graph _
    have hname : "run-" ++ toString (e'.runCount + 1) = "run-" ++ toString (e.runCount + 1) := by
      rw [hnumber]
    dsimp only
    rw [hname]
    have hregistered := hcounted.register hP ("run-" ++ toString (e.runCount + 1)) graph order
    generalize Engine.register _ _ graph order = registered at hregistered ⊢
    generalize Engine.register _ _ graph order = registered' at hregistered ⊢
    cases hregistered with
    | error failure => exact ⟨rfl, hcounted⟩
    | ok hnext => exact (hnext.launch hP ("run-" ++ toString (e.runCount + 1))).map (Except.map _)

theorem Alike.execute (h : e.Alike R P e') (order : Order) (timeout : Option Float) :
    Agree R P (e.execute order timeout) (e'.execute order timeout) := by
  obtain ⟨hresult, hstarted⟩ := h.start hP order
  unfold Engine.execute
  generalize e.start order = started at hresult hstarted ⊢
  generalize e'.start order = started' at hresult hstarted ⊢
  obtain ⟨result, e₁⟩ := started
  obtain ⟨result', e₁'⟩ := started'
  obtain rfl : result' = result := hresult
  cases result' with
  | error failure => exact ⟨rfl, hstarted⟩
  | ok runId =>
      exact (hstarted.wait hP runId timeout).map (Except.map fun _ => runId)

theorem Alike.follow (h : e.Alike R P e') (runId : String) :
    Concur (Alike R P) (e.follow runId) (e'.follow runId) := by
  have hfollowers : e'.followers = e.followers := by
    cases h
    rfl
  unfold Engine.follow run?
  rw [h.find?_runs, hfollowers]
  refine Concur.bind_same fun run => .ok ?_
  have hsubscribed := h.change hP runId fun run => { run with log := run.log.subscribe }
  generalize e.change runId _ = next at hsubscribed ⊢
  generalize e'.change runId _ = next' at hsubscribed ⊢
  cases hsubscribed with
  | mk hstage hagenda => exact .mk hstage hagenda

end Rapport

end Engine

end Workflow
