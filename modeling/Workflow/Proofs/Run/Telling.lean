import Workflow.Proofs.EventLog.Growth
import Workflow.Proofs.Run.Completion

/-!
# What the changes of a run tell

Nothing that happens to a run takes an event out of its log: what is told is numbered on from what
has been told before. A step is announced as running when it is dispatched, and what else is told of
it is never that.
-/

namespace Workflow

/-- What is told when a step is dispatched. -/
def Step.runningMessage (step : Step) : Message :=
  .info ("Running " ++ step.displayName ++ "...") (some step.id)

theorem Step.runningMessage_inj {step step' : Step}
    (h : step.runningMessage = step'.runningMessage) : step.id = step'.id :=
  Option.some.inj (congrArg Message.stepId h)

theorem Step.ne_runningMessage_of_level {message : Message} (h : message.level ≠ .info)
    (step : Step) : message ≠ step.runningMessage :=
  fun heq => h (congrArg Message.level heq)

theorem Step.ne_runningMessage_of_stepId {message : Message} (h : message.stepId = none)
    (step : Step) : message ≠ step.runningMessage := by
  rintro rfl
  cases h

theorem Step.ne_runningMessage_of_text {message : Message}
    (h : message.text.toList.head? ≠ some 'R') (step : Step) : message ≠ step.runningMessage := by
  rintro rfl
  exact h (by simp [runningMessage, Message.info])

theorem Outcome.stepId_message (step : Step) (outcome : Outcome) :
    (outcome.message step).stepId = some step.id := by
  unfold message
  split
  · rfl
  · split <;> rfl

theorem Outcome.level_message (step : Step) (outcome : Outcome) :
    (outcome.message step).level = if outcome.isOk then .success else .error := by
  unfold message isOk
  cases outcome.result with
  | error e => rfl
  | ok value => dsimp only; split <;> rfl

theorem Outcome.message_ne_runningMessage (step other : Step) (outcome : Outcome) :
    outcome.message step ≠ other.runningMessage := by
  refine Step.ne_runningMessage_of_level ?_ other
  rw [level_message]
  split <;> decide

namespace Run

variable {run run' : Run} {now : Moment} {step : Step} {outcome : Outcome}
  {released : List String}

theorem log_finish (run : Run) (status : RunStatus) (error errorCode : Option String) :
    (run.finish status error errorCode).log = run.log := by
  unfold finish
  split <;> rfl

theorem log_settleIfIdle (run : Run) : run.settleIfIdle.log = run.log := by
  unfold settleIfIdle settle
  split
  · split <;> exact log_finish run _ _ _
  · rfl

theorem tells_introduce (run : Run) (now : Moment) : ∃ messages,
    run.log.Tells (run.introduce now).log messages ∧
      ∀ message ∈ messages, message.level = .info ∧ message.stepId = none := by
  unfold introduce
  split
  · exact ⟨_, run.log.tells_emit now _, by simp [Message.info]⟩
  · exact ⟨_, (run.log.tells_emit now _).trans (EventLog.tells_emit _ now _),
      by simp [Message.info]⟩

theorem tells_cancel (run : Run) (now : Moment) (reason : String) : ∃ messages,
    run.log.Tells (run.cancel now reason).2.log messages ∧
      (∀ message ∈ messages, message.level = .error ∧ message.stepId = none) ∧
      (run.isTerminated = true → messages = []) := by
  unfold cancel
  split
  · exact ⟨[], .of_events_eq rfl, by simp, fun _ => rfl⟩
  · rename_i hopen
    refine ⟨[.error reason], ?_, by simp [Message.error], fun hended => absurd hended hopen⟩
    rw [log_finish]
    exact run.log.tells_emit now (.error reason)

theorem tells_conclude (run : Run) (now : Moment) :
    run.log.Tells (run.conclude now).log run.closingMessages := by
  have htold (messages : List Message) (run : Run) : run.log.Tells
      (messages.foldl (fun run message => run.emit now message) run).log messages := by
    induction messages generalizing run with
    | nil => exact .of_events_eq rfl
    | cons message messages ih =>
        exact (run.log.tells_emit now message).trans (ih (run.emit now message))
  exact htold run.closingMessages run

theorem stepId_of_mem_closingMessages {message : Message} (h : message ∈ run.closingMessages) :
    message.stepId = none := by
  simp only [closingMessages, List.mem_append] at h
  rcases h with (h | h) | h
  · split at h
    · cases h
    · exact List.mem_singleton.mp h ▸ rfl
  · split at h
    · cases h
    · exact List.mem_singleton.mp h ▸ rfl
  · split at h
    · exact List.mem_singleton.mp h ▸ rfl
    · exact List.mem_singleton.mp h ▸ rfl

theorem tells_dispatchAll (now : Moment) (steps : List Step) (run : Run) :
    run.log.Tells (run.dispatchAll now steps).log (steps.map Step.runningMessage) := by
  induction steps generalizing run with
  | nil => exact .of_events_eq rfl
  | cons step steps ih =>
      exact (run.log.tells_emit now step.runningMessage).trans (ih (run.dispatch now step))

/-- A completion tells which steps it releases, and may tell something else of its own step. -/
theorem Completes.tells (h : Completes now step outcome run released run') : ∃ remarks,
    run.log.Tells run'.log
      ((released.filterMap run.graph.step?).map Step.runningMessage ++ remarks) ∧
    ∀ message ∈ remarks, message.stepId = some step.id ∧
      ∀ other : Step, message ≠ other.runningMessage := by
  cases h with
  | late =>
      refine ⟨_, EventLog.tells_emit _ now _, fun message hmessage => ?_⟩
      obtain rfl := List.mem_singleton.mp hmessage
      exact ⟨rfl, Step.ne_runningMessage_of_text (by simp [Message.info])⟩
  | succeeded result =>
      refine ⟨[], ?_, by simp⟩
      rw [List.append_nil, succeed, log_settleIfIdle]
      exact tells_dispatchAll now _ ((run.closed now step.id outcome).commit step.id result)
  | aborted e =>
      refine ⟨[.error ("Run aborted after " ++ step.displayName ++ " failed") (some step.id)], ?_,
        fun message hmessage => ?_⟩
      · rw [abort, log_finish]
        exact EventLog.tells_emit _ now _
      · obtain rfl := List.mem_singleton.mp hmessage
        exact ⟨rfl, Step.ne_runningMessage_of_level (by simp [Message.error])⟩
  | heldBack =>
      simp only [holdBack, log_settleIfIdle]
      split
      · exact ⟨[], .of_events_eq rfl, by simp⟩
      · refine ⟨_, EventLog.tells_emit _ now _, fun message hmessage => ?_⟩
        obtain rfl := List.mem_singleton.mp hmessage
        exact ⟨rfl, Step.ne_runningMessage_of_text (by simp [Message.info])⟩

end Run

end Workflow
