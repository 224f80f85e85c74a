import Workflow.Dispatch
import Workflow.Graph.Reachability
import Workflow.Run

/-!
The life of a run: it begins with its trigger, every completed step releases those of its children
that have become ready, and the run settles when nothing is in flight any more. A run may also be
ended from outside, and an invocation that ends after its run is reported but not committed.
-/

namespace Workflow

namespace Run

def noted (stepIds : List String) : String := Text.join ", " stepIds

/-- Names what kept a run from going on. -/
def failInternally (run : Run) (stepId : String) (failure : Failure) : Run :=
  (run.leaveFlight stepId).finish .failed (some failure.describe) (some "internal_error")

/-- The steps that have failed while the run was open. -/
def committedFailures (run : Run) : List String := run.failedSteps.filter run.processed.contains

/-- Ends a run in which nothing is left to do. -/
def settle (run : Run) : Run :=
  match run.committedFailures with
  | [] => run.finish .completed
  | first :: rest =>
    run.finish .failed
      (some (toString (rest.length + 1) ++ " step(s) failed: " ++ noted (first :: rest)))
      ((run.report? first).bind (·.errorCode))

def settleIfIdle (run : Run) : Run :=
  if !run.isTerminated && run.inFlight.isEmpty then run.settle else run

/-- The run has been stored, whatever has become of it in the meantime. -/
def stored (run : Run) : Run := { run with status := .running }

/-- Ends a run from outside; whether it was still open. -/
def cancel (now : Moment) (reason : String) (run : Run) : Bool × Run :=
  if run.isTerminated then (false, run)
  else
    (true, (run.emit now (.error reason)).finish .cancelled (some reason)
      (some FailureKind.runCancelled.code))

/-- Whoever drives the run has been stopped. -/
def abandon (run : Run) : Run :=
  run.finish .cancelled (some "Run driver cancelled") (some FailureKind.runCancelled.code)

/-- The last words on a run. -/
def closingMessages (run : Run) : List Message :=
  let idle := run.idleSteps
  let running := run.stepsAt .running
  (if idle.isEmpty then [] else [.info ("Steps never reached: " ++ noted idle)]) ++
    (if running.isEmpty then [] else [.info ("Still running at termination: " ++ noted running)]) ++
    [if run.status = .completed then .success "Workflow Run Finished"
      else .error ("Workflow Run " ++ run.status.name ++ ": " ++ run.error.getD "None")]

def conclude (now : Moment) (run : Run) : Run :=
  run.closingMessages.foldl (fun run message => run.emit now message) run

/-- The outcome of an invocation is told before it is reported. -/
def announce (now : Moment) (step : Step) (outcome : Outcome) (run : Run) : Run :=
  run.emit now (outcome.message step)

def closeLog (run : Run) : Run := { run with log := run.log.close }

end Run

namespace Change

def emit (now : Moment) (message : Message) : Change Unit := modify (·.emit now message)

/-- Begins a run that has not been ended yet; whether its trigger is to be invoked. -/
def begin (now : Moment) : Change Bool := do
  let run ← get
  if run.isTerminated then return false
  emit now (.info "Starting Workflow Execution...")
  if !run.graph.orphans.isEmpty then
    emit now
      (.info ("Steps without incoming edges will never run: " ++ Run.noted run.graph.orphans))
  markRunning now run.graph.trigger.id
  return true

/-- From now on a step is in flight. -/
def dispatch (now : Moment) (step : Step) : Change Unit := do
  markRunning now step.id
  emit now (.info ("Running " ++ step.displayName ++ "...") (some step.id))
  modify fun run => { run with inFlight := run.inFlight ++ [step.id] }

/-- Dispatches those of some steps that are ready, and returns them. -/
def dispatchReady (now : Moment) : List String → Change (List String)
  | [] => return []
  | id :: ids => do
    let run ← get
    match run.graph.step? id with
    | some step =>
      if run.acceptsDispatches && run.isReady id then
        dispatch now step
        return id :: (← dispatchReady now ids)
      else dispatchReady now ids
    | none => dispatchReady now ids

/-- Reports an outcome, and commits it unless the run has ended. -/
def record (now : Moment) (step : Step) (outcome : Outcome) (commit : Bool) : Change Unit :=
  match outcome.result with
  | .ok value => markCompleted now step.id value outcome.attempts commit
  | .error e =>
    markFailed now step.id (if e.message = "" then "Step failed" else e.message)
      (if e.code = "" then FailureKind.activityFailure.code else e.code) outcome.attempts commit

/-- The first failed step ends a run that fails fast; otherwise the steps it leads to are held
back. -/
def handleFailure (now : Moment) (step : Step) (e : StepError) : Change Unit := do
  let run ← get
  match run.failureMode with
  | .failFast =>
    emit now (.error ("Run aborted after " ++ step.displayName ++ " failed") (some step.id))
    modify (·.finish .failed (some ("Step " ++ step.id ++ " failed: " ++ e.message)) (some e.code))
  | .proceed =>
    let heldBack := (run.graph.descendants step.id).filter (!run.processed.contains ·)
    modify (·.block heldBack)
    if !heldBack.isEmpty then
      emit now (.info ("Holding back " ++ toString heldBack.length ++ " downstream step(s) of " ++
        step.displayName) (some step.id))

/-- The end of an invocation. Returns the steps that it releases. -/
def complete (now : Moment) (step : Step) (outcome : Outcome) : Change (List String) := do
  modify (·.leaveFlight step.id)
  let run ← get
  record now step outcome (!run.isTerminated)
  if run.isTerminated then
    emit now (.info ("Discarded late result of " ++ step.displayName ++ " (run already " ++
      run.status.name ++ ")") (some step.id))
    return []
  let released ← match outcome.result with
    | .ok _ => dispatchReady now (run.graph.children step.id)
    | .error e => do
      handleFailure now step e
      pure []
  modify (·.settleIfIdle)
  return released

end Change

/-- Applies a change for a step. A change that fails ends the run, and releases nothing. -/
def Run.applyFor (stepId : String) (change : Change (List String)) (run : Run) :
    List String × Run :=
  match change.run run with
  | .ok released run => (released, run)
  | .error failure run => ([], run.failInternally stepId failure)

end Workflow
