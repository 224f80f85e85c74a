import Workflow.EventLog
import Workflow.Graph
import Workflow.Status
import Workflow.Incoming

/-!
Runs: where every step of a graph stands, which results are committed, and what has been told about
it. A step is ready once it has parents and all of them are processed, unless it is held back.

The changes of a run are small. Most of them cannot fail; a `Change` that fails keeps whatever it
did before it failed.
-/

namespace Workflow

structure StepReport where
  kind : StepKind
  status : StepStatus := .idle
  result : Value := .null
  error : Option String := none
  errorCode : Option String := none
  attempts : Int := 0
  startedAt : Option Moment := none
  finishedAt : Option Moment := none
  deriving DecidableEq

structure Run where
  id : String
  graph : Graph
  payload : Fields := []
  failureMode : FailureMode := .failFast
  status : RunStatus := .pending
  error : Option String := none
  errorCode : Option String := none
  /-- The reports of all steps, in the order of the steps. -/
  reports : Table String StepReport
  /-- The committed results, in the order in which they were committed. -/
  results : Table String Value := []
  /-- The steps whose invocation has ended while the run was open. -/
  processed : List String := []
  /-- The steps that will not run because a step that leads to them has failed. -/
  blocked : List String := []
  /-- The steps that are being invoked; the trigger is not among them. -/
  inFlight : List String := []
  /-- Whether the run has been told to end; whoever drives it waits for that. -/
  isFinished : Bool := false
  log : EventLog := {}

/-- A change of a run. What it did before it failed stays done. -/
abbrev Change := EStateM Failure Run

namespace Run

def create (id : String) (graph : Graph) (payload : Fields) (failureMode : FailureMode)
    (observers : List Observer) : Run :=
  { id
    graph
    payload
    failureMode
    reports := graph.steps.map fun step => (step.id, { kind := step.kind })
    log := { observers } }

variable (run : Run)

def isTerminated : Bool := run.status.isTerminal

def acceptsDispatches : Bool := run.status = .running

def report? (id : String) : Option StepReport := Table.find? run.reports id

def hasStatus (status : StepStatus) (id : String) : Bool :=
  (run.report? id).any (·.status = status)

/-- The steps that stand at a status, in the order of the steps. -/
def stepsAt (status : StepStatus) : List String :=
  (run.reports.filter (·.2.status = status)).map (·.1)

def idleSteps : List String := run.stepsAt .idle

def failedSteps : List String := run.stepsAt .failed

/-- Idle, not held back, with at least one parent, and all parents processed. -/
def isReady (id : String) : Bool :=
  !run.processed.contains id && !run.blocked.contains id && run.hasStatus .idle id &&
    !(run.graph.parents id).isEmpty && (run.graph.parents id).all run.processed.contains

/-- Whether a step is ready. One that is processed or held back is not, known or unknown. -/
def checkReady (id : String) : Except Failure Bool :=
  if run.processed.contains id || run.blocked.contains id then .ok false
  else if run.graph.contains id then .ok (run.isReady id)
  else .error (.notFound id)

/-- What the parents of a step have committed; `null` for those that have committed nothing. -/
def parentResults (id : String) : List Value :=
  (run.graph.parents id).map fun parent => (Table.find? run.results parent).getD .null

/-- What a step receives from its parents. -/
def incoming (id : String) : Fields := Incoming.merge (run.parentResults id)

def emit (now : Moment) (message : Message) : Run := { run with log := run.log.emit now message }

def adjustReport (id : String) (f : StepReport → StepReport) : Run :=
  { run with reports := Table.adjust run.reports id f }

def addProcessed (id : String) : Run :=
  { run with
    processed := if run.processed.contains id then run.processed else run.processed ++ [id] }

/-- Holds back further steps. -/
def block (ids : List String) : Run :=
  { run with blocked := run.blocked ++ (distinct ids).filter (!run.blocked.contains ·) }

/-- Ends the run, unless it has ended before. -/
def finish (status : RunStatus) (error errorCode : Option String := none) : Run :=
  if run.isTerminated then run else { run with status, error, errorCode, isFinished := true }

def leaveFlight (id : String) : Run := { run with inFlight := run.inFlight.filter (· ≠ id) }

end Run

namespace Change

/-- The report of a step, which has to be a step of the run. -/
def reportOf (id : String) : Change StepReport := do
  match (← get).report? id with
  | some report => return report
  | none => throw (.notFound id)

/-- A step leaves the idle status only once. -/
def markRunning (now : Moment) (id : String) : Change Unit := do
  let report ← reportOf id
  if report.status ≠ .idle then
    throw (.wrongState ("Step " ++ id ++ " already left idle (" ++ report.status.name ++ ")"))
  modify (·.adjustReport id fun report =>
    { report with status := .running, startedAt := some now })

/-- Reports a result. A result is committed at most once, and a second attempt to do so is noticed
only after the report has changed. -/
def markCompleted (now : Moment) (id : String) (result : Value) (attempts : Int)
    (commit : Bool := true) : Change Unit := do
  let _ ← reportOf id
  modify (·.adjustReport id fun report =>
    { report with status := .completed, result, attempts, finishedAt := some now })
  if commit then
    if Table.contains (← get).results id then
      throw (.wrongState ("Result for step " ++ id ++ " already recorded"))
    modify fun run =>
      { run.addProcessed id with results := Table.insert run.results id result }

def markFailed (now : Moment) (id error errorCode : String) (attempts : Int)
    (commit : Bool := true) : Change Unit := do
  let _ ← reportOf id
  modify (·.adjustReport id fun report =>
    { report with
      status := .failed
      error := some error
      errorCode := some errorCode
      attempts
      finishedAt := some now })
  if commit then modify (·.addProcessed id)

end Change

end Workflow
