import Workflow.Store.Record

/-!
Runs kept in memory. A run that is created again starts anew in its old place; what concerns an
unknown run is ignored.
-/

namespace Workflow

structure MemoryStore where
  runs : Table String RunRecord := []
  /-- The number of step records ever made. -/
  stepCount : Nat := 0

namespace MemoryStore

variable (store : MemoryStore)

def createRun (runId : String) (definition payload : Value) : Except Failure MemoryStore := do
  let record ← RunRecord.ofParts runId definition (keptPayload payload) "running" none []
  return { store with runs := Table.insert store.runs runId record }

/-- A step of a run is recorded at most once. -/
def startStep (now : Moment) (runId stepId : String) : MemoryStore :=
  match Table.find? store.runs runId with
  | none => store
  | some run =>
    if run.steps.any (·.stepId = stepId) then store
    else
      let id := store.stepCount + 1
      let step : StepRecord := { id, runId, stepId, startedAt := some now }
      { runs := Table.insert store.runs runId { run with steps := run.steps ++ [step] }
        stepCount := id }

/-- The first of the records that satisfies `p` is changed. -/
def adjustFirst (p : StepRecord → Bool) (f : StepRecord → StepRecord) :
    List StepRecord → List StepRecord
  | [] => []
  | step :: rest => if p step then f step :: rest else step :: adjustFirst p f rest

/-- Closes the record of a step that is still open. -/
def closeStep (now : Moment) (runId stepId : String) (closing : StepClosing) : MemoryStore :=
  { store with
    runs := Table.adjust store.runs runId fun run =>
      { run with
        steps := adjustFirst (fun step => step.stepId = stepId && step.completedAt.isNone)
          (fun step =>
            { step with
              completedAt := some now
              status := closing.status
              output := some closing.kept
              error := closing.error })
          run.steps } }

def closeRun (runId : String) (status error : Option String) : MemoryStore :=
  { store with runs := Table.adjust store.runs runId fun run => { run with status, error } }

def run? (runId : String) : Option RunRecord := Table.find? store.runs runId

def allRuns : List RunRecord := store.runs.map (·.2)

end MemoryStore

end Workflow
