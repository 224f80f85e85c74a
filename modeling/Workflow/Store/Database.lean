import Workflow.Json.Reader
import Workflow.Json.Writer
import Workflow.Store.Record
import Workflow.Store.Timestamp

/-!
Runs kept in the two tables of a database. Run ids are unique; a row of the step table is added for
every start of a step, and closing a step changes all its rows. Free data is kept as JSON text and
checked when it is read; moments are kept as ISO text.
-/

namespace Workflow

structure RunRow where
  runId : String
  definition : String
  payload : String
  status : String
  error : Option String

structure StepRow where
  id : Nat
  runId : String
  stepId : String
  startedAt : String
  completedAt : Option String := none
  status : Option String := none
  output : Option String := none
  error : Option String := none

structure Database where
  runs : List RunRow := []
  steps : List StepRow := []

namespace Database

variable (db : Database)

def duplicateRun : Failure := .fault "IntegrityError" "UNIQUE constraint failed: runs.run_id"

def textOf (value : Value) : Except Failure String :=
  (Json.encode Json.compact value).mapError .unwritableKey

/-- The value of a text that was written by `textOf`. -/
def valueOf (text : String) : Value := (Json.parse? text).getD .null

def createRun (runId : String) (definition payload : Value) : Except Failure Database := do
  let definition ← textOf definition
  let payload ← textOf (keptPayload payload)
  if db.runs.any (·.runId = runId) then throw duplicateRun
  return { db with runs := db.runs ++ [⟨runId, definition, payload, "running", none⟩] }

def startStep (now : Moment) (runId stepId : String) : Database :=
  let row : StepRow := { id := db.steps.length + 1, runId, stepId, startedAt := now.iso }
  { db with steps := db.steps ++ [row] }

def closeStep (now : Moment) (runId stepId : String) (closing : StepClosing) :
    Except Failure Database := do
  let output ← textOf closing.kept
  let close (row : StepRow) : StepRow :=
    if row.runId = runId ∧ row.stepId = stepId then
      { row with
        completedAt := some now.iso
        status := closing.status
        output := some output
        error := closing.error }
    else row
  return { db with steps := db.steps.map close }

def missingStatus : Failure := .fault "IntegrityError" "NOT NULL constraint failed: runs.status"

/-- The row of a run always has a status. -/
def closeRun (runId : String) (status error : Option String) : Except Failure Database :=
  let close (status : String) (row : RunRow) : RunRow :=
    if row.runId = runId then { row with status, error } else row
  match status with
  | some status => .ok { db with runs := db.runs.map (close status) }
  | none => if db.runs.any (·.runId = runId) then .error missingStatus else .ok db

def stepOf (row : StepRow) : Except Failure StepRecord := do
  let output : Checked (Option Fields) := match row.output with
    | none => .valid none
    | some text => ((Decode.mapping (valueOf text)).within (.field "output")).map some
  let output ← (output.toExcept "StepRecord").mapError .invalid
  return {
    id := row.id
    runId := row.runId
    stepId := row.stepId
    startedAt := Moment.ofIso? row.startedAt
    completedAt := row.completedAt.bind Moment.ofIso?
    status := row.status
    output := output.map .map
    error := row.error }

def recordOf (row : RunRow) (steps : List StepRecord) : Except Failure RunRecord :=
  RunRecord.ofParts row.runId (valueOf row.definition) (valueOf row.payload) row.status row.error
    steps

def run? (runId : String) : Except Failure (Option RunRecord) :=
  match List.find? (·.runId = runId) db.runs with
  | none => .ok none
  | some row => do
    let steps ← (db.steps.filter (·.runId = runId)).mapM stepOf
    return some (← recordOf row steps)

/-- All runs, without their steps. -/
def allRuns : Except Failure (List RunRecord) := db.runs.mapM (recordOf · [])

end Database

end Workflow
