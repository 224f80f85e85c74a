import Workflow.Failure
import Workflow.Validation.Record

/-!
What is kept about a run and its steps.
-/

namespace Workflow

structure StepRecord where
  id : Nat
  runId : String
  stepId : String
  startedAt : Option Moment := none
  completedAt : Option Moment := none
  status : Option String := none
  output : Option Value := none
  error : Option String := none
  deriving DecidableEq

structure RunRecord where
  runId : String
  definition : Fields
  payload : Fields
  status : Option String := some "running"
  error : Option String := none
  steps : List StepRecord := []
  deriving DecidableEq

/-- How an invocation ended. -/
structure StepClosing where
  status : Option String
  output : Value := .null
  error : Option String := none
  deriving DecidableEq

/-- An output that counts as nothing is kept as an empty mapping. -/
def StepClosing.kept (closing : StepClosing) : Value :=
  if closing.output.isTruthy then closing.output else .map []

/-- A payload that counts as nothing is kept as an empty mapping. -/
def keptPayload (payload : Value) : Value := if payload.isTruthy then payload else .map []

namespace RunRecord

/-- A record has a mapping for a definition and another for a payload. -/
def ofParts (runId : String) (definition payload : Value) (status : String)
    (error : Option String) (steps : List StepRecord) : Except Failure RunRecord :=
  let checked : Checked RunRecord :=
    (fun definition payload =>
        { runId, definition, payload, status := some status, error, steps })
      <$> (Decode.mapping definition).within (.field "definition")
      <*> (Decode.mapping payload).within (.field "payload")
  (checked.toExcept "RunRecord").mapError .invalid

end RunRecord

namespace StepRecord

def encode (record : StepRecord) : Value :=
  .record
    [("id", .int record.id),
      ("run_id", .str record.runId),
      ("step_id", .str record.stepId),
      ("started_at", .ofOption (.str ·.iso) record.startedAt),
      ("completed_at", .ofOption (.str ·.iso) record.completedAt),
      ("status", .ofOption .str record.status),
      ("output", record.output.getD .null),
      ("error", .ofOption .str record.error)]

end StepRecord

def RunRecord.encode (record : RunRecord) : Value :=
  .record
    [("run_id", .str record.runId),
      ("definition", .map record.definition),
      ("payload", .map record.payload),
      ("status", .ofOption .str record.status),
      ("error", .ofOption .str record.error),
      ("steps", .list (record.steps.map StepRecord.encode))]

end Workflow
