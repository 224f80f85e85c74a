import Workflow.Dispatch
import Workflow.Run

/-!
Reports on runs, as values.
-/

namespace Workflow

namespace StepReport

def encode (stepId : String) (report : StepReport) : Value :=
  .record
    [("step_id", .str stepId),
      ("kind", .str report.kind.name),
      ("status", .str report.status.name),
      ("result", report.result),
      ("error", .ofOption .str report.error),
      ("error_code", .ofOption .str report.errorCode),
      ("attempts", .int report.attempts),
      ("started_at", .ofOption (.str ·.iso) report.startedAt),
      ("finished_at", .ofOption (.str ·.iso) report.finishedAt)]

end StepReport

/-- What the invocation of a step came to. -/
def Outcome.entries (step : Step) (outcome : Outcome) : List (String × Value) :=
  let error? : Option StepError := match outcome.result with
    | .error error => some error
    | .ok _ => none
  let status : StepStatus := if outcome.isOk then .completed else .failed
  [("step_id", .str step.id),
    ("status", .str status.name),
    ("ok", .bool outcome.isOk),
    ("result", match outcome.result with | .ok value => value | .error _ => .null),
    ("error", .ofOption .str (error?.map StepError.message)),
    ("error_code", .ofOption .str (error?.map StepError.code)),
    ("attempts", .int outcome.attempts)]

namespace Run

/-- Where a run and each of its steps stand, with the committed results. -/
def report (run : Run) : Value :=
  .record
    [("run_id", .str run.id),
      ("status", .str run.status.name),
      ("steps", .record (run.reports.map fun entry => (entry.1, entry.2.encode entry.1))),
      ("results", .record run.results),
      ("error", .ofOption .str run.error),
      ("error_code", .ofOption .str run.errorCode),
      ("idle_steps", .strs run.idleSteps)]

/-- Where a run stands, in short. -/
def brief (run : Run) : Value :=
  .record
    [("status", .str run.status.name),
      ("error", .ofOption .str run.error),
      ("error_code", .ofOption .str run.errorCode),
      ("steps", .record (run.reports.map fun entry => (entry.1, .str entry.2.status.name))),
      ("results", .strs (Table.keys run.results))]

/-- What decides how a run goes on. -/
def standing (run : Run) : Value :=
  .record
    [("status", .str run.status.name),
      ("terminated", .bool run.isTerminated),
      ("accepting", .bool run.acceptsDispatches),
      ("processed", .strs (sorted run.processed)),
      ("blocked", .strs (sorted run.blocked)),
      ("finished", .bool run.isFinished),
      ("payload", .map run.payload),
      ("results", .record run.results)]

end Run

end Workflow
