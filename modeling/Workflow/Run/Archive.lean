import Workflow.Definition.Encode
import Workflow.Run.Lifecycle
import Workflow.Store.Repository

/-!
What a repository is told of a run: that there is one, how the invocation of a step has ended, and
how the run has ended.
-/

namespace Workflow

namespace Run

def creation (run : Run) : Entry :=
  .createRun run.id (run.graph.definition.encode .underscored) (.map run.payload)

def ending (run : Run) : Entry := .closeRun run.id run.status.name run.error

end Run

def Outcome.closing (outcome : Outcome) : StepClosing :=
  match outcome.result with
  | .ok value =>
    { status := some StepStatus.completed.name, output := .record [("result", value)] }
  | .error error => { status := some StepStatus.failed.name, error := some error.message }

end Workflow
