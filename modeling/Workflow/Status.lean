/-!
Where a step, a run, and the reaction to a failed step stand.
-/

namespace Workflow

inductive StepStatus where
  | idle
  | running
  | completed
  | failed
  deriving DecidableEq, Repr

namespace StepStatus

def name : StepStatus → String
  | .idle => "idle"
  | .running => "running"
  | .completed => "completed"
  | .failed => "failed"

def ofName? (name : String) : Option StepStatus :=
  [idle, running, completed, failed].find? (·.name == name)

def isTerminal : StepStatus → Bool
  | .completed | .failed => true
  | _ => false

end StepStatus

inductive RunStatus where
  | pending
  | running
  | completed
  | failed
  | cancelled
  deriving DecidableEq, Repr

namespace RunStatus

def name : RunStatus → String
  | .pending => "pending"
  | .running => "running"
  | .completed => "completed"
  | .failed => "failed"
  | .cancelled => "cancelled"

def ofName? (name : String) : Option RunStatus :=
  [pending, running, completed, failed, cancelled].find? (·.name == name)

def isTerminal : RunStatus → Bool
  | .completed | .failed | .cancelled => true
  | _ => false

end RunStatus

/-- What the first failed step means for the rest of its run. -/
inductive FailureMode where
  /-- The run ends, and no further step is started. -/
  | failFast
  /-- Only the steps that the failed one leads to are held back. -/
  | proceed
  deriving DecidableEq, Repr

namespace FailureMode

def name : FailureMode → String
  | .failFast => "fail_fast"
  | .proceed => "continue"

def all : List FailureMode := [.failFast, .proceed]

def ofName? (name : String) : Option FailureMode := all.find? (·.name == name)

end FailureMode

end Workflow
