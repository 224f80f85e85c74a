import Workflow.Store.Database
import Workflow.Store.Memory

/-!
Repositories: the places where runs can be kept.
-/

namespace Workflow

inductive Repository where
  | memory (store : MemoryStore)
  | database (db : Database)

/-- One write to a repository. -/
inductive Entry where
  | createRun (runId : String) (definition payload : Value)
  | startStep (runId stepId : String)
  | closeStep (runId stepId : String) (closing : StepClosing)
  | closeRun (runId status : String) (error : Option String)
  deriving DecidableEq

namespace Repository

def createRun (runId : String) (definition payload : Value) :
    Repository → Except Failure Repository
  | .memory store => (store.createRun runId definition payload).map .memory
  | .database db => (db.createRun runId definition payload).map .database

def startStep (now : Moment) (runId stepId : String) : Repository → Repository
  | .memory store => .memory (store.startStep now runId stepId)
  | .database db => .database (db.startStep now runId stepId)

def closeStep (now : Moment) (runId stepId : String) (closing : StepClosing) :
    Repository → Except Failure Repository
  | .memory store => .ok (.memory (store.closeStep now runId stepId closing))
  | .database db => (db.closeStep now runId stepId closing).map .database

def closeRun (runId : String) (status error : Option String) :
    Repository → Except Failure Repository
  | .memory store => .ok (.memory (store.closeRun runId status error))
  | .database db => (db.closeRun runId status error).map .database

def write (now : Moment) (entry : Entry) (repository : Repository) : Except Failure Repository :=
  match entry with
  | .createRun runId definition payload => repository.createRun runId definition payload
  | .startStep runId stepId => .ok (repository.startStep now runId stepId)
  | .closeStep runId stepId closing => repository.closeStep now runId stepId closing
  | .closeRun runId status error => repository.closeRun runId (some status) error

def run? (runId : String) : Repository → Except Failure (Option RunRecord)
  | .memory store => .ok (store.run? runId)
  | .database db => db.run? runId

def allRuns : Repository → Except Failure (List RunRecord)
  | .memory store => .ok store.allRuns
  | .database db => db.allRuns

end Repository

end Workflow
