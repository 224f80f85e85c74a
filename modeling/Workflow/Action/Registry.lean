import Workflow.Failure

/-!
The actions that external steps can invoke, by service and action. What is not registered either
fails or, when simulated, echoes what it was given.
-/

namespace Workflow

/-- What performs an action; `custom` ones are performed elsewhere, under a label. -/
inductive Handler where
  | echo
  | fail
  | http
  | custom (label : String)
  deriving DecidableEq, Repr

structure Registry where
  handlers : Table (String × String) Handler := []
  simulatesUnregistered : Bool := false

/-- What an invocation of an action hands over. -/
structure ActionInput where
  parameters : Fields
  secret : Option String
  incoming : Fields

/-- A result that shows what reached the action, and when. -/
def echoResult (serviceId actionId : String) (input : ActionInput) (now : Moment) : Value :=
  .record
    [("status", .str "executed"),
      ("service", .str serviceId),
      ("action", .str actionId),
      ("input_params", .map input.parameters),
      ("upstream_data", .map input.incoming),
      ("timestamp", .str now.iso)]

/-- The failure that is asked for by the parameters. -/
def requestedFailure (parameters : Fields) : Failure :=
  .typed .activityFailure
    ((parameters.get? "message").getD (.str "demo.fail requested")).display
    ((parameters.get? "retryable").getD (.bool false)).isTruthy

namespace Registry

def add (r : Registry) (serviceId actionId : String) (handler : Handler) : Registry :=
  { r with handlers := Table.insert r.handlers (serviceId, actionId) handler }

def find? (r : Registry) (serviceId actionId : String) : Option Handler :=
  Table.find? r.handlers (serviceId, actionId)

def qualifiedName (serviceId actionId : String) : String := serviceId ++ "." ++ actionId

/-- The actions by their qualified names, in the order of their code points. -/
def names (r : Registry) : List String :=
  (r.handlers.map fun entry => qualifiedName entry.1.1 entry.1.2).mergeSort
    fun a b => decide (a ≤ b)

def notRegistered (serviceId actionId : String) : Failure :=
  .typed .activityFailure
    ("No handler registered for action " ++ qualifiedName serviceId actionId) false

def withDemo (r : Registry) : Registry := (r.add "demo" "echo" .echo).add "demo" "fail" .fail

/-- The demonstration actions and the HTTP client. -/
def builtIn (simulatesUnregistered : Bool) : Registry :=
  ({ simulatesUnregistered : Registry }).withDemo.add "http" "request" .http

end Registry

end Workflow
