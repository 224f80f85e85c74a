import Workflow.Value

/-!
Workflow definitions: steps of four kinds, and the edges that say which step waits for which.
-/

namespace Workflow

inductive StepKind where
  | trigger
  | externalAction
  | aiAgent
  | wait
  deriving DecidableEq, Repr

namespace StepKind

def name : StepKind → String
  | .trigger => "trigger"
  | .externalAction => "external_action"
  | .aiAgent => "ai_agent"
  | .wait => "wait"

def all : List StepKind := [.trigger, .externalAction, .aiAgent, .wait]

def ofName? (name : String) : Option StepKind := all.find? (·.name == name)

end StepKind

namespace RetryPolicy

def defaultMaxAttempts : { n : Nat // 1 ≤ n } := ⟨3, by decide⟩

def defaultPerAttemptTimeout : { x : Float // 0.0 < x } := ⟨60.0, by decide⟩

def defaultBackoffBase : { x : Float // 0.0 ≤ x } := ⟨1.5, by decide⟩

def defaultBackoffJitter : { x : Float // 0.0 ≤ x } := ⟨0.5, by decide⟩

end RetryPolicy

/-- How often an invocation is attempted, how long an attempt may take, and how long to wait before
the next one. -/
structure RetryPolicy where
  maxAttempts : { n : Nat // 1 ≤ n } := RetryPolicy.defaultMaxAttempts
  perAttemptTimeout : { x : Float // 0.0 < x } := RetryPolicy.defaultPerAttemptTimeout
  backoffBase : { x : Float // 0.0 ≤ x } := RetryPolicy.defaultBackoffBase
  backoffJitter : { x : Float // 0.0 ≤ x } := RetryPolicy.defaultBackoffJitter
  deriving DecidableEq

structure ExternalAction where
  serviceId : String
  actionId : String
  credentialId : Option String := none
  parameters : Fields := []
  deriving DecidableEq

def defaultSystemPrompt : String := "You are helpful"

structure AiAgent where
  provider : String
  model : String
  systemPrompt : String := defaultSystemPrompt
  userPrompt : Option String := none
  tools : List String := []
  credentialId : Option String := none
  temperature : Option Float := none
  maxIterations : Option { n : Nat // 1 ≤ n } := none
  deriving DecidableEq

/-- How long a wait step waits: a number of seconds, or a text still to be read as one. -/
inductive WaitTime where
  | seconds (value : Float)
  | written (text : String)
  deriving DecidableEq

/-- What a step does when it is invoked. -/
inductive Work where
  | trigger
  | externalAction (action : ExternalAction)
  | aiAgent (agent : AiAgent)
  | wait (time : Option WaitTime)
  deriving DecidableEq

structure Step where
  id : String
  label : Option String := none
  retry : Option RetryPolicy := none
  work : Work
  deriving DecidableEq

/-- `target` runs after `source`. -/
structure Edge where
  source : String
  target : String
  deriving DecidableEq

structure Definition where
  name : Option String := none
  steps : List Step := []
  edges : List Edge := []
  deriving DecidableEq

def Work.kind : Work → StepKind
  | .trigger => .trigger
  | .externalAction _ => .externalAction
  | .aiAgent _ => .aiAgent
  | .wait _ => .wait

namespace Step

def kind (step : Step) : StepKind := step.work.kind

/-- The label, unless it is missing or empty. -/
def displayName (step : Step) : String :=
  match step.label with
  | some label => if label = "" then step.id else label
  | none => step.id

/-- The credential a step refers to; an empty id refers to none. -/
def credentialId? (step : Step) : Option String :=
  let written := match step.work with
    | .externalAction action => action.credentialId
    | .aiAgent agent => agent.credentialId
    | _ => none
  written.filter (· ≠ "")

end Step

def Definition.stepIds (definition : Definition) : List String := definition.steps.map (·.id)

end Workflow
