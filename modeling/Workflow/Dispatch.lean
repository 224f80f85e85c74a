import Workflow.Agent
import Workflow.Duration
import Workflow.Event
import Workflow.Json.Writer
import Workflow.Retry
import Workflow.Tool.Catalog

/-!
The invocation of a single step. Its kind decides what is called; calls of actions and models are
attempted again under the retry policy of the step. An invocation ends with a value or an error,
and with one message about it.
-/

namespace Workflow

/-- What holds for every step that does not say otherwise. -/
structure Dispatcher where
  policy : RetryPolicy := {}
  limits : Agent.Limits := {}
  defaultWait : Float := 5.0
  catalog : Catalog := Catalog.builtIn

structure StepError where
  message : String
  code : String
  deriving DecidableEq

/-- What an invocation came to, and the number of attempts it took. -/
structure Outcome where
  result : Except StepError Value
  attempts : Nat

/-- The moment a number of seconds after the clock was started. -/
def Moment.ofSeconds (seconds : Float) : Moment := .ofMicros (microsOf seconds).toNat

namespace Outcome

def isOk (outcome : Outcome) : Bool :=
  match outcome.result with
  | .ok _ => true
  | .error _ => false

/-- An invocation that was cancelled has no outcome. -/
def ofEnding? : Retry.Ending Value → Option Outcome
  | ⟨.ok value, attempts⟩ => some ⟨.ok value, attempts⟩
  | ⟨.error .cancelled, _⟩ => none
  | ⟨.error failure, attempts⟩ => some ⟨.error ⟨failure.describe, failure.code⟩, attempts⟩

/-- The one message about an invocation of a step. -/
def message (step : Step) (outcome : Outcome) : Message :=
  match outcome.result with
  | .error e => .error e.message (some step.id)
  | .ok _ =>
    if step.kind = .trigger then .success "Trigger Activated" (some step.id)
    else .success ("Completed: " ++ step.displayName) (some step.id)

end Outcome

namespace Dispatcher

variable (d : Dispatcher)

def policyFor (step : Step) : RetryPolicy := step.retry.getD d.policy

/-- The secret of a credential, which has to be there; no credential needs no secret. -/
def secretFor (credentialId : Option String) : Program (Except Failure (Option String)) :=
  match credentialId.filter (· ≠ "") with
  | none => return .ok none
  | some id => do
    match (← Program.perform (.secret id) : Option String) with
    | some secret => return .ok (some secret)
    | none => return .error (.missingCredential id)

def runTrigger (payload : Fields) : Program (Retry.Ending Value) := do
  let now : Float ← Program.perform .clock
  return ⟨.ok (.map (payload.set "startedAt" (.str (Moment.ofSeconds now).iso))), 1⟩

def actionLabel (step : Step) (action : ExternalAction) : String :=
  action.serviceId ++ "." ++ action.actionId ++ " (" ++ step.id ++ ")"

def runAction (step : Step) (action : ExternalAction) (incoming : Fields) :
    Program (Retry.Ending Value) := do
  match ← secretFor action.credentialId with
  | .error failure => return ⟨.error failure, 1⟩
  | .ok secret =>
    Retry.run (d.policyFor step) (actionLabel step action)
      (Program.perform
        (.external action.serviceId action.actionId action.parameters secret incoming))

/-- The prompt of an agent; without one of its own it is shown what its parents have brought. -/
def promptFor (agent : AiAgent) (incoming : Fields) : Except Failure String :=
  match agent.userPrompt.filter (· ≠ "") with
  | some prompt => .ok prompt
  | none => (Json.encode Json.compact (.map incoming)).mapError .unwritableKey

def limitsFor (agent : AiAgent) : Agent.Limits :=
  { d.limits with maxIterations := agent.maxIterations.getD d.limits.maxIterations }

def taskFor (agent : AiAgent) (prompt : String) (secret : Option String) : Agent.Task :=
  { provider := agent.provider
    model := agent.model
    systemPrompt := agent.systemPrompt
    userPrompt := prompt
    tools := d.catalog.select agent.tools
    secret
    settings := agent.temperature.map fun x => Fields.named [("temperature", .float x)] }

def agentLabel (step : Step) (agent : AiAgent) : String :=
  agent.provider ++ ":" ++ agent.model ++ " (" ++ step.id ++ ")"

def runAgent (step : Step) (agent : AiAgent) (incoming : Fields) :
    Program (Retry.Ending Value) := do
  match ← secretFor agent.credentialId with
  | .error failure => return ⟨.error failure, 1⟩
  | .ok secret =>
    match promptFor agent incoming with
    | .error failure => return ⟨.error failure, 1⟩
    | .ok prompt =>
      Retry.run (d.policyFor step) (agentLabel step agent) do
        let ending ← Agent.run (d.limitsFor agent) (d.taskFor agent prompt secret)
        return ending.result.map Agent.Result.encode

/-- The seconds that a wait step waits; a time that cannot be read counts as none. -/
def secondsFor (time : Option WaitTime) : Except Failure Float :=
  let value : Value := match time with
    | none => .null
    | some (.seconds x) => .float x
    | some (.written s) => .str s
  (Duration.seconds? value).map (·.getD d.defaultWait)

def runWait (time : Option WaitTime) : Program (Retry.Ending Value) := do
  match d.secondsFor time with
  | .error failure => return ⟨.error failure, 1⟩
  | .ok seconds =>
    Program.perform (.sleep seconds)
    return ⟨.ok (.record [("waited", .bool true)]), 1⟩

/-- Invokes a step with what its parents have brought. -/
def invoke (payload : Fields) (step : Step) (incoming : Fields) : Program (Retry.Ending Value) :=
  match step.work with
  | .trigger => runTrigger payload
  | .externalAction action => d.runAction step action incoming
  | .aiAgent agent => d.runAgent step agent incoming
  | .wait time => d.runWait time

end Dispatcher

end Workflow
