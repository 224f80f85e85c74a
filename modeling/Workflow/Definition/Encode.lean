import Workflow.Definition
import Workflow.Text.Literal

/-!
Definitions as values, ready to be written as JSON. Fields are named with underscores or in camel
case. Parameters are free data: their dates become texts, their keys texts, and floats that are
not finite `null`.
-/

namespace Workflow

namespace Value

def plainKey : Scalar → String
  | .bool b => if b then "true" else "false"
  | .moment m => m.isoZulu
  | key => key.display

mutual

/-- A value as JSON can hold it. -/
def plain : Value → Value
  | .scalar (.float x) => if isFiniteFloat x then .float x else .null
  | .scalar (.date d) => .str d.iso
  | .scalar (.moment m) => .str m.isoZulu
  | .scalar s => .scalar s
  | .list items => .list (plainItems items)
  | .map entries => .map (Table.ofEntries (plainEntries entries))

def plainItems : List Value → List Value
  | [] => []
  | item :: rest => plain item :: plainItems rest

def plainEntries : List (Scalar × Value) → List (Scalar × Value)
  | [] => []
  | (key, value) :: rest => (.str (plainKey key), plain value) :: plainEntries rest

end

end Value

/-- How the fields of a definition are named. -/
inductive Naming where
  | underscored
  | camelCase
  deriving DecidableEq

def Naming.pick (naming : Naming) (underscored camelCase : String) : String :=
  match naming with
  | .underscored => underscored
  | .camelCase => camelCase

def RetryPolicy.encode (naming : Naming) (policy : RetryPolicy) : Value :=
  .record
    [(naming.pick "max_attempts" "maxAttempts", .int policy.maxAttempts.val),
      (naming.pick "per_attempt_timeout" "perAttemptTimeout", .float policy.perAttemptTimeout.val),
      (naming.pick "backoff_base" "backoffBase", .float policy.backoffBase.val),
      (naming.pick "backoff_jitter" "backoffJitter", .float policy.backoffJitter.val)]

def WaitTime.encode : WaitTime → Value
  | .seconds x => .float x
  | .written s => .str s

def Work.encode (naming : Naming) : Work → Value
  | .trigger => .record []
  | .externalAction action =>
    .record
      [(naming.pick "service_id" "serviceId", .str action.serviceId),
        (naming.pick "action_id" "actionId", .str action.actionId),
        (naming.pick "credential_id" "credentialId", .ofOption .str action.credentialId),
        ("parameters", (Value.map action.parameters).plain)]
  | .aiAgent agent =>
    .record
      [("provider", .str agent.provider),
        ("model", .str agent.model),
        (naming.pick "system_prompt" "systemPrompt", .str agent.systemPrompt),
        (naming.pick "user_prompt" "userPrompt", .ofOption .str agent.userPrompt),
        ("tools", .strs agent.tools),
        (naming.pick "credential_id" "credentialId", .ofOption .str agent.credentialId),
        ("temperature", .ofOption .float agent.temperature),
        (naming.pick "max_iterations" "maxIterations",
          .ofOption (fun n => .int n.val) agent.maxIterations)]
  | .wait time => .record [("duration", .ofOption WaitTime.encode time)]

def Step.encode (naming : Naming) (step : Step) : Value :=
  .record
    [("id", .str step.id),
      ("label", .ofOption .str step.label),
      ("retry", .ofOption (RetryPolicy.encode naming) step.retry),
      ("kind", .str step.kind.name),
      ("config", step.work.encode naming)]

def Edge.encode (edge : Edge) : Value :=
  .record [("source", .str edge.source), ("target", .str edge.target)]

def Definition.encode (naming : Naming) (definition : Definition) : Value :=
  .record
    [("name", .ofOption .str definition.name),
      ("steps", .list (definition.steps.map (Step.encode naming))),
      ("edges", .list (definition.edges.map Edge.encode))]

end Workflow
