import Workflow.Definition
import Workflow.Validation.Record
import Workflow.Validation.Scalar

/-!
Definitions from values. Fields are known by a camel-case name, which is preferred, and by the same
name with underscores.
-/

namespace Workflow

namespace RetryPolicy

def decode : Decoder RetryPolicy :=
  Decode.record "RetryPolicy" fun fields =>
    let default : RetryPolicy := {}
    RetryPolicy.mk
      <$> Decode.optional fields ["maxAttempts", "max_attempts"] default.maxAttempts
        (Decode.integerAtLeast 1)
      <*> Decode.optional fields ["perAttemptTimeout", "per_attempt_timeout"]
        default.perAttemptTimeout Decode.positiveNumber
      <*> Decode.optional fields ["backoffBase", "backoff_base"] default.backoffBase
        Decode.numberAtLeastZero
      <*> Decode.optional fields ["backoffJitter", "backoff_jitter"] default.backoffJitter
        Decode.numberAtLeastZero

end RetryPolicy

namespace Work

def decodeTriggerConfig : Decoder Work :=
  Decode.record "TriggerConfig" fun _ => .valid .trigger

def decodeExternalActionConfig : Decoder Work :=
  Decode.record "ExternalActionConfig" fun fields =>
    (fun serviceId actionId credentialId parameters =>
        .externalAction { serviceId, actionId, credentialId, parameters })
      <$> Decode.required fields ["serviceId", "service_id"] Decode.text
      <*> Decode.required fields ["actionId", "action_id"] Decode.text
      <*> Decode.optional fields ["credential_id", "credentialId", "credentialsId"] none
        (Decode.nullable Decode.text)
      <*> Decode.optional fields ["parameters"] [] Decode.mapping

def decodeAiAgentConfig : Decoder Work :=
  Decode.record "AiAgentConfig" fun fields =>
    (fun provider model systemPrompt userPrompt tools credentialId temperature maxIterations =>
        .aiAgent { provider, model, systemPrompt, userPrompt, tools, credentialId, temperature,
                   maxIterations })
      <$> Decode.required fields ["provider"] Decode.text
      <*> Decode.required fields ["model"] Decode.text
      <*> Decode.optional fields ["systemPrompt", "system_prompt"] defaultSystemPrompt Decode.text
      <*> Decode.optional fields ["userPrompt", "user_prompt"] none (Decode.nullable Decode.text)
      <*> Decode.optional fields ["tools"] [] (Decode.list Decode.text)
      <*> Decode.optional fields ["credentialId", "credential_id"] none
        (Decode.nullable Decode.text)
      <*> Decode.optional fields ["temperature"] none (Decode.nullable Decode.number)
      <*> Decode.optional fields ["maxIterations", "max_iterations"] none
        (Decode.nullable (Decode.integerAtLeast 1))

/-- A text stays a text, even where it spells a number. -/
def decodeWaitTime : Decoder WaitTime
  | .str s => .valid (.written s)
  | value =>
    match Decode.number value with
    | .valid x => .valid (.seconds x)
    | .invalid first rest =>
      match (Checked.invalid first rest : Checked WaitTime).within (.field "float") with
      | .valid time => .valid time
      | .invalid first rest => .invalid first (rest ++ [⟨.notText, [.field "str"]⟩])

def decodeWaitConfig : Decoder Work :=
  Decode.record "WaitConfig" fun fields =>
    .wait <$> Decode.optional fields ["duration"] none (Decode.nullable decodeWaitTime)

/-- Triggers and waits can do without a configuration, the other kinds cannot. -/
def decode (kind : StepKind) (fields : Fields) : Checked Work :=
  match kind with
  | .trigger => Decode.optional fields ["config"] .trigger decodeTriggerConfig
  | .externalAction => Decode.required fields ["config"] decodeExternalActionConfig
  | .aiAgent => Decode.required fields ["config"] decodeAiAgentConfig
  | .wait => Decode.optional fields ["config"] (.wait none) decodeWaitConfig

end Work

namespace Step

def decodeAs (kind : StepKind) (fields : Fields) : Checked Step :=
  Step.mk
    <$> Decode.required fields ["id"] Decode.text
    <*> Decode.optional fields ["label"] none (Decode.nullable Decode.text)
    <*> Decode.optional fields ["retry"] none (Decode.nullable RetryPolicy.decode)
    <*> Work.decode kind fields

/-- The kind of a step decides how the rest of it is read. -/
def decode : Decoder Step
  | .map fields =>
    match Fields.get? fields "kind" with
    | none => .problem (.noTag "kind")
    | some tag =>
      let known := match tag with
        | .str name => StepKind.ofName? name
        | _ => none
      match known with
      | some kind => (decodeAs kind fields).within (.field kind.name)
      | none =>
        .problem (.unknownTag tag.display "kind" (StepKind.all.map (·.name)))
  | _ => .problem .notTagged

end Step

def Edge.decode : Decoder Edge :=
  Decode.record "Edge" fun fields =>
    Edge.mk
      <$> Decode.required fields ["source"] Decode.text
      <*> Decode.required fields ["target"] Decode.text

def Definition.decode : Decoder Definition :=
  Decode.record "WorkflowDefinition" fun fields =>
    Definition.mk
      <$> Decode.optional fields ["name"] none (Decode.nullable Decode.text)
      <*> Decode.optional fields ["steps"] [] (Decode.list Step.decode)
      <*> Decode.optional fields ["edges"] [] (Decode.list Edge.decode)

/-- The definition a value holds. -/
def Definition.ofValue (value : Value) : Except ValidationError Definition :=
  (Definition.decode value).toExcept "WorkflowDefinition"

end Workflow
