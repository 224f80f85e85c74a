import Workflow.Agent
import Workflow.Definition.Decode
import Workflow.Definition.Encode
import Workflow.Definition.Load
import Workflow.Secret
import Workflow.Status

/-!
Settings: what holds for all runs. They are read from a document, and two of them may be overridden
by the environment.
-/

namespace Workflow

structure RunnerSettings where
  failureMode : FailureMode := .failFast
  defaultWait : Float := 5.0

structure SecretSettings where
  backend : String := "env"
  /-- What the names of environment variables that hold secrets begin with. -/
  beginning : String := ""

structure ActionSettings where
  simulatesUnregistered : Bool := false
  httpTimeout : Float := 30.0

structure Settings where
  policy : RetryPolicy := {}
  limits : Agent.Limits := {}
  runner : RunnerSettings := {}
  secrets : SecretSettings := {}
  actions : ActionSettings := {}
  databaseUrl : Option String := none

def Agent.Limits.decode : Decoder Agent.Limits :=
  Decode.record "AgentSettings" fun fields =>
    (fun maxIterations (maxToolCalls : Option { n : Nat // 1 ≤ n }) =>
        { maxIterations, maxToolCalls := maxToolCalls.map fun n => (n.val : Int) })
      <$> Decode.optional fields ["max_iterations"] ({} : Agent.Limits).maxIterations
        (Decode.integerAtLeast 1)
      <*> Decode.optional fields ["max_tool_calls"] none (Decode.nullable (Decode.integerAtLeast 1))

def Agent.Limits.ofValue (value : Value) : Except Failure Agent.Limits :=
  ((Agent.Limits.decode value).toExcept "AgentSettings").mapError .invalid

def FailureMode.decode : Decoder FailureMode := fun value =>
  let expected := FailureMode.all.map FailureMode.name
  match value with
  | .str name => match FailureMode.ofName? name with
    | some mode => .valid mode
    | none => .problem (.notMember expected)
  | _ => .problem (.notMember expected)

def RunnerSettings.decode : Decoder RunnerSettings :=
  Decode.record "RunnerSettings" fun fields =>
    (fun failureMode (defaultWait : { x : Float // 0.0 ≤ x }) =>
        { failureMode, defaultWait := defaultWait.val })
      <$> Decode.optional fields ["failure_mode"] .failFast FailureMode.decode
      <*> Decode.optional fields ["default_wait"] ⟨5.0, by decide⟩ Decode.numberAtLeastZero

def SecretSettings.decode : Decoder SecretSettings :=
  Decode.record "SecretsSettings" fun fields =>
    SecretSettings.mk
      <$> Decode.optional fields ["backend"] "env" (Decode.literalText ["inmemory", "env"])
      <*> Decode.optional fields ["env_prefix"] "" Decode.text

def ActionSettings.decode : Decoder ActionSettings :=
  Decode.record "ActivitySettings" fun fields =>
    ActionSettings.mk
      <$> Decode.optional fields ["simulate_unregistered"] false Decode.boolean
      <*> Decode.optional fields ["http_timeout"] 30.0 Decode.number

namespace Settings

def decode : Decoder Settings :=
  Decode.record "NexusflowConfig" fun fields =>
    Settings.mk
      <$> Decode.optional fields ["retry"] {} RetryPolicy.decode
      <*> Decode.optional fields ["agent"] {} Agent.Limits.decode
      <*> Decode.optional fields ["runner"] {} RunnerSettings.decode
      <*> Decode.optional fields ["secrets"] {} SecretSettings.decode
      <*> Decode.optional fields ["activities"] {} ActionSettings.decode
      <*> Decode.optional fields ["database_url"] none (Decode.nullable Decode.text)

def ofValue (value : Value) : Except Failure Settings :=
  ((decode value).toExcept "NexusflowConfig").mapError .invalid

/-- The settings of a document, which has to be a mapping from names. -/
def ofDocument (value : Value) : Except Failure Settings :=
  let isName : Scalar → Bool
    | .str _ => true
    | _ => false
  match value with
  | .map entries =>
    if entries.all fun entry => isName entry.1 then ofValue value
    else .error (.wrongType "keywords must be strings")
  | _ => .error (.wrongType "argument after ** must be a mapping")

def defaultPath : String := "nexusflow.yaml"

/-- The variable of the environment, unless it is empty. -/
def override? (host : Host) (name : String) : Option String :=
  (host.setting? name).filter (· ≠ "")

def databaseVariable : String := "NEXUSFLOW_DATABASE_URL"

def secretsVariable : String := "NEXUSFLOW_SECRETS_BACKEND"

/-- The environment has the last word on the database and on the secrets. -/
def overridden (host : Host) (settings : Settings) : Settings :=
  { settings with
    databaseUrl := (override? host databaseVariable).or settings.databaseUrl
    secrets := { settings.secrets with
      backend := (override? host secretsVariable).getD settings.secrets.backend } }

/-- The variable that says where the settings are. -/
def pathVariable : String := "NEXUSFLOW_CONFIG"

/-- The variables that settings may come from. -/
def variableNames : List String := [pathVariable, databaseVariable, secretsVariable]

def pathFor (host : Host) (path : Option String) : String :=
  (path.filter (· ≠ "")).getD ((host.setting? pathVariable).getD defaultPath)

/-- The settings at a path; where nothing is found, nothing is set. -/
def load (host : Host) (path : Option String := none) : Except Failure Settings := do
  let path := pathFor host path
  let settings ←
    if host.exists? path then do
      ofDocument (← yamlOrEmpty (← host.read path))
    else pure {}
  return settings.overridden host

def unsupportedSecrets (backend : String) : Failure :=
  .wrongValue ("Unsupported secrets backend: " ++ backend)

/-- The secret store that is asked for, by the environment or by the settings. -/
def secretStore (host : Host) (settings : Settings) (backend : Option String := none) :
    Except Failure SecretStore :=
  let backend := ((backend.filter (· ≠ "")).or (override? host secretsVariable)).getD
    settings.secrets.backend
  match Text.lower backend with
  | "inmemory" => .ok (.table [])
  | "env" => .ok (.environment settings.secrets.beginning)
  | other => .error (unsupportedSecrets other)

def encode (settings : Settings) : Value :=
  .record
    [("retry", settings.policy.encode .underscored),
      ("agent", .record
        [("max_iterations", .int settings.limits.maxIterations.val),
          ("max_tool_calls", .ofOption .int settings.limits.maxToolCalls)]),
      ("runner", .record
        [("failure_mode", .str settings.runner.failureMode.name),
          ("default_wait", .float settings.runner.defaultWait)]),
      ("secrets", .record
        [("backend", .str settings.secrets.backend),
          ("env_prefix", .str settings.secrets.beginning)]),
      ("activities", .record
        [("simulate_unregistered", .bool settings.actions.simulatesUnregistered),
          ("http_timeout", .float settings.actions.httpTimeout)]),
      ("database_url", .ofOption .str settings.databaseUrl)]

end Settings

end Workflow
