import Workflow.CommandLine.Arguments
import Workflow.Engine
import Workflow.Store.Selection

/-!
Sessions: commands that are performed one after the other. Between two commands the clock goes on,
and what was stored stays stored.
-/

namespace Workflow

/-- How a command ended. -/
inductive Conclusion where
  | success
  | failure
  /-- The command was not called as it has to be. -/
  | misuse
  /-- The command does not handle this failure. -/
  | fault (cause : Failure)
  deriving DecidableEq

def Conclusion.exitCode : Conclusion → Nat
  | .success => 0
  | .misuse => 2
  | _ => 1

/-- How a command ended, and the lines that it printed. -/
structure CommandOutput where
  conclusion : Conclusion := .success
  lines : List String := []
  deriving DecidableEq

namespace CommandOutput

def text (output : CommandOutput) : String := String.join (output.lines.map (· ++ "\n"))

def refusal (line : String) : CommandOutput := ⟨.failure, [line]⟩

def misuse (line : String) : CommandOutput := ⟨.misuse, [line]⟩

def fault (cause : Failure) (lines : List String := []) : CommandOutput := ⟨.fault cause, lines⟩

/-- A failure of the workflow's own kinds is told, and any other is not handled. -/
def ofFailure (failure : Failure) (lines : List String := []) : CommandOutput :=
  match failure with
  | .typed _ _ _ | .toolArguments _ _ => ⟨.failure, lines ++ [failure.text]⟩
  | _ => fault failure lines

end CommandOutput

/-- Where the contents of a repository are kept: a file stays when the repository is closed. -/
inductive StorageKey where
  | opened (number : Nat)
  | file (path : String)
  deriving DecidableEq

namespace StorageHandle

def key (handle : StorageHandle) : StorageKey :=
  match handle.place with
  | .memory => .opened handle.number
  | .database path =>
    if path = "" || path = ":memory:" then .opened handle.number else .file (Path.normal path)

/-- What is found where nothing has been stored. -/
def emptyRepository (handle : StorageHandle) : Repository :=
  match handle.place with
  | .memory => .memory {}
  | .database _ => .database {}

end StorageHandle

structure Session where
  host : Host := {}
  /-- Seconds since the beginning. -/
  now : Float := 0.0
  selection : Selection := {}
  contents : Table StorageKey Repository := []
  /-- The number of run ids ever given out. -/
  runCount : Nat := 0

namespace Session

open CommandLine

def usage : String :=
  "Usage: [--log-level LEVEL] run PATH [--payload JSON] [--continue-on-failure] " ++
    "[--secret ID=VALUE]... [--timeout SECONDS] | validate PATH | runs list | runs show RUN_ID"

variable (s : Session)

def repositoryOf (handle : StorageHandle) : Repository :=
  (Table.find? s.contents handle.key).getD handle.emptyRepository

/-- The payload is a JSON object; nothing stands for an empty one. -/
def readPayload (text : Option String) : Except CommandOutput Value :=
  match text.filter (· ≠ "") with
  | none => .ok (.map [])
  | some text => match Json.parse? text with
    | none => .error (.misuse "Invalid JSON in --payload")
    | some (.map entries) => .ok (.map entries)
    | some _ => .error (.misuse "Payload must be a JSON object")

/-- The secrets that are given on the command line. -/
def readSecrets : List String → Except CommandOutput (Table String String)
  | [] => .ok []
  | items => items.foldlM (fun secrets item =>
      match splitAtEquals item with
      | ("", _) | (_, none) => .error (.misuse ("Expected ID=VALUE, got " ++ Text.literal item))
      | (id, some secret) => .ok (Table.insert secrets id secret)) []

/-- The definition at a path. That it cannot be read, or is no definition, is told behind a
heading. -/
def loadDefinition (heading path : String) : Except CommandOutput Definition :=
  (Definition.load s.host path).mapError fun failure =>
    match failure, Host.isUnreadable failure with
    | .invalid _, _ | _, true => .refusal (heading ++ failure.text)
    | _, _ => .fault failure

/-- What a run is started with: an engine, and the handle of its repository. -/
structure Preparation where
  engine : Engine
  order : Engine.Order
  handle : StorageHandle
  selection : Selection

/-- Secrets that are given take the place of the secret store. -/
def secretStore (settings : Settings) (secrets : List String) : Except CommandOutput SecretStore :=
  if secrets.isEmpty then (settings.secretStore s.host).mapError .fault
  else (readSecrets secrets).map .table

/-- No model can be reached from here. -/
def noModel : Failure := .fault "ConnectionError" "Connection error."

def prepare (path : String) (options : RunOptions) : Except CommandOutput Preparation := do
  let payload ← readPayload options.payload
  let definition ← s.loadDefinition "Cannot load workflow: " path
  let settings ← (Settings.load s.host).mapError .fault
  let secrets ← s.secretStore settings options.secrets
  let (handle, selection) ← (s.selection.choose s.host none (some settings)).mapError .fault
  let stage : Stage :=
    { now := s.now, host := s.host, secrets
      registry := Registry.builtIn settings.actions.simulatesUnregistered
      isOffline := true
      provider := some { refusal := some noModel } }
  return {
    engine :=
      { Engine.ofSettings settings stage with
        repository := s.repositoryOf handle
        observers := [{}]
        failureMode := if options.continues then .proceed else settings.runner.failureMode
        runCount := s.runCount }
    order := { blueprint := .defined definition, payload }
    handle
    selection }

/-- The last lines about a run: its status, its error and its results. -/
def outputOfRun (told : List String) (run : Run) : CommandOutput :=
  let lines := told ++ ["Run " ++ run.id ++ ": " ++ run.status.name] ++
    ((run.error.filter (· ≠ "")).map ("Error: " ++ ·)).toList
  match Json.encode Json.indented (.record run.results) with
  | .error key => .fault (.unwritableKey key) lines
  | .ok results =>
    ⟨if run.status = .completed then .success else .failure, lines ++ [results]⟩

/-- Runs a workflow. Its events are told until nothing is left to do, even if the wait for its end
was given up before. -/
def run (path : String) (options : RunOptions) : CommandOutput × Session :=
  match s.prepare path options with
  | .error output => (output, s)
  | .ok { engine, order, handle, selection } =>
    let (result, engine) := engine.execute order options.timeout
    let ended := result.bind engine.run?
    let engine := engine.drain
    let told := engine.observed.map fun entry => entry.2.line
    (match ended with
      | .error failure => .ofFailure failure told
      | .ok run => outputOfRun told run,
      { s with
        now := engine.stage.now
        selection
        contents := Table.insert s.contents handle.key engine.repository
        runCount := engine.runCount })

/-- What is told about a graph itself. -/
def graphLines (path : String) (graph : Graph) : List String :=
  let definition := graph.definition
  let name := (definition.name.filter (· ≠ "")).getD (Path.stem path)
  ("Workflow " ++ name ++ ": " ++ toString graph.steps.length ++ " steps, " ++
      toString definition.edges.length ++ " edges") ::
    (if graph.orphans.isEmpty then []
      else ["Never reached: " ++ Text.join ", " graph.orphans])

/-- Checks a workflow without running it. -/
def validate (path : String) : CommandOutput :=
  let heading := "Invalid workflow: "
  match s.loadDefinition heading path with
  | .error output => output
  | .ok definition => match Engine.graphOfDefinition definition with
    | .error failure => .refusal (heading ++ failure.text)
    | .ok graph =>
      let lines := graphLines path graph
      match (do (← Settings.load s.host).secretStore s.host : Except Failure SecretStore) with
      | .error failure => .fault failure lines
      | .ok store =>
        let missing := store.missing s.host graph.credentialIds
        ⟨.success, lines ++
          if missing.isEmpty then [] else ["Missing credentials: " ++ Text.join ", " missing]⟩

/-- Reads the repository that is at hand. -/
def inspect (read : Repository → Except Failure CommandOutput) : CommandOutput × Session :=
  match s.selection.choose s.host none none with
  | .error failure => (.fault failure, s)
  | .ok (handle, selection) =>
    let repository := s.repositoryOf handle
    (match read repository with
      | .error failure => .fault failure
      | .ok output => output,
      { s with selection, contents := Table.insert s.contents handle.key repository })

def statusText (status : Option String) : String := status.getD "None"

def listRuns (repository : Repository) : Except Failure CommandOutput := do
  let runs ← repository.allRuns
  return { lines := if runs.isEmpty then ["No runs found"]
    else runs.map fun run => run.runId ++ "\t" ++ statusText run.status }

def timeText (time : Option Moment) : String := (time.map (·.text " ")).getD "None"

/-- A step of a stored run, and when it ran if that is known. -/
def stepLine (step : StepRecord) : String :=
  "- " ++ step.stepId ++ ": " ++ statusText step.status ++
    if step.startedAt.isNone && step.completedAt.isNone then ""
    else " (" ++ timeText step.startedAt ++ " -> " ++ timeText step.completedAt ++ ")"

def recordLines (run : RunRecord) : List String :=
  ["Run " ++ run.runId ++ ": " ++ statusText run.status] ++
    ((run.error.filter (· ≠ "")).map ("Error: " ++ ·)).toList ++
    (if run.payload.isEmpty then [] else ["Payload: " ++ (Value.map run.payload).display]) ++
    run.steps.map stepLine

def showRun (runId : String) (repository : Repository) : Except Failure CommandOutput := do
  match ← repository.run? runId with
  | none => return .refusal "Run not found"
  | some run => return { lines := recordLines run }

def perform (command : Command) : CommandOutput × Session :=
  match command with
  | .run path options => s.run path options
  | .validate path => (s.validate path, s)
  | .listRuns => s.inspect listRuns
  | .showRun runId => s.inspect (showRun runId)

/-- The files that a command reads. -/
def filesFor (host : Host) (command : Command) : List String :=
  Settings.pathFor host none ::
    match command with
    | .run path _ | .validate path => [Path.normal path]
    | _ => []

/-- The environment variables that may hold the secrets of a workflow. -/
def secretVariables (path : String) : List String :=
  match Settings.load s.host, Definition.load s.host path with
  | .ok settings, .ok definition =>
    (distinct (definition.steps.filterMap Step.credentialId?)).map
      (settings.secrets.beginning ++ ·)
  | _, _ => []

/-- Performs the command that some arguments call. -/
def call (arguments : List String) : CommandOutput × Session :=
  match Command.parse? arguments with
  | some command => s.perform command
  | none => (.misuse usage, s)

end Session

end Workflow
