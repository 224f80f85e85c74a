import Workflow.Dispatch
import Workflow.Rehearsal.Script
import Workflow.Secret

/-!
The stage of a rehearsal: a clock, the scripts that are played on it, and a record of every call.
`Stage.perform` plays a program to its end; calls take the time that their scripts say, and the
clock stands still in between.
-/

namespace Workflow

structure ExternalCall where
  time : Float
  action : String
  input : ActionInput

/-- The calls that have been made, in their order. -/
structure CallRecord where
  external : List ExternalCall := []
  /-- The calls of actions with a script, under their labels. -/
  scripted : List (String × ActionInput) := []
  requests : List Http.Request := []
  models : List (Float × ModelRequest) := []
  /-- The clients that were made: provider, model and secret. -/
  clients : List (String × String × Option String) := []
  tools : List (String × Fields) := []
  searches : List String := []
  attempts : List (Nat × Float) := []

structure Stage where
  /-- Seconds since the beginning. -/
  now : Float := 0.0
  /-- What is drawn from the unit interval. -/
  share : Float := 0.0
  host : Host := {}
  secrets : SecretStore := .table []
  registry : Registry := {}
  catalog : Catalog := Catalog.builtIn
  actions : Table String Script := []
  tools : Table String Script := []
  /-- What a search finds, if not the result that is built in. -/
  finding : Option Value := none
  models : Table String (List ModelLine) := []
  provider : Option ProviderScript := none
  responses : List Http.Reply := []
  /-- Whether there is no server to send requests to. -/
  isOffline : Bool := false
  record : CallRecord := {}

/-- What a call comes to: it takes some seconds, and the reply may show when it arrives. -/
structure Reaction (α : Type) where
  delay : Float
  reply : Float → α
  /-- Nobody has to wait for the reply, whatever the clock shows. -/
  isAtOnce : Bool := false

namespace Reaction

variable {α : Type}

def atOnce (reply : α) : Reaction α := { delay := 0.0, reply := fun _ => reply, isAtOnce := true }

def after (delay : Float) (reply : α) : Reaction α := { delay, reply := fun _ => reply }

end Reaction

namespace Stage

variable (stage : Stage)

def moment : Moment := .ofSeconds stage.now

/-- Lets some time pass; time never goes back. -/
def advance (seconds : Float) : Stage :=
  if 0.0 < seconds then { stage with now := stage.now + seconds } else stage

def noteExternal (call : ExternalCall) : Stage :=
  { stage with record := { stage.record with external := stage.record.external ++ [call] } }

def noteScripted (label : String) (input : ActionInput) : Stage :=
  { stage with
    record := { stage.record with scripted := stage.record.scripted ++ [(label, input)] } }

def noteRequest (request : Http.Request) : Stage :=
  { stage with record := { stage.record with requests := stage.record.requests ++ [request] } }

def noteModel (request : ModelRequest) : Stage :=
  { stage with
    record := { stage.record with models := stage.record.models ++ [(stage.now, request)] } }

def noteClient (request : ModelRequest) : Stage :=
  { stage with
    record := { stage.record with
      clients := stage.record.clients ++ [(request.provider, request.model, request.secret)] } }

def noteTool (name : String) (arguments : Fields) : Stage :=
  { stage with
    record := { stage.record with tools := stage.record.tools ++ [(name, arguments)] } }

def noteSearch (query : String) : Stage :=
  { stage with record := { stage.record with searches := stage.record.searches ++ [query] } }

def noteAttempt (number : Nat) : Stage :=
  { stage with
    record := { stage.record with attempts := stage.record.attempts ++ [(number, stage.now)] } }

/-- The next response of the server; one without any responds with nothing. -/
def serve (request : Http.Request) : Http.Reply × Stage :=
  if stage.isOffline then (request.unreachable, stage)
  else match stage.responses with
  | [] => (.response 200 "", stage)
  | [last] => (last, stage)
  | next :: rest => (next, { stage with responses := rest })

def sendRequest (input : ActionInput) : Reaction (Except Failure Value) × Stage :=
  match Http.Request.ofParameters input.parameters input.secret with
  | .error failure => (.atOnce (.error failure), stage)
  | .ok request =>
    let (reply, stage) := (stage.noteRequest request).serve request
    (.atOnce (request.result reply), stage)

def playAction (label serviceId actionId : String) (input : ActionInput) :
    Reaction (Except Failure Value) × Stage :=
  let stage := stage.noteScripted label input
  let script := (Table.find? stage.actions label).getD ⟨[], 0⟩
  let stage := { stage with actions := Table.insert stage.actions label script.advance }
  let behaviour := script.current
  match behaviour.effect with
  | .reply value => (.after behaviour.delay (.ok value), stage)
  | .failure failure => (.after behaviour.delay (.error failure), stage)
  | .echo =>
    ({ delay := behaviour.delay
       reply := fun time => .ok (echoResult serviceId actionId input (.ofSeconds time)) }, stage)

/-- Performs an action by its handler. -/
def callAction (serviceId actionId : String) (input : ActionInput) :
    Reaction (Except Failure Value) × Stage :=
  let echo := Except.ok (echoResult serviceId actionId input stage.moment)
  match stage.registry.find? serviceId actionId with
  | some .echo => (.atOnce echo, stage)
  | some .fail => (.atOnce (.error (requestedFailure input.parameters)), stage)
  | some .http => stage.sendRequest input
  | some (.custom label) => stage.playAction label serviceId actionId input
  | none =>
    if stage.registry.simulatesUnregistered then (.atOnce echo, stage)
    else (.atOnce (.error (Registry.notRegistered serviceId actionId)), stage)

/-- Asks a model whose replies are scripted. -/
def askModel (request : ModelRequest) : Reaction (Except Failure ModelReply) × Stage :=
  let stage := stage.noteModel request
  let key := request.provider ++ ":" ++ request.model
  match Table.find? stage.models key with
  | some (line :: rest) =>
    (.after line.delay line.result, { stage with models := Table.insert stage.models key rest })
  | _ => (.atOnce ModelLine.last.result, stage)

/-- Why no client can be made for a request. -/
def refusalOf (script : ProviderScript) (request : ModelRequest) : Option Failure :=
  match script.isParticular, ModelAccess.choose request.provider request.model request.secret with
  | true, .error failure => some failure
  | _, _ => script.refusal

/-- Asks a model through a client of its provider. -/
def askProvider (script : ProviderScript) (request : ModelRequest) :
    Reaction (Except Failure ModelReply) × Stage :=
  let stage := stage.noteClient request
  let failed (failure : Failure) : Reaction (Except Failure ModelReply) :=
    .atOnce (.error (ModelAccess.failureOf request.provider request.model failure))
  match refusalOf script request with
  | some failure => (failed failure, stage)
  | none =>
    let stage := stage.noteModel request
    let rest := { script with responses := script.responses.drop 1 }
    let stage := { stage with provider := some rest }
    match script.responses.headD (.ok [.text "done"]) with
    | .error failure => (failed failure, stage)
    | .ok parts => (.atOnce (.ok (ModelReply.ofParts parts)), stage)

def playTool (name : String) (arguments : Fields) : Reaction (Except Failure String) × Stage :=
  let stage := stage.noteTool name arguments
  let script := (Table.find? stage.tools name).getD ⟨[], 0⟩
  let stage := { stage with tools := Table.insert stage.tools name script.advance }
  let behaviour := script.current
  match behaviour.effect with
  | .failure failure => (.after behaviour.delay (.error failure), stage)
  | .reply value => (.after behaviour.delay (.ok value.display), stage)
  | .echo => (.after behaviour.delay (.ok (Value.map arguments).display), stage)

/-- Runs a tool on arguments that it may not accept. -/
def callTool (name : String) (arguments : Value) : Reaction (Except Failure String) × Stage :=
  match stage.catalog.request name arguments with
  | .error failure => (.atOnce (.error failure), stage)
  | .ok (.calculation calculation) => (.atOnce (Catalog.calculate calculation), stage)
  | .ok (.query query) =>
    let finding := match stage.finding with
      | some value => value.display
      | none => Catalog.cannedResult query
    (.atOnce (.ok finding), stage.noteSearch query)
  | .ok (.custom arguments) => stage.playTool name arguments

def react (call : Call) : Reaction call.Reply × Stage :=
  match call with
  | .external serviceId actionId parameters secret incoming =>
    let input : ActionInput := ⟨parameters, secret, incoming⟩
    let action := Registry.qualifiedName serviceId actionId
    (stage.noteExternal ⟨stage.now, action, input⟩).callAction serviceId actionId input
  | .model request =>
    match stage.provider with
    | some script => stage.askProvider script request
    | none => stage.askModel request
  | .tool name arguments => stage.callTool name (.map arguments)
  | .secret id => (.atOnce (stage.secrets.find? stage.host id), stage)
  | .sleep seconds => (.after seconds (), stage)
  | .clock => (.atOnce stage.now, stage)
  | .draw => (.atOnce stage.share, stage)
  | .attempt number => (.atOnce (), stage.noteAttempt number)

/-- The time at which a call that is made now is over. -/
def timeAfter (delay : Float) : Float := (stage.advance delay).now

/-- Plays a program to its end. -/
def perform {α : Type} : Program α → Stage → α × Stage
  | .done a, stage => (a, stage)
  | .ask call next, stage =>
    let (reaction, stage) := stage.react call
    let stage := stage.advance reaction.delay
    perform (next (reaction.reply stage.now)) stage
  | .askBefore deadline call next late, stage =>
    let (reaction, stage) := stage.react call
    let time := stage.timeAfter reaction.delay
    if time ≤ deadline then perform (next (reaction.reply time)) { stage with now := time }
    else perform late { stage with now := deadline }

end Stage

end Workflow
