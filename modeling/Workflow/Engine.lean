import Workflow.Pairs
import Workflow.Rehearsal.Stage
import Workflow.Run.Archive
import Workflow.Settings

/-!
The engine: it starts runs and invokes their steps on a stage. What is to be done stands on an
agenda, ordered by time; what is due at one time is done in the order in which it was put there.
Every run has a driver, which begins it, waits for its end and has the last word on it.
-/

namespace Workflow

/-- Where the driver of a run stands. -/
inductive DriverState where
  | waiting
  | driving
  | closing
  /-- The driver is through, perhaps with a failure. -/
  | done (failure : Option Failure)

def DriverState.isDone : DriverState → Bool
  | .done _ => true
  | _ => false

inductive Task where
  | begin (runId : String)
  | start (runId stepId : String)
  /-- The rest of an invocation. -/
  | resume (runId stepId : String) (rest : Program (Retry.Ending Value))
  | conclude (runId : String)
  | abandon (runId : String)

/-- The operations of a repository that may be out of order. -/
inductive StoreOperation where
  | createRun
  | startStep (stepId : String)
  | closeStep (stepId : String)
  | closeRun
  | readRun
  | listRuns

namespace StoreOperation

def name : StoreOperation → String
  | .createRun => "create_run"
  | .startStep _ => "mark_step_started"
  | .closeStep _ => "mark_step_completed"
  | .closeRun => "mark_run_completed"
  | .readRun => "get_run"
  | .listRuns => "list_runs"

/-- The names under which an operation may be declared out of order. -/
def aliases (operation : StoreOperation) : List String :=
  match operation with
  | .startStep stepId => [operation.name, operation.name ++ ":" ++ stepId]
  | .closeStep stepId => [operation.name, operation.name ++ ":" ++ stepId]
  | _ => [operation.name]

def unavailable (operation : StoreOperation) : Failure :=
  .wrongState (operation.name ++ " unavailable")

end StoreOperation

/-- One who reads the events of a run as they come. -/
structure Follower where
  runId : String
  index : Nat

structure Engine where
  stage : Stage := {}
  dispatcher : Dispatcher := {}
  repository : Repository := .memory {}
  /-- The operations of the repository that are out of order. -/
  outOfOrder : List String := []
  observers : List Observer := []
  failureMode : FailureMode := .failFast
  runs : Table String Run := []
  drivers : Table String DriverState := []
  agenda : List (Float × Task) := []
  /-- The events that the working observers have received, over all runs. -/
  observed : List (String × Event) := []
  followers : List Follower := []
  /-- The number of run ids ever given out. -/
  runCount : Nat := 0

namespace Engine

def unknownRun (runId : String) : Failure := .notFound ("Unknown run: " ++ runId)

variable (e : Engine)

def now : Moment := e.stage.moment

def run? (runId : String) : Except Failure Run :=
  match Table.find? e.runs runId with
  | some run => .ok run
  | none => .error (unknownRun runId)

/-- Behind everything that is due at that time or earlier. -/
def insertTask (time : Float) (task : Task) : List (Float × Task) → List (Float × Task)
  | [] => [(time, task)]
  | (time', task') :: rest =>
    if time' ≤ time then (time', task') :: insertTask time task rest
    else (time, task) :: (time', task') :: rest

def schedule (time : Float) (task : Task) : Engine :=
  { e with agenda := insertTask time task e.agenda }

def setDriver (runId : String) (state : DriverState) : Engine :=
  { e with drivers := Table.insert e.drivers runId state }

/-- A driver that has been waiting for the end of its run is woken by it. -/
def wakeDriver (run : Run) : Engine :=
  match run.isFinished, Table.find? e.drivers run.id with
  | true, some .driving => (e.setDriver run.id .closing).schedule e.stage.now (.conclude run.id)
  | _, _ => e

/-- What the working observers receive when a run has moved on. -/
def news (run : Run) : List (String × Event) :=
  let told := ((Table.find? e.runs run.id).map (·.log.events.length)).getD 0
  (run.log.events.drop told).flatMap fun event =>
    (e.observers.filter (!·.isBroken)).map fun _ => (run.id, event)

def setRun (run : Run) : Engine :=
  let observed := e.observed ++ e.news run
  wakeDriver { e with runs := Table.insert e.runs run.id run, observed } run

def change (runId : String) (f : Run → Run) : Engine :=
  match Table.find? e.runs runId with
  | some run => e.setRun (f run)
  | none => e

/-- Performs an operation of the repository, unless it is out of order. -/
def store {α : Type} (operation : StoreOperation) (f : Repository → Except Failure α) :
    Except Failure α :=
  if operation.aliases.any e.outOfOrder.contains then .error operation.unavailable
  else f e.repository

def failInternally (runId stepId : String) (failure : Failure) : Engine :=
  e.change runId (·.failInternally stepId failure)

/-- An outcome is reported to the run, which may release further steps. -/
def complete (runId : String) (step : Step) (outcome : Outcome) : Engine :=
  match Table.find? e.runs runId with
  | none => e
  | some run =>
    let (released, run) := run.applyFor step.id (Change.complete e.now step outcome)
    released.foldl (fun e id => e.schedule e.stage.now (.start runId id)) (e.setRun run)

/-- The end of an invocation. One that was cancelled leaves everything as it is. -/
def finishStep (runId : String) (step : Step) (ending : Retry.Ending Value) : Engine :=
  match Outcome.ofEnding? ending with
  | none => e
  | some outcome =>
    let e := e.change runId (Run.announce e.now step outcome)
    match e.store (.closeStep step.id)
        (Repository.write e.now (.closeStep runId step.id outcome.closing)) with
    | .error failure => e.failInternally runId step.id failure
    | .ok repository => { e with repository }.complete runId step outcome

/-- Goes on with an invocation until it has to wait for something. -/
def goOn (runId : String) (step : Step) : Program (Retry.Ending Value) → Engine → Engine
  | .done ending, e => e.finishStep runId step ending
  | .ask call next, e =>
    let (reaction, stage) := e.stage.react call
    let time := stage.timeAfter reaction.delay
    if reaction.isAtOnce || time ≤ stage.now then
      goOn runId step (next (reaction.reply time)) { e with stage }
    else { e with stage }.schedule time (.resume runId step.id (next (reaction.reply time)))
  | .askBefore deadline call next late, e =>
    let (reaction, stage) := e.stage.react call
    let time := stage.timeAfter reaction.delay
    if reaction.isAtOnce || time ≤ stage.now then
      goOn runId step (next (reaction.reply time)) { e with stage }
    else if time ≤ deadline then
      { e with stage }.schedule time (.resume runId step.id (next (reaction.reply time)))
    else { e with stage }.schedule deadline (.resume runId step.id late)

def startStep (runId stepId : String) : Engine :=
  match Table.find? e.runs runId with
  | none => e
  | some run =>
    match run.graph.step? stepId with
    | none => e
    | some step =>
      let incoming := run.incoming stepId
      match e.store (.startStep stepId)
          (Repository.write e.now (.startStep runId stepId)) with
      | .error failure => e.failInternally runId stepId failure
      | .ok repository =>
        goOn runId step (e.dispatcher.invoke run.payload step incoming) { e with repository }

/-- The last words of a driver; its run is recorded as ended, and then its log is closed. -/
def conclude (runId : String) (failure : Option Failure := none) : Engine :=
  match Table.find? e.runs runId with
  | none => e
  | some run =>
    let run := run.conclude e.now
    let e := e.setRun run
    match e.store .closeRun (Repository.write e.now run.ending) with
    | .error failure => e.setDriver runId (.done (some failure))
    | .ok repository =>
      ({ e with repository }.change runId Run.closeLog).setDriver runId (.done failure)

/-- A driver begins its run with the trigger, unless the run has ended already. -/
def begin (runId : String) : Engine :=
  match Table.find? e.runs runId with
  | none => e
  | some run =>
    match (Change.begin e.now).run run with
    | .error failure run => (e.setRun run).conclude runId (some failure)
    | .ok false run => (e.setRun run).conclude runId
    | .ok true run =>
      ((e.setRun run).setDriver runId .driving).startStep runId run.graph.trigger.id

def perform (task : Task) : Engine :=
  match task with
  | .begin runId => e.begin runId
  | .start runId stepId => e.startStep runId stepId
  | .resume runId stepId rest =>
    match (Table.find? e.runs runId).bind (·.graph.step? stepId) with
    | some step => goOn runId step rest e
    | none => e
  | .conclude runId => e.conclude runId
  | .abandon runId => (e.change runId Run.abandon).conclude runId (some .cancelled)

/-- Performs what is due next, unless that is later than some time. -/
def advance? (until? : Option Float) : Option Engine :=
  match e.agenda with
  | [] => none
  | (time, task) :: agenda =>
    if until?.all (time ≤ ·) then
      some ({ e with agenda, stage := { e.stage with now := time } }.perform task)
    else none

/-- Performs what is due up to some time, at most so many tasks, until `stop` holds. -/
def work (stop : Engine → Bool) (until? : Option Float) : Nat → Engine → Engine
  | 0, e => e
  | fuel + 1, e =>
    if stop e then e
    else match e.advance? until? with
      | some e => work stop until? fuel e
      | none => e

/-- No rehearsal has more tasks than this. -/
def patience : Nat := 10000000

def setClock (time : Float) : Engine := { e with stage := { e.stage with now := time } }

/-- The followers read what there is to read. -/
def informFollowers : Engine :=
  e.followers.foldl (fun e follower =>
    { e with
      runs := Table.adjust e.runs follower.runId fun run =>
        { run with log := run.log.modifySubscription follower.index Subscription.readAll } }) e

/-- Lets some seconds pass. -/
def sleep (seconds : Float) : Engine :=
  let target := (e.stage.advance seconds).now
  ((work (fun _ => false) (some target) patience e).setClock target).informFollowers

/-- Waits until nothing is left to do. -/
def drain : Engine := (work (fun _ => false) none patience e).informFollowers

def driverIsDone (runId : String) (e : Engine) : Bool :=
  (Table.find? e.drivers runId).any DriverState.isDone

/-- Waits for the driver of a run; until a deadline, if there is a timeout. -/
def wait (runId : String) (timeout : Option Float := none) : Except Failure Unit × Engine :=
  match e.run? runId, Table.find? e.drivers runId with
  | .error failure, _ => (.error failure, e)
  | .ok _, none => (.error (.notFound runId), e)
  | .ok _, some (.done none) => (.ok (), e)
  | .ok _, some (.done (some failure)) => (.error failure, e)
  | .ok _, some _ =>
    let deadline := timeout.map fun seconds => (e.stage.advance seconds).now
    let e := (work (driverIsDone runId) deadline patience e).informFollowers
    let late : Except Failure Unit × Engine :=
      (.error .timedOut, e.setClock (deadline.getD e.stage.now))
    if timeout.any (· ≤ 0.0) then late
    else match Table.find? e.drivers runId with
      | some (.done none) => (.ok (), e)
      | some (.done (some failure)) => (.error failure, e)
      | _ => late

/-- What a run is to follow: data that may not be a definition, a definition that may not be a
graph, or a graph. -/
inductive Blueprint where
  | data (value : Value)
  | defined (definition : Definition)
  | built (graph : Graph)

def graphOfDefinition (definition : Definition) : Except Failure Graph :=
  (Graph.ofDefinition definition).mapError GraphError.failure

def Blueprint.build : Blueprint → Except Failure Graph
  | .data value => do graphOfDefinition (← (Definition.ofValue value).mapError .invalid)
  | .defined definition => graphOfDefinition definition
  | .built graph => .ok graph

/-- What a run is started with. -/
structure Order where
  blueprint : Blueprint
  payload : Value := .null
  /-- How the run takes failures; if nothing is said, as the engine does. -/
  failureMode : Value := .null

def chooseMode (chosen : Value) (default : FailureMode) : Except Failure FailureMode :=
  if !chosen.isTruthy then .ok default
  else
    let known := match chosen with
      | .str name => FailureMode.ofName? name
      | _ => none
    match known with
    | some mode => .ok mode
    | none => .error (.notMember "FailureMode" chosen)

/-- Registers a run. It is known from now on, whether or not it can be stored. -/
def register (runId : String) (graph : Graph) (order : Order) : Except Failure Engine := do
  let mode ← chooseMode order.failureMode e.failureMode
  let payload ← Pairs.entriesOf order.payload
  return e.setRun (Run.create runId graph payload mode e.observers)

/-- Stores a registered run and puts its driver on the agenda. -/
def launch (runId : String) : Except Failure Unit × Engine :=
  match Table.find? e.runs runId with
  | none => (.error (unknownRun runId), e)
  | some run =>
    match e.store .createRun (Repository.write e.now run.creation) with
    | .error failure => (.error failure, e)
    | .ok repository =>
      let e := { e with repository }.change runId Run.stored
      (.ok (), (e.setDriver runId .waiting).schedule e.stage.now (.begin runId))

/-- Starts a run and returns its id. -/
def start (order : Order) : Except Failure String × Engine :=
  match order.blueprint.build with
  | .error failure => (.error failure, e)
  | .ok graph =>
    let runId := "run-" ++ toString (e.runCount + 1)
    let e := { e with runCount := e.runCount + 1 }
    match e.register runId graph order with
    | .error failure => (.error failure, e)
    | .ok e =>
      let (result, e) := e.launch runId
      (result.map fun _ => runId, e)

/-- Starts a run and waits for its driver. -/
def execute (order : Order) (timeout : Option Float := none) : Except Failure String × Engine :=
  match e.start order with
  | (.error failure, e) => (.error failure, e)
  | (.ok runId, e) =>
    let (result, e) := e.wait runId timeout
    (result.map fun _ => runId, e)

def cancel (runId : String) (reason : String := "Run cancelled") : Except Failure Bool × Engine :=
  match e.run? runId with
  | .error failure => (.error failure, e)
  | .ok run =>
    let (done, run) := run.cancel e.now reason
    (.ok done, e.setRun run)

def isFor (runId : String) : Task → Bool
  | .begin id | .conclude id | .abandon id => id = runId
  | _ => false

def isOf (runId stepId : String) : Task → Bool
  | .start run step | .resume run step _ => run = runId && step = stepId
  | _ => false

def dropTasks (p : Task → Bool) : Engine :=
  { e with agenda := e.agenda.filter fun entry => !p entry.2 }

/-- Stops the driver of a run; whether there was something to stop. A driver that has begun its run
still has the last word on it. -/
def stopDriver (runId : String) : Except Failure Bool × Engine :=
  match Table.find? e.drivers runId with
  | none => (.error (.notFound runId), e)
  | some (.done _) => (.ok false, e)
  | some .waiting =>
    (.ok true, (e.dropTasks (isFor runId)).setDriver runId (.done (some .cancelled)))
  | some _ =>
    (.ok true,
      ((e.dropTasks (isFor runId)).setDriver runId .closing).schedule e.stage.now (.abandon runId))

/-- Stops the invocation of a step; whether there was something to stop. -/
def stopStep (runId stepId : String) : Except Failure Bool × Engine :=
  match e.run? runId with
  | .error failure => (.error failure, e)
  | .ok run =>
    if run.inFlight.contains stepId then
      (.ok (e.agenda.any fun entry => isOf runId stepId entry.2), e.dropTasks (isOf runId stepId))
    else (.error (.notFound stepId), e)

/-- The credentials that a run needs and that have no secret. -/
def missingCredentials (blueprint : Blueprint) : Except Failure (List String) := do
  let graph ← blueprint.build
  return e.stage.secrets.missing e.stage.host graph.credentialIds

/-- A new follower of a run. -/
def follow (runId : String) : Except Failure Engine := do
  let run ← e.run? runId
  let follower : Follower := ⟨runId, run.log.subscriptions.length⟩
  return { e.change runId fun run => { run with log := run.log.subscribe } with
    followers := e.followers ++ [follower] }

/-- What a follower has read so far. -/
def subscriptionOf? (follower : Follower) : Option Subscription :=
  (Table.find? e.runs follower.runId).bind fun run =>
    run.log.subscriptions[follower.index]?

def record? (runId : String) : Except Failure (Option RunRecord) :=
  e.store .readRun (Repository.run? runId)

def records : Except Failure (List RunRecord) := e.store .listRuns Repository.allRuns

/-- An engine for some settings. -/
def ofSettings (settings : Settings) (stage : Stage) : Engine :=
  { stage
    dispatcher :=
      { policy := settings.policy
        limits := settings.limits
        defaultWait := settings.runner.defaultWait
        catalog := stage.catalog }
    failureMode := settings.runner.failureMode }

end Engine

end Workflow
