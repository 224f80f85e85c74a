import Workflow.Run.Lifecycle

/-!
# The course of a run

A run is not alone: the repository is told of it, a driver begins it and has the last word on it,
and the invocations of its steps go on side by side. What one of them does between two waits is a
move. A play is any sequence of moves that are possible one after the other, so a statement about
all plays is a statement about all interleavings, whatever the capabilities and the repository
reply.
-/

namespace Workflow

/-- How far a run has come. -/
inductive Phase where
  /-- The run is known, and the repository is being told of it. -/
  | registered
  /-- The repository has not taken the run, and nothing drives it. -/
  | refused
  /-- The run is stored, and its driver has not begun it yet. -/
  | waiting
  | driving
  /-- The last words on the run are said, and the repository is being told of its end. -/
  | closing (failure : Option Failure)
  /-- The driver is through, perhaps with a failure. -/
  | closed (failure : Option Failure)
  deriving DecidableEq

/-- How far the invocation of a step has come. -/
inductive Progress where
  | released
  /-- The step has received what its parents have brought, and the repository is being told. -/
  | entering (incoming : Fields)
  /-- The step is with the dispatcher. -/
  | working (incoming : Fields)
  /-- The outcome is known, and the repository is being told. -/
  | leaving (outcome : Outcome)

/-- A run with all that goes on around it. -/
structure Course where
  run : Run
  phase : Phase := .registered
  invocations : Table String Progress := []

inductive Move where
  | store
  | refuse
  /-- Somebody asks for the end of the run, and is told whether the run was still open. -/
  | cancel (now : Moment) (reason : String) (isGranted : Bool)
  | begin (now : Moment)
  | enter (stepId : String)
  | hand (stepId : String) (incoming : Fields)
  | finish (now : Moment) (stepId : String) (incoming : Fields) (ending : Retry.Ending Value)
  | report (now : Moment) (stepId : String)
  /-- The repository fails while it is told about an invocation. -/
  | breakOff (stepId : String) (failure : Failure)
  /-- The task of an invocation is cancelled. -/
  | stop (stepId : String)
  | conclude (now : Moment)
  | close (failure : Option Failure)
  | stopDriver (now : Moment)
  | subscribe
  /-- A follower reads what there is to read. -/
  | read (index : Nat)

namespace Course

def register (id : String) (graph : Graph) (payload : Fields) (failureMode : FailureMode)
    (observers : List Observer) : Course :=
  { run := Run.create id graph payload failureMode observers }

variable (c : Course)

def triggerId : String := c.run.graph.trigger.id

def progress? (stepId : String) : Option Progress := Table.find? c.invocations stepId

def put (stepId : String) (progress : Progress) : Course :=
  { c with invocations := Table.insert c.invocations stepId progress }

def drop (stepId : String) : Course :=
  { c with invocations := c.invocations.eraseP (·.1 = stepId) }

/-- The driver is stopped while its run is going on; it still has the last word. -/
def stopDriving (now : Moment) : Course :=
  { c.drop c.triggerId with run := c.run.abandon.conclude now, phase := .closing (some .cancelled) }

/-- The driver begins the run; it takes the trigger to the dispatcher itself. -/
def begin (now : Moment) : Course :=
  match (Change.begin now).run c.run with
  | .ok true run =>
    { run
      phase := .driving
      invocations := c.invocations ++
        [(run.graph.trigger.id, .entering (run.incoming run.graph.trigger.id))] }
  | .ok false run => { c with run := run.conclude now, phase := .closing none }
  | .error failure run => { c with run := run.conclude now, phase := .closing (some failure) }

/-- The dispatcher is through with a step. An invocation that was cancelled leaves everything as it
is, but the driver does not survive it when it was its own. -/
def finish (now : Moment) (step : Step) (ending : Retry.Ending Value) : Course :=
  match Outcome.ofEnding? ending with
  | some outcome =>
    { c.put step.id (.leaving outcome) with run := c.run.announce now step outcome }
  | none => if step.id = c.triggerId then c.stopDriving now else c.drop step.id

def report (now : Moment) (step : Step) (outcome : Outcome) : Course :=
  let (released, run) := c.run.applyFor step.id (Change.complete now step outcome)
  { c with
    run
    invocations := (c.drop step.id).invocations ++ released.map fun id => (id, .released) }

def breakOff (stepId : String) (failure : Failure) : Course :=
  { c.drop stepId with run := c.run.failInternally stepId failure }

/-- What becomes of a run by a move, if the move is possible. -/
def step (c : Course) : Move → Option Course
  | .store =>
    match c.phase with
    | .registered => some { c with run := c.run.stored, phase := .waiting }
    | _ => none
  | .refuse =>
    match c.phase with
    | .registered => some { c with phase := .refused }
    | _ => none
  | .cancel now reason isGranted =>
    if (c.run.cancel now reason).1 = isGranted then
      some { c with run := (c.run.cancel now reason).2 }
    else none
  | .begin now =>
    match c.phase with
    | .waiting => some (c.begin now)
    | _ => none
  | .enter stepId =>
    match c.progress? stepId with
    | some .released => some (c.put stepId (.entering (c.run.incoming stepId)))
    | _ => none
  | .hand stepId incoming =>
    match c.progress? stepId with
    | some (.entering received) =>
      if received = incoming then some (c.put stepId (.working incoming)) else none
    | _ => none
  | .finish now stepId incoming ending =>
    match c.progress? stepId, c.run.graph.step? stepId with
    | some (.working received), some step =>
      if received = incoming then some (c.finish now step ending) else none
    | _, _ => none
  | .report now stepId =>
    match c.progress? stepId, c.run.graph.step? stepId with
    | some (.leaving outcome), some step => some (c.report now step outcome)
    | _, _ => none
  | .breakOff stepId failure =>
    match c.progress? stepId with
    | some (.entering _) => some (c.breakOff stepId failure)
    | some (.leaving _) => some (c.breakOff stepId failure)
    | _ => none
  | .stop stepId =>
    if (c.progress? stepId).isSome && stepId ≠ c.triggerId then some (c.drop stepId) else none
  | .conclude now =>
    match c.phase with
    | .driving =>
      if c.run.isFinished && (c.progress? c.triggerId).isNone then
        some { c with run := c.run.conclude now, phase := .closing none }
      else none
    | _ => none
  | .close problem =>
    match c.phase, problem with
    | .closing failure, none => some { c with run := c.run.closeLog, phase := .closed failure }
    | .closing _, some problem => some { c with phase := .closed (some problem) }
    | _, _ => none
  | .stopDriver now =>
    match c.phase with
    | .waiting => some { c with phase := .closed (some .cancelled) }
    | .driving => some (c.stopDriving now)
    | .closing _ => some { c with phase := .closed (some .cancelled) }
    | _ => none
  | .subscribe => some { c with run := { c.run with log := c.run.log.subscribe } }
  | .read index => some { c with
      run := { c.run with log := c.run.log.modifySubscription index Subscription.readAll } }

/-- What becomes of a run by a sequence of moves, if each is possible after those before it. -/
def play (c : Course) : List Move → Option Course
  | [] => some c
  | move :: moves => (c.step move).bind fun next => next.play moves

/-- The last step waits for two others, and its first incoming edge comes from the right one. -/
def diamond : Graph where
  definition :=
    { steps :=
        [⟨"start", none, none, .trigger⟩, ⟨"left", none, none, .wait none⟩,
          ⟨"right", none, none, .wait none⟩, ⟨"join", none, none, .wait none⟩]
      edges :=
        [⟨"start", "left"⟩, ⟨"start", "right"⟩, ⟨"right", "join"⟩, ⟨"left", "join"⟩] }
  trigger := ⟨"start", none, none, .trigger⟩
  nodup := by decide
  sound := by decide
  acyclic := by decide +kernel
  triggers_eq := by decide

/-- The moves of an invocation from the dispatcher to its report. -/
def invocation (id : String) (incoming : Fields) (ending : Retry.Ending Value) : List Move :=
  [.hand id incoming, .finish .origin id incoming ending, .report .origin id]

end Course

end Workflow
