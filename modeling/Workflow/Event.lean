import Workflow.Calendar
import Workflow.Validation.Record
import Workflow.Validation.Scalar

/-!
Events: what a run tells about itself. They are numbered from zero in the order in which they are
emitted, and most of them belong to a step.
-/

namespace Workflow

inductive EventLevel where
  | info
  | success
  | error
  deriving DecidableEq, Repr

namespace EventLevel

def name : EventLevel → String
  | .info => "info"
  | .success => "success"
  | .error => "error"

def all : List EventLevel := [.info, .success, .error]

def ofName? (name : String) : Option EventLevel := all.find? (·.name == name)

/-- The severity of a line in the system's log. -/
def severity : EventLevel → Nat
  | .error => 40
  | _ => 20

end EventLevel

/-- What an event says, before it is emitted. -/
structure Message where
  level : EventLevel
  text : String
  stepId : Option String := none
  deriving DecidableEq

structure Event where
  seq : Nat
  message : Message
  time : Moment
  deriving DecidableEq

namespace Message

def info (text : String) (stepId : Option String := none) : Message := ⟨.info, text, stepId⟩

def success (text : String) (stepId : Option String := none) : Message := ⟨.success, text, stepId⟩

def error (text : String) (stepId : Option String := none) : Message := ⟨.error, text, stepId⟩

/-- A message from unchecked data. -/
def check (level : EventLevel) (text stepId : Value) : Checked Message :=
  Message.mk level
    <$> (Decode.text text).within (.field "message")
    <*> (Decode.nullable Decode.text stepId).within (.field "step_id")

/-- The step of a message in brackets, unless there is none. -/
def place (before after : String) (message : Message) : String :=
  match message.stepId.filter (· ≠ "") with
  | some id => before ++ "[" ++ id ++ "]" ++ after
  | none => ""

/-- A line for the system's log. -/
def logLine (runId : String) (message : Message) : String :=
  "run=" ++ runId ++ message.place " " "" ++ " " ++ message.level.name ++ ": " ++ message.text

end Message

def Event.encode (event : Event) : Value :=
  .record
    [("seq", .int event.seq),
      ("level", .str event.message.level.name),
      ("message", .str event.message.text),
      ("step_id", .ofOption .str event.message.stepId),
      ("at", .str event.time.iso)]

/-- A line for a reader who follows the run. -/
def Event.line (event : Event) : String :=
  let level := event.message.level.name
  event.time.timeText ++ " " ++ level ++
    String.ofList (List.replicate (7 - level.length) ' ') ++ " " ++
    event.message.place "" " " ++ event.message.text

end Workflow
