import Workflow.Definition
import Workflow.Program

/-!
The conversation of an agent: a model is asked again and again, and the tools it asks for are run
in between, until it replies without asking for one. Tools outside the enabled ones are not run;
the model is told so.
-/

namespace Workflow.Agent

inductive State where
  | awaitingModel
  | awaitingTool
  | done
  | failed
  deriving DecidableEq, Repr

def State.name : State → String
  | .awaitingModel => "awaiting_model"
  | .awaitingTool => "awaiting_tool"
  | .done => "done"
  | .failed => "failed"

def Limits.defaultMaxIterations : { n : Nat // 1 ≤ n } := ⟨10, by decide⟩

structure Limits where
  maxIterations : { n : Nat // 1 ≤ n } := Limits.defaultMaxIterations
  maxToolCalls : Option Int := none

/-- Limits from counts, of which the first has to be positive. -/
def Limits.ofCounts (maxIterations : Int) (maxToolCalls : Option Int) : Except Failure Limits :=
  if h : 1 ≤ maxIterations.toNat then
    .ok { maxIterations := ⟨maxIterations.toNat, h⟩, maxToolCalls }
  else .error (.wrongValue "max_iterations must be at least 1")

structure Task where
  provider : String
  model : String
  systemPrompt : String
  userPrompt : String
  tools : List ToolSpec
  secret : Option String
  settings : Option Fields

structure Result where
  answer : String
  trace : List (Role × String)
  iterations : Nat
  toolCalls : Nat
  deriving DecidableEq

/-- What a conversation comes to, and the state it is left in. -/
structure Ending where
  result : Except Failure Result
  state : State

/-- The specs of the enabled tools: one for each name, the last one of its name. -/
def enabled (tools : List ToolSpec) : List ToolSpec :=
  (Table.ofEntries (tools.map fun spec => (spec.name, spec))).map (·.2)

def Task.isEnabled (task : Task) (name : String) : Bool := task.tools.any (·.name == name)

def toolReply (call : ToolCall) (content : String) : ChatMessage :=
  { role := .tool, content, toolCallId := some call.id, toolName := some call.name }

def notEnabled (name : String) : String := "Error: tool " ++ name ++ " is not enabled"

def iterationLimit (limits : Limits) : Failure :=
  .ofKind .agentLimit
    ("Agent did not produce a final answer within " ++ toString limits.maxIterations.val ++
      " model invocations")

def toolLimit (limit : Int) : Failure :=
  .ofKind .agentLimit ("Agent exceeded the limit of " ++ toString limit ++ " tool calls")

def Limits.toolLimitReached? (limits : Limits) (used : Nat) : Option Failure :=
  match limits.maxToolCalls with
  | some limit => if limit ≤ used then some (toolLimit limit) else none
  | none => none

/-- What a failed tool tells the model; other failures end the conversation. -/
def toolErrorText? : Failure → Option String
  | .typed .toolError message _ => some ("Error: " ++ message)
  | failure@(.toolArguments ..) => some ("Error: " ++ failure.text)
  | _ => none

/-- Answers the calls of a reply one after the other. `used` counts the tools run so far. -/
def runTools (limits : Limits) (task : Task) :
    List ToolCall → List ChatMessage → Nat → Program (Except Ending (List ChatMessage × Nat))
  | [], messages, used => return .ok (messages, used)
  | call :: calls, messages, used => do
    if !task.isEnabled call.name then
      runTools limits task calls (messages ++ [toolReply call (notEnabled call.name)]) used
    else match limits.toolLimitReached? used with
      | some failure => return .error ⟨.error failure, .failed⟩
      | none =>
        match ← Program.perform (.tool call.name call.arguments) with
        | Except.ok output =>
          runTools limits task calls (messages ++ [toolReply call output]) (used + 1)
        | Except.error failure =>
          match toolErrorText? failure with
          | some text => runTools limits task calls (messages ++ [toolReply call text]) (used + 1)
          | none => return .error ⟨.error failure, .awaitingTool⟩

def requestOf (task : Task) (messages : List ChatMessage) : ModelRequest :=
  { provider := task.provider
    model := task.model
    messages
    tools := enabled task.tools
    secret := task.secret
    settings := task.settings }

/-- Asks the model at most `remaining` times; it has been asked `asked` times so far. -/
def converse (limits : Limits) (task : Task) (asked : Nat) :
    Nat → List ChatMessage → Nat → Program Ending
  | 0, _, _ => return ⟨.error (iterationLimit limits), .failed⟩
  | remaining + 1, messages, used => do
    match ← Program.perform (.model (requestOf task messages)) with
    | Except.error failure => return ⟨.error failure, .awaitingModel⟩
    | Except.ok reply =>
      let messages := messages ++
        [{ role := .assistant, content := reply.text, toolCalls := reply.toolCalls }]
      if reply.toolCalls.isEmpty then
        return ⟨.ok
          { answer := reply.text
            trace := messages.map fun m => (m.role, m.content)
            iterations := asked + 1
            toolCalls := used }, .done⟩
      else match ← runTools limits task reply.toolCalls messages used with
        | .error ending => return ending
        | .ok (messages, used) => converse limits task (asked + 1) remaining messages used

def opening (task : Task) : List ChatMessage :=
  [{ role := .system, content := task.systemPrompt }, { role := .user, content := task.userPrompt }]

def run (limits : Limits) (task : Task) : Program Ending :=
  converse limits task 0 limits.maxIterations (opening task) 0

def Result.encode (r : Result) : Value :=
  .record
    [("answer", .str r.answer),
      ("trace", .list (r.trace.map fun entry =>
        .record [("role", .str entry.1.name), ("content", .str entry.2)])),
      ("iterations", .int r.iterations),
      ("tool_calls", .int r.toolCalls)]

end Workflow.Agent
