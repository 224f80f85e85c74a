import Workflow.Chat
import Workflow.Failure

/-!
Programs: computations that ask the world for something and go on with its reply. Whoever runs a
program decides the replies, so a statement about all replies is a statement about the program.
-/

namespace Workflow

inductive Call where
  | external (serviceId actionId : String) (parameters : Fields) (secret : Option String)
    (incoming : Fields)
  | model (request : ModelRequest)
  | tool (name : String) (arguments : Fields)
  | secret (credentialId : String)
  | sleep (seconds : Float)
  /-- The time, in seconds. -/
  | clock
  /-- A random number from the unit interval. -/
  | draw
  /-- Announces that an attempt begins. -/
  | attempt (number : Nat)

@[reducible] def Call.Reply : Call → Type
  | .external .. => Except Failure Value
  | .model _ => Except Failure ModelReply
  | .tool .. => Except Failure String
  | .secret _ => Option String
  | .sleep _ => Unit
  | .clock => Float
  | .draw => Float
  | .attempt _ => Unit

inductive Program (α : Type) where
  | done (value : α)
  | ask (call : Call) (next : call.Reply → Program α)
  /-- A reply that is not there at the deadline is not waited for. -/
  | askBefore (deadline : Float) (call : Call) (next : call.Reply → Program α) (late : Program α)

namespace Program

variable {α β : Type}

protected def bind (f : α → Program β) : Program α → Program β
  | .done a => f a
  | .ask call next => .ask call fun reply => (next reply).bind f
  | .askBefore deadline call next late =>
    .askBefore deadline call (fun reply => (next reply).bind f) (late.bind f)

instance : Monad Program where
  pure := .done
  bind p f := p.bind f

/-- Asks for one thing and returns the reply. -/
def perform (call : Call) : Program call.Reply := .ask call .done

/-- The program, given up at a deadline unless it is done by then. -/
def within (deadline : Float) : Program α → Program (Option α)
  | .done a => .done (some a)
  | .ask call next =>
    .askBefore deadline call (fun reply => (next reply).within deadline) (.done none)
  | .askBefore earlier call next late =>
    .askBefore earlier call (fun reply => (next reply).within deadline) (late.within deadline)

end Program

end Workflow
