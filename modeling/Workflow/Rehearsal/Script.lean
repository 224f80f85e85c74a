import Workflow.Action.Registry
import Workflow.Chat.Provider
import Workflow.Chat.Turn
import Workflow.Http.Request

/-!
Scripts for rehearsals: what actions, tools, servers and models reply, call by call.
-/

namespace Workflow

/-- How a call ends. -/
inductive Effect where
  | reply (value : Value)
  | failure (failure : Failure)
  /-- Shows what reached the call. -/
  | echo

/-- A call takes some seconds, and then it ends. -/
structure Behaviour where
  delay : Float := 0.0
  effect : Effect := .reply .null

/-- The behaviours of successive calls, the last of which is repeated. -/
structure Script where
  behaviours : List Behaviour
  played : Nat := 0

namespace Script

def noBehaviour : Behaviour :=
  { effect := .failure (.fault "IndexError" "list index out of range") }

def current (script : Script) : Behaviour :=
  (script.behaviours[script.played]?.or script.behaviours.getLast?).getD noBehaviour

def advance (script : Script) : Script := { script with played := script.played + 1 }

end Script

/-- One reply of a model, as unchecked data. -/
structure ModelLine where
  delay : Float := 0.0
  reply : Except Failure Value

namespace ModelLine

/-- What a model says when it has nothing left to say. -/
def last : ModelLine := { reply := .ok (.record [("text", .str "done")]) }

def result (line : ModelLine) : Except Failure ModelReply := do
  ((ModelReply.decode (← line.reply)).toExcept "ModelReply").mapError .invalid

end ModelLine

/-- A provider that is reached through a client: whether its client can be made, and the responses
of its models. -/
structure ProviderScript where
  /-- Whether only the clients that are known to take a secret are given one. -/
  isParticular : Bool := true
  refusal : Option Failure := none
  responses : List (Except Failure (List ResponsePart)) := []

end Workflow
