import Workflow.Chat
import Workflow.Json.Reader

/-!
Turns: the form in which a conversation is sent to a model. What stands between two replies is one
request; every reply of the model is one response.
-/

namespace Workflow

inductive RequestPart where
  | system (text : String)
  | user (text : String)
  | toolReturn (tool text callId : String)
  deriving DecidableEq

/-- The arguments of a call, as a model gives them. -/
inductive CallArguments where
  | none
  | fields (fields : Fields)
  | written (json : String)
  deriving DecidableEq

inductive ResponsePart where
  | text (text : String)
  | thinking (text : String)
  | toolCall (tool : String) (arguments : CallArguments) (callId : String)
  deriving DecidableEq

inductive Turn where
  | request (parts : List RequestPart)
  | response (parts : List ResponsePart)
  deriving DecidableEq

/-- The arguments of a call. A text that holds no mapping is kept as it is. -/
def CallArguments.read : CallArguments → Fields
  | .none => []
  | .fields given => given
  | .written json =>
    if json = "" then []
    else match Json.parse? json with
      | some (.map entries) => entries
      | _ => Fields.named [("INVALID_JSON", .str json)]

namespace ResponsePart

def text? : ResponsePart → Option String
  | .text content => some content
  | _ => none

def call? : ResponsePart → Option ToolCall
  | .toolCall tool arguments callId => some ⟨callId, tool, arguments.read⟩
  | _ => none

def encode : ResponsePart → Value
  | .text content => .strs ["text", content]
  | .thinking content => .strs ["thinking", content]
  | .toolCall tool arguments callId =>
    .list [.str "tool_call", .str tool, .map arguments.read, .str callId]

end ResponsePart

def RequestPart.encode : RequestPart → Value
  | .system content => .strs ["system", content]
  | .user content => .strs ["user", content]
  | .toolReturn tool content callId => .strs ["tool_return", tool, content, callId]

/-- What the model says and asks for in a response; its thinking is left out. -/
def ModelReply.ofParts (parts : List ResponsePart) : ModelReply :=
  { text := Text.join "" (parts.filterMap ResponsePart.text?)
    toolCalls := parts.filterMap ResponsePart.call? }

namespace Turn

/-- A message that goes to the model; the model's own messages do not. -/
def requestPart? (message : ChatMessage) : Option RequestPart :=
  match message.role with
  | .system => some (.system message.content)
  | .user => some (.user message.content)
  | .tool =>
    some (.toolReturn (message.toolName.getD "") message.content (message.toolCallId.getD ""))
  | .assistant => none

def responseParts (message : ChatMessage) : List ResponsePart :=
  (if message.content = "" then [] else [.text message.content]) ++
    message.toolCalls.map fun call => .toolCall call.name (.fields call.arguments) call.id

/-- A request is not sent without parts. -/
def requestOf (pending : List RequestPart) : List Turn :=
  if pending.isEmpty then [] else [.request pending]

/-- The turns of the remaining messages, when `pending` stands before them. -/
def turnsFrom (pending : List RequestPart) : List ChatMessage → List Turn
  | [] => requestOf pending
  | message :: rest =>
    match requestPart? message with
    | some part => turnsFrom (pending ++ [part]) rest
    | none => requestOf pending ++ .response (responseParts message) :: turnsFrom [] rest

def encode : Turn → Value
  | .request parts =>
    .record [("kind", .str "request"), ("parts", .list (parts.map RequestPart.encode))]
  | .response parts =>
    .record [("kind", .str "response"), ("parts", .list (parts.map ResponsePart.encode))]

def ofMessages (messages : List ChatMessage) : List Turn := turnsFrom [] messages

end Turn

end Workflow
