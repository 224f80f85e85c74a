import Workflow.Validation.Record
import Workflow.Validation.Scalar

/-!
Conversations with a model: messages, replies, and the tools a model may ask for.
-/

namespace Workflow

structure ToolCall where
  id : String
  name : String
  arguments : Fields := []
  deriving DecidableEq

inductive Role where
  | system
  | user
  | assistant
  | tool
  deriving DecidableEq, Repr

namespace Role

def name : Role → String
  | .system => "system"
  | .user => "user"
  | .assistant => "assistant"
  | .tool => "tool"

def all : List Role := [.system, .user, .assistant, .tool]

def ofName? (name : String) : Option Role := all.find? (·.name == name)

end Role

structure ChatMessage where
  role : Role
  content : String := ""
  toolCalls : List ToolCall := []
  toolCallId : Option String := none
  toolName : Option String := none
  deriving DecidableEq

structure ModelReply where
  text : String := ""
  toolCalls : List ToolCall := []
  deriving DecidableEq

structure ToolSpec where
  name : String
  description : String
  schema : Value
  deriving DecidableEq

structure ModelRequest where
  provider : String
  model : String
  messages : List ChatMessage
  tools : List ToolSpec
  secret : Option String
  settings : Option Fields

def ToolCall.decode : Decoder ToolCall :=
  Decode.record "ToolCall" fun fields =>
    ToolCall.mk
      <$> Decode.required fields ["id"] Decode.text
      <*> Decode.required fields ["name"] Decode.text
      <*> Decode.optional fields ["arguments"] [] Decode.mapping

def ModelReply.decode : Decoder ModelReply :=
  Decode.record "ModelReply" fun fields =>
    ModelReply.mk
      <$> Decode.optional fields ["text"] "" Decode.text
      <*> Decode.optional fields ["tool_calls"] [] (Decode.list ToolCall.decode)

def Role.decode : Decoder Role := fun value =>
  (Decode.literalText (Role.all.map Role.name) value).andThen fun name =>
    match Role.ofName? name with
    | some role => .valid role
    | none => .problem (.notLiteral (Role.all.map Role.name))

def ChatMessage.decode : Decoder ChatMessage :=
  Decode.record "ChatMessage" fun fields =>
    ChatMessage.mk
      <$> Decode.required fields ["role"] Role.decode
      <*> Decode.optional fields ["content"] "" Decode.text
      <*> Decode.optional fields ["tool_calls"] [] (Decode.list ToolCall.decode)
      <*> Decode.optional fields ["tool_call_id"] none (Decode.nullable Decode.text)
      <*> Decode.optional fields ["tool_name"] none (Decode.nullable Decode.text)

/-- What a message of some role says has to be a text. -/
def ChatMessage.checkContent (role : Role) (content : Value) : Except ValidationError String :=
  ((ChatMessage.decode (.record [("role", .str role.name), ("content", content)])).map
    ChatMessage.content).toExcept "ChatMessage"

def ToolCall.encode (call : ToolCall) : Value :=
  .record [("id", .str call.id), ("name", .str call.name), ("arguments", .map call.arguments)]

def ChatMessage.encode (message : ChatMessage) : Value :=
  .record
    [("role", .str message.role.name),
      ("content", .str message.content),
      ("tool_calls", .list (message.toolCalls.map ToolCall.encode)),
      ("tool_call_id", .ofOption .str message.toolCallId),
      ("tool_name", .ofOption .str message.toolName)]

def ModelReply.encode (reply : ModelReply) : Value :=
  .record
    [("text", .str reply.text), ("tool_calls", .list (reply.toolCalls.map ToolCall.encode))]

end Workflow
