import Workflow.Chat.Turn
import Workflow.Proofs.Agent.Messages
import Mathlib.Data.List.Chain

/-!
# The turns of a conversation

Messages are sent to a model as turns: what stands between two messages of the model is put together
into one request. Every message is found again in the turns, in its place. What an agent sends to
its model begins with a request, goes on with responses and requests by turns and ends with a
request.
-/

namespace Workflow

namespace Turn

/-- A part of a turn, of either kind. -/
inductive Part where
  | sent (part : RequestPart)
  | said (part : ResponsePart)

def parts : Turn → List Part
  | .request parts => parts.map .sent
  | .response parts => parts.map .said

def isRequest : Turn → Bool
  | .request _ => true
  | .response _ => false

def response? : Turn → Option (List ResponsePart)
  | .request _ => none
  | .response parts => some parts

/-- Requests and responses by turns, from a request to a request. -/
structure Alternate (turns : List Turn) : Prop where
  alternate : turns.IsChain fun turn next => turn.isRequest ≠ next.isRequest
  first : turns.head?.map isRequest = some true
  last : turns.getLast?.map isRequest = some true

end Turn

/-- What a message is in a turn: one part for what goes to the model; for what the model has said,
its text, unless it is empty, and its calls. -/
def ChatMessage.parts (message : ChatMessage) : List Turn.Part :=
  match message.role with
  | .system => [.sent (.system message.content)]
  | .user => [.sent (.user message.content)]
  | .tool =>
    [.sent (.toolReturn (message.toolName.getD "") message.content (message.toolCallId.getD ""))]
  | .assistant =>
    (if message.content = "" then [] else [.said (.text message.content)]) ++
      message.toolCalls.map fun call => .said (.toolCall call.name (.fields call.arguments) call.id)

namespace Turn

variable {message : ChatMessage} {part : RequestPart} {pending : List RequestPart}

theorem parts_of_requestPart? (hpart : requestPart? message = some part) :
    message.parts = [.sent part] := by
  cases hrole : message.role <;> simp_all [requestPart?, ChatMessage.parts]

theorem requestPart?_eq_none_iff : requestPart? message = none ↔ message.role = .assistant := by
  cases hrole : message.role <;> simp [requestPart?, hrole]

theorem parts_of_assistant (hrole : message.role = .assistant) :
    message.parts = (responseParts message).map .said := by
  simp only [ChatMessage.parts, hrole, responseParts, List.map_append, List.map_map]
  split <;> rfl

/-- A response is read as the message that it was made of. -/
theorem ofParts_responseParts (message : ChatMessage) :
    ModelReply.ofParts (responseParts message) = ⟨message.content, message.toolCalls⟩ := by
  have htext : Text.join "" ((responseParts message).filterMap ResponsePart.text?) =
      message.content := by
    have hcalls : (message.toolCalls.map fun call =>
        ResponsePart.toolCall call.name (.fields call.arguments) call.id).filterMap
          ResponsePart.text? = [] := by
      simp [List.filterMap_map, Function.comp_def, ResponsePart.text?]
    rw [responseParts, List.filterMap_append, hcalls, List.append_nil]
    by_cases hempty : message.content = ""
    · rw [if_pos hempty, hempty]
      rfl
    · rw [if_neg hempty]
      rfl
  have hcalls : (responseParts message).filterMap ResponsePart.call? = message.toolCalls := by
    have hnone : (if message.content = "" then [] else
        [ResponsePart.text message.content]).filterMap ResponsePart.call? = [] := by
      split <;> rfl
    rw [responseParts, List.filterMap_append, hnone, List.nil_append, List.filterMap_map]
    exact List.filterMap_some
  rw [ModelReply.ofParts, htext, hcalls]

/-! ### Any messages -/

theorem turnsFrom_cons_request (hpart : requestPart? message = some part)
    (rest : List ChatMessage) :
    turnsFrom pending (message :: rest) = turnsFrom (pending ++ [part]) rest := by
  rw [turnsFrom, hpart]

theorem turnsFrom_cons_assistant (hrole : message.role = .assistant) (rest : List ChatMessage) :
    turnsFrom pending (message :: rest) =
      requestOf pending ++ .response (responseParts message) :: turnsFrom [] rest := by
  rw [turnsFrom, requestPart?_eq_none_iff.mpr hrole]

theorem requestOf_of_ne_nil (hpending : pending ≠ []) : requestOf pending = [.request pending] := by
  rw [requestOf, if_neg (by simpa using hpending)]

theorem parts_requestOf (pending : List RequestPart) :
    (requestOf pending).flatMap parts = pending.map .sent := by
  cases pending with
  | nil => rfl
  | cons part pending => rw [requestOf_of_ne_nil (by simp), List.flatMap_singleton, parts]

theorem parts_turnsFrom (pending : List RequestPart) (messages : List ChatMessage) :
    (turnsFrom pending messages).flatMap parts =
      pending.map .sent ++ messages.flatMap ChatMessage.parts := by
  induction messages generalizing pending with
  | nil => simp [turnsFrom, parts_requestOf]
  | cons message rest ih =>
      cases hpart : requestPart? message with
      | some part =>
          rw [turnsFrom_cons_request hpart, ih, List.flatMap_cons,
            parts_of_requestPart? hpart]
          simp
      | none =>
          have hrole := requestPart?_eq_none_iff.mp hpart
          rw [turnsFrom_cons_assistant hrole, List.flatMap_append, List.flatMap_cons,
            parts_requestOf, ih, List.flatMap_cons, parts_of_assistant hrole]
          rfl

/-- The responses are the messages of the model. -/
theorem responses_turnsFrom (pending : List RequestPart) (messages : List ChatMessage) :
    (turnsFrom pending messages).filterMap response? =
      (messages.filter (·.role = .assistant)).map responseParts := by
  have hrequest (pending : List RequestPart) : (requestOf pending).filterMap response? = [] := by
    cases pending <;> rfl
  induction messages generalizing pending with
  | nil => exact hrequest pending
  | cons message rest ih =>
      cases hpart : requestPart? message with
      | some part =>
          have hrole : message.role ≠ .assistant := fun hrole => by
            rw [requestPart?_eq_none_iff.mpr hrole] at hpart
            cases hpart
          rw [turnsFrom_cons_request hpart, ih, List.filter_cons_of_neg (by simpa using hrole)]
      | none =>
          have hrole := requestPart?_eq_none_iff.mp hpart
          rw [turnsFrom_cons_assistant hrole, List.filterMap_append, hrequest, List.nil_append,
            List.filter_cons_of_pos (by simpa using hrole), List.map_cons, ← ih []]
          rfl

/-- Nothing is pending after a response, so two requests never meet. -/
theorem isChain_turnsFrom (pending : List RequestPart) (messages : List ChatMessage) :
    (turnsFrom pending messages).IsChain fun turn next => ¬(turn.isRequest ∧ next.isRequest) := by
  induction messages generalizing pending with
  | nil => cases pending <;> simp [turnsFrom, requestOf]
  | cons message rest ih =>
      cases hpart : requestPart? message with
      | some part =>
          rw [turnsFrom_cons_request hpart]
          exact ih _
      | none =>
          rw [turnsFrom_cons_assistant (requestPart?_eq_none_iff.mp hpart)]
          refine List.isChain_append.mpr
            ⟨?_, List.isChain_cons.mpr ⟨by simp [isRequest], ih []⟩, by simp [isRequest]⟩
          cases pending <;> simp [requestOf]

theorem request_nil_notMem_turnsFrom (pending : List RequestPart) (messages : List ChatMessage) :
    .request [] ∉ turnsFrom pending messages := by
  have hrequest (pending : List RequestPart) : .request [] ∉ requestOf pending := by
    cases pending <;> simp [requestOf]
  induction messages generalizing pending with
  | nil => exact hrequest pending
  | cons message rest ih =>
      cases hpart : requestPart? message with
      | some part =>
          rw [turnsFrom_cons_request hpart]
          exact ih _
      | none =>
          rw [turnsFrom_cons_assistant (requestPart?_eq_none_iff.mp hpart)]
          simp [hrequest, ih]

/-! ### The messages of an agent -/

theorem turnsFrom_append {messages : List ChatMessage}
    (hothers : ∀ message ∈ messages, message.role ≠ .assistant) (rest : List ChatMessage) :
    turnsFrom pending (messages ++ rest) =
      turnsFrom (pending ++ messages.filterMap requestPart?) rest := by
  induction messages generalizing pending with
  | nil => simp
  | cons message messages ih =>
      obtain ⟨part, hpart⟩ : ∃ part, requestPart? message = some part :=
        Option.ne_none_iff_exists'.mp fun hnone =>
          hothers message List.mem_cons_self (requestPart?_eq_none_iff.mp hnone)
      rw [List.cons_append, turnsFrom_cons_request hpart,
        ih fun other hmem => hothers other (List.mem_cons_of_mem _ hmem),
        List.filterMap_cons_some hpart, List.append_assoc, List.singleton_append]

end Turn

namespace Agent

open Turn

def Round.answers (round : Round) : List RequestPart :=
  (toolReplies round.reply.toolCalls round.texts).filterMap requestPart?

/-- A round in turns: what the model has said, and one request with all that it is answered. -/
def Round.turns (round : Round) : List Turn :=
  [.response (responseParts (assistantMessage round.reply)), .request round.answers]

theorem Round.answers_ne_nil (round : Round) : round.answers ≠ [] := by
  obtain ⟨reply, texts, hasks, hcomplete⟩ := round
  rw [answers]
  dsimp only
  cases hcalls : reply.toolCalls with
  | nil => exact absurd hcalls hasks
  | cons call calls =>
      cases texts with
      | nil => simp [hcalls] at hcomplete
      | cons text texts =>
          have hpart : requestPart? (toolReply call text) =
              some (.toolReturn call.name text call.id) := rfl
          rw [toolReplies_cons, List.filterMap_cons_some hpart]
          exact List.cons_ne_nil _ _

theorem turnsFrom_rounds {pending : List RequestPart} (hpending : pending ≠ [])
    (rounds : List Round) :
    turnsFrom pending (rounds.flatMap Round.messages) =
      .request pending :: rounds.flatMap Round.turns := by
  induction rounds generalizing pending with
  | nil => exact requestOf_of_ne_nil hpending
  | cons round rounds ih =>
      have hothers : ∀ message ∈ toolReplies round.reply.toolCalls round.texts,
          message.role ≠ .assistant := by
        intro message hmem
        rw [role_of_mem_toolReplies hmem]
        decide
      rw [List.flatMap_cons, Round.messages, List.cons_append, turnsFrom_cons_assistant rfl,
        turnsFrom_append hothers, List.nil_append, ← Round.answers, ih round.answers_ne_nil,
        requestOf_of_ne_nil hpending]
      rfl

theorem ofMessages_messagesAfter (task : Task) (rounds : List Round) :
    ofMessages (messagesAfter task rounds) =
      .request [.system task.systemPrompt, .user task.userPrompt] ::
        rounds.flatMap Round.turns := by
  have hopening : ofMessages (messagesAfter task rounds) =
      turnsFrom [.system task.systemPrompt, .user task.userPrompt]
        (rounds.flatMap Round.messages) := by
    rw [ofMessages, messagesAfter, opening, turnsFrom_append (by simp)]
    rfl
  rw [hopening, turnsFrom_rounds (by simp)]

theorem alternate_rounds (parts : List RequestPart) (rounds : List Round) :
    Alternate (.request parts :: rounds.flatMap Round.turns) := by
  induction rounds generalizing parts with
  | nil => exact ⟨List.isChain_singleton _, rfl, rfl⟩
  | cons round rounds ih =>
      have hrest := ih round.answers
      refine ⟨?_, rfl, ?_⟩
      · exact List.isChain_cons_cons.mpr ⟨by simp [isRequest],
          List.isChain_cons_cons.mpr ⟨by simp [isRequest], hrest.alternate⟩⟩
      · exact hrest.last

end Agent

/-- **Nothing is lost.** The parts of the turns are those of the messages, one message after the
other. For each message of the model there is one response, which has its parts and is read as its
text and its calls; no two requests meet, and none is empty. In what an agent sends to its model,
requests and responses alternate from the first request to the last one. -/
theorem Turn.conversion_loses_nothing :
    (∀ messages, let turns := ofMessages messages
      turns.flatMap parts = messages.flatMap ChatMessage.parts ∧
      (turns.filterMap response?).map (·.map .said) =
        (messages.filter (·.role = .assistant)).map ChatMessage.parts ∧
      (turns.filterMap response?).map ModelReply.ofParts =
        (messages.filter (·.role = .assistant)).map (fun m => ⟨m.content, m.toolCalls⟩) ∧
      turns.IsChain (fun turn next => ¬(turn.isRequest ∧ next.isRequest)) ∧
      .request [] ∉ turns) ∧
    ∀ (limits : Agent.Limits) (task : Agent.Task) (world : World) (before : List Exchange),
      ∀ request ∈ Exchange.modelRequests
          ((Agent.run limits task).dialogue world before).exchanges,
        Alternate (ofMessages request.messages) := by
  refine ⟨fun messages => ⟨?_, ?_, ?_, isChain_turnsFrom [] messages,
    request_nil_notMem_turnsFrom [] messages⟩, fun limits task world before request hmem => ?_⟩
  · exact (parts_turnsFrom [] messages).trans (List.nil_append _)
  · rw [ofMessages, responses_turnsFrom, List.map_map]
    refine List.map_congr_left fun message hmem => (parts_of_assistant ?_).symm
    simpa using (List.mem_filter.mp hmem).2
  · rw [ofMessages, responses_turnsFrom, List.map_map]
    exact List.map_congr_left fun message _ => ofParts_responseParts message
  · obtain ⟨index, hrequest⟩ := List.mem_iff_getElem?.mp hmem
    obtain ⟨rounds, -, -, hmessages⟩ :=
      (Agent.conversation_run limits task world before).messages_of_request hrequest
    rw [hmessages, Agent.ofMessages_messagesAfter]
    exact Agent.alternate_rounds _ _

end Workflow
