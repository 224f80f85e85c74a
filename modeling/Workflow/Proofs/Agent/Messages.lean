import Workflow.Proofs.Agent.Ending

/-!
# The messages of a conversation

Every list of messages that an agent sends to its model is the opening followed by complete rounds:
a reply that asks for tools, and one answer to each of its calls, in their order. The trace of a
conversation that was answered is the last such list and the answer.
-/

namespace Workflow.Agent

open Exchange

variable {limits : Limits} {task : Task}

theorem role_of_mem_toolReplies {calls : List ToolCall} {texts : List String}
    {message : ChatMessage} (hmem : message ∈ toolReplies calls texts) : message.role = .tool := by
  induction calls generalizing texts with
  | nil => simp [toolReplies] at hmem
  | cons call calls ih =>
      cases texts with
      | nil => simp [toolReplies] at hmem
      | cons text texts =>
          rw [toolReplies_cons, List.mem_cons] at hmem
          rcases hmem with rfl | hmem
          · rfl
          · exact ih hmem

/-- A round has one message of the model. -/
theorem countP_assistant_round (round : Round) :
    round.messages.countP (·.role = .assistant) = 1 := by
  have hnone : (toolReplies round.reply.toolCalls round.texts).countP
      (·.role = .assistant) = 0 := by
    rw [List.countP_eq_zero]
    intro message hmem
    simp [role_of_mem_toolReplies hmem]
  simp [Round.messages, assistantMessage, hnone]

theorem countP_assistant_messagesAfter (rounds : List Round) :
    (messagesAfter task rounds).countP (·.role = .assistant) = rounds.length := by
  have hrounds : (rounds.flatMap Round.messages).countP (·.role = .assistant) = rounds.length := by
    induction rounds with
    | nil => rfl
    | cons round rounds ih =>
        rw [List.flatMap_cons, List.countP_append, ih, countP_assistant_round, List.length_cons,
          Nat.add_comm]
  rw [messagesAfter, List.countP_append, hrounds]
  simp [opening]

/-- The first question to a model that has yet to reply. -/
theorem messages_of_first {rounds : List Round} {index : Nat} {request : ModelRequest}
    (hrequest : [requestOf task (messagesAfter task rounds)][index]? = some request)
    (replies : List ModelReply) :
    ∃ later : List Round, later.length = index ∧ later.map (·.reply) = replies.take index ∧
      request.messages = messagesAfter task (rounds ++ later) := by
  cases index with
  | zero =>
      cases hrequest
      exact ⟨[], rfl, rfl, by simp [requestOf]⟩
  | succ index => simp at hrequest

/-- What a model is sent when it has replied some times is made of as many rounds. -/
theorem Conversation.messages_of_request {rounds : List Round} {used remaining : Nat}
    {exchanges : List Exchange} {ending : Ending}
    (h : Conversation limits task rounds used remaining exchanges ending) {index : Nat}
    {request : ModelRequest} (hrequest : (modelRequests exchanges)[index]? = some request) :
    ∃ later : List Round, later.length = index ∧
      later.map (·.reply) = (modelReplies exchanges).take index ∧
      request.messages = messagesAfter task (rounds ++ later) := by
  induction h generalizing index with
  | exhausted => simp at hrequest
  | failed => exact messages_of_first hrequest _
  | answered => exact messages_of_first hrequest _
  | stopped rounds remaining hasks hstopped =>
      rw [modelRequests_model_cons, hstopped.onlyRunsTools.modelRequests_eq] at hrequest
      exact messages_of_first hrequest _
  | @goesOn rounds used remaining round exchanges more ending htold hrest ih =>
      rw [modelRequests_model_cons, modelRequests_append, htold.onlyRunsTools.modelRequests_eq,
        List.nil_append] at hrequest
      cases index with
      | zero => exact messages_of_first hrequest _
      | succ index =>
          obtain ⟨later, hlength, hreplies, hmessages⟩ := ih hrequest
          refine ⟨round :: later, by simp [hlength], ?_, ?_⟩
          · simp [hreplies, htold.onlyRunsTools.modelReplies_eq]
          · rw [hmessages, List.append_assoc]
            rfl

/-- Conversations are well formed: a model is sent the opening and, for each of its replies so far,
a complete round with that reply. The trace of an answered conversation is what was sent last, and
the answer. -/
theorem conversations_are_wellFormed (limits : Limits) (task : Task) (world : World)
    (before : List Exchange) :
    let dialogue := (run limits task).dialogue world before
    let requests := modelRequests dialogue.exchanges
    let replies := modelReplies dialogue.exchanges
    (∀ index request, requests[index]? = some request →
      ∃ rounds : List Round, rounds.map (·.reply) = replies.take index ∧ rounds.length = index ∧
        request.messages = opening task ++ rounds.flatMap Round.messages) ∧
    ∀ result, dialogue.value.result = .ok result →
      ∃ request reply, requests.getLast? = some request ∧ replies.getLast? = some reply ∧
        reply.toolCalls = [] ∧ result.answer = reply.text ∧
        result.trace =
          (request.messages ++ [assistantMessage reply]).map (fun m => (m.role, m.content)) ∧
        result.iterations = result.trace.countP (·.1 = .assistant) := by
  intro dialogue requests replies
  have hconversation := conversation_run limits task world before
  refine ⟨fun index request hrequest => ?_, fun result hresult => ?_⟩
  · obtain ⟨rounds, hlength, hreplies, hmessages⟩ := hconversation.messages_of_request hrequest
    exact ⟨rounds, hreplies, hlength, hmessages⟩
  · have hfinish : Finish limits task [] 0 limits.maxIterations dialogue.exchanges dialogue.value :=
      hconversation.finish
    generalize dialogue.value = ending at hfinish hresult
    cases hfinish with
    | @answered later reply hfinal hreplies hlast hserved =>
        cases hresult
        refine ⟨_, reply, hlast, ?_, hfinal, rfl, rfl, ?_⟩
        · exact (congrArg List.getLast? hreplies).trans (List.getLast?_concat ..)
        · have hcount : (messagesAfter task later ++ [assistantMessage reply]).countP
              (·.role = .assistant) = later.length + 1 := by
            rw [List.countP_append, countP_assistant_messagesAfter]
            rfl
          rw [resultOf, List.countP_map]
          exact hcount.symm
    | _ => cases hresult

end Workflow.Agent
