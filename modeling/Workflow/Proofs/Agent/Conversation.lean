import Workflow.Agent
import Workflow.Proofs.Program.Dialogue

/-!
# Conversations of an agent

What an agent and its world can say is laid down by rules: how the calls of one reply are answered
(`Answering`), and how a conversation goes on after some rounds (`Conversation`). From these rules
it follows how a conversation can end (`Finish`), and that every list of messages that is sent to a
model consists of complete rounds.
-/

namespace Workflow.Agent

open Exchange

/-- What a model is told about a tool that was run. A failure that is no failure of the tool itself
ends the conversation. -/
def toolText? : Except Failure String → Option String
  | .ok output => some output
  | .error failure => toolErrorText? failure

/-- What the calls of a reply come to, when `used` tools were run before: the texts that the model
is told, or the end of the conversation. -/
inductive Answering (limits : Limits) (task : Task) :
    List ToolCall → Nat → List Exchange → Except Ending (List String) → Prop
  | nil (used : Nat) : Answering limits task [] used [] (.ok [])
  | skipped {call : ToolCall} {calls : List ToolCall} {used : Nat} {exchanges : List Exchange}
    {outcome : Except Ending (List String)} (hdisabled : task.isEnabled call.name = false)
    (hrest : Answering limits task calls used exchanges outcome) :
    Answering limits task (call :: calls) used exchanges
      (outcome.map (notEnabled call.name :: ·))
  | limited {call : ToolCall} (calls : List ToolCall) {used : Nat} {failure : Failure}
    (henabled : task.isEnabled call.name = true)
    (hlimit : limits.toolLimitReached? used = some failure) :
    Answering limits task (call :: calls) used [] (.error ⟨.error failure, .failed⟩)
  | told {call : ToolCall} {calls : List ToolCall} {used : Nat} {exchanges : List Exchange}
    {outcome : Except Ending (List String)} {reply : Except Failure String} {text : String}
    (henabled : task.isEnabled call.name = true) (hlimit : limits.toolLimitReached? used = none)
    (htext : toolText? reply = some text)
    (hrest : Answering limits task calls (used + 1) exchanges outcome) :
    Answering limits task (call :: calls) used
      (.answered (.tool call.name call.arguments) reply :: exchanges) (outcome.map (text :: ·))
  | escaped {call : ToolCall} (calls : List ToolCall) {used : Nat} {failure : Failure}
    (henabled : task.isEnabled call.name = true) (hlimit : limits.toolLimitReached? used = none)
    (hescapes : toolErrorText? failure = none) :
    Answering limits task (call :: calls) used
      [.answered (.tool call.name call.arguments) (.error failure)]
      (.error ⟨.error failure, .awaitingTool⟩)

/-- The messages with which a model is told about its calls. -/
def toolReplies (calls : List ToolCall) (texts : List String) : List ChatMessage :=
  List.zipWith toolReply calls texts

theorem toolReplies_cons (call : ToolCall) (calls : List ToolCall) (text : String)
    (texts : List String) :
    toolReplies (call :: calls) (text :: texts) = toolReply call text :: toolReplies calls texts :=
  rfl

/-- Tools are run by the rules. -/
theorem answering_runTools (limits : Limits) (task : Task) (world : World) (calls : List ToolCall)
    (messages : List ChatMessage) (used : Nat) (before : List Exchange) :
    let dialogue := (runTools limits task calls messages used).dialogue world before
    ∃ outcome, Answering limits task calls used dialogue.exchanges outcome ∧
      dialogue.value = outcome.map fun texts =>
        (messages ++ toolReplies calls texts, used + dialogue.exchanges.length) := by
  induction calls generalizing messages used before with
  | nil =>
      refine ⟨_, .nil used, ?_⟩
      simp [runTools, Except.map, toolReplies]
  | cons call calls ih =>
      unfold runTools
      cases henabled : task.isEnabled call.name with
      | false =>
          obtain ⟨outcome, hrest, hvalue⟩ :=
            ih (messages ++ [toolReply call (notEnabled call.name)]) used before
          refine ⟨_, .skipped henabled hrest, hvalue.trans ?_⟩
          cases outcome <;> simp [Except.map, toolReplies_cons]
      | true =>
          cases hlimit : limits.toolLimitReached? used with
          | some failure => exact ⟨_, .limited calls henabled hlimit, rfl⟩
          | none =>
              -- Outputs and failures of the tool itself go on in the same way, with another text.
              have htold (reply : Except Failure String) (text : String)
                  (htext : toolText? reply = some text) :
                  let rest := (runTools limits task calls (messages ++ [toolReply call text])
                    (used + 1)).dialogue world
                      (before ++ [.answered (.tool call.name call.arguments) reply])
                  ∃ outcome, Answering limits task (call :: calls) used
                      (.answered (.tool call.name call.arguments) reply :: rest.exchanges)
                      outcome ∧
                    rest.value = outcome.map fun texts =>
                      (messages ++ toolReplies (call :: calls) texts,
                        used + (rest.exchanges.length + 1)) := by
                obtain ⟨outcome, hrest, hvalue⟩ := ih (messages ++ [toolReply call text]) (used + 1)
                  (before ++ [.answered (.tool call.name call.arguments) reply])
                refine ⟨_, .told henabled hlimit htext hrest, hvalue.trans ?_⟩
                cases outcome <;> simp [Except.map, toolReplies_cons]
                omega
              simp only [Bool.not_true, Bool.false_eq_true, if_false]
              rw [Program.dialogue_perform_bind]
              generalize world.reply before (.tool call.name call.arguments) = reply
              cases reply with
              | ok output => exact htold (.ok output) output rfl
              | error failure =>
                  dsimp only
                  cases htext : toolErrorText? failure with
                  | none => exact ⟨_, .escaped calls henabled hlimit htext, rfl⟩
                  | some text => exact htold (.error failure) text htext

theorem Answering.length_texts {limits : Limits} {task : Task} {calls : List ToolCall} {used : Nat}
    {exchanges : List Exchange} {outcome : Except Ending (List String)} {texts : List String}
    (h : Answering limits task calls used exchanges outcome) (hok : outcome = .ok texts) :
    texts.length = calls.length := by
  induction h generalizing texts with
  | nil used => cases hok; rfl
  | limited calls henabled hlimit => cases hok
  | escaped calls henabled hlimit hescapes => cases hok
  | @skipped call calls used exchanges outcome hdisabled hrest ih =>
      cases outcome with
      | error ending => cases hok
      | ok rest =>
          cases hok
          simp [ih rfl]
  | @told call calls used exchanges outcome reply text henabled hlimit htext hrest ih =>
      cases outcome with
      | error ending => cases hok
      | ok rest =>
          cases hok
          simp [ih rfl]

/-! ### Rounds -/

/-- A round: a reply of the model that asks for tools, and what it was told about each of its
calls. -/
structure Round where
  reply : ModelReply
  texts : List String
  asks : reply.toolCalls ≠ []
  isComplete : texts.length = reply.toolCalls.length

def assistantMessage (reply : ModelReply) : ChatMessage :=
  { role := .assistant, content := reply.text, toolCalls := reply.toolCalls }

def Round.messages (round : Round) : List ChatMessage :=
  assistantMessage round.reply :: toolReplies round.reply.toolCalls round.texts

/-- The messages of a conversation after some rounds. -/
def messagesAfter (task : Task) (rounds : List Round) : List ChatMessage :=
  opening task ++ rounds.flatMap Round.messages

theorem messagesAfter_concat (task : Task) (rounds : List Round) (round : Round) :
    messagesAfter task (rounds ++ [round]) = messagesAfter task rounds ++ round.messages := by
  simp [messagesAfter]

/-- The result of a conversation that is answered after some rounds. -/
def resultOf (task : Task) (rounds : List Round) (reply : ModelReply) (used : Nat) : Result :=
  { answer := reply.text
    trace :=
      (messagesAfter task rounds ++ [assistantMessage reply]).map fun m => (m.role, m.content)
    iterations := rounds.length + 1
    toolCalls := used }

/-- How a conversation goes on after some rounds, in which `used` tools were run, when the model may
be asked `remaining` more times. -/
inductive Conversation (limits : Limits) (task : Task) :
    List Round → Nat → Nat → List Exchange → Ending → Prop
  | exhausted (rounds : List Round) (used : Nat) :
    Conversation limits task rounds used 0 [] ⟨.error (iterationLimit limits), .failed⟩
  | failed (rounds : List Round) (used remaining : Nat) (failure : Failure) :
    Conversation limits task rounds used (remaining + 1)
      [.answered (.model (requestOf task (messagesAfter task rounds))) (.error failure)]
      ⟨.error failure, .awaitingModel⟩
  | answered (rounds : List Round) (used remaining : Nat) {reply : ModelReply}
    (hfinal : reply.toolCalls = []) :
    Conversation limits task rounds used (remaining + 1)
      [.answered (.model (requestOf task (messagesAfter task rounds))) (.ok reply)]
      ⟨.ok (resultOf task rounds reply used), .done⟩
  | stopped (rounds : List Round) {used : Nat} (remaining : Nat) {reply : ModelReply}
    {exchanges : List Exchange} {ending : Ending} (hasks : reply.toolCalls ≠ [])
    (hstopped : Answering limits task reply.toolCalls used exchanges (.error ending)) :
    Conversation limits task rounds used (remaining + 1)
      (.answered (.model (requestOf task (messagesAfter task rounds))) (.ok reply) :: exchanges)
      ending
  | goesOn {rounds : List Round} {used remaining : Nat} (round : Round)
    {exchanges more : List Exchange} {ending : Ending}
    (htold : Answering limits task round.reply.toolCalls used exchanges (.ok round.texts))
    (hrest : Conversation limits task (rounds ++ [round]) (used + exchanges.length) remaining more
      ending) :
    Conversation limits task rounds used (remaining + 1)
      (.answered (.model (requestOf task (messagesAfter task rounds))) (.ok round.reply) ::
        (exchanges ++ more))
      ending

/-- Models are asked by the rules. -/
theorem conversation_converse (limits : Limits) (task : Task) (world : World) (rounds : List Round)
    (used remaining : Nat) (before : List Exchange) :
    let dialogue := (converse limits task rounds.length remaining (messagesAfter task rounds)
      used).dialogue world before
    Conversation limits task rounds used remaining dialogue.exchanges dialogue.value := by
  -- The program carries the messages themselves; they are those after the rounds so far.
  induction remaining generalizing rounds used before with
  | zero => exact .exhausted rounds used
  | succ remaining ih =>
      unfold converse
      rw [Program.dialogue_perform_bind]
      generalize world.reply before _ = reply
      cases reply with
      | error failure => exact .failed rounds used remaining failure
      | ok reply =>
          dsimp only
          cases hcalls : reply.toolCalls.isEmpty with
          | true => exact .answered rounds used remaining (List.isEmpty_iff.mp hcalls)
          | false =>
              have hasks : reply.toolCalls ≠ [] := by simpa using hcalls
              simp only [Bool.false_eq_true, if_false]
              rw [Program.dialogue_bind]
              have htools := answering_runTools limits task world reply.toolCalls
                (messagesAfter task rounds ++ [assistantMessage reply]) used
                (before ++ [.answered (.model (requestOf task (messagesAfter task rounds)))
                  (.ok reply)])
              rw [assistantMessage] at htools
              generalize (runTools limits task reply.toolCalls _ used).dialogue world _ = first
                at htools ⊢
              obtain ⟨exchanges, value⟩ := first
              obtain ⟨outcome, htold, hvalue⟩ := htools
              dsimp only at htold hvalue
              subst hvalue
              cases outcome with
              | error ending => simpa [Dialogue.cons, Except.map] using
                  Conversation.stopped rounds remaining hasks htold
              | ok texts =>
                  let round : Round := ⟨reply, texts, hasks, htold.length_texts rfl⟩
                  have hmessages : messagesAfter task (rounds ++ [round]) =
                      messagesAfter task rounds ++ [assistantMessage reply] ++
                        toolReplies reply.toolCalls texts := by
                    simp [messagesAfter_concat, Round.messages, round]
                  have hrest := ih (rounds ++ [round]) (used + exchanges.length)
                    (before ++ [.answered (.model (requestOf task (messagesAfter task rounds)))
                      (.ok reply)] ++ exchanges)
                  rw [hmessages, List.length_append] at hrest
                  exact .goesOn round htold hrest

theorem conversation_run (limits : Limits) (task : Task) (world : World) (before : List Exchange) :
    let dialogue := (run limits task).dialogue world before
    Conversation limits task [] 0 limits.maxIterations dialogue.exchanges dialogue.value := by
  have hstart : messagesAfter task [] = opening task := by simp [messagesAfter]
  have h := conversation_converse limits task world [] 0 limits.maxIterations before
  rw [hstart] at h
  exact h

end Workflow.Agent
