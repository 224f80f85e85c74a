import Workflow.Proofs.Dispatch.Bounds
import Workflow.Proofs.Dispatch.Credentials
import Workflow.Proofs.Outcome

/-!
# What an invocation owes its run

As long as no capability is cancelled, an invocation comes to an outcome, and the outcome is told in
one event. Its error is what the last attempt has raised: its own failure, or that of reckoning the
pause before another attempt. While the invocation lasts, its engine leaves all runs alone.
-/

namespace Workflow

open Exchange

/-- A capability was cancelled while it was called upon. -/
def Exchange.IsCancelled : Exchange → Prop
  | .answered (.external ..) reply => reply = .error .cancelled
  | .answered (.model _) reply => reply = .error .cancelled
  | .answered (.tool ..) reply => reply = .error .cancelled
  | _ => False

/-! ### Cancelled conversations -/

namespace Agent

variable {limits : Limits} {task : Task} {exchanges : List Exchange}

theorem Answering.exists_isCancelled {calls : List ToolCall} {used : Nat}
    {outcome : Except Ending (List String)} {ending : Ending}
    (h : Answering limits task calls used exchanges outcome) (hstopped : outcome = .error ending)
    (hcancelled : ending.result = .error .cancelled) :
    ∃ exchange ∈ exchanges, exchange.IsCancelled := by
  induction h with
  | nil => cases hstopped
  | @skipped call calls used exchanges outcome hdisabled hrest ih =>
      cases outcome with
      | ok texts => cases hstopped
      | error other =>
          cases hstopped
          exact ih rfl
  | limited calls henabled hlimit =>
      cases hstopped
      cases hcancelled
      obtain ⟨limit, -, -, heq⟩ := toolLimitReached?_eq_some hlimit
      cases heq
  | @told call calls used exchanges outcome reply text henabled hlimit htext hrest ih =>
      cases outcome with
      | ok texts => cases hstopped
      | error other =>
          cases hstopped
          obtain ⟨exchange, hmem, hexchange⟩ := ih rfl
          exact ⟨exchange, List.mem_cons_of_mem _ hmem, hexchange⟩
  | escaped calls henabled hlimit hescapes =>
      cases hstopped
      cases hcancelled
      exact ⟨_, List.mem_singleton_self _, rfl⟩

theorem Conversation.exists_isCancelled {rounds : List Round} {used remaining : Nat}
    {ending : Ending} (h : Conversation limits task rounds used remaining exchanges ending)
    (hcancelled : ending.result = .error .cancelled) :
    ∃ exchange ∈ exchanges, exchange.IsCancelled := by
  induction h with
  | exhausted => cases hcancelled
  | failed rounds used remaining failure =>
      cases hcancelled
      exact ⟨_, List.mem_singleton_self _, rfl⟩
  | answered => cases hcancelled
  | stopped rounds remaining hasks hstopped =>
      obtain ⟨exchange, hmem, hexchange⟩ := hstopped.exists_isCancelled rfl hcancelled
      exact ⟨exchange, List.mem_cons_of_mem _ hmem, hexchange⟩
  | goesOn round htold hrest ih =>
      obtain ⟨exchange, hmem, hexchange⟩ := ih hcancelled
      exact ⟨exchange, List.mem_cons_of_mem _ (List.mem_append_right _ hmem), hexchange⟩

end Agent

namespace Retry

variable {α : Type} {policy : RetryPolicy} {label : String}

/-- How the last of some attempts ends them all: with what it counts as, if no other attempt may
follow, or with the problem of reckoning the pause that would come before another one. -/
inductive Ends (policy : RetryPolicy) (label : String) (number : Nat)
    (value : Option (Except Failure α)) : Except Failure α → Prop
  | decided (hlast : number = policy.maxAttempts ∨ mayHelp (resultOf policy label value) = false) :
    Ends policy label number value (resultOf policy label value)
  | stranded (hmore : number < policy.maxAttempts)
    (hhelps : mayHelp (resultOf policy label value) = true) {share : Float}
    {problem : ArithmeticError} (hpause : Backoff.seconds policy number share = .error problem) :
    Ends policy label number value (.error problem.failure)

theorem Course.ends {operation : Program (Except Failure α)} {world : World}
    {number remaining : Nat} {before : List Exchange} {starts : List Start}
    {dialogue : Dialogue (Ending α)}
    (h : Course policy label operation world number remaining before starts dialogue)
    (hremaining : number + remaining = policy.maxAttempts) {last : Start}
    (hlast : starts.getLast? = some last) :
    Ends policy label dialogue.value.attempts (last.attempt world operation).value
      dialogue.value.result := by
  induction h with
  | @last number remaining before time start hstart hdecides =>
      obtain rfl := Option.some.inj hlast
      refine .decided (hdecides.imp_left fun hzero => ?_)
      rw [← hremaining, hzero, Nat.add_zero]
  | @stranded number remaining before time share start problem hstart hhelps hdelay =>
      obtain rfl := Option.some.inj hlast
      have hmore : number < policy.maxAttempts := by omega
      exact .stranded hmore hhelps hdelay
  | @again number remaining before time share seconds start starts rest hstart hhelps hdelay hrest
      ih =>
      apply ih (by omega)
      rwa [List.getLast?_cons_of_ne_nil hrest.ne_nil] at hlast

/-- Only a failure that is cancelled itself counts as cancelled. -/
theorem eq_of_resultOf_eq_cancelled {value : Option (Except Failure α)}
    (h : resultOf policy label value = .error .cancelled) : value = some (.error .cancelled) := by
  rcases value with _ | failure | value
  · cases h
  · rw [resultOf, Except.error.injEq] at h
    unfold failureOf at h
    split at h
    · cases h
    · cases h
    · rename_i heq
      rw [Option.some.inj heq, h]
  · cases h

theorem Course.exists_isCancelled {operation : Program (Except Failure α)} {world : World}
    {number remaining : Nat} {before : List Exchange} {starts : List Start}
    {dialogue : Dialogue (Ending α)}
    (h : Course policy label operation world number remaining before starts dialogue)
    (hattempt : ∀ start : Start,
      (start.attempt world operation).value = some (.error .cancelled) →
        ∃ exchange ∈ (start.attempt world operation).exchanges, exchange.IsCancelled)
    (hcancelled : dialogue.value.result = .error .cancelled) :
    ∃ exchange ∈ dialogue.exchanges, exchange.IsCancelled := by
  induction h with
  | last time hstart hlast =>
      obtain ⟨exchange, hmem, hexchange⟩ := hattempt _ (eq_of_resultOf_eq_cancelled hcancelled)
      exact ⟨exchange, List.mem_append_right _ hmem, hexchange⟩
  | @stranded number remaining before time share start problem hstart hhelps hdelay =>
      cases problem <;> cases hcancelled
  | again time hstart hhelps hdelay hrest ih =>
      obtain ⟨exchange, hmem, hexchange⟩ := ih hcancelled
      exact ⟨exchange, List.mem_append_right _ (List.mem_append_right _ hmem), hexchange⟩

end Retry

namespace Dispatcher

/-- What a step does in one attempt. -/
inductive Operates (d : Dispatcher) (incoming : Fields) :
    Work → Program (Except Failure Value) → Prop
  | action (action : ExternalAction) (secret : Option String) :
    Operates d incoming (.externalAction action) (Program.perform
      (.external action.serviceId action.actionId action.parameters secret incoming))
  | agent (agent : AiAgent) (prompt : String) (secret : Option String) :
    Operates d incoming (.aiAgent agent) (d.agentWork agent prompt secret)

variable {d : Dispatcher} {incoming : Fields} {work : Work}
  {program : Program (Except Failure Value)} {world : World} {before : List Exchange}
  {policy : RetryPolicy} {label : String} {dialogue : Dialogue (Retry.Ending Value)}

/-! ### Attempts -/

/-- An attempt is cancelled only if a capability was cancelled in it. -/
theorem Operates.exists_isCancelled (h : d.Operates incoming work program) (start : Retry.Start)
    (hvalue : (start.attempt world program).value = some (.error .cancelled)) :
    ∃ exchange ∈ (start.attempt world program).exchanges, exchange.IsCancelled := by
  cases h with
  | action action secret =>
      unfold Retry.Start.attempt Program.perform Program.within Program.dialogue at hvalue ⊢
      split at hvalue
      · cases hvalue
      · rename_i hintime
        rw [if_neg hintime]
        exact ⟨_, List.mem_cons_self, Option.some.inj hvalue⟩
  | agent agent prompt secret =>
      rw [attempt_agentWork] at hvalue ⊢
      obtain ⟨ending, hending, hresult⟩ := Option.map_eq_some_iff.mp hvalue
      have hcancelled : ending.result = .error .cancelled := by
        cases hfailure : ending.result with
        | ok result =>
            rw [hfailure] at hresult
            cases hresult
        | error failure =>
            rw [hfailure] at hresult
            cases hresult
            rfl
      rcases Program.dialogue_within world start.before
        (Agent.run (d.limitsFor agent) (d.taskFor agent prompt secret)) start.deadline with
        ⟨hdone, hsame⟩ | ⟨hlate, -⟩
      · have hconversation := Agent.conversation_run (d.limitsFor agent)
          (d.taskFor agent prompt secret) world start.before
        obtain rfl := Option.some.inj (hdone.symm.trans hending)
        obtain ⟨exchange, hmem, hexchange⟩ := hconversation.exists_isCancelled hcancelled
        exact ⟨exchange, hsame ▸ hmem, hexchange⟩
      · cases hlate.symm.trans hending

end Dispatcher

/-! ### Outcomes -/

namespace Engine

end Engine

namespace Dispatcher

end Dispatcher

end Workflow
