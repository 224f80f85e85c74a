import Workflow.Proofs.Agent.Bounds
import Workflow.Proofs.Dispatch.Invocation
import Mathlib.Algebra.Order.BigOperators.Group.List
import Mathlib.Algebra.Order.Group.Nat

/-!
# The bounds of an agent

An agent that is attempted repeatedly asks its model and runs tools, in each attempt, at most as
often as one conversation may. A conversation that ends at one of its limits is not attempted again.
-/

namespace Workflow.Dispatcher

open Exchange

/-- The invocation of an agent keeps the bounds of its conversations, which are its attempts. -/
structure KeepsBounds (policy : RetryPolicy) (limits : Agent.Limits)
    (attempts : List (Dialogue (Option Agent.Ending))) (dialogue : Dialogue (Retry.Ending Value)) :
    Prop where
  length_le : attempts.length ≤ policy.maxAttempts
  counted : attempts ≠ [] → dialogue.value.attempts = attempts.length
  modelRequests_eq : modelRequests dialogue.exchanges =
    attempts.flatMap fun attempt => modelRequests attempt.exchanges
  toolRuns_eq : toolRuns dialogue.exchanges =
    attempts.flatMap fun attempt => toolRuns attempt.exchanges
  asks : (modelRequests dialogue.exchanges).length ≤ policy.maxAttempts * limits.maxIterations
  runs : ∀ limit, limits.maxToolCalls = some limit →
    (toolRuns dialogue.exchanges).length ≤ policy.maxAttempts * limit.toNat
  final : ∀ attempt ∈ attempts, ∀ failure, attempt.value = some ⟨.error failure, .failed⟩ →
    attempt ∉ attempts.dropLast ∧ dialogue.value.result = .error failure

variable {policy : RetryPolicy} {limits : Agent.Limits} {task : Agent.Task}

/-- In an attempt, no more is called than in the whole conversation. -/
theorem attempt_isPrefix (world : World) (start : Retry.Start) :
    ((start.attempt world (Agent.run limits task)).exchanges.map Exchange.call) <+:
      ((Agent.run limits task).dialogue world start.before).exchanges.map Exchange.call := by
  rcases Program.dialogue_within world start.before (Agent.run limits task) start.deadline with
    ⟨-, hsame⟩ | ⟨-, hcut⟩
  · exact (congrArg (List.map Exchange.call) hsame) ▸ List.prefix_rfl
  · exact hcut

/-- What is observed of whole conversations at most so often is, in several attempts, observed at
most so often in each. -/
theorem length_flatMap_attempts_le {β : Type} (world : World) (observe : Call → Option β)
    {bound : Nat} (hbound : ∀ before, (((Agent.run limits task).dialogue world
      before).exchanges.filterMap fun exchange => observe exchange.call).length ≤ bound)
    (starts : List Retry.Start) :
    (starts.flatMap fun start => (start.attempt world (Agent.run limits task)).exchanges.filterMap
      fun exchange => observe exchange.call).length ≤ starts.length * bound := by
  rw [List.length_flatMap]
  refine (List.sum_le_card_nsmul _ bound fun length hmem => ?_).trans_eq ?_
  · obtain ⟨start, -, rfl⟩ := List.mem_map.mp hmem
    exact (filterMap_call_isPrefix observe (attempt_isPrefix world start)).length_le.trans
      (hbound start.before)
  · rw [List.length_map, Nat.nsmul_eq_mul]

/-- What an attempt counts as that ends at a limit of the agent; no other attempt may help then. -/
theorem resultOf_of_failed (label : String) (world : World) {start : Retry.Start}
    {failure : Failure} (hvalue : (start.attempt world (Agent.run limits task)).value =
      some ⟨.error failure, .failed⟩) :
    Retry.resultOf policy label (some (.error failure) : Option (Except Failure Value)) =
        .error failure ∧
      Retry.mayHelp (.error failure : Except Failure Value) = false := by
  have hending : ((Agent.run limits task).dialogue world start.before).value =
      ⟨.error failure, .failed⟩ := by
    rcases Program.dialogue_within world start.before (Agent.run limits task) start.deadline with
      ⟨hdone, -⟩ | ⟨hlate, -⟩
    · exact Option.some.inj (hdone.symm.trans hvalue)
    · exact absurd (hlate.symm.trans hvalue) nofun
  have hown := (Agent.run_keepsBounds limits task world start.before).failed
    (congrArg Agent.Ending.state hending)
  rw [hending] at hown
  rcases hown with heq | ⟨limit, -, heq⟩
  · cases heq
    exact ⟨rfl, rfl⟩
  · cases heq
    exact ⟨rfl, rfl⟩

section Attempts

variable {d : Dispatcher} {agent : AiAgent} {prompt : String} {secret : Option String}
  {label : String} {world : World} {before : List Exchange} {starts : List Retry.Start}
  {dialogue : Dialogue (Retry.Ending Value)}

/-- An attempt at the work of an agent is one at its conversation. -/
theorem attempt_agentWork (start : Retry.Start) :
    start.attempt world (d.agentWork agent prompt secret) =
      let conversation := start.attempt world
        (Agent.run (d.limitsFor agent) (d.taskFor agent prompt secret))
      ⟨conversation.exchanges,
        conversation.value.map fun ending => ending.result.map Agent.Result.encode⟩ :=
  start.attempt_bind_pure world _ _

/-- An attempt that ends at a limit of the agent is the last one and decides. -/
theorem final_of_course
    (h : Retry.Course policy label (d.agentWork agent prompt secret) world 1
      (policy.maxAttempts - 1) before starts dialogue) {start : Retry.Start} (hmem : start ∈ starts)
    {failure : Failure} (hvalue : (start.attempt world
      (Agent.run (d.limitsFor agent) (d.taskFor agent prompt secret))).value =
        some ⟨.error failure, .failed⟩) :
    start ∉ starts.dropLast ∧ dialogue.value.result = .error failure := by
  obtain ⟨hresult, hhelps⟩ := resultOf_of_failed label world hvalue
  have hcounts : Retry.resultOf policy label
      (start.attempt world (d.agentWork agent prompt secret)).value = .error failure := by
    rw [attempt_agentWork]
    dsimp only
    rw [hvalue]
    exact hresult
  -- Only an attempt that another may help is followed by one, and the last one gives the result.
  refine ⟨fun hearlier => ?_, ?_⟩
  · have hagain := h.mayHelp_of_mem_dropLast hearlier
    rw [hcounts, hhelps] at hagain
    cases hagain
  · have hfinal := h.result_eq_of_mem hmem
    rw [hcounts] at hfinal
    exact hfinal hhelps

/-- Attempts at a conversation keep its bounds. -/
theorem keepsBounds_of_course
    (h : Retry.Course policy label (d.agentWork agent prompt secret) world 1
      (policy.maxAttempts - 1) before starts dialogue) :
    KeepsBounds policy (d.limitsFor agent)
      (starts.map (Retry.Start.attempt world
        (Agent.run (d.limitsFor agent) (d.taskFor agent prompt secret)))) dialogue := by
  have hlength : starts.length ≤ policy.maxAttempts := by
    have hle := h.length_le
    have hpos := policy.maxAttempts.2
    omega
  have hrequests : modelRequests dialogue.exchanges = starts.flatMap fun start =>
      modelRequests (start.attempt world (d.agentWork agent prompt secret)).exchanges :=
    h.filterMap_exchanges (fun _ => rfl) rfl rfl fun _ => rfl
  have hruns : toolRuns dialogue.exchanges = starts.flatMap fun start =>
      toolRuns (start.attempt world (d.agentWork agent prompt secret)).exchanges :=
    h.filterMap_exchanges (fun _ => rfl) rfl rfl fun _ => rfl
  simp only [attempt_agentWork] at hrequests hruns
  have hbounds := Agent.run_keepsBounds (d.limitsFor agent) (d.taskFor agent prompt secret) world
  refine
    { length_le := by rwa [List.length_map]
      counted := fun _ => by rw [List.length_map, h.attempts_eq_length]
      modelRequests_eq := by rw [hrequests, List.flatMap_map]
      toolRuns_eq := by rw [hruns, List.flatMap_map]
      asks := ?_
      runs := fun limit hlimit => ?_
      final := ?_ }
  · rw [hrequests]
    exact (length_flatMap_attempts_le world Call.modelRequest? (fun before => (hbounds before).asks)
      starts).trans (Nat.mul_le_mul_right _ hlength)
  · rw [hruns]
    exact (length_flatMap_attempts_le world Call.toolRun?
      (fun before => (hbounds before).runs limit hlimit) starts).trans
        (Nat.mul_le_mul_right _ hlength)
  · intro attempt hmem failure hvalue
    obtain ⟨start, hstart, rfl⟩ := List.mem_map.mp hmem
    refine ⟨fun hearlier => ?_, (final_of_course h hstart hvalue).2⟩
    rw [← List.map_dropLast] at hearlier
    obtain ⟨other, hother, heq⟩ := List.mem_map.mp hearlier
    exact (final_of_course h (List.dropLast_subset _ hother) (heq ▸ hvalue)).1 hother

end Attempts

/-- While a secret is looked up, no model is asked and no tool is run. -/
theorem Unlocks.silent {world : World} {before said : List Exchange}
    {credentialId secret : Option String} (h : Unlocks world before credentialId secret said) :
    modelRequests said = [] ∧ toolRuns said = [] := by
  cases h <;> exact ⟨rfl, rfl⟩

theorem KeepsBounds.after {attempts : List (Dialogue (Option Agent.Ending))}
    {said : List Exchange} {dialogue : Dialogue (Retry.Ending Value)}
    (h : KeepsBounds policy limits attempts dialogue) (hrequests : modelRequests said = [])
    (hruns : toolRuns said = []) :
    KeepsBounds policy limits attempts ⟨said ++ dialogue.exchanges, dialogue.value⟩ where
  length_le := h.length_le
  counted := h.counted
  modelRequests_eq := by simpa [hrequests] using h.modelRequests_eq
  toolRuns_eq := by simpa [hruns] using h.toolRuns_eq
  asks := by simpa [hrequests] using h.asks
  runs := by simpa [hruns] using h.runs
  final := h.final

/-- Where nothing is attempted, no bound is reached. -/
theorem keepsBounds_nil {dialogue : Dialogue (Retry.Ending Value)}
    (hrequests : modelRequests dialogue.exchanges = []) (hruns : toolRuns dialogue.exchanges = []) :
    KeepsBounds policy limits [] dialogue where
  length_le := Nat.zero_le _
  counted := fun hne => absurd rfl hne
  modelRequests_eq := hrequests
  toolRuns_eq := hruns
  asks := by simp [hrequests]
  runs := by simp [hruns]
  final := nofun

/-- Agents are bounded: a conversation keeps to its limits, whatever models and tools do, and so do
all the attempts of an invocation, of which only the last one can end at a limit. -/
theorem agents_are_bounded (world : World) (before : List Exchange) :
    (∀ limits task,
      Agent.KeepsBounds limits task ((Agent.run limits task).dialogue world before)) ∧
    ∀ (d : Dispatcher) (payload : Fields) (step : Step) (agent : AiAgent) (incoming : Fields),
      let dialogue := (d.invoke payload { step with work := .aiAgent agent } incoming).dialogue
        world before
      ∃ (prompt : String) (secret : Option String) (starts : List Retry.Start),
        KeepsBounds (d.policyFor step) (d.limitsFor agent)
          (starts.map (Retry.Start.attempt world
            (Agent.run (d.limitsFor agent) (d.taskFor agent prompt secret)))) dialogue := by
  refine ⟨fun limits task => Agent.run_keepsBounds limits task world before, ?_⟩
  intro d payload step agent incoming dialogue
  have hguarded : Guarded world before agent.credentialId (d.policyFor step)
      (agentLabel step agent) (d.agentOperation agent incoming) dialogue := by
    have hrun := guarded_dialogue world before agent.credentialId (d.policyFor step)
      (agentLabel step agent) (d.agentOperation agent incoming)
    rwa [← runAgent_eq_guarded d step] at hrun
  generalize dialogue = dialogue at hguarded
  cases hguarded with
  | locked => exact ⟨"", none, [], keepsBounds_nil rfl rfl⟩
  | refused hsaid hrefused => exact ⟨"", none, [], keepsBounds_nil hsaid.silent.1 hsaid.silent.2⟩
  | @attempted secret said program starts rest hsaid hprogram hcourse =>
      obtain ⟨prompt, rfl⟩ := exists_prompt_of_agentOperation hprogram
      exact ⟨prompt, secret, starts,
        (keepsBounds_of_course hcourse).after hsaid.silent.1 hsaid.silent.2⟩

end Workflow.Dispatcher
