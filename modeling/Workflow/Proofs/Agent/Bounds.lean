import Workflow.Proofs.Agent.Ending

/-!
# The bounds of a conversation

A model is asked, and tools are run, only as often as the limits of the conversation allow. Where
nothing else goes wrong, a conversation is answered with the first reply that asks for no tool, and
ends at one of its limits if there is none.
-/

namespace Workflow.Agent

open Exchange

/-- So many tools may be run. -/
def Limits.Allows (limits : Limits) (count : Nat) : Prop :=
  ∀ limit, limits.maxToolCalls = some limit → count ≤ limit.toNat

/-- No model has failed, no tool has failed but with a failure of its own, and no more enabled tools
were asked for than may be run. -/
structure Undisturbed (limits : Limits) (task : Task) (exchanges : List Exchange) : Prop where
  models : ModelsAnswer exchanges
  tools : ToolsAnswer exchanges
  requests : limits.Allows (requested task exchanges).length

/-- A conversation keeps to its limits, and its own failures are those of reaching them. -/
structure KeepsBounds (limits : Limits) (task : Task) (dialogue : Dialogue Ending) : Prop where
  asks : (modelRequests dialogue.exchanges).length ≤ limits.maxIterations
  runs : limits.Allows (toolRuns dialogue.exchanges).length
  answered_iff : (∃ result, dialogue.value.result = .ok result) ↔
    ∃ reply ∈ modelReplies dialogue.exchanges, reply.toolCalls = []
  answer : ∀ result, dialogue.value.result = .ok result →
    ∃ earlier reply, modelReplies dialogue.exchanges = earlier ++ [reply] ∧
      (∀ other ∈ earlier, other.toolCalls ≠ []) ∧ reply.toolCalls = [] ∧
      result.answer = reply.text ∧ result.iterations = earlier.length + 1
  exhausted : Undisturbed limits task dialogue.exchanges →
    (¬ ∃ reply ∈ modelReplies dialogue.exchanges, reply.toolCalls = []) →
    dialogue.value = ⟨.error (iterationLimit limits), .failed⟩ ∧
      (modelRequests dialogue.exchanges).length = limits.maxIterations
  overrun_iff : ∀ limit, limits.maxToolCalls = some limit →
    (dialogue.value = ⟨.error (toolLimit limit), .failed⟩ ↔
      ToolsAnswer dialogue.exchanges ∧
        limit.toNat < (requested task dialogue.exchanges).length)
  failed : dialogue.value.state = .failed →
    dialogue.value.result = .error (iterationLimit limits) ∨
      ∃ limit, limits.maxToolCalls = some limit ∧
        dialogue.value.result = .error (toolLimit limit)

theorem iterationLimit_ne_toolLimit (limits : Limits) (limit : Int) :
    iterationLimit limits ≠ toolLimit limit := by
  intro heq
  simp only [iterationLimit, toolLimit, Failure.ofKind, Failure.typed.injEq, true_and,
    and_true] at heq
  -- The two messages differ in their seventh letter.
  have hletter := congrArg (fun message : String => message.toList[6]?) heq
  simp only [String.toList_append, List.append_assoc] at hletter
  rw [List.getElem?_append_left (by decide), List.getElem?_append_left (by decide)] at hletter
  exact absurd hletter (by decide)

namespace Finish

variable {limits : Limits} {task : Task} {remaining : Nat} {exchanges : List Exchange}
  {ending : Ending}

/-- A conversation is answered if and only if the model has replied without asking for a tool. -/
theorem answered_iff (h : Finish limits task [] 0 remaining exchanges ending) :
    (∃ result, ending.result = .ok result) ↔
      ∃ reply ∈ modelReplies exchanges, reply.toolCalls = [] := by
  have hnone (hasks : AllAsk exchanges) :
      ¬ ∃ reply ∈ modelReplies exchanges, reply.toolCalls = [] :=
    fun ⟨reply, hmem, hfinal⟩ => hasks reply hmem hfinal
  cases h with
  | exhausted hasked hasks hserved => exact iff_of_false nofun (hnone hasks)
  | failed hfailed hasks hserved => exact iff_of_false nofun (hnone hasks)
  | limited hlimit hreached hasks hmore hanswer => exact iff_of_false nofun (hnone hasks)
  | escaped hlast hescapes hasks => exact iff_of_false nofun (hnone hasks)
  | answered later hfinal hreplies hlast hserved =>
      exact iff_of_true ⟨_, rfl⟩ ⟨_, by rw [hreplies]; exact List.mem_concat_self, hfinal⟩

/-- The answer is the first reply that asks for no tool. -/
theorem answer_eq (h : Finish limits task [] 0 remaining exchanges ending) {result : Result}
    (hresult : ending.result = .ok result) :
    ∃ earlier reply, modelReplies exchanges = earlier ++ [reply] ∧
      (∀ other ∈ earlier, other.toolCalls ≠ []) ∧ reply.toolCalls = [] ∧
      result.answer = reply.text ∧ result.iterations = earlier.length + 1 := by
  cases h with
  | @answered later reply hfinal hreplies hlast hserved =>
      cases hresult
      refine ⟨_, reply, hreplies, fun other hmem => ?_, hfinal, rfl, by simp [resultOf]⟩
      obtain ⟨round, _, rfl⟩ := List.mem_map.mp hmem
      exact round.asks
  | _ => cases hresult

/-- Where nothing disturbs it and no reply is an answer, a model is asked to the end. -/
theorem eq_exhausted (h : Finish limits task [] 0 remaining exchanges ending)
    (hcalm : Undisturbed limits task exchanges)
    (hnone : ¬ ∃ reply ∈ modelReplies exchanges, reply.toolCalls = []) :
    ending = ⟨.error (iterationLimit limits), .failed⟩ ∧
      (modelRequests exchanges).length = remaining := by
  cases h with
  | exhausted hasked hasks hserved => exact ⟨rfl, hasked⟩
  | failed hfailed hasks hserved => exact absurd hfailed (hcalm.models _ _)
  | answered later hfinal hreplies hlast hserved =>
      exact absurd ⟨_, by rw [hreplies]; exact List.mem_concat_self, hfinal⟩ hnone
  | limited hlimit hreached hasks hmore hanswer =>
      have hle := hcalm.requests _ hlimit
      omega
  | escaped hlast hescapes hasks =>
      exact absurd (hcalm.tools _ _ _ (List.mem_of_getLast? hlast)) hescapes

/-- A conversation ends at its tool limit if and only if one more enabled tool was asked for. -/
theorem eq_toolLimit_iff (h : Finish limits task [] 0 remaining exchanges ending)
    (hruns : limits.Allows (toolRuns exchanges).length) {limit : Int}
    (hlimit : limits.maxToolCalls = some limit) :
    ending = ⟨.error (toolLimit limit), .failed⟩ ↔
      ToolsAnswer exchanges ∧ limit.toNat < (requested task exchanges).length := by
  have hserves (hserved : Served task exchanges) :
      ¬ (ToolsAnswer exchanges ∧ limit.toNat < (requested task exchanges).length) := by
    rintro ⟨-, hmore⟩
    rw [← hserved.runs] at hmore
    exact absurd (hruns limit hlimit) (Nat.not_le.mpr hmore)
  cases h with
  | exhausted hasked hasks hserved =>
      refine iff_of_false (fun heq => ?_) (hserves hserved)
      rw [Ending.mk.injEq, Except.error.injEq] at heq
      exact iterationLimit_ne_toolLimit limits limit heq.1
  | failed hfailed hasks hserved => exact iff_of_false nofun (hserves hserved)
  | answered later hfinal hreplies hlast hserved => exact iff_of_false nofun (hserves hserved)
  | @limited limit' hlimit' hreached hasks hmore hanswer =>
      obtain rfl := Option.some.inj (hlimit'.symm.trans hlimit)
      exact iff_of_true rfl ⟨hanswer, by omega⟩
  | escaped hlast hescapes hasks =>
      refine iff_of_false nofun fun ⟨hanswer, _⟩ => ?_
      exact hescapes (hanswer _ _ _ (List.mem_of_getLast? hlast))

/-- The failures of an agent's own are those of reaching its limits. -/
theorem result_eq_of_failed (h : Finish limits task [] 0 remaining exchanges ending)
    (hfailed : ending.state = .failed) :
    ending.result = .error (iterationLimit limits) ∨
      ∃ limit, limits.maxToolCalls = some limit ∧ ending.result = .error (toolLimit limit) := by
  cases h with
  | exhausted => exact .inl rfl
  | limited hlimit => exact .inr ⟨_, hlimit, rfl⟩
  | _ => cases hfailed

end Finish

theorem run_keepsBounds (limits : Limits) (task : Task) (world : World) (before : List Exchange) :
    KeepsBounds limits task ((run limits task).dialogue world before) := by
  have hconversation := conversation_run limits task world before
  generalize (run limits task).dialogue world before = dialogue at hconversation ⊢
  have hruns : limits.Allows (toolRuns dialogue.exchanges).length := by
    intro limit hlimit
    have hle := hconversation.used_le hlimit
    omega
  exact {
    asks := hconversation.length_modelRequests_le
    runs := hruns
    answered_iff := hconversation.finish.answered_iff
    answer := fun _ => hconversation.finish.answer_eq
    exhausted := hconversation.finish.eq_exhausted
    overrun_iff := fun _ => hconversation.finish.eq_toolLimit_iff hruns
    failed := hconversation.finish.result_eq_of_failed }

end Workflow.Agent
