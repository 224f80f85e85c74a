import Workflow.Proofs.Agent.Conversation

/-!
# How conversations end

The tools that an agent runs are those that its model asks for and that are enabled, in the order in
which it asks. A conversation ends with a reply that asks for nothing, with the failure of a model
or of a tool, or at one of its limits, and each end says which requests were served.
-/

namespace Workflow.Agent

open Exchange

variable {limits : Limits} {task : Task}

/-- The calls of enabled tools among some calls, with their own arguments. -/
def wanted (task : Task) (calls : List ToolCall) : List (String × Fields) :=
  (calls.filter fun call => task.isEnabled call.name).map fun call => (call.name, call.arguments)

/-- The requests for enabled tools in all replies of the model, in their order. -/
def requested (task : Task) (exchanges : List Exchange) : List (String × Fields) :=
  wanted task ((modelReplies exchanges).flatMap (·.toolCalls))

/-- A failure of the tool itself, as opposed to one of whoever runs it. -/
def IsToolError (failure : Failure) : Prop := failure.code = FailureKind.toolError.code

/-- No tool has failed but with a failure of its own. -/
def ToolsAnswer (exchanges : List Exchange) : Prop :=
  ∀ name arguments failure,
    .answered (.tool name arguments) (.error failure) ∈ exchanges → IsToolError failure

/-- No model has failed. -/
def ModelsAnswer (exchanges : List Exchange) : Prop :=
  ∀ request failure, .answered (.model request) (.error failure) ∉ exchanges

/-- Every reply of the model asks for tools. -/
def AllAsk (exchanges : List Exchange) : Prop :=
  ∀ reply ∈ modelReplies exchanges, reply.toolCalls ≠ []

/-- Every request for an enabled tool was served, and the model was told what the tool said. -/
structure Served (task : Task) (exchanges : List Exchange) : Prop where
  runs : toolRuns exchanges = requested task exchanges
  answer : ToolsAnswer exchanges

theorem toolErrorText?_isSome_iff (failure : Failure) :
    (toolErrorText? failure).isSome ↔ IsToolError failure := by
  cases failure with
  | typed kind message retryable =>
      cases kind <;> simp [toolErrorText?, IsToolError, Failure.code, FailureKind.code]
  | toolArguments tool error => simp [toolErrorText?, IsToolError, Failure.code]
  | invalid error => simp [toolErrorText?, IsToolError, Failure.code, FailureKind.code]
  | fault name text => simp [toolErrorText?, IsToolError, Failure.code, FailureKind.code]
  | cancelled => simp [toolErrorText?, IsToolError, Failure.code, FailureKind.code]

@[simp]
theorem wanted_nil : wanted task [] = [] := rfl

@[simp]
theorem wanted_append (calls more : List ToolCall) :
    wanted task (calls ++ more) = wanted task calls ++ wanted task more := by
  simp [wanted]

theorem wanted_cons_enabled {call : ToolCall} (henabled : task.isEnabled call.name = true)
    (calls : List ToolCall) :
    wanted task (call :: calls) = (call.name, call.arguments) :: wanted task calls := by
  simp [wanted, henabled]

theorem wanted_cons_disabled {call : ToolCall} (hdisabled : task.isEnabled call.name = false)
    (calls : List ToolCall) : wanted task (call :: calls) = wanted task calls := by
  simp [wanted, hdisabled]

theorem requested_append (exchanges more : List Exchange) :
    requested task (exchanges ++ more) = requested task exchanges ++ requested task more := by
  simp [requested]

theorem ToolsAnswer.append {exchanges more : List Exchange} (h : ToolsAnswer exchanges)
    (hmore : ToolsAnswer more) : ToolsAnswer (exchanges ++ more) := by
  intro name arguments failure hmem
  rcases List.mem_append.mp hmem with hmem | hmem
  · exact h name arguments failure hmem
  · exact hmore name arguments failure hmem

theorem Served.append {exchanges more : List Exchange} (h : Served task exchanges)
    (hmore : Served task more) : Served task (exchanges ++ more) where
  runs := by rw [toolRuns_append, requested_append, h.runs, hmore.runs]
  answer := h.answer.append hmore.answer

theorem AllAsk.append {exchanges more : List Exchange} (h : AllAsk exchanges)
    (hmore : AllAsk more) : AllAsk (exchanges ++ more) := by
  intro reply hmem
  rw [modelReplies_append] at hmem
  rcases List.mem_append.mp hmem with hmem | hmem
  · exact h reply hmem
  · exact hmore reply hmem

/-! ### The calls of one reply -/

/-- While tools are run, no model is asked. -/
structure OnlyRunsTools (exchanges : List Exchange) : Prop where
  modelRequests_eq : modelRequests exchanges = []
  modelReplies_eq : modelReplies exchanges = []
  length_toolRuns : (toolRuns exchanges).length = exchanges.length

theorem toolLimitReached?_eq_some {used : Nat} {failure : Failure}
    (h : limits.toolLimitReached? used = some failure) :
    ∃ limit, limits.maxToolCalls = some limit ∧ limit ≤ used ∧ failure = toolLimit limit := by
  unfold Limits.toolLimitReached? at h
  split at h
  · rename_i limit hlimit
    split at h
    · rename_i hreached
      exact ⟨limit, hlimit, hreached, (Option.some.inj h).symm⟩
    · cases h
  · cases h

theorem lt_of_toolLimitReached?_eq_none {used : Nat} {limit : Int}
    (h : limits.toolLimitReached? used = none) (hlimit : limits.maxToolCalls = some limit) :
    used < limit := by
  simpa [Limits.toolLimitReached?, hlimit] using h

namespace Answering

variable {calls : List ToolCall} {used : Nat} {exchanges : List Exchange}
  {outcome : Except Ending (List String)} {texts : List String}

theorem onlyRunsTools (h : Answering limits task calls used exchanges outcome) :
    OnlyRunsTools exchanges := by
  induction h with
  | nil | limited | escaped => exact ⟨rfl, rfl, rfl⟩
  | skipped _ _ ih => exact ih
  | told _ _ _ _ ih =>
      exact ⟨by simpa using ih.modelRequests_eq, by simpa using ih.modelReplies_eq,
        by simpa using ih.length_toolRuns⟩

theorem toolRuns_isPrefix (h : Answering limits task calls used exchanges outcome) :
    toolRuns exchanges <+: wanted task calls := by
  induction h with
  | nil => exact List.nil_prefix
  | limited => exact List.nil_prefix
  | skipped hdisabled _ ih => rwa [wanted_cons_disabled hdisabled]
  | told henabled _ _ _ ih =>
      rw [wanted_cons_enabled henabled, toolRuns_tool_cons]
      exact List.prefix_cons_inj _ |>.mpr ih
  | escaped _ henabled =>
      rw [wanted_cons_enabled henabled, toolRuns_tool_cons]
      exact List.prefix_cons_inj _ |>.mpr List.nil_prefix

/-- As long as the limit is not reached, another tool may be run. -/
theorem used_le (h : Answering limits task calls used exchanges outcome) {limit : Int}
    (hlimit : limits.maxToolCalls = some limit) :
    (used + exchanges.length : Nat) ≤ max (used : Int) limit := by
  induction h with
  | nil => exact Int.le_max_left ..
  | limited => exact Int.le_max_left ..
  | skipped _ _ ih => exact ih
  | told _ hfree _ _ ih =>
      have hlt := lt_of_toolLimitReached?_eq_none hfree hlimit
      simp only [List.length_cons]
      omega
  | escaped _ _ hfree =>
      have hlt := lt_of_toolLimitReached?_eq_none hfree hlimit
      simp only [List.length_singleton]
      omega

theorem toolsAnswer_cons {name : String} {arguments : Fields} {reply : Except Failure String}
    {text : String} (htext : toolText? reply = some text) (h : ToolsAnswer exchanges) :
    ToolsAnswer (.answered (.tool name arguments) reply :: exchanges) := by
  intro name' arguments' failure hmem
  rcases List.mem_cons.mp hmem with heq | hmem
  · cases heq
    exact (toolErrorText?_isSome_iff failure).mp (Option.isSome_of_eq_some htext)
  · exact h name' arguments' failure hmem

/-- Where the model is told about all its calls, all of the enabled tools were run. -/
theorem served (h : Answering limits task calls used exchanges outcome)
    (hok : outcome = .ok texts) :
    toolRuns exchanges = wanted task calls ∧ ToolsAnswer exchanges := by
  induction h generalizing texts with
  | nil => exact ⟨rfl, fun _ _ _ hmem => absurd hmem List.not_mem_nil⟩
  | limited => cases hok
  | escaped => cases hok
  | @skipped _ _ _ _ outcome hdisabled _ ih =>
      cases outcome with
      | error ending => cases hok
      | ok rest =>
          rw [wanted_cons_disabled hdisabled]
          exact ih rfl
  | @told _ _ _ _ outcome _ _ henabled _ htext _ ih =>
      cases outcome with
      | error ending => cases hok
      | ok rest =>
          rw [wanted_cons_enabled henabled, toolRuns_tool_cons, (ih rfl).1]
          exact ⟨rfl, toolsAnswer_cons htext (ih rfl).2⟩

end Answering

/-- Why an agent does not go on with the calls of a reply. -/
inductive Halts (limits : Limits) (task : Task) (calls : List ToolCall) (used : Nat)
    (exchanges : List Exchange) : Ending → Prop
  | limit {limit : Int} (hlimit : limits.maxToolCalls = some limit)
    (hreached : limit ≤ (used + exchanges.length : Nat))
    (hmore : (toolRuns exchanges).length < (wanted task calls).length)
    (hanswer : ToolsAnswer exchanges) :
    Halts limits task calls used exchanges ⟨.error (toolLimit limit), .failed⟩
  | escape {name : String} {arguments : Fields} {failure : Failure}
    (hlast : exchanges.getLast? = some (.answered (.tool name arguments) (.error failure)))
    (hescapes : ¬ IsToolError failure) :
    Halts limits task calls used exchanges ⟨.error failure, .awaitingTool⟩

theorem Answering.halts {calls : List ToolCall} {used : Nat} {exchanges : List Exchange}
    {outcome : Except Ending (List String)} {ending : Ending}
    (h : Answering limits task calls used exchanges outcome) (herror : outcome = .error ending) :
    Halts limits task calls used exchanges ending := by
  induction h generalizing ending with
  | nil => cases herror
  | limited calls henabled hreached =>
      cases herror
      obtain ⟨limit, hlimit, hle, rfl⟩ := toolLimitReached?_eq_some hreached
      refine .limit hlimit (by simpa using hle) ?_ fun _ _ _ hmem => absurd hmem List.not_mem_nil
      simp [wanted_cons_enabled henabled]
  | escaped calls henabled hfree hescapes =>
      cases herror
      refine .escape rfl fun herror => ?_
      rw [← toolErrorText?_isSome_iff, hescapes] at herror
      cases herror
  | @skipped _ _ _ _ outcome hdisabled _ ih =>
      cases outcome with
      | ok rest => cases herror
      | error ending =>
          cases herror
          cases ih rfl with
          | limit hlimit hreached hmore hanswer =>
              exact .limit hlimit hreached (by rwa [wanted_cons_disabled hdisabled]) hanswer
          | escape hlast hescapes => exact .escape hlast hescapes
  | @told _ _ _ exchanges outcome reply _ henabled _ htext _ ih =>
      cases outcome with
      | ok rest => cases herror
      | error ending =>
          cases herror
          cases ih rfl with
          | limit hlimit hreached hmore hanswer =>
              refine .limit hlimit ?_ ?_ (Answering.toolsAnswer_cons htext hanswer)
              · simp only [List.length_cons]
                omega
              · simpa [wanted_cons_enabled henabled] using hmore
          | escape hlast hescapes =>
              exact .escape (List.getLast?_cons.trans (by rw [hlast]; rfl)) hescapes

/-! ### The whole conversation -/

/-- How a conversation that goes on after some rounds ends. -/
inductive Finish (limits : Limits) (task : Task) (rounds : List Round) (used remaining : Nat)
    (exchanges : List Exchange) : Ending → Prop
  | exhausted (hasked : (modelRequests exchanges).length = remaining) (hasks : AllAsk exchanges)
    (hserved : Served task exchanges) :
    Finish limits task rounds used remaining exchanges ⟨.error (iterationLimit limits), .failed⟩
  | failed {request : ModelRequest} {failure : Failure}
    (hfailed : .answered (.model request) (.error failure) ∈ exchanges) (hasks : AllAsk exchanges)
    (hserved : Served task exchanges) :
    Finish limits task rounds used remaining exchanges ⟨.error failure, .awaitingModel⟩
  | answered (later : List Round) {reply : ModelReply} (hfinal : reply.toolCalls = [])
    (hreplies : modelReplies exchanges = later.map (·.reply) ++ [reply])
    (hlast : (modelRequests exchanges).getLast? =
      some (requestOf task (messagesAfter task (rounds ++ later))))
    (hserved : Served task exchanges) :
    Finish limits task rounds used remaining exchanges
      ⟨.ok (resultOf task (rounds ++ later) reply (used + (toolRuns exchanges).length)), .done⟩
  | limited {limit : Int} (hlimit : limits.maxToolCalls = some limit)
    (hreached : limit ≤ (used + (toolRuns exchanges).length : Nat)) (hasks : AllAsk exchanges)
    (hmore : (toolRuns exchanges).length < (requested task exchanges).length)
    (hanswer : ToolsAnswer exchanges) :
    Finish limits task rounds used remaining exchanges ⟨.error (toolLimit limit), .failed⟩
  | escaped {name : String} {arguments : Fields} {failure : Failure}
    (hlast : exchanges.getLast? = some (.answered (.tool name arguments) (.error failure)))
    (hescapes : ¬ IsToolError failure) (hasks : AllAsk exchanges) :
    Finish limits task rounds used remaining exchanges ⟨.error failure, .awaitingTool⟩

/-- A conversation ends as what follows its first round does. -/
theorem Finish.of_round {rounds : List Round} {used remaining : Nat}
    {exchanges more : List Exchange} {ending : Ending} (round : Round)
    (hserved : Served task exchanges) (hreplies : modelReplies exchanges = [round.reply])
    (hrequests : (modelRequests exchanges).length = 1)
    (h : Finish limits task (rounds ++ [round]) (used + (toolRuns exchanges).length) remaining more
      ending) :
    Finish limits task rounds used (remaining + 1) (exchanges ++ more) ending := by
  have hask : AllAsk exchanges := by
    intro reply hmem
    rw [hreplies, List.mem_singleton] at hmem
    exact hmem ▸ round.asks
  cases h with
  | exhausted hasked hasks hrest =>
      refine .exhausted ?_ (hask.append hasks) (hserved.append hrest)
      simp [hrequests, hasked, Nat.add_comm]
  | failed hfailed hasks hrest =>
      exact .failed (List.mem_append_right _ hfailed) (hask.append hasks) (hserved.append hrest)
  | @answered later reply hfinal hlater hlast hrest =>
      have hreplies' : modelReplies (exchanges ++ more) =
          (round :: later).map (·.reply) ++ [reply] := by
        rw [modelReplies_append, hreplies, hlater]
        rfl
      have hlast' : (modelRequests (exchanges ++ more)).getLast? =
          some (requestOf task (messagesAfter task (rounds ++ round :: later))) := by
        rw [modelRequests_append, List.getLast?_append, hlast, List.append_assoc]
        rfl
      have hfinish : Finish limits task rounds used (remaining + 1) (exchanges ++ more) _ :=
        .answered (round :: later) hfinal hreplies' hlast' (hserved.append hrest)
      simpa [Nat.add_assoc] using hfinish
  | @limited limit hlimit hreached hasks hmore hanswer =>
      refine .limited hlimit ?_ (hask.append hasks) ?_ (hserved.answer.append hanswer)
      · simpa [Nat.add_assoc] using hreached
      · simpa [requested_append, hserved.runs] using hmore
  | escaped hlast hescapes hasks =>
      exact .escaped ((List.getLast?_append ..).trans (by rw [hlast]; rfl)) hescapes
        (hask.append hasks)

/-- What a reply that asks for tools and the answers to its calls amount to. -/
theorem Answering.served_round {round : Round} {used : Nat} {exchanges : List Exchange}
    (h : Answering limits task round.reply.toolCalls used exchanges (.ok round.texts))
    (request : ModelRequest) :
    Served task (.answered (.model request) (.ok round.reply) :: exchanges) := by
  obtain ⟨hruns, hanswer⟩ := h.served rfl
  refine ⟨?_, fun name arguments failure hmem => ?_⟩
  · simp [requested, h.onlyRunsTools.modelReplies_eq, hruns]
  · rcases List.mem_cons.mp hmem with heq | hmem
    · cases heq
    · exact hanswer name arguments failure hmem

theorem toolsAnswer_model_cons {request : ModelRequest} {reply : Except Failure ModelReply}
    {exchanges : List Exchange} (h : ToolsAnswer exchanges) :
    ToolsAnswer (.answered (.model request) reply :: exchanges) := by
  intro name arguments failure hmem
  rcases List.mem_cons.mp hmem with heq | hmem
  · cases heq
  · exact h name arguments failure hmem

/-- Every conversation ends in one of these ways. -/
theorem Conversation.finish {rounds : List Round} {used remaining : Nat}
    {exchanges : List Exchange} {ending : Ending}
    (h : Conversation limits task rounds used remaining exchanges ending) :
    Finish limits task rounds used remaining exchanges ending := by
  have hnone : ToolsAnswer [] := fun _ _ _ hmem => absurd hmem List.not_mem_nil
  induction h with
  | exhausted rounds used =>
      exact .exhausted rfl (fun _ hmem => absurd hmem List.not_mem_nil) ⟨rfl, hnone⟩
  | failed rounds used remaining failure =>
      exact .failed List.mem_cons_self (fun _ hmem => absurd hmem List.not_mem_nil)
        ⟨rfl, toolsAnswer_model_cons hnone⟩
  | @answered rounds used remaining reply hfinal =>
      have hserved : Served task
          [.answered (.model (requestOf task (messagesAfter task rounds))) (.ok reply)] :=
        ⟨by simp [requested, hfinal], toolsAnswer_model_cons hnone⟩
      have hfinish : Finish limits task rounds used (remaining + 1) _ _ :=
        .answered [] hfinal rfl (by simp) hserved
      simpa using hfinish
  | @stopped rounds used remaining reply exchanges ending hasks hstopped =>
      have hask : AllAsk (.answered (.model (requestOf task (messagesAfter task rounds)))
          (.ok reply) :: exchanges) := by
        intro reply' hmem
        rw [modelReplies_model_ok_cons, hstopped.onlyRunsTools.modelReplies_eq,
          List.mem_singleton] at hmem
        exact hmem ▸ hasks
      cases hstopped.halts rfl with
      | limit hlimit hreached hmore hanswer =>
          refine .limited hlimit ?_ hask ?_ (toolsAnswer_model_cons hanswer)
          · rwa [toolRuns_model_cons, hstopped.onlyRunsTools.length_toolRuns]
          · simpa [requested, hstopped.onlyRunsTools.modelReplies_eq] using hmore
      | escape hlast hescapes =>
          exact .escaped (List.getLast?_cons.trans (by rw [hlast]; rfl)) hescapes hask
  | @goesOn rounds used remaining round exchanges more ending htold hrest ih =>
      rw [← htold.onlyRunsTools.length_toolRuns] at ih
      refine Finish.of_round round (htold.served_round _) ?_ ?_ ih
      · simp [htold.onlyRunsTools.modelReplies_eq]
      · simp [htold.onlyRunsTools.modelRequests_eq]

/-- The tools that are run are the first of those that are asked for. -/
theorem Conversation.toolRuns_isPrefix {rounds : List Round} {used remaining : Nat}
    {exchanges : List Exchange} {ending : Ending}
    (h : Conversation limits task rounds used remaining exchanges ending) :
    toolRuns exchanges <+: requested task exchanges := by
  induction h with
  | exhausted => exact List.nil_prefix
  | failed => exact List.nil_prefix
  | answered => exact List.nil_prefix
  | stopped rounds remaining hasks hstopped =>
      simpa [requested, hstopped.onlyRunsTools.modelReplies_eq] using hstopped.toolRuns_isPrefix
  | @goesOn rounds used remaining round exchanges more ending htold hrest ih =>
      have hserved := htold.served_round (requestOf task (messagesAfter task rounds))
      rw [← List.cons_append, toolRuns_append, requested_append, hserved.runs]
      exact (List.prefix_append_right_inj _).mpr ih

/-- The model is asked no more often than it may be. -/
theorem Conversation.length_modelRequests_le {rounds : List Round} {used remaining : Nat}
    {exchanges : List Exchange} {ending : Ending}
    (h : Conversation limits task rounds used remaining exchanges ending) :
    (modelRequests exchanges).length ≤ remaining := by
  induction h with
  | exhausted => simp
  | failed => simp
  | answered => simp
  | stopped rounds remaining hasks hstopped => simp [hstopped.onlyRunsTools.modelRequests_eq]
  | goesOn round htold hrest ih => simpa [htold.onlyRunsTools.modelRequests_eq] using ih

/-- No more tools are run than may be run. -/
theorem Conversation.used_le {rounds : List Round} {used remaining : Nat}
    {exchanges : List Exchange} {ending : Ending}
    (h : Conversation limits task rounds used remaining exchanges ending) {limit : Int}
    (hlimit : limits.maxToolCalls = some limit) :
    (used + (toolRuns exchanges).length : Nat) ≤ max (used : Int) limit := by
  induction h with
  | exhausted => exact Int.le_max_left ..
  | failed => exact Int.le_max_left ..
  | answered => exact Int.le_max_left ..
  | stopped rounds remaining hasks hstopped =>
      simpa [hstopped.onlyRunsTools.length_toolRuns] using hstopped.used_le hlimit
  | goesOn round htold hrest ih =>
      have hround := htold.used_le hlimit
      simp only [toolRuns_model_cons, toolRuns_append, List.length_append,
        htold.onlyRunsTools.length_toolRuns]
      omega

end Workflow.Agent
