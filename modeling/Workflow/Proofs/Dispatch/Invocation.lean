import Workflow.Dispatch
import Workflow.Proofs.Retry.Course

/-!
# Invocations with a credential

Actions and agents are invoked alike: the secret of the credential is looked up, and once it is
there an operation is attempted repeatedly. Without the secret, nothing is attempted.
-/

namespace Workflow.Dispatcher

/-- An operation that is attempted once the secret of a credential is there, unless it is refused
all the same. -/
def guarded (policy : RetryPolicy) (label : String) (credentialId : Option String)
    (operation : Option String → Except Failure (Program (Except Failure Value))) :
    Program (Retry.Ending Value) := do
  match ← secretFor credentialId with
  | .error failure => return ⟨.error failure, 1⟩
  | .ok secret =>
    match operation secret with
    | .error failure => return ⟨.error failure, 1⟩
    | .ok program => Retry.run policy label program

/-- What an agent does in one attempt. -/
def agentWork (d : Dispatcher) (agent : AiAgent) (prompt : String) (secret : Option String) :
    Program (Except Failure Value) := do
  let ending ← Agent.run (d.limitsFor agent) (d.taskFor agent prompt secret)
  return ending.result.map Agent.Result.encode

theorem runAction_eq_guarded (d : Dispatcher) (step : Step) (action : ExternalAction)
    (incoming : Fields) :
    d.runAction step action incoming =
      guarded (d.policyFor step) (actionLabel step action) action.credentialId fun secret =>
        .ok (Program.perform
          (.external action.serviceId action.actionId action.parameters secret incoming)) := rfl

/-- What an agent does once it has its prompt and its secret. -/
def agentOperation (d : Dispatcher) (agent : AiAgent) (incoming : Fields)
    (secret : Option String) : Except Failure (Program (Except Failure Value)) :=
  (promptFor agent incoming).map fun prompt => d.agentWork agent prompt secret

theorem runAgent_eq_guarded (d : Dispatcher) (step : Step) (agent : AiAgent) (incoming : Fields) :
    d.runAgent step agent incoming =
      guarded (d.policyFor step) (agentLabel step agent) agent.credentialId
        (d.agentOperation agent incoming) := by
  unfold runAgent guarded agentOperation
  cases promptFor agent incoming <;> rfl

section Operation

variable {d : Dispatcher} {agent : AiAgent} {incoming : Fields} {secret : Option String}

theorem exists_prompt_of_agentOperation {program : Program (Except Failure Value)}
    (h : d.agentOperation agent incoming secret = .ok program) :
    ∃ prompt, program = d.agentWork agent prompt secret := by
  unfold agentOperation at h
  cases hprompt : promptFor agent incoming with
  | error failure =>
      rw [hprompt] at h
      cases h
  | ok prompt =>
      rw [hprompt] at h
      exact ⟨prompt, (Except.ok.inj h).symm⟩

/-- An agent is refused only for want of a prompt. -/
theorem promptFor_of_agentOperation {failure : Failure}
    (h : d.agentOperation agent incoming secret = .error failure) :
    promptFor agent incoming = .error failure := by
  unfold agentOperation at h
  cases hprompt : promptFor agent incoming with
  | error problem =>
      rw [hprompt] at h
      cases h
      rfl
  | ok prompt =>
      rw [hprompt] at h
      cases h

end Operation

variable (world : World) (before : List Exchange) (credentialId : Option String)

/-- What is said about the secret of a credential that is there. -/
inductive Unlocks : Option String → List Exchange → Prop
  | free (hfree : credentialId.filter (· ≠ "") = none) : Unlocks none []
  | found {id secret : String} (hid : credentialId.filter (· ≠ "") = some id)
    (hfound : world.reply before (.secret id) = some secret) :
    Unlocks (some secret) [.answered (.secret id) (some secret)]

/-- How an operation goes that is attempted once the secret of a credential is there. -/
inductive Guarded (policy : RetryPolicy) (label : String)
    (operation : Option String → Except Failure (Program (Except Failure Value))) :
    Dialogue (Retry.Ending Value) → Prop
  | locked {id : String} (hid : credentialId.filter (· ≠ "") = some id)
    (hmissing : world.reply before (.secret id) = none) :
    Guarded policy label operation
      ⟨[.answered (.secret id) none], ⟨.error (.missingCredential id), 1⟩⟩
  | refused {secret : Option String} {said : List Exchange} {failure : Failure}
    (hsaid : Unlocks world before credentialId secret said)
    (hrefused : operation secret = .error failure) :
    Guarded policy label operation ⟨said, ⟨.error failure, 1⟩⟩
  | attempted {secret : Option String} {said : List Exchange}
    {program : Program (Except Failure Value)} {starts : List Retry.Start}
    {rest : Dialogue (Retry.Ending Value)}
    (hsaid : Unlocks world before credentialId secret said)
    (hprogram : operation secret = .ok program)
    (hcourse : Retry.Course policy label program world 1 (policy.maxAttempts - 1) (before ++ said)
      starts rest) :
    Guarded policy label operation ⟨said ++ rest.exchanges, rest.value⟩

/-- Operations that need a secret go this way. -/
theorem guarded_dialogue (policy : RetryPolicy) (label : String)
    (operation : Option String → Except Failure (Program (Except Failure Value))) :
    Guarded world before credentialId policy label operation
      ((guarded policy label credentialId operation).dialogue world before) := by
  have hunlocked {secret : Option String} {said : List Exchange}
      (hsaid : Unlocks world before credentialId secret said) :
      let rest := (match operation secret with
        | .error failure => return ⟨.error failure, 1⟩
        | .ok program => Retry.run policy label program : Program (Retry.Ending Value)).dialogue
          world (before ++ said)
      Guarded world before credentialId policy label operation
        ⟨said ++ rest.exchanges, rest.value⟩ := by
    cases hprogram : operation secret with
    | error failure => simpa using Guarded.refused hsaid hprogram
    | ok program =>
        obtain ⟨starts, hcourse⟩ := Retry.exists_course policy label program world 1
          (policy.maxAttempts - 1) (before ++ said)
        exact .attempted hsaid hprogram hcourse
  unfold guarded
  rw [Program.dialogue_bind, secretFor]
  cases hid : credentialId.filter (· ≠ "") with
  | none => exact hunlocked (.free hid)
  | some id =>
      dsimp only
      rw [Program.dialogue_perform_bind]
      cases hreply : world.reply before (.secret id) with
      | none => exact .locked hid hreply
      | some secret => exact hunlocked (.found hid hreply)

end Workflow.Dispatcher
