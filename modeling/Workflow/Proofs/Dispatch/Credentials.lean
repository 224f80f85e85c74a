import Workflow.Engine
import Workflow.Proofs.Dispatch.Invocation
import Workflow.Proofs.Secrecy.Stage
import Workflow.Proofs.Table

/-!
# Credentials before and during a run

The credentials that are missing before a run are those for which its steps will fail, before they
call upon any capability. As long as the secrets stay what they are, both look them up in the same
way: an empty id refers to no credential, and an empty secret is none.
-/

namespace Workflow

/-- In a world, the secrets of a store stay what they are. -/
def World.Keeps (world : World) (host : Host) (secrets : SecretStore) : Prop :=
  ∀ before id, world.reply before (.secret id) = secrets.find? host id

/-- The calls of actions, models and tools, in their order. -/
def Exchange.capabilityCalls (exchanges : List Exchange) : List Call :=
  exchanges.filterMap fun exchange => Option.guard Call.asksCapability exchange.call

/-- The credential id of a step as it is written, if there is one. -/
def Step.writtenCredential (step : Step) : Option String :=
  match step.work with
  | .externalAction action => action.credentialId
  | .aiAgent agent => agent.credentialId
  | .trigger | .wait _ => none

theorem Step.credentialId?_eq_some_iff {step : Step} {id : String} :
    step.credentialId? = some id ↔ step.writtenCredential = some id ∧ id ≠ "" := by
  have heq : step.credentialId? = step.writtenCredential.filter (· ≠ "") := by
    unfold credentialId? writtenCredential
    cases step.work <;> rfl
  rw [heq, Option.filter_eq_some_iff, decide_eq_true_iff]

/-! ### Missing credentials -/

namespace Engine

variable {e : Engine} {g : Graph}

theorem mem_missing_iff {id : String} :
    id ∈ e.stage.secrets.missing e.stage.host g.credentialIds ↔
      (∃ step ∈ g.steps, step.writtenCredential = some id) ∧ id ≠ "" ∧
        e.stage.secrets.find? e.stage.host id = none := by
  rw [SecretStore.missing, List.mem_filter, Graph.credentialIds, mem_distinct, List.mem_filterMap,
    Option.isNone_iff_eq_none]
  simp only [Step.credentialId?_eq_some_iff]
  tauto

/-- Nothing is missing if and only if every credential that is not empty has a secret. -/
theorem missing_eq_nil_iff :
    e.stage.secrets.missing e.stage.host g.credentialIds = [] ↔
      ∀ step ∈ g.steps, ∀ id, step.writtenCredential = some id → id ≠ "" →
        ∃ secret, e.stage.secrets.resolve e.stage.host id = .ok secret := by
  have hresolves (id : String) :
      (∃ secret, e.stage.secrets.resolve e.stage.host id = .ok secret) ↔
        e.stage.secrets.find? e.stage.host id ≠ none := by
    rw [SecretStore.resolve]
    cases e.stage.secrets.find? e.stage.host id <;> simp
  rw [List.eq_nil_iff_forall_not_mem]
  simp only [mem_missing_iff, hresolves]
  constructor
  · intro hnone step hstep id hid hne hmissing
    exact hnone id ⟨⟨step, hstep, hid⟩, hne, hmissing⟩
  · rintro hfound id ⟨⟨step, hstep, hid⟩, hne, hmissing⟩
    exact hfound step hstep id hid hne hmissing

end Engine

/-! ### Steps without their credential -/

namespace Dispatcher

open Exchange

/-- An invocation has failed for want of a credential, before any capability was called upon. -/
def LacksCredential (dialogue : Dialogue (Retry.Ending Value)) : Prop :=
  capabilityCalls dialogue.exchanges = [] ∧ ∃ failure, dialogue.value.result = .error failure ∧
    failure.code = FailureKind.missingCredential.code

/-- What an invocation comes to that lacks a credential. -/
def lacking (id : String) : Dialogue (Retry.Ending Value) :=
  ⟨[.answered (.secret id) none], ⟨.error (.missingCredential id), 1⟩⟩

theorem lacksCredential_lacking (id : String) : LacksCredential (lacking id) :=
  ⟨rfl, _, rfl, rfl⟩

/-- Every attempt at a program that begins with a call makes this call. -/
theorem exists_attempt_ask {α : Type} (world : World) (call : Call)
    (next : call.Reply → Program α) (start : Retry.Start) : ∃ exchange rest,
      (start.attempt world (.ask call next)).exchanges = exchange :: rest ∧
        exchange.call = call := by
  unfold Retry.Start.attempt Program.within Program.dialogue
  split
  · exact ⟨_, _, rfl, rfl⟩
  · exact ⟨_, _, rfl, rfl⟩

variable {world : World} {before : List Exchange}

/-- An attempt calls upon a capability if it begins with that. -/
theorem capabilityCalls_attempt_ne_nil {α : Type} {call : Call} {next : call.Reply → Program α}
    (hasks : call.asksCapability = true) (start : Retry.Start) :
    capabilityCalls (start.attempt world (.ask call next)).exchanges ≠ [] := by
  obtain ⟨exchange, rest, hfirst, hcall⟩ := exists_attempt_ask world call next start
  rw [hfirst, capabilityCalls, List.filterMap_cons_some
    (by rw [hcall, Option.guard, if_pos hasks])]
  exact List.cons_ne_nil _ _

theorem capabilityCalls_ne_nil_of_course {policy : RetryPolicy} {label : String} {call : Call}
    {next : call.Reply → Program (Except Failure Value)} {number remaining : Nat}
    {starts : List Retry.Start} {dialogue : Dialogue (Retry.Ending Value)}
    (h : Retry.Course policy label (.ask call next) world number remaining before starts dialogue)
    (hasks : call.asksCapability = true) : capabilityCalls dialogue.exchanges ≠ [] := by
  have hcalls : capabilityCalls dialogue.exchanges = starts.flatMap fun start =>
      capabilityCalls (start.attempt world (.ask call next)).exchanges :=
    h.filterMap_exchanges (fun _ => rfl) rfl rfl fun _ => rfl
  obtain ⟨start, others, rfl⟩ := List.exists_cons_of_ne_nil h.ne_nil
  rw [hcalls, List.flatMap_cons]
  exact List.append_ne_nil_of_left_ne_nil (capabilityCalls_attempt_ne_nil hasks start) _

/-- Whether an invocation lacks its credential is decided by whether that has a secret. -/
inductive Outlook (world : World) (before : List Exchange) (credentialId : Option String) :
    Dialogue (Retry.Ending Value) → Prop
  | locked {id : String} (hid : credentialId.filter (· ≠ "") = some id)
    (hmissing : world.reply before (.secret id) = none) :
    Outlook world before credentialId (lacking id)
  | free {dialogue : Dialogue (Retry.Ending Value)}
    (hfound : ∀ id, credentialId.filter (· ≠ "") = some id → world.reply before (.secret id) ≠ none)
    (hgoes : ¬ LacksCredential dialogue) : Outlook world before credentialId dialogue

theorem Unlocks.found_of_filter {credentialId secret : Option String} {said : List Exchange}
    (h : Unlocks world before credentialId secret said) (id : String)
    (hid : credentialId.filter (· ≠ "") = some id) : world.reply before (.secret id) ≠ none := by
  cases h with
  | free hfree => exact absurd (hfree.symm.trans hid) nofun
  | found hid' hfound =>
      obtain rfl := Option.some.inj (hid'.symm.trans hid)
      rw [hfound]
      exact Option.some_ne_none _

/-- An operation that begins with a capability, and is not refused for want of a credential, lacks
only its own. -/
theorem Guarded.outlook {policy : RetryPolicy} {label : String} {credentialId : Option String}
    {operation : Option String → Except Failure (Program (Except Failure Value))}
    {dialogue : Dialogue (Retry.Ending Value)}
    (h : Guarded world before credentialId policy label operation dialogue)
    (hrefuses : ∀ secret failure, operation secret = .error failure →
      failure.code ≠ FailureKind.missingCredential.code)
    (hcalls : ∀ secret program, operation secret = .ok program →
      ∃ call next, program = .ask call next ∧ call.asksCapability = true) :
    Outlook world before credentialId dialogue := by
  cases h with
  | locked hid hmissing => exact .locked hid hmissing
  | refused hsaid hrefused =>
      refine .free hsaid.found_of_filter ?_
      rintro ⟨-, failure, heq, hcode⟩
      cases heq
      exact hrefuses _ _ hrefused hcode
  | attempted hsaid hprogram hcourse =>
      refine .free hsaid.found_of_filter ?_
      rintro ⟨hnone, -⟩
      obtain ⟨call, next, rfl, hasks⟩ := hcalls _ _ hprogram
      rw [capabilityCalls, List.filterMap_append, List.append_eq_nil_iff] at hnone
      exact capabilityCalls_ne_nil_of_course hcourse hasks hnone.2

/-- An agent begins with its model. -/
theorem exists_agentWork_eq_ask (d : Dispatcher) (agent : AiAgent) (prompt : String)
    (secret : Option String) :
    ∃ request next, d.agentWork agent prompt secret = .ask (.model request) next := by
  -- A conversation that may not ask its model at all would begin with nothing.
  obtain ⟨remaining, hmost⟩ :=
    Nat.exists_eq_succ_of_ne_zero (Nat.ne_of_gt (d.limitsFor agent).maxIterations.2)
  unfold agentWork Agent.run
  rw [hmost]
  exact ⟨_, _, rfl⟩

/-- A fault is no missing credential. -/
theorem code_of_fault (name text : String) :
    (Failure.fault name text).code ≠ FailureKind.missingCredential.code := by
  simp [Failure.code, FailureKind.code]

theorem exists_fault_of_promptFor {agent : AiAgent} {incoming : Fields} {failure : Failure}
    (h : promptFor agent incoming = .error failure) : ∃ name text, failure = .fault name text := by
  unfold promptFor at h
  split at h
  · cases h
  · cases hencoded : Json.encode Json.compact (.map incoming) with
    | ok text =>
        rw [hencoded] at h
        cases h
    | error key =>
        rw [hencoded] at h
        cases h
        exact ⟨_, _, rfl⟩

theorem exists_fault_of_seconds? {value : Value} {failure : Failure}
    (h : Duration.seconds? value = .error failure) : ∃ name text, failure = .fault name text := by
  unfold Duration.seconds? at h
  split at h
  · split at h
    · cases h
    · dsimp only at h
      split at h
      · cases h
      · cases h
        exact ⟨_, _, rfl⟩
  · cases h
  · split at h
    · cases h
    · split at h
      · cases h
      · cases h
        exact ⟨_, _, rfl⟩
  · cases h

theorem exists_fault_of_secondsFor {d : Dispatcher} {time : Option WaitTime} {failure : Failure}
    (h : d.secondsFor time = .error failure) : ∃ name text, failure = .fault name text := by
  unfold secondsFor at h
  dsimp only at h
  generalize hvalue : Duration.seconds? _ = value at h
  cases value with
  | ok seconds => cases h
  | error problem =>
      cases h
      exact exists_fault_of_seconds? hvalue

/-- Every invocation goes as the secret of its credential decides. -/
theorem invoke_outlook (d : Dispatcher) (payload : Fields) (step : Step) (incoming : Fields)
    (world : World) (before : List Exchange) :
    Outlook world before step.writtenCredential
      ((d.invoke payload step incoming).dialogue world before) := by
  unfold invoke Step.writtenCredential
  cases step.work with
  | trigger => exact .free nofun fun ⟨_, _, heq, _⟩ => by cases heq
  | externalAction action =>
      dsimp only
      rw [runAction_eq_guarded]
      refine (guarded_dialogue ..).outlook nofun fun secret program hprogram => ?_
      cases hprogram
      exact ⟨_, _, rfl, rfl⟩
  | aiAgent agent =>
      dsimp only
      rw [runAgent_eq_guarded]
      refine (guarded_dialogue ..).outlook (fun secret failure hrefused => ?_)
        fun secret program hprogram => ?_
      · obtain ⟨name, text, rfl⟩ :=
          exists_fault_of_promptFor (promptFor_of_agentOperation hrefused)
        exact code_of_fault name text
      · obtain ⟨prompt, rfl⟩ := exists_prompt_of_agentOperation hprogram
        obtain ⟨request, next, hask⟩ := d.exists_agentWork_eq_ask agent prompt secret
        exact ⟨_, next, hask, rfl⟩
  | wait time =>
      refine .free nofun ?_
      rintro ⟨-, failure, heq, hcode⟩
      dsimp only [runWait] at heq
      cases hseconds : d.secondsFor time with
      | ok seconds =>
          rw [hseconds] at heq
          cases heq
      | error problem =>
          rw [hseconds] at heq
          cases heq
          obtain ⟨name, text, rfl⟩ := exists_fault_of_secondsFor hseconds
          exact code_of_fault name text hcode

end Dispatcher

/-! ### Stages -/

namespace Stage

/-- No call changes the secrets, or the host on which they are found. -/
theorem find?_react (stage : Stage) (call : Call) :
    (stage.react call).2.secrets.find? (stage.react call).2.host =
      stage.secrets.find? stage.host := by
  cases call with
  | external serviceId actionId parameters secret incoming =>
      have hcalled (stage : Stage) (input : ActionInput) :
          (stage.callAction serviceId actionId input).2.secrets.find?
              (stage.callAction serviceId actionId input).2.host =
            stage.secrets.find? stage.host := by
        unfold callAction
        dsimp only
        split
        · rfl
        · rfl
        · obtain ⟨requests, responses, hsent⟩ := stage.exists_sendRequest_eq input
          rw [hsent]
        · unfold playAction
          dsimp only
          split <;> rfl
        · split <;> rfl
      exact hcalled (stage.noteExternal _) _
  | model request =>
      unfold react
      dsimp only
      split
      · unfold askProvider
        dsimp only
        split
        · rfl
        · split <;> rfl
      · unfold askModel
        dsimp only
        split <;> rfl
  | tool name arguments =>
      unfold react callTool
      dsimp only
      split
      · rfl
      · rfl
      · rfl
      · unfold playTool
        dsimp only
        split <;> rfl
  | _ => rfl

theorem find?_after (stage : Stage) (exchanges : List Exchange) :
    (stage.after exchanges).secrets.find? (stage.after exchanges).host =
      stage.secrets.find? stage.host := by
  induction exchanges generalizing stage with
  | nil => rfl
  | cons exchange exchanges ih =>
      cases exchange with
      | answered call reply =>
          rw [after, ih, advance_eq]
          exact stage.find?_react call
      | late deadline call =>
          rw [after, ih]
          exact stage.find?_react call

/-- In the world of a stage, the secrets stay what they are. -/
theorem world_keeps (stage : Stage) : stage.world.Keeps stage.host stage.secrets :=
  fun before id => congrFun (stage.find?_after before) id

end Stage

/-! ### Foresight -/

namespace Engine

open Dispatcher

/-- Missing credentials are foreseen: as long as the secrets stay what they are, a step fails for
want of its credential, before it calls upon any capability, if and only if that credential is
missing. Such a step only looks the secret up, and that once. -/
theorem missing_credentials_are_foreseen (e : Engine) (g : Graph) (world : World)
    (hkeeps : world.Keeps e.stage.host e.stage.secrets) :
    ∃ missing, e.missingCredentials (.built g) = .ok missing ∧
      (∀ step ∈ g.steps, ∀ payload incoming before,
        let dialogue := (e.dispatcher.invoke payload step incoming).dialogue world before
        (LacksCredential dialogue ↔ ∃ id ∈ missing, step.writtenCredential = some id) ∧
        ∀ id ∈ missing, step.writtenCredential = some id → dialogue = lacking id) ∧
      (missing = [] ↔ ∀ step ∈ g.steps, ∀ id, step.writtenCredential = some id → id ≠ "" →
        ∃ secret, e.stage.secrets.resolve e.stage.host id = .ok secret) := by
  refine ⟨_, rfl, fun step hstep payload incoming before => ?_, missing_eq_nil_iff⟩
  intro dialogue
  have houtlook := invoke_outlook e.dispatcher payload step incoming world before
  change Outlook world before step.writtenCredential dialogue at houtlook
  generalize dialogue = dialogue at houtlook
  have hwritten {id : String} : step.writtenCredential.filter (· ≠ "") = some id ↔
      step.writtenCredential = some id ∧ id ≠ "" := by
    rw [Option.filter_eq_some_iff, decide_eq_true_iff]
  cases houtlook with
  | @locked id hid hmissing =>
      obtain ⟨hcredential, hne⟩ := hwritten.mp hid
      have hmem : id ∈ e.stage.secrets.missing e.stage.host g.credentialIds :=
        mem_missing_iff.mpr
          ⟨⟨step, hstep, hcredential⟩, hne, (hkeeps before id).symm.trans hmissing⟩
      refine ⟨iff_of_true (lacksCredential_lacking id) ⟨id, hmem, hcredential⟩, ?_⟩
      intro other _ hother
      rw [Option.some.inj (hcredential.symm.trans hother)]
  | free hfound hgoes =>
      have hnone (id : String) (hmem : id ∈ e.stage.secrets.missing e.stage.host g.credentialIds) :
          step.writtenCredential ≠ some id := by
        intro hcredential
        obtain ⟨-, hne, hmissing⟩ := mem_missing_iff.mp hmem
        exact hfound id (hwritten.mpr ⟨hcredential, hne⟩) ((hkeeps before id).trans hmissing)
      refine ⟨iff_of_false hgoes ?_, fun id hmem hcredential => absurd hcredential (hnone id hmem)⟩
      rintro ⟨id, hmem, hcredential⟩
      exact hnone id hmem hcredential

/-- Two agents, of which the second refers to no credential. -/
def consulting : Graph where
  definition :=
    { steps :=
        [⟨"start", none, none, .trigger⟩,
          ⟨"ask", none, none, .aiAgent
            { provider := "openai", model := "large", credentialId := some "token" }⟩,
          ⟨"check", none, none, .aiAgent
            { provider := "openai", model := "large", credentialId := some "" }⟩]
      edges := [⟨"start", "ask"⟩, ⟨"ask", "check"⟩] }
  trigger := ⟨"start", none, none, .trigger⟩
  nodup := by decide
  sound := by decide
  acyclic := by decide +kernel
  triggers_eq := by decide

/-- An engine with a secret that is empty. -/
def unprepared : Engine := { stage := { secrets := .table [("token", "")] } }

theorem emptyToken_is_foreseen :
    unprepared.missingCredentials (.built consulting) = .ok ["token"] ∧
      ∀ step ∈ consulting.steps, ∀ payload incoming,
        (LacksCredential ((unprepared.dispatcher.invoke payload step incoming).dialogue
            unprepared.stage.world []) ↔ step.id = "ask") ∧
        (step.id = "ask" → (unprepared.dispatcher.invoke payload step incoming).dialogue
            unprepared.stage.world [] = lacking "token") := by
  obtain ⟨missing, hmissing, hsteps, -⟩ := missing_credentials_are_foreseen unprepared consulting
    unprepared.stage.world unprepared.stage.world_keeps
  have htoken : unprepared.missingCredentials (.built consulting) = .ok ["token"] := by
    decide +kernel
  obtain rfl := Except.ok.inj (hmissing.symm.trans htoken)
  refine ⟨htoken, fun step hstep payload incoming => ?_⟩
  have hask : step.writtenCredential = some "token" ↔ step.id = "ask" := by
    revert step
    decide +kernel
  obtain ⟨hlacks, hlacking⟩ := hsteps step hstep payload incoming []
  simp only [List.mem_singleton, exists_eq_left, forall_eq, hask] at hlacks hlacking
  exact ⟨hlacks, hlacking⟩

end Engine

end Workflow
