import Workflow.Proofs.CommandLine.Reading
import Workflow.Proofs.Engine.Undisturbed

/-!
# How the commands end

Whoever checks a workflow is told whether it can be run, and whoever runs one is told how the run
has ended, or why there is none. This holds of all texts, payloads, secrets, timeouts and settings,
but for a few failures that are told by nobody: those of a text that is no document, of settings
that cannot be followed, of a repository that does not take the run, of a wait that is given up and
of results that have no text.
-/

namespace Workflow

/-- A failure of one of the workflow's own kinds. -/
def Failure.IsOwn : Failure → Prop
  | .typed .. | .toolArguments .. => True
  | _ => False

theorem CommandOutput.ofFailure_of_not_isOwn {failure : Failure} (h : ¬ failure.IsOwn)
    (lines : List String) : ofFailure failure lines = fault failure lines := by
  cases failure <;> first | rfl | exact absurd trivial h

/-! ### What a run fails with before it has begun -/

namespace Repository

theorem failsOnly_write_creation (repository : Repository) (now : Moment) (run : Run) :
    FailsOnly (¬ ·.IsOwn) (repository.write now run.creation) := by
  cases repository with
  | memory store =>
      refine .map (.bind ?_ fun record => .ok _) _
      exact .mapError (fun e => not_false) _
  | database db =>
      have htext (value : Value) : FailsOnly (¬ ·.IsOwn) (Database.textOf value) :=
        .mapError (fun key => not_false) _
      refine .map ((htext _).bind fun definition => (htext _).bind fun payload => ?_) _
      exact .guard not_false (.ok _)

end Repository

namespace Engine

variable {e e' : Engine} {runId : String} {order : Order} {failure : Failure}

theorem not_isOwn_of_launch (h : (e.launch runId).1 = .error failure) : ¬ failure.IsOwn := by
  unfold launch at h
  split at h
  · cases h
    exact not_false
  · rename_i run _
    split at h
    · rename_i failure' hstore
      cases h
      unfold store at hstore
      split at hstore
      · cases hstore
        exact not_false
      · exact Repository.failsOnly_write_creation _ _ run _ hstore
    · cases h

end Engine

namespace Session

open CommandLine

variable (s : Session) (path : String) (options : RunOptions)

/-! ### Checking a workflow -/

/-- The definition at a path can be loaded, and it is one of a graph. -/
def IsAcceptable : Prop :=
  ∃ definition graph, Definition.load s.host path = .ok definition ∧
    Graph.ofDefinition definition = .ok graph

/-- A check ends well if the workflow is acceptable, and with the reason if it is not. -/
structure ValidatesProperly : Prop where
  accepts : (s.validate path).conclusion.exitCode = 0 ↔ s.IsAcceptable path
  refuses : (s.validate path).conclusion.exitCode ≠ 0 →
    (s.validate path).conclusion.exitCode = 1 ∧
      ∃ reason, (s.validate path).lines = ["Invalid workflow: " ++ reason]
  handles : ∀ cause, (s.validate path).conclusion ≠ .fault cause

/-- What a check fails with and nobody tells. -/
inductive ValidationEscapes : Prop
  | document (hmalformed : Definition.IsMalformed s.host path)
  | settings (failure : Failure) (hacceptable : s.IsAcceptable path)
    (hsettings : Settings.load s.host = .error failure)
  | secrets (settings : Settings) (failure : Failure) (hacceptable : s.IsAcceptable path)
    (hsettings : Settings.load s.host = .ok settings)
    (hsecrets : settings.secretStore s.host = .error failure)

variable {s path options}

theorem ValidatesProperly.of_refusal (reason : String) (hnot : ¬ s.IsAcceptable path)
    (h : s.validate path = .refusal ("Invalid workflow: " ++ reason)) :
    s.ValidatesProperly path where
  accepts := by
    rw [h]
    exact iff_of_false Nat.one_ne_zero hnot
  refuses _ := by
    rw [h]
    exact ⟨rfl, reason, rfl⟩
  handles cause := by
    rw [h]
    exact nofun

theorem ValidationEscapes.fault (h : s.ValidationEscapes path) :
    ∃ cause, (s.validate path).conclusion = .fault cause := by
  unfold validate
  dsimp only
  cases h with
  | document hmalformed =>
      obtain ⟨failure, hload⟩ :=
        s.loadDefinition_of_isMalformed "Invalid workflow: " path hmalformed
      rw [hload]
      exact ⟨failure, rfl⟩
  | settings failure hacceptable hsettings =>
      obtain ⟨definition, graph, hload, hgraph⟩ := hacceptable
      rw [s.loadDefinition_of_load _ path hload, hsettings]
      simp only [Engine.graphOfDefinition, hgraph]
      exact ⟨failure, rfl⟩
  | secrets settings failure hacceptable hsettings hsecrets =>
      obtain ⟨definition, graph, hload, hgraph⟩ := hacceptable
      rw [s.loadDefinition_of_load _ path hload, hsettings]
      simp only [Engine.graphOfDefinition, hgraph, Except.mapError, bind, Except.bind, hsecrets]
      exact ⟨failure, rfl⟩

variable (s path options)

/-- What a command that runs a workflow fails with and nobody tells. -/
inductive RunEscapes : Prop
  | document (hpayload : ¬ IsMalformedPayload options.payload)
    (hmalformed : Definition.IsMalformed s.host path)
  | settings (definition : Definition) (failure : Failure)
    (hpayload : ¬ IsMalformedPayload options.payload)
    (hload : Definition.load s.host path = .ok definition)
    (hsettings : Settings.load s.host = .error failure)
  | secrets (definition : Definition) (settings : Settings) (failure : Failure)
    (hpayload : ¬ IsMalformedPayload options.payload)
    (hload : Definition.load s.host path = .ok definition)
    (hsettings : Settings.load s.host = .ok settings) (hnone : options.secrets = [])
    (hsecrets : settings.secretStore s.host = .error failure)
  | selection (definition : Definition) (settings : Settings) (secrets : SecretStore)
    (failure : Failure) (hpayload : ¬ IsMalformedPayload options.payload)
    (hload : Definition.load s.host path = .ok definition)
    (hsettings : Settings.load s.host = .ok settings)
    (hsecrets : s.secretStore settings options.secrets = .ok secrets)
    (hchoose : s.selection.choose s.host none (some settings) = .error failure)
  /-- The repository does not take the run. -/
  | refusal (preparation : Preparation) (hprepare : s.prepare path options = .ok preparation)
    (hrefuses : preparation.engine.Refuses preparation.order)
  /-- The wait for the end of the run is given up. -/
  | patience (preparation : Preparation) (hprepare : s.prepare path options = .ok preparation)
    (hlate : (preparation.engine.execute preparation.order options.timeout).1 = .error .timedOut)
  /-- The run has a result that is keyed by a date. -/
  | results (preparation : Preparation) (runId : String) (run : Run) (key : Scalar)
    (hprepare : s.prepare path options = .ok preparation)
    (hexecute : (preparation.engine.execute preparation.order options.timeout).1 = .ok runId)
    (hrun : (preparation.engine.execute preparation.order options.timeout).2.run? runId = .ok run)
    (hkey : Json.encode Json.indented (.record run.results) = .error key)

variable {s path options}

/-! ### The way to a run -/

section Prepare

variable {entries : Fields} {definition : Definition} {settings : Settings} {output : CommandOutput}
  (hpayload : readPayload options.payload = .ok (.map entries))

include hpayload

theorem prepare_of_load_error
    (hload : s.loadDefinition "Cannot load workflow: " path = .error output) :
    s.prepare path options = .error output := by
  simp only [prepare, hpayload, hload, bind, Except.bind]

variable (hload : Definition.load s.host path = .ok definition)

include hload

theorem prepare_of_settings_error {failure : Failure}
    (hsettings : Settings.load s.host = .error failure) :
    s.prepare path options = .error (.fault failure) := by
  simp only [prepare, hpayload, s.loadDefinition_of_load _ path hload, hsettings, bind, Except.bind,
    Except.mapError]

variable (hsettings : Settings.load s.host = .ok settings)

include hsettings

theorem prepare_of_secrets_error
    (hsecrets : s.secretStore settings options.secrets = .error output) :
    s.prepare path options = .error output := by
  simp only [prepare, hpayload, s.loadDefinition_of_load _ path hload, hsettings, hsecrets, bind,
    Except.bind, Except.mapError]

variable {secrets : SecretStore} (hsecrets : s.secretStore settings options.secrets = .ok secrets)

include hsecrets

theorem prepare_of_selection_error {failure : Failure}
    (hchoose : s.selection.choose s.host none (some settings) = .error failure) :
    s.prepare path options = .error (.fault failure) := by
  simp only [prepare, hpayload, s.loadDefinition_of_load _ path hload, hsettings, hsecrets, hchoose,
    bind, Except.bind, Except.mapError]

end Prepare

theorem run_of_prepare_error {output : CommandOutput}
    (hprepare : s.prepare path options = .error output) : (s.run path options).1 = output := by
  simp only [run, hprepare]

section Execute

variable {preparation : Preparation} (hprepare : s.prepare path options = .ok preparation)

include hprepare

theorem run_of_failure {failure : Failure}
    (hexecute : (preparation.engine.execute preparation.order options.timeout).1 =
      .error failure) : ∃ told, (s.run path options).1 = .ofFailure failure told := by
  simp only [run, hprepare, hexecute, Except.bind]
  exact ⟨_, rfl⟩

theorem run_of_end {runId : String} {run : Run}
    (hexecute : (preparation.engine.execute preparation.order options.timeout).1 = .ok runId)
    (hrun : (preparation.engine.execute preparation.order options.timeout).2.run? runId =
      .ok run) : ∃ told, (s.run path options).1 = outputOfRun told run := by
  simp only [Session.run, hprepare, hexecute, hrun, Except.bind]
  exact ⟨_, rfl⟩

end Execute

theorem RunEscapes.fault (h : s.RunEscapes path options) :
    ∃ cause, (s.run path options).1.conclusion = .fault cause := by
  cases h with
  | document hpayload hmalformed =>
      obtain ⟨entries, hpayload⟩ := readPayload_of_not_isMalformed hpayload
      obtain ⟨failure, hload⟩ :=
        s.loadDefinition_of_isMalformed "Cannot load workflow: " path hmalformed
      rw [run_of_prepare_error (prepare_of_load_error hpayload hload)]
      exact ⟨failure, rfl⟩
  | settings definition failure hpayload hload hsettings =>
      obtain ⟨entries, hpayload⟩ := readPayload_of_not_isMalformed hpayload
      rw [run_of_prepare_error (prepare_of_settings_error hpayload hload hsettings)]
      exact ⟨failure, rfl⟩
  | secrets definition settings failure hpayload hload hsettings hnone hsecrets =>
      obtain ⟨entries, hpayload⟩ := readPayload_of_not_isMalformed hpayload
      have hsecrets : s.secretStore settings options.secrets = .error (.fault failure) := by
        simp only [secretStore, hnone, hsecrets, List.isEmpty_nil, if_true, Except.mapError]
      rw [run_of_prepare_error (prepare_of_secrets_error hpayload hload hsettings hsecrets)]
      exact ⟨failure, rfl⟩
  | selection definition settings secrets failure hpayload hload hsettings hsecrets hchoose =>
      obtain ⟨entries, hpayload⟩ := readPayload_of_not_isMalformed hpayload
      rw [run_of_prepare_error
        (prepare_of_selection_error hpayload hload hsettings hsecrets hchoose)]
      exact ⟨failure, rfl⟩
  | refusal preparation hprepare hrefuses =>
      obtain ⟨runId, e, failure, hsubmit, hlaunch⟩ := hrefuses
      have hexecute : (preparation.engine.execute preparation.order options.timeout).1 =
          .error failure := by
        unfold Engine.execute
        rw [Engine.start_eq, hsubmit]
        simp only [hlaunch, Except.map]
      obtain ⟨told, hrun⟩ := run_of_failure hprepare hexecute
      rw [hrun, CommandOutput.ofFailure_of_not_isOwn (Engine.not_isOwn_of_launch hlaunch)]
      exact ⟨failure, rfl⟩
  | patience preparation hprepare hlate =>
      obtain ⟨told, hrun⟩ := run_of_failure hprepare hlate
      rw [hrun]
      exact ⟨_, rfl⟩
  | results preparation runId run key hprepare hexecute hrun hkey =>
      obtain ⟨told, hrun⟩ := run_of_end hprepare hexecute hrun
      rw [hrun]
      simp only [outputOfRun, hkey]
      exact ⟨_, rfl⟩

/-- The text of the only file is no document. -/
def unfinished : Session where
  host := { files := [("flow.json", "\x7b")] }

end Session

end Workflow
