import Workflow.CommandLine.Session
import Workflow.Proofs.Fallible
import Workflow.Proofs.Text.Scanning
import Workflow.Proofs.Yaml.Failures
import Mathlib.Data.List.Basic

/-!
# What a command is given

A command reads the text of a definition, and a run is given a payload and secrets besides. Whatever
is wrong with one of them is told, but for a text that is no document at all: what that fails with
is told by nobody.
-/

namespace Workflow

namespace Definition

/-- The value of a text, in the notation that the name of its path calls for. -/
def document (path text : String) : Except Failure Value :=
  if (Path.suffix path).map Char.toLower = ".json" then
    match Json.parse? text with
    | some value => .ok value
    | none => .error malformedJson
  else yamlOrEmpty text

/-- The text at a path can be read, and is no document. -/
def IsMalformed (host : Host) (path : String) : Prop :=
  ∃ text failure, host.read (Path.normal path) = .ok text ∧
    document (Path.normal path) text = .error failure

theorem load_eq (host : Host) (path : String) :
    load host path = host.read (Path.normal path) >>= fun text =>
      document (Path.normal path) text >>= fun value => (ofValue value).mapError .invalid := by
  unfold load document
  refine congrArg _ (funext fun text => ?_)
  dsimp only
  split
  · cases Json.parse? text <;> rfl
  · rfl

theorem failsOnly_document (path text : String) :
    FailsOnly Failure.IsOfText (document path text) := by
  refine .ite ?_ ((Yaml.failsOnly_load text).bind fun value? => ?_)
  · split
    · exact .ok _
    · exact .error (show Failure.IsOfText malformedJson from rfl)
  · cases value? <;> exact .ok _

end Definition

/-- What is wrong with a text that cannot be read, or with data that are no definition. -/
def Failure.IsReported (failure : Failure) : Prop :=
  (∃ e, failure = .invalid e) ∨ Host.isUnreadable failure = true

theorem Host.failsOnly_read (host : Host) (path : String) :
    FailsOnly Failure.IsReported (host.read path) := by
  unfold Host.read
  split
  · exact .ok _
  · refine .error (.inr ?_)
    split
    · rfl
    · split <;> rfl

/-- A definition is not loaded because of a fault of its text, or because of what is reported. -/
theorem Definition.failure_of_load {host : Host} {path : String} {failure : Failure}
    (hload : load host path = .error failure) :
    IsMalformed host path ∧ failure.IsOfText ∨
      ¬ IsMalformed host path ∧ failure.IsReported := by
  rw [load_eq] at hload
  rcases bind_eq_error_iff.mp hload with hread | ⟨text, hread, hrest⟩
  · refine .inr ⟨?_, host.failsOnly_read _ _ hread⟩
    rintro ⟨text, failure', htext, -⟩
    cases hread.symm.trans htext
  · rcases bind_eq_error_iff.mp hrest with hdocument | ⟨value, hdocument, hvalue⟩
    · exact .inl ⟨⟨text, _, hread, hdocument⟩, failsOnly_document _ _ _ hdocument⟩
    · refine .inr ⟨?_, ?_⟩
      · rintro ⟨text', failure', htext, hfails⟩
        cases hread.symm.trans htext
        cases hdocument.symm.trans hfails
      · cases hdecoded : ofValue value with
        | error e =>
            rw [hdecoded] at hvalue
            cases hvalue
            exact .inl ⟨e, rfl⟩
        | ok definition =>
            rw [hdecoded] at hvalue
            cases hvalue

theorem Definition.not_isMalformed_of_load {host : Host} {path : String} {definition : Definition}
    (hload : load host path = .ok definition) : ¬ IsMalformed host path := by
  rintro ⟨text, failure, hread, hdocument⟩
  rw [load_eq] at hload
  obtain ⟨text', hread', hrest⟩ := bind_eq_ok_iff.mp hload
  obtain ⟨value, hdocument', -⟩ := bind_eq_ok_iff.mp hrest
  cases hread.symm.trans hread'
  cases hdocument.symm.trans hdocument'

namespace Session

open CommandLine

variable (s : Session) (heading path : String)

/-- What can come of loading a definition. -/
inductive Loads : Except CommandOutput Definition → Prop
  | loaded (definition : Definition) (hload : Definition.load s.host path = .ok definition) :
    Loads (.ok definition)
  | told (failure : Failure) (hload : Definition.load s.host path = .error failure)
    (hdocument : ¬ Definition.IsMalformed s.host path) :
    Loads (.error (.refusal (heading ++ failure.text)))
  | untold (failure : Failure) (hload : Definition.load s.host path = .error failure)
    (hmalformed : Definition.IsMalformed s.host path) : Loads (.error (.fault failure))

theorem loadDefinition_of_load {definition : Definition}
    (hload : Definition.load s.host path = .ok definition) :
    s.loadDefinition heading path = .ok definition := by
  rw [loadDefinition, hload]
  rfl

theorem loads_loadDefinition : s.Loads heading path (s.loadDefinition heading path) := by
  unfold loadDefinition
  cases hload : Definition.load s.host path with
  | ok definition => exact .loaded definition hload
  | error failure =>
      simp only [Except.mapError]
      rcases Definition.failure_of_load hload with
        ⟨hmalformed, htext⟩ | ⟨hdocument, ⟨e, rfl⟩ | hunreadable⟩
      · cases failure with
        | fault name text =>
            rw [show Host.isUnreadable (.fault name text) = false from htext]
            exact .untold _ hload hmalformed
        | _ => cases htext
      · exact .told _ hload hdocument
      · rw [hunreadable]
        split
        · exact .told _ hload hdocument
        · exact .told _ hload hdocument
        · rename_i hnot
          exact (hnot rfl).elim

theorem loadDefinition_of_isMalformed (hmalformed : Definition.IsMalformed s.host path) :
    ∃ failure, s.loadDefinition heading path = .error (.fault failure) := by
  have hloads := s.loads_loadDefinition heading path
  generalize s.loadDefinition heading path = loaded at hloads ⊢
  cases hloads with
  | loaded definition hload => exact absurd hmalformed (Definition.not_isMalformed_of_load hload)
  | told failure hload hdocument => exact absurd hmalformed hdocument
  | untold failure hload => exact ⟨failure, rfl⟩

/-! ### Payloads -/

/-- A payload is given that is no JSON object. -/
def IsMalformedPayload (text : Option String) : Prop :=
  ∃ given, text = some given ∧ given ≠ "" ∧ ∀ entries, Json.parse? given ≠ some (.map entries)

theorem readPayload_of_not_isMalformed {text : Option String} (h : ¬ IsMalformedPayload text) :
    ∃ entries, readPayload text = .ok (.map entries) := by
  unfold readPayload
  split
  · exact ⟨_, rfl⟩
  · rename_i given hgiven
    obtain ⟨rfl, hne⟩ := Option.filter_eq_some_iff.mp hgiven
    by_cases hobject : ∃ entries, Json.parse? given = some (.map entries)
    · obtain ⟨entries, hparse⟩ := hobject
      rw [hparse]
      exact ⟨entries, rfl⟩
    · exact absurd ⟨given, rfl, of_decide_eq_true hne,
        fun entries hparse => hobject ⟨entries, hparse⟩⟩ h

/-! ### Secrets -/

end Session

end Workflow
