import Workflow.Proofs.Secrecy.Program
import Workflow.Rehearsal.Stage
import Mathlib.Data.List.Forall2

/-!
# Capabilities that cannot tell secrets apart

Two stages with different secrets go through the same calls, but for the secrets that these carry.
Capabilities are blind when their replies to such calls are the same. Of the capabilities of a
rehearsal, all are blind but those that send requests to servers: a secret that cannot be sent is
found out.
-/

namespace Workflow

variable {R : String → String → Prop}

/-- Two calls of actions differ at most in their secret. -/
structure ExternalCall.Alike (R : String → String → Prop) (call call' : ExternalCall) : Prop where
  time : call'.time = call.time
  action : call'.action = call.action
  parameters : call'.input.parameters = call.input.parameters
  incoming : call'.input.incoming = call.input.incoming
  secret : Option.Rel R call.input.secret call'.input.secret

/-- Two questions to a model differ at most in their secret. -/
structure ModelRequest.Alike (R : String → String → Prop) (request request' : ModelRequest) :
    Prop where
  rest : { request' with secret := none } = { request with secret := none }
  secret : Option.Rel R request.secret request'.secret

/-- Two records tell of the same calls, but for the secrets these carry. -/
structure CallRecord.Alike (R : String → String → Prop) (record record' : CallRecord) : Prop where
  external : List.Forall₂ (ExternalCall.Alike R) record.external record'.external
  models : List.Forall₂ (fun entry entry' => entry'.1 = entry.1 ∧ entry.2.Alike R entry'.2)
    record.models record'.models
  tools : record'.tools = record.tools
  searches : record'.searches = record.searches
  attempts : record'.attempts = record.attempts

/-- Two calls take the same time, and their replies have to do with each other. -/
structure Reaction.Alike {α β : Type} (related : α → β → Prop) (reaction : Reaction α)
    (reaction' : Reaction β) : Prop where
  delay : reaction'.delay = reaction.delay
  isAtOnce : reaction'.isAtOnce = reaction.isAtOnce
  reply : ∀ time, related (reaction.reply time) (reaction'.reply time)

theorem Reaction.alike_refl {α : Type} (reaction : Reaction α) : reaction.Alike Eq reaction :=
  ⟨rfl, rfl, fun _ => rfl⟩

/-- A call of an action, a model or a tool. -/
def Call.asksCapability : Call → Bool
  | .external .. | .model _ | .tool .. => true
  | _ => false

/-- Of the secrets that are related, none is empty. -/
def NoneEmpty (R : String → String → Prop) : Prop :=
  ∀ secret secret', R secret secret' → secret ≠ "" ∧ secret' ≠ ""

namespace Stage

variable {start start' stage stage' : Stage} {call call' : Call}
  {related : call.Reply → call'.Reply → Prop}

/-- Two secrets are kept under the same id. -/
def Pairs (stage stage' : Stage) (secret secret' : String) : Prop :=
  ∃ id, stage.secrets.find? stage.host id = some secret ∧
    stage'.secrets.find? stage'.host id = some secret'

/-- Two stages are reached from two others by calls that differ at most in the secret they carry,
at the same times. -/
inductive Counterparts (R : String → String → Prop) (start start' : Stage) : Stage → Stage → Prop
  | start : Counterparts R start start' start start'
  | call {stage stage' : Stage} (hbefore : Counterparts R start start' stage stage')
    {call call' : Call} {related : call.Reply → call'.Reply → Prop}
    (hcall : Call.Alike R call call' related) :
    Counterparts R start start' (stage.react call).2 (stage'.react call').2
  | clock {stage stage' : Stage} (hbefore : Counterparts R start start' stage stage')
    (time : Float) :
    Counterparts R start start' { stage with now := time } { stage' with now := time }

/-- The replies of the capabilities, and the time they take, do not depend on secrets: neither on
the one that a call carries, nor on those that earlier calls have carried. -/
def IsBlind (start start' : Stage) : Prop :=
  ∀ stage stage', Counterparts (start.Pairs start') start start' stage stage' →
    ∀ (call call' : Call) (related : call.Reply → call'.Reply → Prop),
      Call.Alike (start.Pairs start') call call' related → call.asksCapability = true →
        (stage.react call).1.Alike related (stage'.react call').1

/-- Two stages that differ at most in the secrets they keep, in what they have been told, and in
what their servers have still to say. -/
inductive Alike (R : String → String → Prop) (stage : Stage) : Stage → Prop
  | mk {host : Host} {secrets : SecretStore} {responses : List Http.Reply} {record : CallRecord}
    (hresolves : ∀ id,
      Option.Rel R (stage.secrets.find? stage.host id) (secrets.find? host id))
    (hrecord : stage.record.Alike R record) :
    Alike R stage { stage with host, secrets, responses, record }

theorem Alike.record (h : stage.Alike R stage') : stage.record.Alike R stage'.record := by
  cases h
  assumption

/-- The same credentials have no secret. -/
theorem Alike.missing (h : stage.Alike R stage') (ids : List String) :
    stage'.secrets.missing stage'.host ids = stage.secrets.missing stage.host ids := by
  cases h with
  | mk hresolves hrecord =>
  refine List.filter_congr fun id _ => ?_
  have hrelated := hresolves id
  revert hrelated
  generalize stage.secrets.find? stage.host id = found
  generalize SecretStore.find? _ id _ = found'
  rintro (_ | _)
  · rfl
  · rfl

/-- Whether a client can be made depends on whether there is a secret, and not on the secret. -/
theorem refusalOf_congr (hR : NoneEmpty R) (script : ProviderScript) (request : ModelRequest)
    {secret secret' : Option String} (hsecret : Option.Rel R secret secret') :
    refusalOf script { request with secret := secret' } =
      refusalOf script { request with secret } := by
  cases hsecret with
  | none => rfl
  | some hsecret =>
      obtain ⟨hne, hne'⟩ := hR _ _ hsecret
      simp only [refusalOf, ModelAccess.choose, Option.filter, hne, hne', ne_eq, not_false_eq_true,
        decide_true, if_true]
      by_cases hkeyed : Text.lower request.provider ∈ ModelAccess.keyedProviders
      · simp only [if_pos hkeyed]
        cases script.isParticular <;> rfl
      · simp only [if_neg hkeyed]

theorem Alike.playAction (h : stage.Alike R stage') (label serviceId actionId : String)
    (parameters incoming : Fields) (secret secret' : Option String) :
    (stage'.playAction label serviceId actionId ⟨parameters, secret', incoming⟩).1 =
        (stage.playAction label serviceId actionId ⟨parameters, secret, incoming⟩).1 ∧
      (stage.playAction label serviceId actionId ⟨parameters, secret, incoming⟩).2.Alike R
        (stage'.playAction label serviceId actionId ⟨parameters, secret', incoming⟩).2 := by
  cases h with
  | mk hresolves hrecord =>
  have hscripted (entries entries' : List (String × ActionInput)) {record : CallRecord}
      (hrecord : stage.record.Alike R record) :
      CallRecord.Alike R { stage.record with scripted := entries }
        { record with scripted := entries' } :=
    ⟨hrecord.external, hrecord.models, hrecord.tools, hrecord.searches, hrecord.attempts⟩
  cases heffect : ((Table.find? stage.actions label).getD ⟨[], 0⟩).current.effect with
  | reply value =>
      simp only [Stage.playAction, noteScripted, heffect]
      exact ⟨trivial, .mk hresolves (hscripted _ _ hrecord)⟩
  | failure failure =>
      simp only [Stage.playAction, noteScripted, heffect]
      exact ⟨trivial, .mk hresolves (hscripted _ _ hrecord)⟩
  | echo =>
      simp only [Stage.playAction, noteScripted, heffect]
      exact ⟨rfl, .mk hresolves (hscripted _ _ hrecord)⟩

theorem exists_serve_eq (stage : Stage) (request : Http.Request) :
    ∃ responses, (stage.serve request).2 = { stage with responses } := by
  unfold serve
  split
  · exact ⟨_, rfl⟩
  · split
    · exact ⟨_, rfl⟩
    · exact ⟨_, rfl⟩
    · exact ⟨_, rfl⟩

/-- Whether it is sent or not, a request changes only what the servers know of. -/
theorem exists_sendRequest_eq (stage : Stage) (input : ActionInput) : ∃ requests responses,
    (stage.sendRequest input).2 =
      { stage with responses, record := { stage.record with requests } } := by
  unfold Stage.sendRequest
  split
  · exact ⟨_, _, rfl⟩
  · rename_i request _
    obtain ⟨responses, hserved⟩ := (stage.noteRequest request).exists_serve_eq request
    exact ⟨_, responses, hserved⟩

theorem Alike.sendRequest (h : stage.Alike R stage') (input input' : ActionInput) :
    (stage.sendRequest input).2.Alike R (stage'.sendRequest input').2 := by
  obtain ⟨requests, responses, hsent⟩ := stage.exists_sendRequest_eq input
  obtain ⟨requests', responses', hsent'⟩ := stage'.exists_sendRequest_eq input'
  rw [hsent, hsent']
  cases h with
  | mk hresolves hrecord =>
  exact .mk hresolves
    ⟨hrecord.external, hrecord.models, hrecord.tools, hrecord.searches, hrecord.attempts⟩

theorem Alike.callAction (h : stage.Alike R stage') (serviceId actionId : String)
    (parameters incoming : Fields) (secret secret' : Option String) :
    (stage.registry.find? serviceId actionId ≠ some .http →
      (stage'.callAction serviceId actionId ⟨parameters, secret', incoming⟩).1 =
        (stage.callAction serviceId actionId ⟨parameters, secret, incoming⟩).1) ∧
      (stage.callAction serviceId actionId ⟨parameters, secret, incoming⟩).2.Alike R
        (stage'.callAction serviceId actionId ⟨parameters, secret', incoming⟩).2 := by
  have hregistry : stage'.registry = stage.registry := by
    cases h
    rfl
  have hmoment : stage'.moment = stage.moment := by
    cases h
    rfl
  unfold Stage.callAction
  rw [hregistry, hmoment]
  cases stage.registry.find? serviceId actionId with
  | none =>
      dsimp only
      split
      · exact ⟨fun _ => rfl, h⟩
      · exact ⟨fun _ => rfl, h⟩
  | some handler =>
      cases handler with
      | echo => exact ⟨fun _ => rfl, h⟩
      | fail => exact ⟨fun _ => rfl, h⟩
      | http => exact ⟨fun hne => absurd rfl hne, h.sendRequest _ _⟩
      | custom label =>
          obtain ⟨hreaction, hafter⟩ :=
            h.playAction label serviceId actionId parameters incoming secret secret'
          exact ⟨fun _ => hreaction, hafter⟩

theorem Alike.noteExternal (h : stage.Alike R stage') (action : String)
    (parameters incoming : Fields) {secret secret' : Option String}
    (hsecret : Option.Rel R secret secret') :
    (stage.noteExternal ⟨stage.now, action, parameters, secret, incoming⟩).Alike R
      (stage'.noteExternal ⟨stage'.now, action, parameters, secret', incoming⟩) := by
  cases h with
  | mk hresolves hrecord =>
  exact .mk hresolves { hrecord with
    external := List.rel_append hrecord.external (.cons ⟨rfl, rfl, rfl, rfl, hsecret⟩ .nil) }

theorem Alike.noteModel (h : stage.Alike R stage') (request : ModelRequest)
    {secret secret' : Option String} (hsecret : Option.Rel R secret secret') :
    (stage.noteModel { request with secret }).Alike R
      (stage'.noteModel { request with secret := secret' }) := by
  cases h with
  | mk hresolves hrecord =>
  exact .mk hresolves { hrecord with
    models := List.rel_append hrecord.models (.cons ⟨rfl, rfl, hsecret⟩ .nil) }

theorem Alike.askModel (h : stage.Alike R stage') (request : ModelRequest)
    {secret secret' : Option String} (hsecret : Option.Rel R secret secret') :
    (stage'.askModel { request with secret := secret' }).1 =
        (stage.askModel { request with secret }).1 ∧
      (stage.askModel { request with secret }).2.Alike R
        (stage'.askModel { request with secret := secret' }).2 := by
  have hnoted := h.noteModel request hsecret
  unfold Stage.askModel
  dsimp only
  generalize stage.noteModel { request with secret } = noted at hnoted ⊢
  generalize stage'.noteModel { request with secret := secret' } = noted' at hnoted ⊢
  cases hnoted with
  | mk hresolves hrecord =>
  cases Table.find? noted.models (request.provider ++ ":" ++ request.model) with
  | none => exact ⟨rfl, .mk hresolves hrecord⟩
  | some lines =>
      cases lines with
      | nil => exact ⟨rfl, .mk hresolves hrecord⟩
      | cons line rest => exact ⟨rfl, .mk hresolves hrecord⟩

theorem Alike.askProvider (hR : NoneEmpty R) (h : stage.Alike R stage') (script : ProviderScript)
    (request : ModelRequest) {secret secret' : Option String}
    (hsecret : Option.Rel R secret secret') :
    (stage'.askProvider script { request with secret := secret' }).1 =
        (stage.askProvider script { request with secret }).1 ∧
      (stage.askProvider script { request with secret }).2.Alike R
        (stage'.askProvider script { request with secret := secret' }).2 := by
  have hclient : (stage.noteClient { request with secret }).Alike R
      (stage'.noteClient { request with secret := secret' }) := by
    cases h with
    | mk hresolves hrecord =>
    exact .mk hresolves
      ⟨hrecord.external, hrecord.models, hrecord.tools, hrecord.searches, hrecord.attempts⟩
  have hnoted := hclient.noteModel request hsecret
  unfold Stage.askProvider
  rw [refusalOf_congr hR script request hsecret]
  cases refusalOf script { request with secret } with
  | some failure => exact ⟨rfl, hclient⟩
  | none =>
      dsimp only
      generalize (stage.noteClient _).noteModel _ = noted at hnoted ⊢
      generalize (stage'.noteClient _).noteModel _ = noted' at hnoted ⊢
      cases hnoted with
      | mk hresolves hrecord =>
      cases script.responses.headD (.ok [.text "done"]) with
      | error failure => exact ⟨rfl, .mk hresolves hrecord⟩
      | ok parts => exact ⟨rfl, .mk hresolves hrecord⟩

theorem Alike.callTool (h : stage.Alike R stage') (name : String) (arguments : Value) :
    (stage'.callTool name arguments).1 = (stage.callTool name arguments).1 ∧
      (stage.callTool name arguments).2.Alike R (stage'.callTool name arguments).2 := by
  cases h with
  | mk hresolves hrecord =>
  unfold Stage.callTool
  dsimp only
  cases stage.catalog.request name arguments with
  | error failure => exact ⟨rfl, .mk hresolves hrecord⟩
  | ok request =>
      cases request with
      | calculation calculation => exact ⟨rfl, .mk hresolves hrecord⟩
      | query query =>
          exact ⟨rfl, .mk hresolves { hrecord with
            searches := congrArg (· ++ [query]) hrecord.searches }⟩
      | custom arguments =>
          have hnoted {record : CallRecord} (hrecord : stage.record.Alike R record) :
              CallRecord.Alike R
                { stage.record with tools := stage.record.tools ++ [(name, arguments)] }
                { record with tools := record.tools ++ [(name, arguments)] } :=
            { hrecord with tools := congrArg (· ++ [(name, arguments)]) hrecord.tools }
          cases heffect : ((Table.find? stage.tools name).getD ⟨[], 0⟩).current.effect with
          | reply value =>
              simp only [playTool, noteTool, heffect]
              exact ⟨trivial, .mk hresolves (hnoted hrecord)⟩
          | failure failure =>
              simp only [playTool, noteTool, heffect]
              exact ⟨trivial, .mk hresolves (hnoted hrecord)⟩
          | echo =>
              simp only [playTool, noteTool, heffect]
              exact ⟨trivial, .mk hresolves (hnoted hrecord)⟩

/-- The call is one of an action that sends a request to a server. -/
def sends (stage : Stage) : Call → Bool
  | .external serviceId actionId .. => stage.registry.find? serviceId actionId = some .http
  | _ => false

/-- Whoever sends no request to a server is blind, and after each call the stages are alike. -/
theorem Alike.react (hR : NoneEmpty R) (h : stage.Alike R stage')
    (hcall : Call.Alike R call call' related) :
    (stage.sends call = false → (stage.react call).1.Alike related (stage'.react call').1) ∧
      (stage.react call).2.Alike R (stage'.react call').2 := by
  have hsame {α : Type} {reaction reaction' : Reaction α} (heq : reaction' = reaction) :
      reaction.Alike Eq reaction' := heq ▸ reaction.alike_refl
  cases hcall with
  | external serviceId actionId parameters incoming hsecret =>
      have hnoted := h.noteExternal (Registry.qualifiedName serviceId actionId) parameters incoming
        hsecret
      obtain ⟨hreaction, hafter⟩ :=
        hnoted.callAction serviceId actionId parameters incoming _ _
      exact ⟨fun hsends => hsame (hreaction (of_decide_eq_false hsends)), hafter⟩
  | model request hsecret =>
      have hprovider : stage'.provider = stage.provider := by
        cases h
        rfl
      unfold Stage.react
      rw [hprovider]
      cases stage.provider with
      | none =>
          obtain ⟨hreaction, hafter⟩ := h.askModel request hsecret
          exact ⟨fun _ => hsame hreaction, hafter⟩
      | some script =>
          obtain ⟨hreaction, hafter⟩ := h.askProvider hR script request hsecret
          exact ⟨fun _ => hsame hreaction, hafter⟩
  | secret credentialId =>
      cases h with
      | mk hresolves hrecord =>
      exact ⟨fun _ => ⟨rfl, rfl, fun _ => hresolves credentialId⟩, .mk hresolves hrecord⟩
  | plain hplain =>
      cases call with
      | tool name arguments =>
          obtain ⟨hreaction, hafter⟩ := h.callTool name (.map arguments)
          exact ⟨fun _ => hsame hreaction, hafter⟩
      | attempt number =>
          cases h with
          | mk hresolves hrecord =>
          exact ⟨fun _ => hsame rfl, .mk hresolves { hrecord with
            attempts := congrArg (· ++ [(number, stage.now)]) hrecord.attempts }⟩
      | sleep seconds =>
          exact ⟨fun _ => hsame rfl, h⟩
      | clock =>
          cases h
          exact ⟨fun _ => hsame rfl, .mk ‹_› ‹_›⟩
      | draw =>
          cases h
          exact ⟨fun _ => hsame rfl, .mk ‹_› ‹_›⟩
      | _ => cases hplain

/-! ### Blindness -/

/-- No call changes what is registered, and only a request changes what the servers have still to
say. -/
theorem react_frame (stage : Stage) (call : Call) :
    (stage.react call).2.registry = stage.registry ∧
      (stage.sends call = false → (stage.react call).2.responses = stage.responses) := by
  cases call with
  | external serviceId actionId parameters secret incoming =>
      have hplayed (stage : Stage) (label : String) (input : ActionInput) :
          (stage.playAction label serviceId actionId input).2.registry = stage.registry ∧
            (stage.playAction label serviceId actionId input).2.responses = stage.responses := by
        unfold Stage.playAction
        dsimp only
        split <;> exact ⟨rfl, rfl⟩
      have hcalled (stage : Stage) (input : ActionInput) :
          (stage.callAction serviceId actionId input).2.registry = stage.registry ∧
            (stage.registry.find? serviceId actionId ≠ some .http →
              (stage.callAction serviceId actionId input).2.responses = stage.responses) := by
        unfold Stage.callAction
        dsimp only
        split
        · exact ⟨rfl, fun _ => rfl⟩
        · exact ⟨rfl, fun _ => rfl⟩
        · rename_i hhttp
          obtain ⟨requests, responses, hsent⟩ := stage.exists_sendRequest_eq input
          rw [hsent]
          exact ⟨rfl, fun hne => absurd hhttp hne⟩
        · exact ⟨(hplayed stage _ input).1, fun _ => (hplayed stage _ input).2⟩
        · split <;> exact ⟨rfl, fun _ => rfl⟩
      obtain ⟨hregistry, hresponses⟩ :=
        hcalled (stage.noteExternal ⟨stage.now, Registry.qualifiedName serviceId actionId,
          parameters, secret, incoming⟩) ⟨parameters, secret, incoming⟩
      exact ⟨hregistry, fun hsends => hresponses (of_decide_eq_false hsends)⟩
  | model request =>
      unfold Stage.react
      dsimp only
      split
      · unfold Stage.askProvider
        dsimp only
        split
        · exact ⟨rfl, fun _ => rfl⟩
        · split <;> exact ⟨rfl, fun _ => rfl⟩
      · unfold Stage.askModel
        dsimp only
        split <;> exact ⟨rfl, fun _ => rfl⟩
  | tool name arguments =>
      have hplayed (arguments : Fields) :
          (stage.playTool name arguments).2.registry = stage.registry ∧
            (stage.playTool name arguments).2.responses = stage.responses := by
        unfold Stage.playTool
        dsimp only
        split <;> exact ⟨rfl, rfl⟩
      have hcalled : (stage.callTool name (.map arguments)).2.registry = stage.registry ∧
          (stage.callTool name (.map arguments)).2.responses = stage.responses := by
        unfold Stage.callTool
        split
        · exact ⟨rfl, rfl⟩
        · exact ⟨rfl, rfl⟩
        · exact ⟨rfl, rfl⟩
        · exact hplayed _
      exact ⟨hcalled.1, fun _ => hcalled.2⟩
  | _ => exact ⟨rfl, fun _ => rfl⟩

theorem Alike.setClock (h : stage.Alike R stage') (time : Float) :
    Alike R { stage with now := time } { stage' with now := time } := by
  cases h with
  | mk hresolves hrecord => exact .mk hresolves hrecord

theorem Counterparts.alike (hR : NoneEmpty R) (hstart : start.Alike R start')
    (h : Counterparts R start start' stage stage') : stage.Alike R stage' := by
  induction h with
  | start => exact hstart
  | call _ hcall ih => exact (ih.react hR hcall).2
  | clock _ time ih => exact ih.setClock time

theorem noneEmpty_pairs (start start' : Stage) : NoneEmpty (start.Pairs start') := by
  have hne {store : SecretStore} {host : Host} {id secret : String}
      (hfound : store.find? host id = some secret) : secret ≠ "" := by
    cases store <;> exact of_decide_eq_true (Option.filter_eq_some_iff.mp hfound).2
  rintro secret secret' ⟨id, hfound, hfound'⟩
  exact ⟨hne hfound, hne hfound'⟩

/-- Whoever works on one of two related stages does not notice which. -/
structure Rapport (R : String → String → Prop) (P : Stage → Stage → Prop) : Prop where
  now : ∀ {stage stage'}, P stage stage' → stage'.now = stage.now
  clock : ∀ {stage stage'}, P stage stage' → ∀ time : Float,
    P { stage with now := time } { stage' with now := time }
  reaction : ∀ {stage stage' call call'} {related : call.Reply → call'.Reply → Prop},
    P stage stage' → Call.Alike R call call' related →
      (stage.react call).1.Alike related (stage'.react call').1
  react : ∀ {stage stage' call call'} {related : call.Reply → call'.Reply → Prop},
    P stage stage' → Call.Alike R call call' related →
      P (stage.react call).2 (stage'.react call').2

theorem Rapport.advance {P : Stage → Stage → Prop} (hP : Rapport R P) (h : P stage stage')
    (seconds : Float) : (stage'.advance seconds).now = (stage.advance seconds).now := by
  rw [Stage.advance, Stage.advance]
  split
  · exact congrArg (· + seconds) (hP.now h)
  · exact hP.now h

/-- What is kept between two stages that have started with different secrets. -/
def Lockstep (start start' stage stage' : Stage) : Prop :=
  Counterparts (start.Pairs start') start start' stage stage' ∧
    stage.Alike (start.Pairs start') stage'

theorem IsBlind.rapport (hblind : start.IsBlind start') :
    Rapport (start.Pairs start') (Lockstep start start') where
  now := by
    rintro _ _ ⟨-, h⟩
    cases h
    rfl
  clock := fun h time => ⟨h.1.clock time, h.2.setClock time⟩
  react := fun h hcall => ⟨h.1.call hcall, (h.2.react (noneEmpty_pairs _ _) hcall).2⟩
  reaction := by
    intro stage stage' call call' related h hcall
    by_cases hasks : call.asksCapability = true
    · exact hblind stage stage' h.1 call call' related hcall hasks
    -- What is left is the clock, the dice and the secrets themselves.
    obtain ⟨-, halike⟩ := h
    cases halike with
    | mk hresolves hrecord =>
    cases hcall with
    | secret credentialId => exact ⟨rfl, rfl, fun _ => hresolves credentialId⟩
    | plain hplain =>
        cases call with
        | tool name arguments => exact absurd rfl hasks
        | sleep seconds => exact Reaction.alike_refl _
        | clock => exact Reaction.alike_refl _
        | draw => exact Reaction.alike_refl _
        | attempt number => exact Reaction.alike_refl _
        | _ => cases hplain
    | _ => exact absurd rfl hasks

end Stage

end Workflow
