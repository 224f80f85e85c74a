import Workflow.Proofs.Secrecy.Stage

/-!
# Requests with secrets

A secret is sent to a server as a token in the head of a request, and nothing that comes back shows
it. So the client that is built in is blind as well, as long as the secrets can be sent at all.
-/

namespace Workflow

namespace Http

/-- A text that can be sent in the head of a request. -/
def isAscii (s : String) : Bool := s.toList.all fun c => c.toNat < 128

def IsSendable (secret : String) : Prop := secret ≠ "" ∧ isAscii secret = true

theorem asciiText_of_isAscii {s : String} (h : isAscii s = true) : asciiText s = .ok s := if_pos h

theorem headerOf_token {secret : String} (h : IsSendable secret) :
    headerOf (authorizationName, .str ("Bearer " ++ secret)) =
      .ok ("Authorization", "Bearer " ++ secret) := by
  have htoken : asciiText ("Bearer " ++ secret) = .ok ("Bearer " ++ secret) := by
    refine asciiText_of_isAscii ?_
    rw [isAscii, String.toList_append, List.all_append]
    exact h.2
  have hname : asciiText "Authorization" = .ok "Authorization" := asciiText_of_isAscii (by decide)
  unfold headerOf authorizationName
  dsimp only
  rw [hname, htoken]
  rfl

/-- The fields with a token can be sent if they can be sent without it. -/
theorem mapM_withToken {secret : String} (h : IsSendable secret) (headers : Fields) :
    (withToken headers (some secret)).mapM headerOf =
      if Table.contains headers authorizationName then headers.mapM headerOf
      else (headers.mapM headerOf).map (· ++ [("Authorization", "Bearer " ++ secret)]) := by
  have hsome : (some secret).filter (· ≠ "") = some secret := by simp [h.1]
  unfold withToken
  rw [hsome]
  dsimp only
  split
  · rfl
  · have hone : [(authorizationName, Value.str ("Bearer " ++ secret))].mapM headerOf =
        .ok [("Authorization", "Bearer " ++ secret)] := by
      rw [List.mapM_cons, headerOf_token h]
      rfl
    rw [List.mapM_append, hone]
    cases headers.mapM headerOf <;> rfl

/-- Whether the fields can be sent does not depend on the secret. -/
theorem mapM_withToken_concur {secret secret' : String} (h : IsSendable secret)
    (h' : IsSendable secret') (headers : Fields) :
    Concur (fun _ _ => True) ((withToken headers (some secret)).mapM headerOf)
      ((withToken headers (some secret')).mapM headerOf) := by
  rw [mapM_withToken h, mapM_withToken h']
  cases headers.mapM headerOf with
  | error failure => split <;> exact .error failure
  | ok sent => split <;> exact .ok trivial

/-- Two requests are the same but for what stands in their heads. -/
def Request.Alike (request request' : Request) : Prop :=
  ∃ headers, request' = { request with headers }

theorem ofParameters_concur {secret secret' : String} (h : IsSendable secret)
    (h' : IsSendable secret') (parameters : Fields) :
    Concur Request.Alike (Request.ofParameters parameters (some secret))
      (Request.ofParameters parameters (some secret')) := by
  unfold Request.ofParameters
  refine Concur.bind_same fun address => Concur.bind_same fun headers => ?_
  dsimp only
  split
  · refine Concur.bind_same fun address => Concur.bind_same fun url =>
      (mapM_withToken_concur h h' headers).bind fun _ _ _ => ?_
    split
    · exact Concur.bind_same fun query => Concur.bind_same fun body => .ok ⟨_, rfl⟩
    · exact Concur.bind_same fun query => Concur.bind_same fun body => .ok ⟨_, rfl⟩
  · exact .error _

end Http

namespace Stage

variable {start start' stage stage' : Stage} {R : String → String → Prop}

/-- Both secrets can be sent in the head of a request. -/
def Sendable (R : String → String → Prop) : Prop :=
  ∀ secret secret', R secret secret' → Http.IsSendable secret ∧ Http.IsSendable secret'

/-- What the servers reply does not depend on the head of a request. -/
theorem serve_congr (stage stage' : Stage) (hoffline : stage'.isOffline = stage.isOffline)
    (hresponses : stage'.responses = stage.responses) (request : Http.Request)
    (headers : List (String × String)) :
    (stage'.serve { request with headers }).1 = (stage.serve request).1 ∧
      (stage'.serve { request with headers }).2.responses =
        (stage.serve request).2.responses := by
  unfold serve
  rw [hoffline, hresponses]
  split
  · exact ⟨rfl, hresponses⟩
  · split
    · exact ⟨rfl, by assumption⟩
    · exact ⟨rfl, by assumption⟩
    · exact ⟨rfl, rfl⟩

theorem Alike.sendRequest_sendable (hsendable : Sendable R) (h : stage.Alike R stage')
    (hresponses : stage'.responses = stage.responses) (parameters incoming : Fields)
    {secret secret' : Option String} (hsecret : Option.Rel R secret secret') :
    (stage'.sendRequest ⟨parameters, secret', incoming⟩).1 =
        (stage.sendRequest ⟨parameters, secret, incoming⟩).1 ∧
      (stage'.sendRequest ⟨parameters, secret', incoming⟩).2.responses =
        (stage.sendRequest ⟨parameters, secret, incoming⟩).2.responses := by
  have hoffline : stage'.isOffline = stage.isOffline := by
    cases h
    rfl
  have hparameters : Concur Http.Request.Alike (Http.Request.ofParameters parameters secret)
      (Http.Request.ofParameters parameters secret') := by
    cases hsecret with
    | none =>
        cases Http.Request.ofParameters parameters none with
        | error failure => exact .error failure
        | ok request => exact .ok ⟨request.headers, rfl⟩
    | some hsecret =>
        obtain ⟨hsent, hsent'⟩ := hsendable _ _ hsecret
        exact Http.ofParameters_concur hsent hsent' parameters
  unfold Stage.sendRequest
  dsimp only
  generalize Http.Request.ofParameters parameters secret = prepared at hparameters ⊢
  generalize Http.Request.ofParameters parameters secret' = prepared' at hparameters ⊢
  cases hparameters with
  | error failure => exact ⟨rfl, hresponses⟩
  | @ok request request' hrequests =>
      obtain ⟨headers, rfl⟩ := hrequests
      have hserved := serve_congr (stage.noteRequest request)
        (stage'.noteRequest { request with headers }) hoffline hresponses request headers
      have hresult (reply : Http.Reply) :
          { request with headers }.result reply = request.result reply := by
        cases reply <;> rfl
      exact ⟨congrArg Reaction.atOnce ((hresult _).trans (congrArg request.result hserved.1)),
        hserved.2⟩

theorem react_of_http {serviceId actionId : String} (stage : Stage) (parameters : Fields)
    (secret : Option String) (incoming : Fields)
    (hhttp : stage.registry.find? serviceId actionId = some .http) :
    stage.react (.external serviceId actionId parameters secret incoming) =
      (stage.noteExternal ⟨stage.now, Registry.qualifiedName serviceId actionId, parameters, secret,
        incoming⟩).sendRequest ⟨parameters, secret, incoming⟩ := by
  unfold Stage.react callAction
  dsimp only
  rw [show (stage.noteExternal _).registry = stage.registry from rfl, hhttp]

/-- Who sends a request or does not, gets the same reply with any secret that can be sent. -/
theorem Alike.react_sendable (hsendable : Sendable R) (h : stage.Alike R stage')
    (hresponses : stage'.responses = stage.responses) {call call' : Call}
    {related : call.Reply → call'.Reply → Prop} (hcall : Call.Alike R call call' related) :
    (stage.react call).1.Alike related (stage'.react call').1 ∧
      (stage'.react call').2.responses = (stage.react call).2.responses := by
  have hregistry : stage'.registry = stage.registry := by
    cases h
    rfl
  have hR : NoneEmpty R := fun secret secret' hrelated =>
    ⟨(hsendable secret secret' hrelated).1.1, (hsendable secret secret' hrelated).2.1⟩
  have hsends : stage'.sends call' = stage.sends call := by
    cases hcall with
    | external =>
        unfold sends
        rw [hregistry]
    | model => rfl
    | secret => rfl
    | plain hplain =>
        cases call with
        | external => cases hplain
        | _ => rfl
  cases hsent : stage.sends call with
  | false =>
      refine ⟨(h.react hR hcall).1 hsent, ?_⟩
      rw [(stage'.react_frame call').2 (hsends.trans hsent), hresponses,
        (stage.react_frame call).2 hsent]
  | true =>
      cases hcall with
      | external serviceId actionId parameters incoming hsecret =>
          have hhttp : stage.registry.find? serviceId actionId = some .http :=
            of_decide_eq_true hsent
          rw [stage.react_of_http parameters _ incoming hhttp,
            stage'.react_of_http parameters _ incoming (hregistry ▸ hhttp)]
          have hnoted := h.noteExternal (Registry.qualifiedName serviceId actionId) parameters
            incoming hsecret
          obtain ⟨hreaction, hleft⟩ :=
            hnoted.sendRequest_sendable hsendable hresponses parameters incoming hsecret
          exact ⟨hreaction ▸ Reaction.alike_refl _, hleft⟩
      | model => cases hsent
      | secret => cases hsent
      | plain hplain =>
          cases call with
          | external => cases hplain
          | _ => cases hsent

theorem Counterparts.registry (h : Counterparts R start start' stage stage') :
    stage.registry = start.registry := by
  induction h with
  | start => rfl
  | @call stage stage' _ call call' related _ ih => exact (stage.react_frame call).1.trans ih
  | clock _ _ ih => exact ih

/-- What is built in is blind if no action sends requests, or if all secrets can be sent. -/
theorem isBlind_of_sendable (hstart : start.Alike (start.Pairs start') start')
    (hresponses : start'.responses = start.responses)
    (hsendable : (∀ serviceId actionId, start.registry.find? serviceId actionId ≠ some .http) ∨
      Sendable (start.Pairs start')) : start.IsBlind start' := by
  have hR := noneEmpty_pairs start start'
  intro stage stage' hcounterparts call call' related hcall _
  have halike := hcounterparts.alike hR hstart
  rcases hsendable with hhttp | hsendable
  · refine (halike.react hR hcall).1 ?_
    cases call with
    | external serviceId actionId =>
        have hnot := hhttp serviceId actionId
        rw [← hcounterparts.registry] at hnot
        exact decide_eq_false hnot
    | _ => rfl
  · have hleft : stage'.responses = stage.responses := by
      clear hcall
      induction hcounterparts with
      | start => exact hresponses
      | call hbefore hcall ih =>
          have hbefore' := hbefore.alike hR hstart
          exact (hbefore'.react_sendable hsendable (ih hbefore') hcall).2
      | clock hbefore time ih => exact ih (hbefore.alike hR hstart)
    exact (halike.react_sendable hsendable hleft hcall).1

end Stage

end Workflow
