import Workflow.Proofs.Secrecy.Engine
import Workflow.Proofs.Secrecy.Servers

/-!
# Whatever is done with two engines

All that can be done with an engine is a sequence of deeds, and what is due next may be picked from
the agenda at will. Two engines that differ in nothing but the secrets they keep then give the same
answers and end with the same runs, logs and records; only whom they have passed their secrets on to
can tell which engine it was.
-/

namespace Workflow

/-- What can be done with an engine. -/
inductive Deed where
  | start (order : Engine.Order)
  | execute (order : Engine.Order) (timeout : Option Float)
  | wait (runId : String) (timeout : Option Float)
  | sleep (seconds : Float)
  | drain
  | cancel (runId reason : String)
  | stopDriver (runId : String)
  | stopStep (runId stepId : String)
  | follow (runId : String)
  /-- Some task on the agenda is performed, whatever else is due and whenever it is due itself. -/
  | pick (index : Nat) (time : Float)

/-- What an engine answers. -/
inductive Answer where
  | nothing
  | run (result : Except Failure String)
  | done (result : Except Failure Unit)
  | flag (result : Except Failure Bool)

namespace Engine

/-- Performs a task of the agenda at some time. -/
def pick (e : Engine) (index : Nat) (time : Float) : Engine :=
  match e.agenda.drop index with
  | [] => e
  | (_, task) :: rest =>
    { e with
      agenda := e.agenda.take index ++ rest
      stage := { e.stage with now := time } }.perform task

def act (e : Engine) : Deed → Answer × Engine
  | .start order => (.run (e.start order).1, (e.start order).2)
  | .execute order timeout => (.run (e.execute order timeout).1, (e.execute order timeout).2)
  | .wait runId timeout => (.done (e.wait runId timeout).1, (e.wait runId timeout).2)
  | .sleep seconds => (.nothing, e.sleep seconds)
  | .drain => (.nothing, e.drain)
  | .cancel runId reason => (.flag (e.cancel runId reason).1, (e.cancel runId reason).2)
  | .stopDriver runId => (.flag (e.stopDriver runId).1, (e.stopDriver runId).2)
  | .stopStep runId stepId => (.flag (e.stopStep runId stepId).1, (e.stopStep runId stepId).2)
  | .follow runId =>
    match e.follow runId with
    | .error failure => (.done (.error failure), e)
    | .ok next => (.done (.ok ()), next)
  | .pick index time => (.nothing, e.pick index time)

/-- One deed after the other. -/
def carryOut (e : Engine) : List Deed → List Answer × Engine
  | [] => ([], e)
  | deed :: deeds =>
    (((e.act deed).1 :: ((e.act deed).2.carryOut deeds).1), ((e.act deed).2.carryOut deeds).2)

variable {R : String → String → Prop} {P : Stage → Stage → Prop} {e e' : Engine}

theorem Alike.pick (hP : Stage.Rapport R P) (h : e.Alike R P e') (index : Nat) (time : Float) :
    (e.pick index time).Alike R P (e'.pick index time) := by
  have htaken := List.forall₂_take index h.agenda
  have hdropped := List.forall₂_drop index h.agenda
  unfold Engine.pick
  generalize e.agenda.drop index = left at hdropped ⊢
  generalize e'.agenda.drop index = left' at hdropped ⊢
  cases hdropped with
  | nil => exact h
  | @cons entry entry' rest rest' hentry hrest =>
      exact h.performAt hP hentry.2 (List.rel_append htaken hrest) time

/-- The same is done with both engines, and both answer the same. -/
theorem Alike.act (hP : Stage.Rapport R P) (h : e.Alike R P e') (deed : Deed) :
    Agree R P (e.act deed) (e'.act deed) := by
  cases deed with
  | start order => exact (h.start hP order).map Answer.run
  | execute order timeout => exact (h.execute hP order timeout).map Answer.run
  | wait runId timeout => exact (h.wait hP runId timeout).map Answer.done
  | sleep seconds => exact ⟨rfl, h.sleep hP seconds⟩
  | drain => exact ⟨rfl, h.drain hP⟩
  | cancel runId reason => exact (h.cancel hP runId reason).map Answer.flag
  | stopDriver runId => exact (h.stopDriver hP runId).map Answer.flag
  | stopStep runId stepId => exact (h.stopStep runId stepId).map Answer.flag
  | follow runId =>
      have hfollows := h.follow hP runId
      unfold Engine.act
      dsimp only
      generalize e.follow runId = followed at hfollows ⊢
      generalize e'.follow runId = followed' at hfollows ⊢
      cases hfollows with
      | error failure => exact ⟨rfl, h⟩
      | ok hafter => exact ⟨rfl, hafter⟩
  | pick index time => exact ⟨rfl, h.pick hP index time⟩

theorem Alike.carryOut (hP : Stage.Rapport R P) (h : e.Alike R P e') (deeds : List Deed) :
    Agree R P (e.carryOut deeds) (e'.carryOut deeds) := by
  induction deeds generalizing e e' with
  | nil => exact ⟨rfl, h⟩
  | cons deed deeds ih =>
      obtain ⟨hanswer, hafter⟩ := h.act hP deed
      obtain ⟨hanswers, hend⟩ := ih hafter
      refine ⟨?_, hend⟩
      unfold Engine.carryOut
      rw [hanswer, hanswers]

/-! ### Engines with other secrets -/

/-- The engine with other secrets. -/
def keeping (e : Engine) (host : Host) (secrets : SecretStore) : Engine :=
  { e with stage := { e.stage with host, secrets } }

/-- Nothing is to be done, and nothing has been called. -/
structure IsIdle (e : Engine) : Prop where
  agenda : e.agenda = []
  record : e.stage.record = {}

/-- Two engines show the same: they have the same runs with their reports and logs, the same is
recorded, read and missing, and they have made the same calls but for the secrets these carry. -/
structure ShowsSame (R : String → String → Prop) (e e' : Engine) : Prop where
  runs : e'.runs = e.runs
  drivers : e'.drivers = e.drivers
  repository : e'.repository = e.repository
  observed : e'.observed = e.observed
  followers : e'.followers = e.followers
  missing : ∀ blueprint, e'.missingCredentials blueprint = e.missingCredentials blueprint
  calls : e.stage.record.Alike R e'.stage.record

theorem Alike.showsSame {start start' : Stage}
    (h : e.Alike R (Stage.Lockstep start start') e') : ShowsSame (start.Pairs start') e e' := by
  cases h with
  | mk hstage _ =>
  refine ⟨rfl, rfl, rfl, rfl, rfl, fun blueprint => ?_, hstage.2.record⟩
  cases hgraph : blueprint.build with
  | error failure => simp [missingCredentials, hgraph, bind, Except.bind]
  | ok graph =>
      simp [missingCredentials, hgraph, bind, Except.bind, hstage.2.missing]

theorem alike_keeping (hidle : e.IsIdle) (host : Host) (secrets : SecretStore)
    (hsame : ∀ id,
      (secrets.find? host id).isSome = (e.stage.secrets.find? e.stage.host id).isSome) :
    e.stage.Alike (e.stage.Pairs (e.keeping host secrets).stage)
      (e.keeping host secrets).stage := by
  have hresolves (id : String) : Option.Rel (e.stage.Pairs (e.keeping host secrets).stage)
      (e.stage.secrets.find? e.stage.host id) (secrets.find? host id) := by
    have hboth := hsame id
    cases hfound : e.stage.secrets.find? e.stage.host id with
    | none =>
        rw [hfound, Option.isSome_none, Option.isSome_eq_false_iff, Option.isNone_iff_eq_none]
          at hboth
        rw [hboth]
        exact .none
    | some secret =>
        rw [hfound, Option.isSome_some] at hboth
        obtain ⟨secret', hfound'⟩ := Option.isSome_iff_exists.mp hboth
        rw [hfound']
        exact .some ⟨id, hfound, hfound'⟩
  refine .mk hresolves ?_
  rw [hidle.record]
  exact ⟨.nil, .nil, rfl, rfl, rfl⟩

/-- Secrets do not interfere: two engines that keep different secrets under the same ids, among
capabilities whose replies do not depend on secrets, cannot be told apart by anything that is done
with them. -/
theorem secrets_do_not_interfere (e : Engine) (host : Host) (secrets : SecretStore)
    (deeds : List Deed) (hidle : e.IsIdle)
    (hsame : ∀ id, (secrets.find? host id).isSome = (e.stage.secrets.find? e.stage.host id).isSome)
    (hblind : e.stage.IsBlind (e.keeping host secrets).stage) :
    ((e.keeping host secrets).carryOut deeds).1 = (e.carryOut deeds).1 ∧
      ShowsSame (e.stage.Pairs (e.keeping host secrets).stage) (e.carryOut deeds).2
        ((e.keeping host secrets).carryOut deeds).2 := by
  have halike := alike_keeping hidle host secrets hsame
  have hagenda : AgendasAlike (e.stage.Pairs (e.keeping host secrets).stage) e.agenda e.agenda := by
    rw [hidle.agenda]
    exact .nil
  have hstart : e.Alike (e.stage.Pairs (e.keeping host secrets).stage)
      (Stage.Lockstep e.stage (e.keeping host secrets).stage) (e.keeping host secrets) :=
    .mk ⟨.start, halike⟩ hagenda
  obtain ⟨hanswers, hafter⟩ := hstart.carryOut hblind.rapport deeds
  exact ⟨hanswers, hafter.showsSame⟩

/-- A step that sends a request with a token. -/
def fetching : Graph where
  definition :=
    { steps :=
        [⟨"start", none, none, .trigger⟩,
          ⟨"fetch", none, none, .externalAction
            { serviceId := "http"
              actionId := "request"
              parameters := Fields.named [("url", .str "http://host/")]
              credentialId := some "token" }⟩]
      edges := [⟨"start", "fetch"⟩] }
  trigger := ⟨"start", none, none, .trigger⟩
  nodup := by decide
  sound := by decide
  acyclic := by decide +kernel
  triggers_eq := by decide

def tokenStore (secret : String) : SecretStore := .table [("token", secret)]

theorem find?_tokenStore {secret : String} (hne : secret ≠ "") (id : String) :
    (tokenStore secret).find? {} id = if "token" = id then some secret else none := by
  by_cases hid : "token" = id
  · simp [tokenStore, SecretStore.find?, Table.find?, hid, hne]
  · simp [tokenStore, SecretStore.find?, Table.find?, hid]

/-- An engine whose capabilities are the ones that are built in. -/
def fetcher : Engine :=
  { stage := { registry := Registry.builtIn false, secrets := tokenStore "alpha" } }

theorem fetched_with_either_token : ∃ deeds run,
    Table.find? (fetcher.carryOut deeds).2.runs "run-1" = some run ∧ run.status = .completed ∧
      Table.find? ((fetcher.keeping {} (tokenStore "beta")).carryOut deeds).2.runs "run-1" =
        some run ∧
      (fetcher.carryOut deeds).2.stage.record.external.map (·.input.secret) = [some "alpha"] ∧
      ((fetcher.keeping {} (tokenStore "beta")).carryOut deeds).2.stage.record.external.map
        (·.input.secret) = [some "beta"] := by
  have hidle : fetcher.IsIdle := ⟨rfl, rfl⟩
  have halpha (id : String) : fetcher.stage.secrets.find? fetcher.stage.host id =
      if "token" = id then some "alpha" else none := find?_tokenStore (by decide) id
  have hbeta := find?_tokenStore (show "beta" ≠ "" by decide)
  have hsame (id : String) : ((tokenStore "beta").find? {} id).isSome =
      (fetcher.stage.secrets.find? fetcher.stage.host id).isSome := by
    rw [halpha, hbeta]
    split <;> rfl
  have hsendable :
      Stage.Sendable (fetcher.stage.Pairs (fetcher.keeping {} (tokenStore "beta")).stage) := by
    rintro secret secret' ⟨id, hfound, hfound'⟩
    rw [halpha] at hfound
    rw [show (fetcher.keeping {} (tokenStore "beta")).stage.secrets.find?
      (fetcher.keeping {} (tokenStore "beta")).stage.host id = _ from hbeta id] at hfound'
    obtain rfl := Option.some.inj (Option.ite_none_right_eq_some.mp hfound).2
    obtain rfl := Option.some.inj (Option.ite_none_right_eq_some.mp hfound').2
    exact ⟨⟨by decide, by decide⟩, ⟨by decide, by decide⟩⟩
  have hblind := Stage.isBlind_of_sendable (alike_keeping hidle {} (tokenStore "beta") hsame) rfl
    (Or.inr hsendable)
  obtain ⟨-, hshows⟩ := secrets_do_not_interfere fetcher {} (tokenStore "beta")
    [.execute ⟨.built fetching, .null, .null⟩ none] hidle hsame hblind
  have hcompleted : (Table.find? (fetcher.carryOut
      [.execute ⟨.built fetching, .null, .null⟩ none]).2.runs "run-1").map (·.status) =
        some .completed := by decide +kernel
  obtain ⟨run, hrun, hstatus⟩ := Option.map_eq_some_iff.mp hcompleted
  refine ⟨_, run, hrun, hstatus, ?_, by decide +kernel, by decide +kernel⟩
  rw [hshows.runs]
  exact hrun

end Engine

end Workflow
