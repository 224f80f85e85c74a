import Workflow.Dispatch

/-!
# Programs that do not look at secrets

A secret is looked up under the id of a credential and passed on to whom the step calls, and nothing
else is done with it. So when the secrets are replaced by others, every invocation makes the same
calls but for the secret they carry, and with the same replies it comes to the same end.
-/

namespace Workflow

variable {R : String → String → Prop}

/-- A call that neither asks for a secret nor passes one on. -/
def Call.isPlain : Call → Bool
  | .external .. | .model _ | .secret _ => false
  | _ => true

/-- Two calls that differ at most in the secret they pass on, and what their replies have to do with
each other: only what is replied to the question for a secret may differ. -/
inductive Call.Alike (R : String → String → Prop) :
    (call call' : Call) → (call.Reply → call'.Reply → Prop) → Prop
  | plain {call : Call} (hplain : call.isPlain = true) : Alike R call call Eq
  | external (serviceId actionId : String) (parameters incoming : Fields)
    {secret secret' : Option String} (hsecret : Option.Rel R secret secret') :
    Alike R (.external serviceId actionId parameters secret incoming)
      (.external serviceId actionId parameters secret' incoming) Eq
  | model (request : ModelRequest) {secret secret' : Option String}
    (hsecret : Option.Rel R secret secret') :
    Alike R (.model { request with secret }) (.model { request with secret := secret' }) Eq
  | secret (credentialId : String) :
    Alike R (.secret credentialId) (.secret credentialId) (Option.Rel R)

/-- Two computations fail alike, or come to related results. -/
inductive Concur {α β : Type} (S : α → β → Prop) : Except Failure α → Except Failure β → Prop
  | error (failure : Failure) : Concur S (.error failure) (.error failure)
  | ok {a : α} {b : β} (h : S a b) : Concur S (.ok a) (.ok b)

section Concur

variable {α β γ δ : Type} {S : α → β → Prop} {T : γ → δ → Prop}

theorem Concur.bind {x : Except Failure α} {y : Except Failure β} {f : α → Except Failure γ}
    {g : β → Except Failure δ} (h : Concur S x y) (hnext : ∀ a b, S a b → Concur T (f a) (g b)) :
    Concur T (x >>= f) (y >>= g) := by
  cases h with
  | error failure => exact .error failure
  | ok hresults => exact hnext _ _ hresults

/-- Both go on from the same computation. -/
theorem Concur.bind_same {x : Except Failure α} {f : α → Except Failure γ}
    {g : α → Except Failure δ} (hnext : ∀ a, Concur T (f a) (g a)) :
    Concur T (x >>= f) (x >>= g) := by
  cases x with
  | error failure => exact .error failure
  | ok a => exact hnext a

end Concur

namespace Program

variable {α β γ δ : Type} {S : α → β → Prop} {T : γ → δ → Prop}

/-- Two programs that make alike calls as long as the replies have to do with each other, and come
to related ends. -/
inductive Alike (R : String → String → Prop) {α β : Type} (S : α → β → Prop) :
    Program α → Program β → Prop
  | done {a : α} {b : β} (hend : S a b) : Alike R S (.done a) (.done b)
  | ask {call call' : Call} {related : call.Reply → call'.Reply → Prop}
    {next : call.Reply → Program α} {next' : call'.Reply → Program β}
    (hcall : Call.Alike R call call' related)
    (hnext : ∀ reply reply', related reply reply' → Alike R S (next reply) (next' reply')) :
    Alike R S (.ask call next) (.ask call' next')
  | askBefore (deadline : Float) {call call' : Call} {related : call.Reply → call'.Reply → Prop}
    {next : call.Reply → Program α} {next' : call'.Reply → Program β} {late : Program α}
    {late' : Program β} (hcall : Call.Alike R call call' related)
    (hnext : ∀ reply reply', related reply reply' → Alike R S (next reply) (next' reply'))
    (hlate : Alike R S late late') :
    Alike R S (.askBefore deadline call next late) (.askBefore deadline call' next' late')

theorem Alike.bind {p : Program α} {p' : Program β} {f : α → Program γ} {f' : β → Program δ}
    (h : Alike R S p p') (hf : ∀ a b, S a b → Alike R T (f a) (f' b)) :
    Alike R T (p >>= f) (p' >>= f') := by
  induction h with
  | done hend => exact hf _ _ hend
  | ask hcall _ ih => exact .ask hcall ih
  | askBefore deadline hcall _ _ ih ihlate => exact .askBefore deadline hcall ih ihlate

/-- Of a reply that is the same for both, both make the same. -/
theorem Alike.bind_eq {p p' : Program α} {f : α → Program γ} {f' : α → Program δ}
    (h : Alike R Eq p p') (hf : ∀ a, Alike R T (f a) (f' a)) :
    Alike R T (p >>= f) (p' >>= f') := by
  refine h.bind fun a b heq => ?_
  subst heq
  exact hf a

theorem alike_pure (a : α) : Alike R Eq (pure a : Program α) (pure a) := .done rfl

theorem alike_perform {call call' : Call} {related : call.Reply → call'.Reply → Prop}
    (h : Call.Alike R call call' related) : Alike R related (perform call) (perform call') :=
  .ask h fun _ _ hreplies => .done hreplies

theorem alike_perform_bind {call : Call} (hplain : call.isPlain = true)
    {f : call.Reply → Program γ} {f' : call.Reply → Program δ}
    (hf : ∀ reply, Alike R T (f reply) (f' reply)) :
    Alike R T (perform call >>= f) (perform call >>= f') :=
  (alike_perform (.plain hplain)).bind_eq hf

theorem Alike.within {p p' : Program α} (h : Alike R Eq p p') (deadline : Float) :
    Alike R Eq (p.within deadline) (p'.within deadline) := by
  induction h with
  | done hend => exact .done (congrArg some hend)
  | ask hcall _ ih => exact .askBefore deadline hcall ih (.done rfl)
  | askBefore earlier hcall _ _ ih ihlate => exact .askBefore earlier hcall ih ihlate

end Program

/-! ### Attempts -/

namespace Retry

open Program

variable {α : Type} {operation operation' : Program (Except Failure α)}

theorem alike_attempt (policy : RetryPolicy) (h : Alike R Eq operation operation') :
    Alike R Eq (attempt policy operation) (attempt policy operation') := by
  unfold attempt
  exact alike_perform_bind rfl fun start => h.within _

/-- Whether there is another attempt, and when, depends on the failure and on what is drawn. -/
theorem alike_again (policy : RetryPolicy) (number : Nat) (failure : Failure)
    {again again' : Program (Ending α)} (h : Alike R Eq again again') :
    Alike R Eq
      (if failure = .cancelled || !failure.isRetryable then pure ⟨.error failure, number⟩ else do
        let share ← perform .draw
        match Backoff.seconds policy number share with
        | .error problem => pure ⟨.error problem.failure, number⟩
        | .ok seconds => do
          perform (.sleep seconds)
          again)
      (if failure = .cancelled || !failure.isRetryable then pure ⟨.error failure, number⟩ else do
        let share ← perform .draw
        match Backoff.seconds policy number share with
        | .error problem => pure ⟨.error problem.failure, number⟩
        | .ok seconds => do
          perform (.sleep seconds)
          again') := by
  split
  · exact alike_pure _
  · refine alike_perform_bind rfl fun share => ?_
    split
    · exact alike_pure _
    · exact alike_perform_bind rfl fun _ => h

theorem alike_attempts (policy : RetryPolicy) (label : String)
    (h : Alike R Eq operation operation') (number remaining : Nat) :
    Alike R Eq (attempts policy label operation number remaining)
      (attempts policy label operation' number remaining) := by
  induction remaining generalizing number with
  | zero =>
      unfold attempts
      refine alike_perform_bind rfl fun _ => ?_
      refine (alike_attempt policy h).bind_eq fun reply => ?_
      rcases reply with _ | failure | value
      · exact alike_pure _
      · exact alike_pure _
      · exact alike_pure _
  | succ remaining ih =>
      unfold attempts
      refine alike_perform_bind rfl fun _ => ?_
      refine (alike_attempt policy h).bind_eq fun reply => ?_
      rcases reply with _ | failure | value
      · exact alike_again policy number (failureOf label policy none) (ih (number + 1))
      · exact alike_again policy number (failureOf label policy (some failure)) (ih (number + 1))
      · exact alike_pure _

theorem alike_run (policy : RetryPolicy) (label : String)
    (h : Alike R Eq operation operation') :
    Alike R Eq (run policy label operation) (run policy label operation') :=
  alike_attempts policy label h 1 _

end Retry

/-! ### Agents -/

namespace Agent

open Program

variable {task : Task} {secret secret' : Option String}

theorem alike_runTools (limits : Limits) (task : Task) (secret secret' : Option String)
    (calls : List ToolCall) (messages : List ChatMessage) (used : Nat) :
    Alike R Eq (runTools limits { task with secret } calls messages used)
      (runTools limits { task with secret := secret' } calls messages used) := by
  induction calls generalizing messages used with
  | nil => exact alike_pure _
  | cons call calls ih =>
      unfold runTools
      split
      · rw [if_pos ‹_›]
        exact ih _ _
      · rw [if_neg ‹_›]
        split
        · exact alike_pure _
        · refine alike_perform_bind rfl fun reply => ?_
          cases reply with
          | ok output => exact ih _ _
          | error failure =>
              dsimp only
              split
              · exact ih _ _
              · exact alike_pure _

theorem alike_converse (limits : Limits) (task : Task) (hsecret : Option.Rel R secret secret')
    (asked remaining : Nat) (messages : List ChatMessage) (used : Nat) :
    Alike R Eq (converse limits { task with secret } asked remaining messages used)
      (converse limits { task with secret := secret' } asked remaining messages used) := by
  induction remaining generalizing asked messages used with
  | zero => exact alike_pure _
  | succ remaining ih =>
      unfold converse
      have hcall : Call.Alike R (.model (requestOf { task with secret } messages))
          (.model (requestOf { task with secret := secret' } messages)) Eq :=
        .model (requestOf task messages) hsecret
      refine (alike_perform hcall).bind_eq fun reply => ?_
      cases reply with
      | error failure => exact alike_pure _
      | ok reply =>
          dsimp only
          split
          · exact alike_pure _
          · refine (alike_runTools limits task secret secret' _ _ _).bind_eq fun ending => ?_
            cases ending with
            | error ending => exact alike_pure _
            | ok conversation => exact ih _ _ _

end Agent

/-! ### Invocations -/

namespace Dispatcher

open Program

/-- A credential has a secret under either store, or the step fails with either. -/
theorem alike_secretFor_bind {α : Type} (credentialId : Option String)
    {f f' : Except Failure (Option String) → Program α}
    (hmissing : ∀ failure, Alike R Eq (f (.error failure)) (f' (.error failure)))
    (hfound : ∀ secret secret', Option.Rel R secret secret' →
      Alike R Eq (f (.ok secret)) (f' (.ok secret'))) :
    Alike R Eq (secretFor credentialId >>= f) (secretFor credentialId >>= f') := by
  unfold secretFor
  split
  · exact hfound none none .none
  · rename_i id _
    refine .ask (.secret id) fun reply reply' hreplies => ?_
    cases hreplies with
    | none => exact hmissing _
    | some hsecret => exact hfound _ _ (.some hsecret)

theorem alike_runAction (d : Dispatcher) (step : Step) (action : ExternalAction)
    (incoming : Fields) :
    Alike R Eq (d.runAction step action incoming) (d.runAction step action incoming) := by
  unfold runAction
  refine alike_secretFor_bind _ (fun failure => alike_pure _) fun secret secret' hsecret => ?_
  have hcall : Call.Alike R
      (.external action.serviceId action.actionId action.parameters secret incoming)
      (.external action.serviceId action.actionId action.parameters secret' incoming) Eq :=
    .external _ _ _ _ hsecret
  exact Retry.alike_run _ _ (alike_perform hcall)

theorem alike_runAgent (d : Dispatcher) (step : Step) (agent : AiAgent) (incoming : Fields) :
    Alike R Eq (d.runAgent step agent incoming) (d.runAgent step agent incoming) := by
  unfold runAgent
  refine alike_secretFor_bind _ (fun failure => alike_pure _) fun secret secret' hsecret => ?_
  dsimp only
  split
  · exact alike_pure _
  · rename_i prompt _
    refine Retry.alike_run _ _ (Alike.bind_eq ?_ fun ending => alike_pure _)
    exact Agent.alike_converse _ (d.taskFor agent prompt none) hsecret 0 _ _ 0

/-- The secrets that an invocation meets decide nothing but what it passes on. -/
theorem alike_invoke (d : Dispatcher) (payload : Fields) (step : Step) (incoming : Fields) :
    Alike R Eq (d.invoke payload step incoming) (d.invoke payload step incoming) := by
  unfold invoke
  split
  · exact alike_perform_bind rfl fun now => alike_pure _
  · exact alike_runAction d step _ incoming
  · exact alike_runAgent d step _ incoming
  · unfold runWait
    split
    · exact alike_pure _
    · exact alike_perform_bind rfl fun _ => alike_pure _

end Dispatcher

end Workflow
