import Workflow.Proofs.Program.Dialogue
import Workflow.Retry

/-!
# The course of repeated attempts

An operation that is attempted repeatedly is said anew in every attempt, up to its deadline. All
attempts but the last one fail, and with a failure that may be transient.
-/

namespace Workflow.Retry

variable {α : Type}

/-- What an attempt counts as. -/
def resultOf (policy : RetryPolicy) (label : String) :
    Option (Except Failure α) → Except Failure α
  | some (.ok value) => .ok value
  | some (.error failure) => .error (failureOf label policy (some failure))
  | none => .error (failureOf label policy none)

/-- Whether another attempt may help after a result. -/
def mayHelp : Except Failure α → Bool
  | .ok _ => false
  | .error failure => !(failure = .cancelled || !failure.isRetryable)

theorem attempts_zero (policy : RetryPolicy) (label : String)
    (operation : Program (Except Failure α)) (number : Nat) :
    attempts policy label operation number 0 = do
      Program.perform (.attempt number)
      let value ← attempt policy operation
      return ⟨resultOf policy label value, number⟩ := by
  rw [attempts]
  congr 1
  funext _
  congr 1
  funext value
  rcases value with _ | _ | _ <;> rfl

theorem attempts_succ (policy : RetryPolicy) (label : String)
    (operation : Program (Except Failure α)) (number remaining : Nat) :
    attempts policy label operation number (remaining + 1) = do
      Program.perform (.attempt number)
      let value ← attempt policy operation
      if mayHelp (resultOf policy label value) = true then
        let share : Float ← Program.perform .draw
        match Backoff.seconds policy number share with
        | .error problem => return ⟨.error problem.failure, number⟩
        | .ok seconds =>
          Program.perform (.sleep seconds)
          attempts policy label operation (number + 1) remaining
      else return ⟨resultOf policy label value, number⟩ := by
  have hfails (failure : Failure) (again : Program (Ending α)) :
      (if failure = .cancelled || !failure.isRetryable then pure ⟨.error failure, number⟩
        else again) =
      if mayHelp (.error failure : Except Failure α) = true then again
        else pure ⟨.error failure, number⟩ := by
    rw [mayHelp]
    cases failure = .cancelled || !failure.isRetryable <;> rfl
  rw [attempts]
  congr 1
  funext _
  congr 1
  funext value
  rcases value with _ | failure | value
  · exact hfails (failureOf label policy none) _
  · exact hfails (failureOf label policy (some failure)) _
  · rfl

/-! ### What is said -/

/-- Where an attempt starts: what was said before, and when it is given up. -/
structure Start where
  before : List Exchange
  deadline : Float

/-- What is said in an attempt that starts there, and what it comes to in time. -/
def Start.attempt (world : World) (p : Program α) (start : Start) : Dialogue (Option α) :=
  (p.within start.deadline).dialogue world start.before

/-- What is made of the value of an attempt is not said. -/
theorem Start.attempt_bind_pure {β : Type} (world : World) (p : Program α) (f : α → β)
    (start : Start) :
    start.attempt world (p >>= fun a => pure (f a)) =
      ⟨(start.attempt world p).exchanges, (start.attempt world p).value.map f⟩ := by
  rw [attempt, Program.within_bind_pure, Program.dialogue_bind]
  simp [attempt]

/-- What is said before an attempt. -/
def prelude (number : Nat) (time : Float) : List Exchange :=
  [.answered (.attempt number) (), .answered .clock time]

/-- Where an attempt starts that is made at some time. -/
def startAt (policy : RetryPolicy) (number : Nat) (before : List Exchange) (time : Float) : Start :=
  ⟨before ++ prelude number time, time + policy.perAttemptTimeout⟩

theorem dialogue_attempt_bind {β : Type} (policy : RetryPolicy)
    (operation : Program (Except Failure α)) (number : Nat)
    (next : Option (Except Failure α) → Program β) (world : World) (before : List Exchange) :
    (do Program.perform (.attempt number)
        let value ← attempt policy operation
        next value).dialogue world before =
      let time := world.reply (before ++ [.answered (.attempt number) ()]) .clock
      let start := startAt policy number before time
      let first := start.attempt world operation
      let rest := (next first.value).dialogue world (start.before ++ first.exchanges)
      ⟨prelude number time ++ first.exchanges ++ rest.exchanges, rest.value⟩ := by
  rw [Program.dialogue_perform_bind, Program.dialogue_bind, attempt, Program.dialogue_perform_bind]
  simp [Dialogue.cons, startAt, Start.attempt, prelude]

/-- How the attempts from some number on go, when `remaining` further ones may be made, and where
they start. -/
inductive Course (policy : RetryPolicy) (label : String) (operation : Program (Except Failure α))
    (world : World) : Nat → Nat → List Exchange → List Start → Dialogue (Ending α) → Prop
  | last {number remaining : Nat} {before : List Exchange} (time : Float) {start : Start}
    (hstart : start = startAt policy number before time)
    (hlast : remaining = 0 ∨
      mayHelp (resultOf policy label (start.attempt world operation).value) = false) :
    Course policy label operation world number remaining before [start]
      ⟨prelude number time ++ (start.attempt world operation).exchanges,
        ⟨resultOf policy label (start.attempt world operation).value, number⟩⟩
  | stranded {number remaining : Nat} {before : List Exchange} (time : Float) {share : Float}
    {start : Start} {problem : ArithmeticError} (hstart : start = startAt policy number before time)
    (hhelps : mayHelp (resultOf policy label (start.attempt world operation).value) = true)
    (hdelay : Backoff.seconds policy number share = .error problem) :
    Course policy label operation world number (remaining + 1) before [start]
      ⟨prelude number time ++ (start.attempt world operation).exchanges ++ [.answered .draw share],
        ⟨.error problem.failure, number⟩⟩
  | again {number remaining : Nat} {before : List Exchange} (time : Float) {share seconds : Float}
    {start : Start} {starts : List Start} {rest : Dialogue (Ending α)}
    (hstart : start = startAt policy number before time)
    (hhelps : mayHelp (resultOf policy label (start.attempt world operation).value) = true)
    (hdelay : Backoff.seconds policy number share = .ok seconds)
    (hrest : Course policy label operation world (number + 1) remaining
      (start.before ++ (start.attempt world operation).exchanges ++
        [.answered .draw share, .answered (.sleep seconds) ()]) starts rest) :
    Course policy label operation world number (remaining + 1) before (start :: starts)
      ⟨prelude number time ++ (start.attempt world operation).exchanges ++
          ([.answered .draw share, .answered (.sleep seconds) ()] ++ rest.exchanges), rest.value⟩

/-- Attempts are made in this course. -/
theorem exists_course (policy : RetryPolicy) (label : String)
    (operation : Program (Except Failure α)) (world : World) (number remaining : Nat)
    (before : List Exchange) :
    ∃ starts, Course policy label operation world number remaining before starts
      ((attempts policy label operation number remaining).dialogue world before) := by
  induction remaining generalizing number before with
  | zero =>
      rw [attempts_zero]
      rw [dialogue_attempt_bind]
      generalize world.reply _ .clock = time
      refine ⟨[startAt policy number before time], ?_⟩
      simpa using Course.last time rfl (.inl rfl)
  | succ remaining ih =>
      rw [attempts_succ]
      rw [dialogue_attempt_bind]
      dsimp only
      generalize world.reply _ .clock = time
      generalize hstart : startAt policy number before time = start
      cases hhelps : mayHelp (resultOf policy label (start.attempt world operation).value) with
      | false =>
          refine ⟨[start], ?_⟩
          simpa using Course.last time hstart.symm (.inr hhelps)
      | true =>
          simp only [if_true]
          rw [Program.dialogue_perform_bind]
          generalize world.reply _ .draw = share
          cases hdelay : Backoff.seconds policy number share with
          | error problem => exact ⟨[start], .stranded time hstart.symm hhelps hdelay⟩
          | ok seconds =>
              dsimp only
              rw [Program.dialogue_perform_bind]
              obtain ⟨starts, hrest⟩ := ih (number + 1)
                (start.before ++ (start.attempt world operation).exchanges ++
                  [.answered .draw share, .answered (.sleep seconds) ()])
              refine ⟨start :: starts, ?_⟩
              simpa [Dialogue.cons] using Course.again time hstart.symm hhelps hdelay hrest

namespace Course

variable {policy : RetryPolicy} {label : String} {operation : Program (Except Failure α)}
  {world : World} {number remaining : Nat} {before : List Exchange} {starts : List Start}
  {dialogue : Dialogue (Ending α)}

theorem ne_nil (h : Course policy label operation world number remaining before starts dialogue) :
    starts ≠ [] := by
  cases h <;> exact List.cons_ne_nil _ _

/-- There are no more attempts than may be made. -/
theorem length_le
    (h : Course policy label operation world number remaining before starts dialogue) :
    starts.length ≤ remaining + 1 := by
  induction h with
  | last => simp
  | stranded => simp
  | again time hstart hhelps hdelay hrest ih => simpa using ih

/-- Every attempt but the last one fails, and another one may help. -/
theorem mayHelp_of_mem_dropLast
    (h : Course policy label operation world number remaining before starts dialogue)
    {start : Start} (hmem : start ∈ starts.dropLast) :
    mayHelp (resultOf policy label (start.attempt world operation).value) = true := by
  induction h with
  | last => cases hmem
  | stranded => cases hmem
  | again time hstart hhelps hdelay hrest ih =>
      rw [List.dropLast_cons_of_ne_nil hrest.ne_nil] at hmem
      rcases List.mem_cons.mp hmem with rfl | hmem
      · exact hhelps
      · exact ih hmem

/-- The attempts are counted from the first one on. -/
theorem attempts_eq
    (h : Course policy label operation world number remaining before starts dialogue) :
    dialogue.value.attempts + 1 = number + starts.length := by
  induction h with
  | last => rfl
  | stranded => rfl
  | again time hstart hhelps hdelay hrest ih =>
      dsimp only [List.length_cons]
      omega

theorem attempts_eq_length
    (h : Course policy label operation world 1 remaining before starts dialogue) :
    dialogue.value.attempts = starts.length := by
  have hcount := h.attempts_eq
  omega

/-- An attempt after which no other may help decides. -/
theorem result_eq_of_mem
    (h : Course policy label operation world number remaining before starts dialogue)
    {start : Start} (hmem : start ∈ starts)
    (hfinal : mayHelp (resultOf policy label (start.attempt world operation).value) = false) :
    dialogue.value.result = resultOf policy label (start.attempt world operation).value := by
  induction h with
  | last => rw [List.mem_singleton.mp hmem]
  | stranded time hstart hhelps hdelay =>
      rw [← List.mem_singleton.mp hmem, hfinal] at hhelps
      cases hhelps
  | again time hstart hhelps hdelay hrest ih =>
      rcases List.mem_cons.mp hmem with rfl | hmem
      · rw [hfinal] at hhelps
        cases hhelps
      · exact ih hmem

/-- What is called besides clocks, draws and pauses is called in the attempts. -/
theorem filterMap_exchanges {β : Type} {observe : Call → Option β}
    (hattempt : ∀ number, observe (.attempt number) = none) (hclock : observe .clock = none)
    (hdraw : observe .draw = none) (hsleep : ∀ seconds, observe (.sleep seconds) = none)
    (h : Course policy label operation world number remaining before starts dialogue) :
    dialogue.exchanges.filterMap (fun exchange => observe exchange.call) =
      starts.flatMap fun start => (start.attempt world operation).exchanges.filterMap
        fun exchange => observe exchange.call := by
  induction h with
  | last time hstart hlast => simp [prelude, hattempt, hclock]
  | stranded time hstart hhelps hdelay => simp [prelude, hattempt, hclock, hdraw]
  | again time hstart hhelps hdelay hrest ih =>
      simp [prelude, hattempt, hclock, hdraw, hsleep, ih]

end Course

end Workflow.Retry
