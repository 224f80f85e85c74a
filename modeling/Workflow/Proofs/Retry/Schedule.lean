import Workflow.Proofs.Retry.Course
import Workflow.Proofs.Table
import Mathlib.Data.List.Range
import Mathlib.Order.Bounds.Basic

/-!
# The schedule of repeated attempts

What a policy makes of an action is laid out in time: when each attempt starts and ends, what it
comes to, and how long the next one is put off. Which attempt is the last one can be read off this
schedule. The attempts that are made keep to it, whatever the action does and whatever is drawn.
-/

namespace Workflow

/-! ### Draws -/

def Call.isDraw : Call → Bool
  | .draw => true
  | _ => false

def Exchange.draws (exchanges : List Exchange) : Nat :=
  exchanges.countP fun exchange => exchange.call.isDraw

theorem Exchange.draws_append (exchanges more : List Exchange) :
    draws (exchanges ++ more) = draws exchanges + draws more :=
  List.countP_append

namespace Stage

variable {α : Type} (stage : Stage)

/-- The world of a stage on which something else is drawn every time; draws are counted from one. -/
def drawing (shares : Nat → Float) : World where
  reply before
    | .draw => shares (Exchange.draws before + 1)
    | call => stage.world.reply before call
  isLate := stage.world.isLate

theorem drawing_reply_draw (shares : Nat → Float) (before : List Exchange) :
    (stage.drawing shares).reply before .draw = shares (Exchange.draws before + 1) := rfl

theorem react_share (call : Call) : (stage.react call).2.share = stage.share := by
  cases call with
  | external serviceId actionId parameters secret incoming =>
      simp only [react, callAction, playAction, sendRequest, serve]
      repeat' split
      all_goals rfl
  | model request =>
      simp only [react, askModel, askProvider]
      repeat' split
      all_goals rfl
  | tool name arguments =>
      simp only [react, callTool, playTool]
      repeat' split
      all_goals rfl
  | _ => rfl

theorem after_share (exchanges : List Exchange) : (stage.after exchanges).share = stage.share := by
  induction exchanges generalizing stage with
  | nil => rfl
  | cons exchange exchanges ih =>
      cases exchange with
      | answered call reply => rw [after, ih, advance_eq, react_share]
      | late deadline call => rw [after, ih, react_share]

theorem drawing_share : stage.drawing (fun _ => stage.share) = stage.world := by
  rw [drawing, World.mk.injEq]
  refine ⟨?_, rfl⟩
  funext before call
  cases call with
  | draw => exact (stage.after_share before).symm
  | _ => rfl

/-- What is performed on a stage is said in a world where the same is drawn every time. -/
theorem perform_eq_dialogue_drawing (p : Program α) :
    perform p stage =
      let said := p.dialogue (stage.drawing fun _ => stage.share) []
      (said.value, stage.after said.exchanges) := by
  rw [drawing_share]
  exact stage.perform_eq_dialogue p []

end Stage

/-! ### What calls do to a stage -/

/-- The time some seconds later; time never goes back. -/
def later (time seconds : Float) : Float := if 0.0 < seconds then time + seconds else time

/-- What a call comes to that ends in this way at some time. -/
def Effect.resultAt (serviceId actionId : String) (input : ActionInput) (effect : Effect)
    (time : Float) : Except Failure Value :=
  match effect with
  | .reply value => .ok value
  | .failure error => .error error
  | .echo => .ok (echoResult serviceId actionId input (.ofSeconds time))

namespace Stage

variable (stage : Stage)

theorem timeAfter_eq (seconds : Float) : stage.timeAfter seconds = later stage.now seconds := by
  rw [timeAfter, advance, later]
  split <;> rfl

theorem advance_zero : stage.advance 0.0 = stage := if_neg (by decide)

/-! It takes no time to announce an attempt, to look at the clock or to draw. -/

section AtOnce

variable (exchanges : List Exchange)

@[simp]
theorem after_attempt_cons (number : Nat) :
    stage.after (.answered (.attempt number) () :: exchanges) =
      (stage.noteAttempt number).after exchanges :=
  congrArg (after · exchanges) (advance_zero (stage.noteAttempt number))

@[simp]
theorem after_clock_cons (time : Float) :
    stage.after (.answered .clock time :: exchanges) = stage.after exchanges :=
  congrArg (after · exchanges) (advance_zero stage)

@[simp]
theorem after_draw_cons (share : Float) :
    stage.after (.answered .draw share :: exchanges) = stage.after exchanges :=
  congrArg (after · exchanges) (advance_zero stage)

end AtOnce

theorem after_sleep (seconds : Float) :
    stage.after [.answered (.sleep seconds) ()] =
      { stage with now := later stage.now seconds } := by
  rw [← timeAfter_eq, ← advance_eq]
  rfl

/-- An action with a script does what comes next in it. -/
theorem callAction_custom {serviceId actionId label : String} {script : Script}
    (input : ActionInput)
    (hregistered : stage.registry.find? serviceId actionId = some (.custom label))
    (hscripted : Table.find? stage.actions label = some script) :
    stage.callAction serviceId actionId input =
      ({ delay := script.current.delay
         reply := script.current.effect.resultAt serviceId actionId input },
        { stage.noteScripted label input with
          actions := Table.insert stage.actions label script.advance }) := by
  have hscript : (Table.find? (stage.noteScripted label input).actions label).getD ⟨[], 0⟩ =
      script := by
    change (Table.find? stage.actions label).getD ⟨[], 0⟩ = script
    rw [hscripted, Option.getD_some]
  rw [callAction, hregistered]
  dsimp only
  rw [playAction, hscript]
  cases script.current.effect <;> rfl

end Stage

namespace Retry

/-! ### The plan -/

/-- An action that plays a script is attempted under a policy. Attempts are counted from one. -/
structure Plan where
  policy : RetryPolicy
  label : String
  serviceId : String
  actionId : String
  input : ActionInput
  script : Script
  /-- What is drawn after each attempt. -/
  shares : Nat → Float
  /-- When the first attempt starts. -/
  beginning : Float

namespace Plan

variable (plan : Plan)

def action : String := Registry.qualifiedName plan.serviceId plan.actionId

@[reducible] def call : Call :=
  .external plan.serviceId plan.actionId plan.input.parameters plan.input.secret plan.input.incoming

def operation : Program (Except Failure Value) := Program.perform plan.call

def program : Program (Ending Value) := run plan.policy plan.label plan.operation

/-- A stage on which the action plays its script. -/
def prepare (stage : Stage) : Stage :=
  { stage with
    now := plan.beginning
    share := plan.shares 1
    registry := stage.registry.add plan.serviceId plan.actionId (.custom plan.action)
    actions := Table.insert stage.actions plan.action plan.script }

/-! What the action does at each attempt, and when it is done, is in the script; when the attempts
start and are over follows from it. -/

def scriptAfter (calls : Nat) : Script := { plan.script with played := plan.script.played + calls }

def behaviour (number : Nat) : Behaviour := (plan.scriptAfter (number - 1)).current

/-- What the action itself comes to when it is done in an attempt. -/
def resultAt (number : Nat) (time : Float) : Except Failure Value :=
  (plan.behaviour number).effect.resultAt plan.serviceId plan.actionId plan.input time

/-- How long the next attempt is put off after an attempt. -/
def pause (number : Nat) : Except ArithmeticError Float :=
  Backoff.seconds plan.policy number (plan.shares number)

def doneAt (number : Nat) (start : Float) : Float := later start (plan.behaviour number).delay

/-- An attempt that starts at some time is over when the action is done, and no later than its
deadline. -/
def overAt (number : Nat) (start : Float) : Float :=
  let deadline := start + plan.policy.perAttemptTimeout
  if plan.doneAt number start ≤ deadline then plan.doneAt number start else deadline

def start : Nat → Float
  | 0 | 1 => plan.beginning
  | number + 2 =>
    let finish := plan.overAt (number + 1) (start (number + 1))
    match plan.pause (number + 1) with
    | .ok seconds => later finish seconds
    | .error _ => finish

def deadline (number : Nat) : Float := plan.start number + plan.policy.perAttemptTimeout

def finish (number : Nat) : Float := plan.overAt number (plan.start number)

/-- What comes out of an attempt, unless it is given up. -/
def outcome (number : Nat) : Option (Except Failure Value) :=
  let time := plan.doneAt number (plan.start number)
  if time ≤ plan.deadline number then some (plan.resultAt number time) else none

def timedOut : Failure :=
  .ofKind .activityTimeout
    (plan.label ++ " timed out after " ++ Decimal.text plan.policy.perAttemptTimeout ++ "s")

/-- What an attempt counts as: a timeout that the action reports itself is one like any other. -/
def result (number : Nat) : Except Failure Value :=
  match plan.outcome number with
  | none | some (.error (.fault "TimeoutError" _)) => .error plan.timedOut
  | some result => result

/-- An attempt decides by its success, or by a failure after which no other attempt may help. -/
def Decides (number : Nat) : Prop :=
  (∃ value, plan.result number = .ok value) ∨
    ∃ failure, plan.result number = .error failure ∧
      (failure = .cancelled ∨ failure.isRetryable = false)

variable {plan}

theorem resultOf_outcome (number : Nat) :
    resultOf plan.policy plan.label (plan.outcome number) = plan.result number := by
  rw [result]
  rcases plan.outcome number with _ | failure | value
  · rfl
  · by_cases htimeout : ∃ text, failure = .fault "TimeoutError" text
    · obtain ⟨text, rfl⟩ := htimeout
      rfl
    · have hfailure : failureOf plan.label plan.policy (some failure) = failure := by
        unfold failureOf
        split <;> simp_all
      rw [resultOf, hfailure]
      split <;> simp_all
  · rfl

theorem decides_iff {number : Nat} :
    plan.Decides number ↔ mayHelp (plan.result number) = false := by
  rw [Decides]
  rcases plan.result number with failure | value
  · simp [mayHelp, or_iff_not_imp_left]
  · simp [mayHelp]

theorem start_succ {number : Nat} {seconds : Float} (hpos : 1 ≤ number)
    (hpause : plan.pause number = .ok seconds) :
    plan.start (number + 1) = later (plan.finish number) seconds := by
  obtain ⟨number, rfl⟩ := Nat.exists_eq_add_of_le' hpos
  rw [start, hpause]
  rfl

theorem finish_le_or_eq (number : Nat) :
    plan.finish number ≤ plan.deadline number ∨ plan.finish number = plan.deadline number := by
  by_cases hintime : plan.doneAt number (plan.start number) ≤ plan.deadline number
  · have hfinish : plan.finish number = plan.doneAt number (plan.start number) := if_pos hintime
    exact .inl (hfinish ▸ hintime)
  · exact .inr (if_neg hintime)

/-! ### The attempts that were made -/

/-- Some attempts were made according to plan, and it is a certain time. -/
structure HasMade (plan : Plan) (old : CallRecord) (made : Nat) (now : Float) (stage : Stage) :
    Prop where
  registered :
    stage.registry.find? plan.serviceId plan.actionId = some (.custom plan.action)
  scripted : Table.find? stage.actions plan.action = some (plan.scriptAfter made)
  now_eq : stage.now = now
  attempts :
    stage.record.attempts = old.attempts ++ (List.range' 1 made).map fun k => (k, plan.start k)
  external : stage.record.external =
    old.external ++ (List.range' 1 made).map fun k => ⟨plan.start k, plan.action, plan.input⟩

variable {old : CallRecord} {made : Nat} {now : Float} {stage : Stage}

theorem hasMade_prepare (plan : Plan) (stage : Stage) :
    plan.HasMade stage.record 0 (plan.start 1) (plan.prepare stage) where
  registered := by simp [prepare, Registry.add, Registry.find?, Table.find?_insert]
  scripted := by simp [prepare, scriptAfter, Table.find?_insert]
  now_eq := rfl
  attempts := by simp [prepare]
  external := by simp [prepare]

theorem react_call (plan : Plan) (stage : Stage) {calls : Nat}
    (hregistered :
      stage.registry.find? plan.serviceId plan.actionId = some (.custom plan.action))
    (hscripted : Table.find? stage.actions plan.action = some (plan.scriptAfter calls)) :
    stage.react plan.call =
      ({ delay := (plan.behaviour (calls + 1)).delay
         reply := plan.resultAt (calls + 1) },
        { (stage.noteExternal ⟨stage.now, plan.action, plan.input⟩).noteScripted plan.action
            plan.input with
          actions := Table.insert stage.actions plan.action (plan.scriptAfter (calls + 1)) }) :=
  Stage.callAction_custom (stage.noteExternal ⟨stage.now, plan.action, plan.input⟩) plan.input
    hregistered hscripted

/-- One more attempt is made, and the time is what it is then. -/
theorem HasMade.next (h : plan.HasMade old made (plan.start (made + 1)) stage) (now : Float) :
    plan.HasMade old (made + 1) now
      { ((stage.noteAttempt (made + 1)).react plan.call).2 with now := now } := by
  rw [react_call plan (stage.noteAttempt (made + 1)) h.registered h.scripted]
  exact
    { registered := h.registered
      scripted := by simp [Table.find?_insert]
      now_eq := rfl
      attempts := by
        rw [List.range'_1_concat, List.map_append, ← List.append_assoc, ← h.attempts]
        simp [Stage.noteAttempt, Stage.noteExternal, Stage.noteScripted, h.now_eq, Nat.add_comm]
      external := by
        rw [List.range'_1_concat, List.map_append, ← List.append_assoc, ← h.external]
        simp [Stage.noteAttempt, Stage.noteExternal, Stage.noteScripted, h.now_eq, Nat.add_comm] }

/-! ### What is said -/

theorem after_prelude (origin : Stage) (before : List Exchange) (number : Nat) (time : Float) :
    origin.after (before ++ prelude number time) = (origin.after before).noteAttempt number := by
  rw [Stage.after_append, prelude, Stage.after_attempt_cons, Stage.after_clock_cons, Stage.after]

/-- The clock is looked at when an attempt has been announced. -/
theorem reply_clock (origin : Stage) (shares : Nat → Float) (before : List Exchange)
    (number : Nat) :
    (origin.drawing shares).reply (before ++ [.answered (.attempt number) ()]) .clock =
      (origin.after before).now := by
  change (origin.after (before ++ [.answered (.attempt number) ()])).now = _
  rw [Stage.after_append, Stage.after_attempt_cons]
  rfl

variable {origin : Stage} {before : List Exchange}

/-- The action is called once, and waited for until the deadline. -/
theorem attempt_operation (plan : Plan) (world : World) (start : Start) :
    start.attempt world plan.operation =
      if world.isLate start.before start.deadline plan.call then
        ⟨[.late start.deadline plan.call], none⟩
      else
        let reply := world.reply start.before plan.call
        ⟨[.answered plan.call reply], some reply⟩ := by
  change (Program.askBefore start.deadline plan.call (fun reply => .done (some reply))
    (.done none)).dialogue world start.before = _
  rw [Program.dialogue]
  rfl

/-- How the action reacts at an attempt that was announced on time. -/
theorem HasMade.react (h : plan.HasMade old made (plan.start (made + 1)) stage) :
    let reacted := (stage.noteAttempt (made + 1)).react plan.call
    let time := plan.doneAt (made + 1) (plan.start (made + 1))
    reacted.2.timeAfter reacted.1.delay = time ∧
      reacted.1.reply time = plan.resultAt (made + 1) time ∧
      ∀ now, plan.HasMade old (made + 1) now { reacted.2 with now := now } := by
  dsimp only
  refine ⟨?_, ?_, h.next⟩
  · rw [react_call plan (stage.noteAttempt (made + 1)) h.registered h.scripted,
      Stage.timeAfter_eq, doneAt, ← h.now_eq]
    rfl
  · rw [react_call plan (stage.noteAttempt (made + 1)) h.registered h.scripted]

/-- An attempt goes as planned, when those before have. -/
theorem HasMade.dialogue_attempt {β : Type}
    (h : plan.HasMade old made (plan.start (made + 1)) (origin.after before))
    (next : Option (Except Failure Value) → Program β) :
    ∃ exchanges, Exchange.draws exchanges = 0 ∧
      plan.HasMade old (made + 1) (plan.finish (made + 1)) (origin.after (before ++ exchanges)) ∧
      (do Program.perform (.attempt (made + 1))
          let value ← attempt plan.policy plan.operation
          next value).dialogue (origin.drawing plan.shares) before =
        let rest := (next (plan.outcome (made + 1))).dialogue (origin.drawing plan.shares)
          (before ++ exchanges)
        ⟨exchanges ++ rest.exchanges, rest.value⟩ := by
  obtain ⟨hdone, hreply, hover⟩ := h.react
  set number := made + 1
  set time := plan.doneAt number (plan.start number)
  set world := origin.drawing plan.shares
  set said := before ++ prelude number (plan.start number) with hsaid
  have hclock : world.reply (before ++ [.answered (.attempt number) ()]) .clock =
      plan.start number := (reply_clock origin plan.shares before number).trans h.now_eq
  have hannounced : origin.after said = (origin.after before).noteAttempt number :=
    after_prelude origin before number (plan.start number)
  rw [← hannounced] at hdone hreply hover
  have hlate : world.isLate said (plan.deadline number) plan.call =
      !decide (time ≤ plan.deadline number) := by
    rw [← hdone]
    rfl
  have hanswer : world.reply said plan.call = plan.resultAt number time := by
    rw [← hreply, ← hdone]
    rfl
  rw [dialogue_attempt_bind, hclock]
  dsimp only
  rw [startAt, attempt_operation]
  dsimp only
  rw [← deadline, ← hsaid, hlate, hanswer]
  -- Either the action is done in time, or nobody waits for it any longer.
  by_cases hintime : time ≤ plan.deadline number
  · have hfinish : plan.finish number = time := if_pos hintime
    have houtcome : plan.outcome number = some (plan.resultAt number time) := if_pos hintime
    refine ⟨prelude number (plan.start number) ++
      [.answered plan.call (plan.resultAt number time)], by rfl, ?_, ?_⟩
    · rw [← List.append_assoc, ← hsaid, Stage.after_append, hfinish, Stage.after, Stage.advance_eq,
        hdone, Stage.after]
      exact hover _
    · simp [hintime, houtcome, hsaid]
  · have hfinish : plan.finish number = plan.deadline number := if_neg hintime
    have houtcome : plan.outcome number = none := if_neg hintime
    refine ⟨prelude number (plan.start number) ++ [.late (plan.deadline number) plan.call],
      by rfl, ?_, ?_⟩
    · rw [← List.append_assoc, ← hsaid, Stage.after_append, hfinish]
      exact hover _
    · simp [hintime, houtcome, hsaid]

/-- After the pause the next attempt starts on time. -/
theorem HasMade.pause {seconds : Float}
    (h : plan.HasMade old made (plan.finish made) (origin.after before)) (hpos : 1 ≤ made)
    (hpause : plan.pause made = .ok seconds) (share : Float) :
    plan.HasMade old made (plan.start (made + 1))
      (origin.after (before ++ [.answered .draw share, .answered (.sleep seconds) ()])) := by
  rw [Stage.after_append, Stage.after_draw_cons, Stage.after_sleep, start_succ hpos hpause,
    ← h.now_eq]
  exact { h with now_eq := rfl }

/-! ### The last attempt -/

/-- An attempt is followed by another one. -/
structure GoesOn (plan : Plan) (number : Nat) : Prop where
  not_decides : ¬ plan.Decides number
  ne_max : number ≠ plan.policy.maxAttempts
  exists_pause : ∃ seconds, plan.pause number = .ok seconds

/-- How the attempts end with an attempt that no other one follows. -/
inductive EndsWith (plan : Plan) (number : Nat) : Ending Value → Prop
  | decided (h : plan.Decides number ∨ number = plan.policy.maxAttempts) :
    EndsWith plan number ⟨plan.result number, number⟩
  | stranded {problem : ArithmeticError} (hdecides : ¬ plan.Decides number)
    (hmax : number < plan.policy.maxAttempts) (hpause : plan.pause number = .error problem) :
    EndsWith plan number ⟨.error problem.failure, number⟩

/-- Some attempt is the last one, and until then all goes as planned. -/
theorem exists_last {remaining : Nat}
    (h : plan.HasMade old made (plan.start (made + 1)) (origin.after before))
    (hdraws : Exchange.draws before = made)
    (hremaining : made + 1 + remaining = plan.policy.maxAttempts) :
    let said := (attempts plan.policy plan.label plan.operation (made + 1) remaining).dialogue
      (origin.drawing plan.shares) before
    ∃ last, made < last ∧ (∀ number, made < number → number < last → plan.GoesOn number) ∧
      plan.EndsWith last said.value ∧
      plan.HasMade old last (plan.finish last) (origin.after (before ++ said.exchanges)) := by
  -- The induction is on the attempts that are left; each one adds to those that were made.
  induction remaining generalizing made before with
  | zero =>
      obtain ⟨exchanges, -, hmade, hsaid⟩ := h.dialogue_attempt fun value =>
        pure (⟨resultOf plan.policy plan.label value, made + 1⟩ : Ending Value)
      rw [attempts_zero, hsaid, resultOf_outcome]
      refine ⟨made + 1, by omega, fun number hfirst hlast => by omega, ?_, ?_⟩
      · exact .decided (.inr hremaining)
      · simpa using hmade
  | succ remaining ih =>
      obtain ⟨exchanges, hnodraw, hmade, hsaid⟩ := h.dialogue_attempt _
      rw [attempts_succ, hsaid, resultOf_outcome]
      clear hsaid
      have hmax : made + 1 < plan.policy.maxAttempts := by omega
      by_cases hdecides : plan.Decides (made + 1)
      · rw [decides_iff.mp hdecides]
        refine ⟨made + 1, by omega, fun number hfirst hlast => by omega,
          .decided (.inl hdecides), ?_⟩
        simpa using hmade
      have hhelps : mayHelp (plan.result (made + 1)) = true := by
        rwa [decides_iff, Bool.not_eq_false] at hdecides
      have hshare : (origin.drawing plan.shares).reply (before ++ exchanges) .draw =
          plan.shares (made + 1) := by
        rw [Stage.drawing_reply_draw, Exchange.draws_append, hdraws, hnodraw, Nat.add_zero]
      -- Another attempt may help, and its pause depends on what is drawn now.
      rw [hhelps, if_pos rfl, Program.dialogue_perform_bind, hshare, ← pause]
      cases hpause : plan.pause (made + 1) with
      | error problem =>
          refine ⟨made + 1, by omega, fun number hfirst hlast => by omega,
            .stranded hdecides hmax hpause, ?_⟩
          change plan.HasMade old _ _ (origin.after
            (before ++ (exchanges ++ [.answered .draw (plan.shares (made + 1))])))
          rw [← List.append_assoc, Stage.after_append, Stage.after_draw_cons, Stage.after]
          exact hmade
      | ok seconds =>
          have hslept (said : List Exchange) :
              (origin.drawing plan.shares).reply said (.sleep seconds) = () := rfl
          have hnext := hmade.pause (by omega) hpause (plan.shares (made + 1))
          have hnextdraws : Exchange.draws (before ++ exchanges ++
              [.answered .draw (plan.shares (made + 1)), .answered (.sleep seconds) ()]) =
                made + 1 := by
            rw [Exchange.draws_append, Exchange.draws_append, hdraws, hnodraw]
            rfl
          obtain ⟨last, hlast, hgoes, hends, hover⟩ := ih hnext hnextdraws (by omega)
          dsimp only
          rw [Program.dialogue_perform_bind, hslept]
          simp only [Dialogue.cons, List.append_assoc, List.cons_append, List.nil_append]
            at hends hover ⊢
          refine ⟨last, by omega, fun number hfirst hbefore => ?_, hends, hover⟩
          rcases Nat.eq_or_lt_of_le hfirst with rfl | hfirst
          · exact ⟨hdecides, hmax.ne, seconds, hpause⟩
          · exact hgoes number hfirst hbefore

/-- **The law of repeated attempts.** The last attempt is the first one that decides or the last
one that is allowed, and it ends with what this attempt counts as; only a pause that cannot be
reckoned ends the attempts before. The attempts are announced and the action is called in their
order and on schedule: no attempt is longer than it may be, and the next one starts when the pause
after it is over. Where the same is drawn every time, this is what is performed on the stage. -/
theorem attempts_keep_to_schedule (plan : Plan) (stage : Stage) :
    let said := plan.program.dialogue ((plan.prepare stage).drawing plan.shares) []
    let afterwards := (plan.prepare stage).after said.exchanges
    ∃ last,
      (IsLeast {number | 1 ≤ number ∧
            (plan.Decides number ∨ number = plan.policy.maxAttempts)} last ∧
          said.value = ⟨plan.result last, last⟩ ∨
        1 ≤ last ∧ last < plan.policy.maxAttempts ∧ ¬ plan.Decides last ∧ ∃ problem,
          plan.pause last = .error problem ∧ said.value = ⟨.error problem.failure, last⟩) ∧
      afterwards.record.attempts =
        stage.record.attempts ++ (List.range' 1 last).map (fun k => (k, plan.start k)) ∧
      afterwards.record.external = stage.record.external ++
        (List.range' 1 last).map (fun k => ⟨plan.start k, plan.action, plan.input⟩) ∧
      afterwards.now = plan.finish last ∧
      (∀ number, plan.finish number ≤ plan.deadline number ∨
        plan.finish number = plan.deadline number) ∧
      (∀ number, 1 ≤ number → number < last → ¬ plan.Decides number ∧
        ∃ seconds, plan.pause number = .ok seconds ∧
          plan.start (number + 1) = later (plan.finish number) seconds) ∧
      ((∀ number, plan.shares number = plan.shares 1) →
        Stage.perform plan.program (plan.prepare stage) = (said.value, afterwards)) := by
  intro said afterwards
  have hmax := plan.policy.maxAttempts.2
  have hstart : plan.HasMade stage.record 0 (plan.start (0 + 1)) ((plan.prepare stage).after []) :=
    hasMade_prepare plan stage
  have hremaining : 0 + 1 + (plan.policy.maxAttempts.1 - 1) = plan.policy.maxAttempts := by omega
  obtain ⟨last, hpos, hgoes, hends, hmade⟩ := exists_last hstart rfl hremaining
  change plan.EndsWith last said.value at hends
  change plan.HasMade _ _ _ afterwards at hmade
  refine ⟨last, ?_, hmade.attempts, hmade.external, hmade.now_eq, finish_le_or_eq,
    fun number hfirst hbefore => ?_, fun hsame => ?_⟩
  · generalize said.value = ending at hends
    cases hends with
    | decided h =>
        refine .inl ⟨⟨⟨hpos, h⟩, fun number ⟨hfirst, hstops⟩ => ?_⟩, rfl⟩
        by_contra hbefore
        have hgoing := hgoes number hfirst (by omega)
        exact hstops.elim hgoing.not_decides hgoing.ne_max
    | stranded hdecides hlast hpause => exact .inr ⟨hpos, hlast, hdecides, _, hpause, rfl⟩
  · have hgoing := hgoes number hfirst hbefore
    obtain ⟨seconds, hpause⟩ := hgoing.exists_pause
    exact ⟨hgoing.not_decides, seconds, hpause, start_succ hfirst hpause⟩
  · have hshares : plan.shares = fun _ => (plan.prepare stage).share := funext hsame
    rw [Stage.perform_eq_dialogue_drawing, ← hshares]

end Plan

end Retry

end Workflow
