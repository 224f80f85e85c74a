import Workflow.Rehearsal.Stage
import Mathlib.Data.List.Basic

/-!
# Programs in a world

A program asks and a world replies. What the world replies, and which replies come too late, may
depend on all that was said before, so a statement about all worlds is one about all models, tools,
actions and clocks. What is performed on a stage is said in the world that the stage makes.
-/

namespace Workflow

/-- A call of a program, and what came of it. -/
inductive Exchange where
  | answered (call : Call) (reply : call.Reply)
  /-- The reply was not there at the deadline. -/
  | late (deadline : Float) (call : Call)

/-- A world replies to every call, knowing what was said before. -/
structure World where
  reply : List Exchange → (call : Call) → call.Reply
  isLate : List Exchange → (deadline : Float) → Call → Bool

/-- What a program and a world have said, and what the program came to. -/
structure Dialogue (α : Type) where
  exchanges : List Exchange
  value : α

def Dialogue.cons {α : Type} (exchange : Exchange) (dialogue : Dialogue α) : Dialogue α :=
  { dialogue with exchanges := exchange :: dialogue.exchanges }

/-! ### What was said -/

def Call.modelRequest? : Call → Option ModelRequest
  | .model request => some request
  | _ => none

def Call.toolRun? : Call → Option (String × Fields)
  | .tool name arguments => some (name, arguments)
  | _ => none

namespace Exchange

def call : Exchange → Call
  | .answered call _ => call
  | .late _ call => call

@[simp]
theorem call_answered (call : Call) (reply : call.Reply) : (answered call reply).call = call := rfl

@[simp]
theorem call_late (deadline : Float) (call : Call) : (late deadline call).call = call := rfl

def modelReply? : Exchange → Option ModelReply
  | .answered (.model _) (.ok reply) => some reply
  | _ => none

/-- The questions to a model, in their order. -/
def modelRequests (exchanges : List Exchange) : List ModelRequest :=
  exchanges.filterMap (·.call.modelRequest?)

/-- What the model has replied, in its order; where it failed, it has not. -/
def modelReplies (exchanges : List Exchange) : List ModelReply := exchanges.filterMap modelReply?

/-- The tools that were run, with their arguments, in their order. -/
def toolRuns (exchanges : List Exchange) : List (String × Fields) :=
  exchanges.filterMap (·.call.toolRun?)

variable (exchanges more : List Exchange)

@[simp]
theorem modelRequests_nil : modelRequests [] = [] := rfl

@[simp]
theorem modelReplies_nil : modelReplies [] = [] := rfl

@[simp]
theorem toolRuns_nil : toolRuns [] = [] := rfl

@[simp]
theorem modelRequests_append :
    modelRequests (exchanges ++ more) = modelRequests exchanges ++ modelRequests more :=
  List.filterMap_append

@[simp]
theorem modelReplies_append :
    modelReplies (exchanges ++ more) = modelReplies exchanges ++ modelReplies more :=
  List.filterMap_append

@[simp]
theorem toolRuns_append : toolRuns (exchanges ++ more) = toolRuns exchanges ++ toolRuns more :=
  List.filterMap_append

section Model

variable (request : ModelRequest) (reply : Except Failure ModelReply)

@[simp]
theorem modelRequests_model_cons : modelRequests (.answered (.model request) reply :: exchanges) =
    request :: modelRequests exchanges := rfl

@[simp]
theorem modelReplies_model_ok_cons (reply : ModelReply) :
    modelReplies (.answered (.model request) (.ok reply) :: exchanges) =
      reply :: modelReplies exchanges := rfl

@[simp]
theorem toolRuns_model_cons : toolRuns (.answered (.model request) reply :: exchanges) =
    toolRuns exchanges := rfl

end Model

section Tool

variable (name : String) (arguments : Fields) (reply : Except Failure String)

@[simp]
theorem modelRequests_tool_cons :
    modelRequests (.answered (.tool name arguments) reply :: exchanges) =
      modelRequests exchanges := rfl

@[simp]
theorem modelReplies_tool_cons :
    modelReplies (.answered (.tool name arguments) reply :: exchanges) =
      modelReplies exchanges := rfl

@[simp]
theorem toolRuns_tool_cons : toolRuns (.answered (.tool name arguments) reply :: exchanges) =
    (name, arguments) :: toolRuns exchanges := rfl

end Tool

/-- What is observed of calls comes in the order of the calls. -/
theorem filterMap_call_isPrefix {β : Type} (observe : Call → Option β)
    {exchanges more : List Exchange}
    (h : exchanges.map Exchange.call <+: more.map Exchange.call) :
    exchanges.filterMap (fun exchange => observe exchange.call) <+:
      more.filterMap fun exchange => observe exchange.call := by
  have hobserved := h.filterMap observe
  rwa [List.filterMap_map, List.filterMap_map] at hobserved

end Exchange

/-! ### Dialogues -/

namespace Program

variable {α β : Type} (world : World)

/-- What a program and a world say, after what was said before. -/
def dialogue : Program α → List Exchange → Dialogue α
  | .done a, _ => ⟨[], a⟩
  | .ask call next, before =>
    ((next (world.reply before call)).dialogue
      (before ++ [.answered call (world.reply before call)])).cons
        (.answered call (world.reply before call))
  | .askBefore deadline call next late, before =>
    if world.isLate before deadline call then
      (late.dialogue (before ++ [.late deadline call])).cons (.late deadline call)
    else
      ((next (world.reply before call)).dialogue
        (before ++ [.answered call (world.reply before call)])).cons
          (.answered call (world.reply before call))

variable (before : List Exchange)

@[simp]
theorem dialogue_pure (a : α) : (pure a : Program α).dialogue world before = ⟨[], a⟩ := rfl

/-- A program goes on after what its first part has said. -/
theorem dialogue_bind (p : Program α) (f : α → Program β) :
    (p >>= f).dialogue world before =
      let first := p.dialogue world before
      let rest := (f first.value).dialogue world (before ++ first.exchanges)
      ⟨first.exchanges ++ rest.exchanges, rest.value⟩ := by
  change (p.bind f).dialogue world before = _
  induction p generalizing before with
  | done a => simp [Program.bind, dialogue]
  | ask call next ih => simp [Program.bind, dialogue, ih, Dialogue.cons]
  | askBefore deadline call next late ih ihlate =>
      by_cases hlate : world.isLate before deadline call
      · simp [Program.bind, dialogue, hlate, ihlate, Dialogue.cons]
      · simp [Program.bind, dialogue, hlate, ih, Dialogue.cons]

theorem dialogue_perform_bind (call : Call) (f : call.Reply → Program β) :
    (perform call >>= f).dialogue world before =
      ((f (world.reply before call)).dialogue world
        (before ++ [.answered call (world.reply before call)])).cons
          (.answered call (world.reply before call)) := rfl

/-- What is made of a value is made of it in time. -/
theorem within_bind_pure (p : Program α) (f : α → β) (deadline : Float) :
    (p >>= fun a => pure (f a)).within deadline =
      p.within deadline >>= fun value => pure (value.map f) := by
  change (p.bind fun a => .done (f a)).within deadline =
    (p.within deadline).bind fun value => .done (value.map f)
  induction p with
  | done a => rfl
  | ask call next ih => simp [Program.bind, within, ih]
  | askBefore earlier call next late ih ihlate => simp [Program.bind, within, ih, ihlate]

/-- A program that is done in time has said all it would have said without a deadline, and one that
is given up has made no call that it would not have made. -/
theorem dialogue_within (p : Program α) (deadline : Float) :
    ((p.within deadline).dialogue world before).value = some (p.dialogue world before).value ∧
        ((p.within deadline).dialogue world before).exchanges =
          (p.dialogue world before).exchanges ∨
      ((p.within deadline).dialogue world before).value = none ∧
        ((p.within deadline).dialogue world before).exchanges.map Exchange.call <+:
          (p.dialogue world before).exchanges.map Exchange.call := by
  induction p generalizing before with
  | done a => exact .inl ⟨rfl, rfl⟩
  | ask call next ih =>
      by_cases hlate : world.isLate before deadline call
      · simp [within, dialogue, hlate, Dialogue.cons]
      · simpa [within, dialogue, hlate, Dialogue.cons] using
          ih (world.reply before call) (before ++ [.answered call (world.reply before call)])
  | askBefore earlier call next late ih ihlate =>
      by_cases hlate : world.isLate before earlier call
      · simpa [within, dialogue, hlate, Dialogue.cons] using
          ihlate (before ++ [.late earlier call])
      · simpa [within, dialogue, hlate, Dialogue.cons] using
          ih (world.reply before call) (before ++ [.answered call (world.reply before call)])

end Program

/-! ### Stages -/

namespace Stage

variable {α : Type} (stage : Stage)

/-- The stage after something was said on it. -/
def after (stage : Stage) : List Exchange → Stage
  | [] => stage
  | .answered call _ :: exchanges =>
    ((stage.react call).2.advance (stage.react call).1.delay).after exchanges
  | .late deadline call :: exchanges =>
    after { (stage.react call).2 with now := deadline } exchanges

/-- The world that a stage makes. -/
def world : World where
  reply before call :=
    let (reaction, stage) := (stage.after before).react call
    reaction.reply (stage.timeAfter reaction.delay)
  isLate before deadline call :=
    let (reaction, stage) := (stage.after before).react call
    !decide (stage.timeAfter reaction.delay ≤ deadline)

theorem after_append (exchanges more : List Exchange) :
    stage.after (exchanges ++ more) = (stage.after exchanges).after more := by
  induction exchanges generalizing stage with
  | nil => rfl
  | cons exchange exchanges ih =>
      cases exchange with
      | answered call reply => exact ih _
      | late deadline call => exact ih _

theorem advance_eq (seconds : Float) :
    stage.advance seconds = { stage with now := stage.timeAfter seconds } := by
  unfold timeAfter advance
  split <;> rfl

/-- What is performed on a stage is said in its world. -/
theorem perform_eq_dialogue (p : Program α) (before : List Exchange) :
    perform p (stage.after before) =
      let dialogue := p.dialogue stage.world before
      (dialogue.value, stage.after (before ++ dialogue.exchanges)) := by
  have hanswered (call : Call) (next : call.Reply → Program α) (before : List Exchange) :
      perform (.ask call next) (stage.after before) =
        perform (next (stage.world.reply before call))
          (stage.after (before ++ [.answered call (stage.world.reply before call)])) := by
    rw [after_append]
    rfl
  induction p generalizing before with
  | done a => simp [perform, Program.dialogue]
  | ask call next ih =>
      rw [hanswered, ih]
      simp [Program.dialogue, Dialogue.cons]
  | askBefore deadline call next late ih ihlate =>
      by_cases htime : ((stage.after before).react call).2.timeAfter
          ((stage.after before).react call).1.delay ≤ deadline
      · have hintime : stage.world.isLate before deadline call = false := by
          simp [world, htime]
        have hplay : perform (.askBefore deadline call next late) (stage.after before) =
            perform (.ask call next) (stage.after before) := by
          rw [perform, perform]
          exact (if_pos htime).trans (congrArg (perform _) (advance_eq _ _).symm)
        rw [hplay, hanswered, ih]
        simp [Program.dialogue, Dialogue.cons, hintime]
      · have hlate : stage.world.isLate before deadline call = true := by
          simp [world, htime]
        have hplay : perform (.askBefore deadline call next late) (stage.after before) =
            perform late (stage.after (before ++ [.late deadline call])) := by
          rw [after_append, perform]
          exact if_neg htime
        rw [hplay, ihlate]
        simp [Program.dialogue, Dialogue.cons, hlate]

end Stage

end Workflow
