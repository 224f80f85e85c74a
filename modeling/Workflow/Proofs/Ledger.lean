import Workflow.Proofs.Course
import Workflow.Proofs.Store.Writes
import Workflow.Run.Archive

/-!
# A run and its repository

Whoever makes a move around a run may owe the repository a write, and then waits until the write is
done. In the meantime others make their moves, their writes are done in any order, and other runs
are written about too. A ledger has a run in its course, the repository, and the writes that are
owed; a play of a ledger is any sequence of moves and writes that are possible one after the other.
-/

namespace Workflow

/-- The step a write is about, if it is about one. -/
def Entry.stepId? : Entry → Option String
  | .startStep _ stepId | .closeStep _ stepId _ => some stepId
  | .createRun .. | .closeRun .. => none

def Phase.isClosing : Phase → Bool
  | .closing _ => true
  | _ => false

namespace Move

/-- The write that a move comes after: whoever makes the move has been waiting for it. -/
def follows : Move → Entry → Bool
  | .store, .createRun .. | .refuse, .createRun .. => true
  | .hand id _, .startStep _ stepId | .breakOff id _, .startStep _ stepId => id = stepId
  | .report _ id, .closeStep _ stepId _ | .breakOff id _, .closeStep _ stepId _ => id = stepId
  | .close _, .closeRun .. => true
  | _, _ => false

/-- The repository has failed to do a write. -/
def isRefusal : Move → Bool
  | .refuse | .breakOff .. | .close (some _) => true
  | _ => false

end Move

namespace Course

/-- The write about a step that is owed from a move on. -/
def stepOwed (c c' : Course) : Move → Option Entry
  | .begin _ =>
    if c'.phase = .driving then some (.startStep c.run.id c.triggerId) else none
  | .enter id => some (.startStep c.run.id id)
  | .finish _ id _ ending =>
    (Outcome.ofEnding? ending).map fun outcome => .closeStep c.run.id id outcome.closing
  | _ => none

/-- What is owed from a move on. Once its driver has said the last words on a run, its end is. -/
def owed (c c' : Course) (move : Move) : List Entry :=
  (c.stepOwed c' move).toList ++
    if c'.phase.isClosing && !c.phase.isClosing then [c'.run.ending] else []

end Course

structure Ledger where
  course : Course
  repository : Repository
  /-- The writes that somebody is waiting for, or was when his task was cancelled. -/
  owed : List Entry

inductive Act where
  | move (move : Move)
  /-- A write that is owed is done. -/
  | write (now : Moment) (entry : Entry)
  /-- Another run is written about. -/
  | other (now : Moment) (entry : Entry)

def Act.move? : Act → Option Move
  | .move m => some m
  | .write .. | .other .. => none

/-- The moves among some acts. -/
def Act.moves (acts : List Act) : List Move := acts.filterMap Act.move?

namespace Ledger

def register (repository : Repository) (id : String) (graph : Graph) (payload : Fields)
    (failureMode : FailureMode) (observers : List Observer) : Ledger :=
  let course := Course.register id graph payload failureMode observers
  { course, repository, owed := [course.run.creation] }

variable (l : Ledger)

/-- What becomes of a ledger by an act, if the act is possible. A write that the repository refuses
is not owed any longer. -/
def step : Act → Option Ledger
  | .move move =>
    if move.isRefusal || l.owed.all (!move.follows ·) then
      (l.course.step move).map fun course =>
        { l with course, owed := l.owed.filter (!move.follows ·) ++ l.course.owed course move }
    else none
  | .write now entry =>
    if entry ∈ l.owed then
      match l.repository.write now entry with
      | .ok repository => some { l with repository, owed := l.owed.filter (· ≠ entry) }
      | .error _ => none
    else none
  | .other now entry =>
    if entry.runId ≠ l.course.run.id then
      match l.repository.write now entry with
      | .ok repository => some { l with repository }
      | .error _ => none
    else none

/-- What becomes of a ledger by a sequence of acts, if each is possible after those before it. -/
def play (l : Ledger) : List Act → Option Ledger
  | [] => some l
  | act :: acts => (l.step act).bind fun next => next.play acts

end Ledger

/-! ### The acts of a ledger -/

namespace Ledger

variable {l l' : Ledger} {move : Move} {now : Moment} {entry : Entry} {act : Act} {acts : List Act}

theorem step_move_eq (h : l.step (.move move) = some l') (hmove : move.isRefusal = false) :
    (∀ entry ∈ l.owed, move.follows entry = false) ∧ ∃ course, l.course.step move = some course ∧
      l' = { l with course, owed := l.owed ++ l.course.owed course move } := by
  rw [step, hmove, Bool.false_or] at h
  split at h
  · rename_i hready
    have hnone : ∀ entry ∈ l.owed, move.follows entry = false := by simpa using hready
    obtain ⟨course, hstep, rfl⟩ := Option.map_eq_some_iff.mp h
    refine ⟨hnone, course, hstep, ?_⟩
    rw [List.filter_eq_self.mpr fun entry hmem => by rw [hnone entry hmem]; rfl]
  · cases h

theorem step_write_eq (h : l.step (.write now entry) = some l') :
    entry ∈ l.owed ∧ ∃ repository, l.repository.write now entry = .ok repository ∧
      l' = { l with repository, owed := l.owed.filter (· ≠ entry) } := by
  rw [step] at h
  split at h
  · rename_i howed
    split at h
    · rename_i repository hwrite
      exact ⟨howed, repository, hwrite, (Option.some.inj h).symm⟩
    · cases h
  · cases h

theorem step_other_eq (h : l.step (.other now entry) = some l') :
    entry.runId ≠ l.course.run.id ∧ ∃ repository,
      l.repository.write now entry = .ok repository ∧ l' = { l with repository } := by
  rw [step] at h
  split at h
  · split at h
    · rename_i hne _ repository hwrite
      exact ⟨hne, repository, hwrite, (Option.some.inj h).symm⟩
    · cases h
  · cases h

theorem play_append (acts acts' : List Act) :
    l.play (acts ++ acts') = (l.play acts).bind fun next => next.play acts' := by
  induction acts generalizing l with
  | nil => rfl
  | cons act acts ih =>
      rw [List.cons_append, play, play, Option.bind_assoc]
      exact congrArg _ (funext fun next => ih)

theorem play_concat_eq (h : l.play (acts ++ [act]) = some l') :
    ∃ middle, l.play acts = some middle ∧ middle.step act = some l' := by
  rw [play_append] at h
  obtain ⟨middle, hmiddle, hact⟩ := Option.bind_eq_some_iff.mp h
  obtain ⟨next, hstep, hnext⟩ := Option.bind_eq_some_iff.mp hact
  exact ⟨middle, hmiddle, hstep.trans hnext⟩

theorem moves_concat (acts : List Act) (act : Act) :
    Act.moves (acts ++ [act]) = Act.moves acts ++ act.move?.toList := by
  rw [Act.moves, List.filterMap_append]
  cases act <;> rfl

/-- The course of a ledger goes through the moves among the acts. -/
theorem course_of_play (h : l.play acts = some l') :
    l.course.play (Act.moves acts) = some l'.course := by
  induction acts generalizing l with
  | nil =>
      obtain rfl := Option.some.inj h
      rfl
  | cons act acts ih =>
      obtain ⟨next, hstep, hrest⟩ := Option.bind_eq_some_iff.mp h
      cases act with
      | move move =>
          rw [step] at hstep
          split at hstep
          · obtain ⟨course, hcourse, rfl⟩ := Option.map_eq_some_iff.mp hstep
            show (l.course.step move).bind _ = _
            rw [hcourse]
            exact ih hrest
          · cases hstep
      | write now entry =>
          obtain ⟨-, repository, -, rfl⟩ := step_write_eq hstep
          have hmoves := ih hrest
          exact hmoves
      | other now entry =>
          obtain ⟨-, repository, -, rfl⟩ := step_other_eq hstep
          have hmoves := ih hrest
          exact hmoves

end Ledger

end Workflow
