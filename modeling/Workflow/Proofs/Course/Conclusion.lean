import Workflow.Proofs.Course.Termination
import Workflow.Proofs.Run.Telling

/-!
# The last word on a run

A run completes when nothing is in flight any more, and then no invocation goes on. So nothing but
the last words is told of it any more, and the very last of them says that it has finished.
-/

namespace Workflow

/-- The last word on a run that has completed. -/
def Message.finished : Message := .success "Workflow Run Finished"

/-- The last words on the run have been said, or its driver was stopped before it could begin. -/
def Phase.isOver : Phase → Bool
  | .closing _ | .closed _ => true
  | _ => false

namespace Run

theorem status_finish (run : Run) (status : RunStatus) (error errorCode : Option String) :
    (run.finish status error errorCode).status =
      if run.isTerminated then run.status else status := by
  unfold finish
  split <;> rfl

/-- The last of the closing messages on a completed run is that it has finished, and no other. -/
theorem closingMessages_of_completed {run : Run} (hcompleted : run.status = .completed) :
    ∃ messages, run.closingMessages = messages ++ [.finished] ∧
      ∀ message ∈ messages, message ≠ .finished := by
  refine ⟨_, congrArg _ (congrArg (fun message => [message]) (if_pos hcompleted)), ?_⟩
  intro message hmessage hfinished
  have hlevel : message.level = .info := by
    rw [List.mem_append] at hmessage
    rcases hmessage with hidle | hrunning
    · split at hidle
      · cases hidle
      · exact List.mem_singleton.mp hidle ▸ rfl
    · split at hrunning
      · cases hrunning
      · exact List.mem_singleton.mp hrunning ▸ rfl
  rw [hfinished] at hlevel
  cases hlevel

end Run

namespace Course

variable {start c c' : Course} {move : Move} {moves : List Move} {id : String}

theorem step_of_play_append (hmoves : start.play moves = some c)
    (hplay : start.play (moves ++ [move]) = some c') : c.step move = some c' := by
  rw [play_append, hmoves, Option.bind_some, play] at hplay
  obtain ⟨next, hstep, hnext⟩ := Option.bind_eq_some_iff.mp hplay
  rw [hstep, Option.some.inj hnext]

/-! ### Runs that have completed -/

/-- Only a report completes a run. -/
theorem Takes.completed (h : c.Takes move c') (hcompleted' : c'.run.status = .completed)
    (hnot : c.run.status ≠ .completed) : ∃ now step outcome released, move = .report now step.id ∧
      c.progress? step.id = some (.leaving outcome) ∧ c.run.isTerminated = false ∧
      Run.Completes now step outcome c.run released c'.run := by
  have hfinish {status : RunStatus} {error errorCode : Option String}
      (hcompleted' : (c.run.finish status error errorCode).status = .completed)
      (hstatus : status ≠ .completed) : False := by
    rw [Run.status_finish] at hcompleted'
    split at hcompleted'
    · exact hnot hcompleted'
    · exact hstatus hcompleted'
  have hconclude {run : Run} {now : Moment} (hstatus : run.status ≠ .completed)
      (hcompleted' : (run.conclude now).status = .completed) : False := by
    obtain ⟨log, hlog⟩ := run.exists_conclude_eq now
    rw [hlog] at hcompleted'
    exact hstatus hcompleted'
  cases h with
  | report now step outcome released run hprogress hcompletes =>
      refine ⟨now, step, outcome, released, rfl, hprogress, ?_, hcompletes⟩
      by_contra hended
      obtain ⟨-, rfl⟩ := hcompletes.of_isTerminated (Bool.not_eq_false _ ▸ hended)
      exact hnot hcompleted'
  | store => cases hcompleted'
  | cancel now reason =>
      rcases (c.run.quiet_cancel now reason).verdict with ⟨hstatus, -⟩ | ⟨hopen, -⟩
      · exact absurd (hstatus.symm.trans hcompleted') hnot
      · rw [Run.cancel, hopen] at hcompleted'
        simp only [Bool.false_eq_true, if_false] at hcompleted'
        rw [Run.status_finish] at hcompleted'
        split at hcompleted'
        · exact absurd hcompleted' hnot
        · cases hcompleted'
  | begin now =>
      obtain ⟨log, hlog⟩ := c.run.exists_introduce_eq now
      rw [begun, hlog] at hcompleted'
      exact absurd hcompleted' hnot
  | beginLate => exact (hconclude hnot hcompleted').elim
  | conclude => exact (hconclude hnot hcompleted').elim
  | interruptDriver =>
      exact (hconclude (fun hcompleted => hfinish hcompleted (by decide)) hcompleted').elim
  | stopDriver =>
      exact (hconclude (fun hcompleted => hfinish hcompleted (by decide)) hcompleted').elim
  | breakOff =>
      rw [Course.breakOff, Run.failInternally, Run.status_finish] at hcompleted'
      split at hcompleted'
      · exact absurd hcompleted' hnot
      · cases hcompleted'
  | _ => exact absurd hcompleted' hnot

/-- What holds once a run has completed. -/
structure Through (c : Course) : Prop where
  begun : c.phase.isUnbegun = false
  finished : c.run.isFinished = true
  progress : ∀ id, c.progress? id = none

theorem Through.of_takes (h : c.Through) (hsound : c.Sound) (htakes : c.Takes move c')
    (hended : c.run.isTerminated = true) : c'.Through where
  begun := by
    by_contra hunbegun
    have hbefore := htakes.isUnbegun_of_isUnbegun (Bool.not_eq_false _ ▸ hunbegun)
    rw [h.begun] at hbefore
    cases hbefore
  finished := (hsound.advances htakes).finished h.finished
  progress := by
    intro id
    have hnot {id : String} {progress : Progress} (hprogress : c.progress? id = some progress) :
        False := by
      rw [h.progress] at hprogress
      cases hprogress
    by_contra hsome
    obtain ⟨progress, hprogress⟩ := Option.ne_none_iff_exists'.mp hsome
    rcases hsound.rank_lt_of_takes htakes hprogress with hsame | hidle | ⟨_, hbefore, -⟩
    · exact hnot hsame
    · have hstored : move ≠ .store := by
        rintro rfl
        have hbegun := h.begun
        rw [htakes.phase_of_store] at hbegun
        cases hbegun
      have hrunning := (hsound.of_takes htakes).running id progress hprogress
      exact ((hsound.aftermath htakes hended hstored).hasLeftIdle
        (.of_eq hrunning (by decide))).not_idle hidle
    · exact hnot hbefore

/-- Nothing begins once the last words are said. -/
theorem Sound.begun_of_takes (h : c.Sound) (htakes : c.Takes move c')
    (hover : c.phase.isOver = true) (hbegun : c'.run.HasLeftIdle c'.triggerId) :
    c.run.HasLeftIdle c.triggerId := by
  by_cases hmove : ∀ other, move.reports other = false
  · have hbegin (now : Moment) : move ≠ .begin now := by
      rintro rfl
      cases htakes with
      | begin _ hphase =>
          rw [hphase] at hover
          cases hover
      | beginLate _ hphase =>
          rw [hphase] at hover
          cases hover
    obtain ⟨status, hstatus, hne⟩ := hbegun
    rw [triggerId, (h.advances htakes).graph] at hstatus
    rw [h.statusOf?_of_takes htakes hmove fun _ => hbegin] at hstatus
    exact ⟨status, hstatus, hne⟩
  · cases htakes with
    | report now step outcome released run hprogress =>
        exact (h.run.trigger_leadsTo (.of_eq (h.running _ _ hprogress) (by decide))).1
    | _ => exact (hmove fun _ => rfl).elim

theorem closingMessages_conclude (run : Run) (now : Moment) :
    (run.conclude now).closingMessages = run.closingMessages := by
  obtain ⟨log, hlog⟩ := run.exists_conclude_eq now
  rw [hlog]
  rfl

/-- The last words are said by a move, or something else is told, and nothing when nothing goes
on. -/
theorem Takes.closes_or_goesOn (h : c.Takes move c') :
    (c'.phase.isOver = true ∧ c.run.log.Tells c'.run.log c'.run.closingMessages ∧
      (c.phase.isOver = false ∨ (c.progress? c.triggerId).isSome)) ∨
    ∃ messages, c.run.log.Tells c'.run.log messages ∧
      (∀ message ∈ messages, message ≠ .finished) ∧
      (c.run.isTerminated = true → c.Through → messages = []) ∧
      (c'.phase.isOver = c.phase.isOver ∨ c.phase = .waiting) := by
  have hsilent (hevents : c'.run.log.events = c.run.log.events)
      (hphase : c'.phase.isOver = c.phase.isOver ∨ c.phase = .waiting) :
      ∃ messages, c.run.log.Tells c'.run.log messages ∧
        (∀ message ∈ messages, message ≠ .finished) ∧
        (c.run.isTerminated = true → c.Through → messages = []) ∧
        (c'.phase.isOver = c.phase.isOver ∨ c.phase = .waiting) :=
    ⟨[], .of_events_eq hevents, by simp, fun _ _ => rfl, hphase⟩
  have hclosing {run : Run} (now : Moment) (hlog : run.log = c.run.log) :
      c.run.log.Tells (run.conclude now).log (run.conclude now).closingMessages := by
    rw [closingMessages_conclude, ← hlog]
    exact run.tells_conclude now
  have hlevel {message : Message} (hne : message.level ≠ .success) : message ≠ .finished := by
    rintro rfl
    exact hne rfl
  have hstep {message : Message} {id : String} (hid : message.stepId = some id) :
      message ≠ .finished := by
    rintro rfl
    cases hid
  cases h with
  | beginLate now hphase =>
      exact Or.inl ⟨rfl, hclosing now rfl, Or.inl (by rw [hphase]; rfl)⟩
  | conclude now hphase =>
      exact Or.inl ⟨rfl, hclosing now rfl, Or.inl (by rw [hphase]; rfl)⟩
  | stopDriver now hphase =>
      exact Or.inl ⟨rfl, hclosing now (Run.log_finish _ _ _ _), Or.inl (by rw [hphase]; rfl)⟩
  | interruptDriver now incoming ending hprogress =>
      exact Or.inl ⟨rfl, hclosing now (Run.log_finish _ _ _ _), Or.inr (by rw [hprogress]; rfl)⟩
  | cancel now reason =>
      obtain ⟨messages, htells, hmessages, hended⟩ := c.run.tells_cancel now reason
      refine Or.inr ⟨messages, htells, fun message hmessage => hlevel ?_, fun h _ => hended h,
        Or.inl rfl⟩
      rw [(hmessages message hmessage).1]
      decide
  | begin now hphase hopen =>
      obtain ⟨messages, htells, hmessages⟩ := c.run.tells_introduce now
      refine Or.inr ⟨messages, htells, fun message hmessage => hlevel ?_, fun hended => ?_,
        Or.inr hphase⟩
      · rw [(hmessages message hmessage).1]
        decide
      · rw [hopen] at hended
        cases hended
  | finish now step incoming ending outcome hprogress =>
      refine Or.inr ⟨_, c.run.log.tells_emit now _, ?_, fun _ hthrough => ?_, Or.inl rfl⟩
      · intro message hmessage
        rw [List.mem_singleton.mp hmessage]
        exact hstep (outcome.stepId_message step)
      · rw [hthrough.progress] at hprogress
        cases hprogress
  | report now step outcome released run hprogress hcompletes =>
      obtain ⟨remarks, htells, hremarks⟩ := hcompletes.tells
      refine Or.inr ⟨_, htells, fun message hmessage => ?_, fun _ hthrough => ?_, Or.inl rfl⟩
      · rcases List.mem_append.mp hmessage with hreleased | hremark
        · obtain ⟨other, -, rfl⟩ := List.mem_map.mp hreleased
          exact hstep (Eq.refl (some other.id))
        · exact hstep (hremarks message hremark).1
      · rw [hthrough.progress] at hprogress
        cases hprogress
  | breakOff id failure =>
      exact Or.inr (hsilent (congrArg EventLog.events (Run.log_finish _ _ _ _)) (Or.inl rfl))
  | close failure hphase =>
      exact Or.inr (hsilent c.run.log.events_close (Or.inl (by rw [hphase]; rfl)))
  | closeFailing failure problem hphase =>
      exact Or.inr (hsilent rfl (Or.inl (by rw [hphase]; rfl)))
  | store hphase => exact Or.inr (hsilent rfl (Or.inl (by rw [hphase]; rfl)))
  | refuse hphase => exact Or.inr (hsilent rfl (Or.inl (by rw [hphase]; rfl)))
  | leave now hphase =>
      refine Or.inr (hsilent rfl ?_)
      rcases hphase with hphase | ⟨failure, hphase⟩
      · exact Or.inr hphase
      · exact Or.inl (by rw [hphase]; rfl)
  | _ => exact Or.inr (hsilent rfl (Or.inl rfl))

section Register

variable {runId : String} {graph : Graph} {payload : Fields} {mode : FailureMode}
  {observers : List Observer}

/-- When a run completes, every invocation has been reported. -/
theorem through_of_completes (hplay : (register runId graph payload mode observers).play moves =
    some c') (hsound : c.Sound) (htakes : c.Takes move c') {now : Moment} {step : Step}
    {outcome : Outcome} {released : List String}
    (hprogress : c.progress? step.id = some (.leaving outcome))
    (hopen : c.run.isTerminated = false)
    (hcompletes : Run.Completes now step outcome c.run released c'.run)
    (hcompleted : c'.run.status = .completed) : c'.Through := by
  have hsound' := hsound.of_takes htakes
  have hrecorded := recorded_of_play hplay
  obtain ⟨hidle, hfinished⟩ := hcompletes.inFlight_of_completed hopen hcompleted
  have hself : c'.run.statusOf? step.id = some outcome.status := by
    rw [hcompletes.statusOf? (hsound.running _ _ hprogress), if_pos rfl]
  constructor
  case begun =>
    by_contra hunbegun
    have hbefore := htakes.isUnbegun_of_isUnbegun (Bool.not_eq_false _ ▸ hunbegun)
    rw [hsound.begun_of_progress hprogress] at hbefore
    cases hbefore
  case finished => exact hfinished
  case progress =>
    intro id
    by_contra hsome
    obtain ⟨progress, hinvoked⟩ := Option.ne_none_iff_exists'.mp hsome
    have hrunning := hsound'.running id progress hinvoked
    have hinFlight : id ∉ c'.run.inFlight := by simp [hidle]
    refine hinFlight ((hrecorded.inFlight id).mpr ⟨hrunning, ?_, fun failure hbroken => ?_⟩)
    · rintro rfl
      refine hsound'.run.trigger_not_running (.of_eq hself (Outcome.status_ne_idle outcome)) ?_
        hrunning
      rw [hself]
      exact fun heq => Outcome.status_ne_running outcome (Option.some.inj heq)
    · have hstage := hrecorded.brokenOff id failure hbroken
      rw [stage_of_progress? hinvoked] at hstage
      exact progress.rank_lt.ne hstage

theorem through_of_play
    (hplay : (register runId graph payload mode observers).play moves = some c)
    (hcompleted : c.run.status = .completed) : c.Through := by
  refine ((sound_register runId graph payload mode observers).play_induction
    (P := fun moves after => (register runId graph payload mode observers).play moves = some after →
      after.run.status = .completed → after.Through) (fun _ hnot => by cases hnot) ?_ hplay).2 hplay
      hcompleted
  intro moves before move after hmoves hsound hsofar htakes hplay hcompleted
  by_cases hbefore : before.run.status = .completed
  · exact (hsofar hmoves hbefore).of_takes hsound htakes (by rw [Run.isTerminated, hbefore]; rfl)
  · obtain ⟨now, step, outcome, released, -, hprogress, hopen, hcompletes⟩ :=
      htakes.completed hcompleted hbefore
    exact through_of_completes hplay hsound htakes hprogress hopen hcompletes hcompleted

/-- Once the last words on a run that has begun are said, it has ended. -/
theorem isTerminated_of_isOver
    (hplay : (register runId graph payload mode observers).play moves = some c)
    (hrace : ¬ StoredAfterCancel moves) (hover : c.phase.isOver = true)
    (hbegun : c.run.HasLeftIdle c.triggerId) : c.run.isTerminated = true := by
  refine ((sound_register runId graph payload mode observers).play_induction
    (P := fun moves after => ¬ StoredAfterCancel moves → after.phase.isOver = true →
      after.run.HasLeftIdle after.triggerId → after.run.isTerminated = true)
    (fun _ hover => by cases hover) ?_ hplay).2 hrace hover hbegun
  intro moves before move after hmoves hsound hsofar htakes hrace hover hbegun
  have hrace' : ¬ StoredAfterCancel moves := fun hearlier => hrace (hearlier.append [move])
  by_cases hover' : before.phase.isOver = true
  · have hended := hsofar hrace' hover' (hsound.begun_of_takes htakes hover' hbegun)
    have hstored : move ≠ .store := by
      rintro rfl
      rw [htakes.phase_of_store] at hover'
      cases hover'
    rw [(hsound.aftermath htakes hended hstored).isTerminated, hended]
  cases htakes with
  | beginLate now hphase hended => exact isTerminated_conclude _ now hended
  | conclude now hphase hfinished =>
      exact isTerminated_conclude _ now ((orderly_of_play hmoves hrace').finished hfinished)
  | interruptDriver now => exact isTerminated_conclude _ now (isTerminated_abandon _)
  | stopDriver now => exact isTerminated_conclude _ now (isTerminated_abandon _)
  | leave now hphase =>
      rcases hphase with hphase | ⟨failure, hphase⟩
      · exact absurd hbegun (hsound.unbegun (by rw [hphase]; rfl)).1.not_hasLeftIdle
      · exact (hover' (by rw [hphase]; rfl)).elim
  | store => cases hover
  | refuse => cases hover
  | begin => cases hover
  | close failure hphase => exact (hover' (by rw [hphase]; rfl)).elim
  | closeFailing failure problem hphase => exact (hover' (by rw [hphase]; rfl)).elim
  | _ => exact (hover' hover).elim

/-! ### What is said last -/

/-- The last word on a run is said at its end and never before. -/
structure LastWord (c : Course) : Prop where
  unsaid : c.phase.isOver = false → ∀ event ∈ c.run.log.events, event.message ≠ .finished
  said : c.phase.isOver = true → c.run.status = .completed → ∃ events last,
    c.run.log.events = events ++ [last] ∧ last.message = .finished ∧
      ∀ event ∈ events, event.message ≠ .finished

theorem LastWord.closes (h : c.LastWord) (hover : c'.phase.isOver = true)
    (hnot : c'.run.status = .completed → c.phase.isOver = false)
    (htells : c.run.log.Tells c'.run.log c'.run.closingMessages) : c'.LastWord where
  unsaid := by
    intro hnotOver
    rw [hover] at hnotOver
    cases hnotOver
  said := by
    intro _ hcompleted
    obtain ⟨events, hevents, hmessages, -⟩ := htells
    obtain ⟨earlier, hclosing, hearlier⟩ := Run.closingMessages_of_completed hcompleted
    rw [hclosing] at hmessages
    obtain ⟨init, rest, rfl, hinit, hlast⟩ := List.map_eq_append_iff.mp hmessages
    obtain ⟨last, rfl, hfinished⟩ := List.map_eq_singleton_iff.mp hlast
    refine ⟨c.run.log.events ++ init, last, ?_, hfinished, fun event hevent => ?_⟩
    · rw [hevents, List.append_assoc]
    · rcases List.mem_append.mp hevent with htold | hnew
      · exact h.unsaid (hnot hcompleted) event htold
      · exact hearlier _ (hinit ▸ List.mem_map_of_mem hnew)

theorem LastWord.goesOn (h : c.LastWord) {messages : List Message}
    (htells : c.run.log.Tells c'.run.log messages)
    (hother : ∀ message ∈ messages, message ≠ .finished)
    (hphase : c'.phase.isOver = false → c.phase.isOver = false)
    (hsilent : c'.phase.isOver = true → c'.run.status = .completed →
      c.phase.isOver = true ∧ c.run.status = .completed ∧ messages = []) : c'.LastWord := by
  obtain ⟨events, hevents, rfl, -⟩ := htells
  constructor
  case unsaid =>
    intro hnotOver event hevent
    rw [hevents] at hevent
    rcases List.mem_append.mp hevent with htold | hnew
    · exact h.unsaid (hphase hnotOver) event htold
    · exact hother _ (List.mem_map_of_mem hnew)
  case said =>
    intro hover hcompleted
    obtain ⟨hover', hcompleted', hnil⟩ := hsilent hover hcompleted
    rw [hevents, List.map_eq_nil_iff.mp hnil, List.append_nil]
    exact h.said hover' hcompleted'

/-- A run whose last words are said, or which has not begun, does not complete any more. -/
theorem through_of_isOver
    (hplay : (register runId graph payload mode observers).play moves = some c)
    (hrace : ¬ StoredAfterCancel moves) (hsound : c.Sound) (htakes : c.Takes move c')
    (hphase : c.phase.isOver = true ∨ c.phase = .waiting)
    (hcompleted : c'.run.status = .completed) :
    c.phase.isOver = true ∧ c.run.status = .completed ∧ c.Through := by
  by_cases hcompleted' : c.run.status = .completed
  · have hthrough := through_of_play hplay hcompleted'
    refine ⟨hphase.resolve_right fun hwaiting => ?_, hcompleted', hthrough⟩
    have hbegun := hthrough.begun
    rw [hwaiting] at hbegun
    cases hbegun
  · obtain ⟨now, step, outcome, released, -, hprogress, hopen, -⟩ :=
      htakes.completed hcompleted hcompleted'
    have hover := hphase.resolve_right fun hwaiting => by
      have hbegun := hsound.begun_of_progress hprogress
      rw [hwaiting] at hbegun
      cases hbegun
    have hbegun := (hsound.run.trigger_leadsTo
      (.of_eq (hsound.running _ _ hprogress) (by decide))).1
    rw [isTerminated_of_isOver hplay hrace hover hbegun] at hopen
    cases hopen

theorem lastWord_of_play
    (hplay : (register runId graph payload mode observers).play moves = some c)
    (hrace : ¬ StoredAfterCancel moves) : c.LastWord := by
  refine ((sound_register runId graph payload mode observers).play_induction
    (P := fun moves after => ¬ StoredAfterCancel moves → after.LastWord) (fun _ => ⟨?_, ?_⟩) ?_
    hplay).2 hrace
  · intro _ event hevent
    cases hevent
  · intro hover
    cases hover
  intro moves before move after hmoves hsound hsofar htakes hrace
  have hrace' : ¬ StoredAfterCancel moves := fun hearlier => hrace (hearlier.append [move])
  have hthrough := through_of_isOver hmoves hrace' hsound htakes
  rcases htakes.closes_or_goesOn with ⟨hover, htells, hphase⟩ |
    ⟨messages, htells, hother, hsilent, hphase⟩
  · refine (hsofar hrace').closes hover (fun hcompleted => ?_) htells
    by_contra hover'
    have hnone := (hthrough (Or.inl (Bool.not_eq_false _ ▸ hover')) hcompleted).2.2.progress
    rcases hphase with hnot | hprogress
    · exact hover' hnot
    · rw [hnone] at hprogress
      cases hprogress
  · refine (hsofar hrace').goesOn htells hother (fun hnot => ?_) fun hover hcompleted => ?_
    · rcases hphase with hsame | hwaiting
      · exact hsame ▸ hnot
      · rw [hwaiting]
        rfl
    · obtain ⟨hover', hcompleted', hthrough⟩ :=
        hthrough (hphase.imp_left fun hsame => hsame.symm.trans hover) hcompleted
      exact ⟨hover', hcompleted',
        hsilent (by rw [Run.isTerminated, hcompleted']; rfl) hthrough⟩

end Register

end Course

end Workflow
