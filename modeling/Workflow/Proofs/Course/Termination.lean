import Workflow.Proofs.Course.Records
import Workflow.Proofs.Course.Verdict
import Mathlib.Algebra.Group.Action.Defs
import Mathlib.Algebra.GroupWithZero.Nat
import Mathlib.Algebra.Order.BigOperators.Group.List
import Mathlib.Algebra.Order.Group.Nat

/-!
# No run stalls

In an open run that has been stored, either the driver has yet to begin it, or some invocation goes
on. Whatever an invocation does takes its step further, and no step goes a way twice, so there is
only so much work in a run; when none is left, the run has ended.
-/

namespace Workflow

namespace Move

/-- The capabilities return or fail, and nobody cancels the task of an invocation or the driver. -/
def IsOrdinary : Move → Prop
  | .finish _ _ _ ending => ending.result ≠ .error .cancelled
  | .stop _ | .stopDriver _ => False
  | _ => True

/-- The driver begins the run, or an invocation goes on. -/
def isWork : Move → Bool
  | .begin _ | .enter _ | .hand _ _ | .finish _ _ _ _ | .report _ _ | .breakOff _ _ => true
  | _ => false

/-- The driver begins the run, or an invocation goes on as the capabilities have it. -/
def Follows (behave : String → Fields → Retry.Ending Value) : Move → Prop
  | .begin _ | .enter _ | .hand _ _ | .report _ _ => True
  | .finish _ id incoming ending => ending = behave id incoming
  | _ => False

end Move

namespace Course

variable {c c' : Course} {move : Move} {moves : List Move} {id : String}

/-! ### The work left -/

/-- How much is left to do until every step is through. -/
def workLeft (c : Course) : Nat :=
  (if c.phase.isUnbegun then 1 else 0) + (c.run.graph.ids.map fun id => 5 - c.stage id).sum

theorem Takes.isUnbegun_of_isUnbegun (h : c.Takes move c') (hphase' : c'.phase.isUnbegun = true) :
    c.phase.isUnbegun = true := by
  cases h with
  | store hphase => rw [hphase]; rfl
  | refuse hphase => rw [hphase]; rfl
  | _ => first
      | exact hphase'
      | cases hphase'

/-- Work begins the run, or takes a step further. -/
theorem Sound.stage_lt_of_isWork (h : c.Sound) (htakes : c.Takes move c')
    (hwork : move.isWork = true) :
    (c.phase.isUnbegun = true ∧ c'.phase.isUnbegun = false) ∨
      ∃ id ∈ c.run.graph.ids, c.stage id < c'.stage id := by
  have hmem {id : String} {progress : Progress} (hprogress : c.progress? id = some progress) :
      id ∈ c.run.graph.ids :=
    Run.mem_ids_of_statusOf? h.run.keys (h.running id progress hprogress)
  have hput {id : String} {before after : Progress} (hbefore : c.progress? id = some before)
      (hafter : c'.progress? id = some after) (hlt : before.rank < after.rank) :
      ∃ id ∈ c.run.graph.ids, c.stage id < c'.stage id := by
    refine ⟨id, hmem hbefore, ?_⟩
    rw [stage_of_progress? hbefore, stage_of_progress? hafter]
    exact hlt
  have hdrop {id : String} {before : Progress} (hbefore : c.progress? id = some before)
      (hnone : c'.progress? id = none) : ∃ id ∈ c.run.graph.ids, c.stage id < c'.stage id := by
    refine ⟨id, hmem hbefore, ?_⟩
    rw [stage_of_progress? hbefore, h.stage_of_drop htakes hbefore hnone]
    exact before.rank_lt
  have hreport (id : String) : move.reports id = true → c.stage id = 4 ∧ c'.stage id = 5 :=
    h.stage_of_reports htakes
  cases htakes with
  | begin now hphase => exact Or.inl ⟨by rw [hphase]; rfl, rfl⟩
  | beginLate now hphase => exact Or.inl ⟨by rw [hphase]; rfl, rfl⟩
  | enter id hprogress =>
      exact Or.inr (hput hprogress (progress?_put_self _ _ _) (Nat.lt_succ_self _))
  | hand id incoming hprogress =>
      exact Or.inr (hput hprogress (progress?_put_self _ _ _) (Nat.lt_succ_self _))
  | finish now step incoming ending outcome hprogress =>
      exact Or.inr (hput hprogress (progress?_put_self _ _ _) (Nat.lt_succ_self _))
  | interrupt now id incoming ending hprogress =>
      exact Or.inr (hdrop hprogress (h.progress?_drop_self id))
  | interruptDriver now incoming ending hprogress =>
      exact Or.inr (hdrop hprogress (h.progress?_drop_self _))
  | report now step outcome released run hprogress =>
      obtain ⟨hbefore, hafter⟩ := hreport step.id (decide_eq_true rfl)
      exact Or.inr ⟨step.id, hmem hprogress, by omega⟩
  | breakOff id failure hprogress =>
      have hnone : (c.breakOff id failure).progress? id = none := h.progress?_drop_self id
      rcases hprogress with ⟨incoming, hprogress⟩ | ⟨outcome, hprogress⟩
      · exact Or.inr (hdrop hprogress hnone)
      · exact Or.inr (hdrop hprogress hnone)
  | _ => cases hwork

theorem Takes.beginning_le (h : c.Takes move c') :
    (if c'.phase.isUnbegun then 1 else 0) ≤ if c.phase.isUnbegun then 1 else 0 := by
  by_cases hphase' : c'.phase.isUnbegun = true
  · rw [if_pos hphase', if_pos (h.isUnbegun_of_isUnbegun hphase')]
  · rw [if_neg hphase']
    exact Nat.zero_le _

theorem Sound.workLeft_le_of_takes (h : c.Sound) (htakes : c.Takes move c') :
    c'.workLeft ≤ c.workLeft := by
  rw [workLeft, workLeft, (h.advances htakes).graph]
  exact Nat.add_le_add htakes.beginning_le
    (List.sum_le_sum fun id _ => Nat.sub_le_sub_left (h.stage_le_of_takes htakes id) 5)

theorem Sound.workLeft_lt_of_isWork (h : c.Sound) (htakes : c.Takes move c')
    (hwork : move.isWork = true) : c'.workLeft < c.workLeft := by
  have hstage (id : String) : 5 - c'.stage id ≤ 5 - c.stage id :=
    Nat.sub_le_sub_left (h.stage_le_of_takes htakes id) 5
  rw [workLeft, workLeft, (h.advances htakes).graph]
  rcases h.stage_lt_of_isWork htakes hwork with ⟨hunbegun, hbegun⟩ | ⟨id, hid, hlt⟩
  · refine Nat.add_lt_add_of_lt_of_le ?_ (List.sum_le_sum fun id _ => hstage id)
    simp [hunbegun, hbegun]
  · refine Nat.add_lt_add_of_le_of_lt htakes.beginning_le
      (List.sum_lt_sum _ _ (fun id _ => hstage id) ⟨id, hid, ?_⟩)
    have hle := c'.stage_le id
    omega

theorem Sound.countP_isWork_add_workLeft_le (h : c.Sound) (hplay : c.play moves = some c') :
    moves.countP Move.isWork + c'.workLeft ≤ c.workLeft := by
  refine (h.play_induction
    (P := fun moves after => moves.countP Move.isWork + after.workLeft ≤ c.workLeft)
    (by simp) ?_ hplay).2
  intro moves before move after _ hsound hsofar htakes
  rw [List.countP_append, List.countP_singleton]
  by_cases hwork : move.isWork = true
  · have hlt := hsound.workLeft_lt_of_isWork htakes hwork
    rw [if_pos hwork]
    omega
  · have hle := hsound.workLeft_le_of_takes htakes
    rw [if_neg hwork]
    omega

theorem workLeft_le (c : Course) : c.workLeft ≤ 5 * c.run.graph.ids.length + 1 := by
  have hsum : (c.run.graph.ids.map fun id => 5 - c.stage id).sum ≤
      c.run.graph.ids.length * 5 := by
    have hle := List.sum_le_card_nsmul (c.run.graph.ids.map fun id => 5 - c.stage id) 5 (by simp)
    rwa [List.length_map, smul_eq_mul] at hle
  rw [workLeft]
  split <;> omega

/-! ### What goes on in an open run -/

/-- A run that is open is worked on. -/
structure Lively (c : Course) : Prop where
  invoked : c.run.isTerminated = false → ∀ id, c.run.statusOf? id = some .running →
    (c.progress? id).isSome
  running : c.run.isTerminated = false → c.phase.isUnbegun = false →
    ∃ id, c.run.statusOf? id = some .running

/-- In an open run, only a report takes an invocation away. -/
theorem Sound.isSome_progress?_of_takes (h : c.Sound) (htakes : c.Takes move c')
    (hordinary : move.IsOrdinary) (hopen' : c'.run.isTerminated = false)
    (hmove : move.reports id = false) (hsome : (c.progress? id).isSome) :
    (c'.progress? id).isSome := by
  have hput {other : String} {progress : Progress} :
      ((c.put other progress).progress? id).isSome := by
    rw [progress?_put]
    split
    · rfl
    · exact hsome
  have hnot {ending : Retry.Ending Value} (houtcome : Outcome.ofEnding? ending = none)
      (hresult : ending.result ≠ .error .cancelled) : False := by
    have hending := Outcome.ofEnding?_isSome_iff.mpr hresult
    rw [houtcome] at hending
    cases hending
  cases htakes with
  | begin now hphase =>
      rw [progress?, (h.unbegun (by rw [hphase]; rfl)).2] at hsome
      cases hsome
  | enter => exact hput
  | hand => exact hput
  | finish => exact hput
  | interrupt now id incoming ending hprogress houtcome => exact (hnot houtcome hordinary).elim
  | interruptDriver now incoming ending hprogress houtcome => exact (hnot houtcome hordinary).elim
  | report now step outcome released run hprogress hcompletes =>
      have hne : id ≠ step.id := fun heq => of_decide_eq_false hmove heq.symm
      rw [progress?, h.progress?_report hprogress hcompletes, if_neg hne]
      split
      · rfl
      · exact hsome
  | breakOff other failure =>
      have hended : (c.breakOff other failure).run.isTerminated = true :=
        Run.isTerminated_finish rfl _ _ _
      rw [hended] at hopen'
      cases hopen'
  | stop => cases hordinary
  | stopDriver => cases hordinary
  | _ => exact hsome

theorem Sound.not_running_of_isUnbegun (h : c.Sound) (hphase : c.phase.isUnbegun = true) :
    c.run.statusOf? id ≠ some .running := fun hrunning =>
  (h.unbegun hphase).1.not_hasLeftIdle (.of_eq hrunning (by decide))

/-- Whatever starts to run is invoked. -/
theorem Sound.isSome_progress?_of_starts (h : c.Sound) (htakes : c.Takes move c')
    (hnot : c.run.statusOf? id ≠ some .running) (hrunning' : c'.run.statusOf? id = some .running) :
    (c'.progress? id).isSome := by
  have hsame (hmove : ∀ other, move.reports other = false) (hbegin : ∀ now, move ≠ .begin now) :
      (c'.progress? id).isSome :=
    absurd ((h.statusOf?_of_takes htakes hmove fun _ => hbegin).symm.trans hrunning') hnot
  cases htakes with
  | begin now hphase =>
      rw [h.statusOf?_begun hphase] at hrunning'
      split at hrunning'
      · rw [progress?, h.invocations_begun hphase]
        simp [Table.find?, ‹id = c.triggerId›]
      · exact absurd hrunning' hnot
  | beginLate now =>
      exact absurd (((c.run.quiet_conclude now).statusOf? id).symm.trans hrunning') hnot
  | report now step outcome released run hprogress hcompletes =>
      rw [hcompletes.statusOf? (h.running _ _ hprogress)] at hrunning'
      rw [progress?, h.progress?_report hprogress hcompletes]
      split at hrunning'
      · exact absurd (Option.some.inj hrunning') (Outcome.status_ne_running outcome)
      · split at hrunning'
        · rw [if_pos ‹_›]
          rfl
        · exact absurd hrunning' hnot
  | _ => exact hsame (fun _ => rfl) (by simp)

theorem Takes.isOpen (h : c.Takes move c') (hstored : move ≠ .store)
    (hopen' : c'.run.isTerminated = false) : c.run.isTerminated = false := by
  rcases h.verdict hstored with ⟨hstatus, -⟩ | hended
  · rwa [Run.isTerminated, ← hstatus]
  · rw [hopen'] at hended
    cases hended

theorem Lively.invoked_of_takes (h : Lively c) (hsound : c.Sound) (htakes : c.Takes move c')
    (hordinary : move.IsOrdinary) (hopen' : c'.run.isTerminated = false)
    (hrunning' : c'.run.statusOf? id = some .running) : (c'.progress? id).isSome := by
  by_cases hrunning : c.run.statusOf? id = some .running
  · have hstored : move ≠ .store := by
      rintro rfl
      have hphase := htakes.phase_of_store
      exact hsound.not_running_of_isUnbegun (by rw [hphase]; rfl) hrunning
    have hsome := h.invoked (htakes.isOpen hstored hopen') id hrunning
    refine hsound.isSome_progress?_of_takes htakes hordinary hopen' ?_ hsome
    by_contra hmove
    exact hsound.not_running_of_reports htakes (Bool.not_eq_false _ ▸ hmove) hrunning'
  · exact hsound.isSome_progress?_of_starts htakes hrunning hrunning'

theorem Lively.running_of_takes (h : Lively c) (hsound : c.Sound) (htakes : c.Takes move c')
    (hordinary : move.IsOrdinary) (hopen' : c'.run.isTerminated = false)
    (hbegun' : c'.phase.isUnbegun = false) : ∃ id, c'.run.statusOf? id = some .running := by
  have hsound' := hsound.of_takes htakes
  have hkept (hmove : ∀ other, move.reports other = false) (hbegin : ∀ now, move ≠ .begin now)
      (hstored : move ≠ .store) (hbegun : c.phase.isUnbegun = false) :
      ∃ id, c'.run.statusOf? id = some .running := by
    obtain ⟨id, hid⟩ := h.running (htakes.isOpen hstored hopen') hbegun
    exact ⟨id, (hsound.statusOf?_of_takes htakes hmove fun _ => hbegin).trans hid⟩
  -- What was running still is, unless the move begins the run or reports a step.
  cases htakes with
  | store => cases hbegun'
  | refuse => cases hbegun'
  | begin now hphase =>
      exact ⟨_, (hsound.statusOf?_begun hphase now _).trans (if_pos rfl)⟩
  | beginLate now hphase hended =>
      rw [isTerminated_conclude c.run now hended] at hopen'
      cases hopen'
  | report now step outcome released run hprogress hcompletes =>
      exact hcompletes.exists_running hsound'.run hopen'
  | leave => cases hordinary
  | stopDriver => cases hordinary
  | interruptDriver now incoming ending hprogress =>
      exact hkept (fun _ => rfl) (by simp) (by simp) (hsound.begun_of_progress hprogress)
  | conclude now hphase => exact hkept (fun _ => rfl) (by simp) (by simp) (by rw [hphase]; rfl)
  | close failure hphase => exact hkept (fun _ => rfl) (by simp) (by simp) (by rw [hphase]; rfl)
  | closeFailing failure problem hphase =>
      exact hkept (fun _ => rfl) (by simp) (by simp) (by rw [hphase]; rfl)
  | _ => exact hkept (fun _ => rfl) (by simp) (by simp) hbegun'

theorem lively_register (runId : String) (graph : Graph) (payload : Fields) (mode : FailureMode)
    (observers : List Observer) : (register runId graph payload mode observers).Lively where
  invoked := by
    intro _ id hrunning
    have hsound := sound_register runId graph payload mode observers
    exact absurd hrunning (hsound.not_running_of_isUnbegun rfl)
  running := by
    intro _ hbegun
    cases hbegun

/-- In a run that is open, whatever runs is invoked, and something runs once the run has begun. -/
theorem lively_of_play {runId : String} {graph : Graph} {payload : Fields} {mode : FailureMode}
    {observers : List Observer}
    (hplay : (register runId graph payload mode observers).play moves = some c)
    (hordinary : ∀ move ∈ moves, move.IsOrdinary) : c.Lively := by
  refine ((sound_register runId graph payload mode observers).play_induction
    (P := fun moves after => (∀ move ∈ moves, move.IsOrdinary) → after.Lively)
    (fun _ => lively_register runId graph payload mode observers) ?_ hplay).2 hordinary
  intro moves before move after _ hsound hsofar htakes hordinary
  have hlively := hsofar fun earlier hearlier =>
    hordinary earlier (List.mem_append_left _ hearlier)
  have hmove := hordinary move (List.mem_append_right _ List.mem_cons_self)
  exact ⟨fun hopen _ => hlively.invoked_of_takes hsound htakes hmove hopen,
    hlively.running_of_takes hsound htakes hmove⟩

theorem Takes.isUnstored_of_isUnstored (h : c.Takes move c')
    (hphase' : c'.phase.isUnstored = true) : c.phase.isUnstored = true := by
  cases h with
  | refuse hphase => rw [hphase]; rfl
  | _ => first
      | exact hphase'
      | cases hphase'

theorem Sound.stored_of_play (h : c.Sound) (hplay : c.play moves = some c')
    (hstored : .store ∈ moves) : c'.phase.isUnstored = false := by
  refine (h.play_induction
    (P := fun moves after => .store ∈ moves → after.phase.isUnstored = false) (by simp) ?_ hplay).2
      hstored
  intro moves before move after _ _ hsofar htakes hmem
  rcases List.mem_append.mp hmem with hearlier | hlast
  · by_contra hunstored
    have hbefore := htakes.isUnstored_of_isUnstored (Bool.not_eq_false _ ▸ hunstored)
    rw [hsofar hearlier] at hbefore
    cases hbefore
  · obtain rfl := List.mem_singleton.mp hlast
    cases htakes with
    | store => rfl

/-- An invocation that starts takes its step out of the idle ones. -/
theorem Sound.length_idleSteps_lt (h : c.Sound) (htakes : c.Takes move c')
    (hnone : c.progress? id = none) (hstarted : (c'.progress? id).isSome) :
    c'.run.idleSteps.length < c.run.idleSteps.length := by
  have hsound' := h.of_takes htakes
  have hidle := h.idle_of_starts htakes hnone hstarted
  obtain ⟨progress, hprogress⟩ := Option.isSome_iff_exists.mp hstarted
  have hrunning := hsound'.running id progress hprogress
  have hgraph := (h.advances htakes).graph
  have hnodup {run : Run} (hrun : run.Sound) : (Table.keys run.reports).Nodup := by
    rw [hrun.keys]
    exact run.graph.nodup
  rw [Run.idleSteps, Run.idleSteps, Run.stepsAt_eq (hnodup hsound'.run),
    Run.stepsAt_eq (hnodup h.run), hsound'.run.keys, h.run.keys, hgraph]
  refine length_filter_lt_of_imp (fun other _ hafter => ?_) (a := id) ?_ ?_ ?_
  · rw [Run.hasStatus_iff] at hafter ⊢
    by_contra hnot
    exact h.not_idle_of_takes htakes hnot hafter
  · exact Run.mem_ids_of_statusOf? h.run.keys hidle
  · exact Run.hasStatus_iff.mpr hidle
  · rw [Run.hasStatus_iff, hrunning]
    simp

theorem Sound.exists_follows (h : c.Sound) (behave : String → Fields → Retry.Ending Value)
    {progress : Progress} (hprogress : c.progress? id = some progress) :
    ∃ move, move.Follows behave ∧ (c.step move).isSome := by
  have hrunning := h.running id progress hprogress
  obtain ⟨step, hstep, -⟩ :=
    Graph.step?_eq_some_of_mem (Run.mem_ids_of_statusOf? h.run.keys hrunning)
  cases progress with
  | released => exact ⟨.enter id, trivial, by simp [Course.step, hprogress]⟩
  | entering incoming => exact ⟨.hand id incoming, trivial, by simp [Course.step, hprogress]⟩
  | working incoming =>
      exact ⟨.finish .origin id incoming (behave id incoming), rfl,
        by simp [Course.step, hprogress, hstep]⟩
  | leaving outcome =>
      exact ⟨.report .origin id, trivial, by simp [Course.step, hprogress, hstep]⟩

/-- Once it is stored, a run never stalls, whatever its capabilities return or fail with, whoever
cancels it, and in whatever order: while it is open, its driver has not begun it, or the invocation
of its trigger goes on, or that of a step in flight. Whatever starts an invocation leaves fewer
steps idle, so there is at most one for each step, and only so much work in all. When the
capabilities leave nothing to be done, the run has ended. -/
theorem ends_when_no_work_is_left (runId : String) (graph : Graph) (payload : Fields)
    (mode : FailureMode) (observers : List Observer) (moves : List Move) (c : Course)
    (hplay : (register runId graph payload mode observers).play moves = some c)
    (hstored : .store ∈ moves) (hordinary : ∀ move ∈ moves, move.IsOrdinary) :
    (c.run.isTerminated = false → c.phase = .waiting ∨ (c.progress? graph.trigger.id).isSome ∨
      ∃ id ∈ c.run.inFlight, (c.progress? id).isSome) ∧
    (∀ move c' id, c.step move = some c' → c.progress? id = none → (c'.progress? id).isSome →
      c'.run.idleSteps.length < c.run.idleSteps.length) ∧
    (∀ id, moves.countP (Move.hands id) ≤ 1 ∧ (0 < moves.countP (Move.hands id) → id ∈ graph.ids)) ∧
    moves.countP Move.isWork ≤ 5 * graph.ids.length + 1 ∧
    ∀ behave, (∀ move, move.Follows behave → c.step move = none) → c.run.isTerminated = true := by
  have hstart := sound_register runId graph payload mode observers
  have hsound := (hstart.play hplay).1
  have hlively := lively_of_play hplay hordinary
  have hrecorded := recorded_of_play hplay
  have hwork := hstart.countP_isWork_add_workLeft_le hplay
  have hbound := (register runId graph payload mode observers).workLeft_le
  obtain rfl := graph_of_play hplay
  have hgoes (hopen : c.run.isTerminated = false) : c.phase = .waiting ∨
      (c.progress? c.triggerId).isSome ∨ ∃ id ∈ c.run.inFlight, (c.progress? id).isSome := by
    by_cases hphase : c.phase.isUnbegun = true
    · have hafter := hstart.stored_of_play hplay hstored
      left
      cases hphase' : c.phase <;> simp_all [Phase.isUnbegun, Phase.isUnstored]
    · obtain ⟨id, hrunning⟩ := hlively.running hopen (Bool.not_eq_true _ ▸ hphase)
      have hsome := hlively.invoked hopen id hrunning
      by_cases htrigger : id = c.triggerId
      · exact Or.inr (Or.inl (htrigger ▸ hsome))
      · refine Or.inr (Or.inr ⟨id, (hrecorded.inFlight id).mpr
          ⟨hrunning, htrigger, fun failure hbroken => ?_⟩, hsome⟩)
        -- What the repository has broken off is through, and has no invocation any more.
        obtain ⟨progress, hprogress⟩ := Option.isSome_iff_exists.mp hsome
        have hstage := hrecorded.brokenOff id failure hbroken
        rw [stage_of_progress? hprogress] at hstage
        exact progress.rank_lt.ne hstage
  refine ⟨hgoes, fun move c' id hstep => hsound.length_idleSteps_lt (hsound.takes hstep),
    fun id => ⟨hstart.countP_hands_le_one hplay id, fun hpos => ?_⟩, ?_, fun behave hnone => ?_⟩
  · obtain ⟨move, hmem, hhands⟩ := List.countP_pos_iff.mp hpos
    obtain ⟨incoming, rfl⟩ := Move.exists_eq_hand hhands
    obtain ⟨status, hstatus, -⟩ := (hstart.incoming_of_hand hplay hmem).1
    exact Run.mem_ids_of_statusOf? hsound.run.keys hstatus
  · exact (Nat.le_add_right _ _).trans (hwork.trans hbound)
  · by_contra hopen
    have hstuck {id : String} (hsome : (c.progress? id).isSome) : False := by
      obtain ⟨progress, hprogress⟩ := Option.isSome_iff_exists.mp hsome
      obtain ⟨move, hfollows, hstep⟩ := hsound.exists_follows behave hprogress
      rw [hnone move hfollows] at hstep
      cases hstep
    rcases hgoes (Bool.not_eq_true _ ▸ hopen) with hwaiting | htrigger | ⟨id, -, hsome⟩
    · have hbegin := hnone (.begin .origin) trivial
      rw [step, hwaiting] at hbegin
      cases hbegin
    · exact hstuck htrigger
    · exact hstuck hsome

/-- The left step has completed, and the right one has not been handed to the dispatcher yet. -/
def unfinishedMoves : List Move :=
  .store :: .begin .origin :: invocation "start" [] ⟨.ok .null, 1⟩ ++
    .enter "left" :: invocation "left" [] ⟨.ok .null, 1⟩ ++ [.enter "right"]

theorem isSome_play_unfinishedMoves :
    ((register "run" diamond [] .failFast []).play unfinishedMoves).isSome := by decide +kernel

def unfinished : Course :=
  ((register "run" diamond [] .failFast []).play unfinishedMoves).get isSome_play_unfinishedMoves

theorem unfinished_run_goes_on :
    (∀ move ∈ unfinishedMoves, move.IsOrdinary) ∧ unfinished.run.isTerminated = false ∧
    unfinished.phase ≠ .waiting ∧ unfinished.progress? "start" = none ∧
    (∃ id ∈ unfinished.run.inFlight, (unfinished.progress? id).isSome) ∧
    ∀ behave, ∃ move, move.Follows behave ∧ (unfinished.step move).isSome := by
  have hplay : (register "run" diamond [] .failFast []).play unfinishedMoves = some unfinished :=
    (Option.some_get _).symm
  have hstored : .store ∈ unfinishedMoves := by simp [unfinishedMoves]
  have hordinary : ∀ move ∈ unfinishedMoves, move.IsOrdinary := by
    simp [unfinishedMoves, invocation, Move.IsOrdinary]
  have hopen : unfinished.run.isTerminated = false := by decide +kernel
  have hdriving : unfinished.phase ≠ .waiting := by decide +kernel
  have hthrough : unfinished.progress? "start" = none := by
    rw [← Option.isNone_iff_eq_none]
    decide +kernel
  obtain ⟨hgoes, -, -, -, hended⟩ :=
    ends_when_no_work_is_left _ _ _ _ _ _ _ hplay hstored hordinary
  refine ⟨hordinary, hopen, hdriving, hthrough, ?_, fun behave => ?_⟩
  · rcases hgoes hopen with hwaiting | htrigger | hinFlight
    · exact absurd hwaiting hdriving
    · have hnot : (unfinished.progress? diamond.trigger.id).isSome = false := by decide +kernel
      rw [hnot] at htrigger
      cases htrigger
    · exact hinFlight
  · by_contra hnone
    have hterminated := hended behave fun move hfollows => by
      by_contra hstep
      exact hnone ⟨move, hfollows, Option.isSome_iff_ne_none.mpr hstep⟩
    rw [hopen] at hterminated
    cases hterminated

end Course

end Workflow
