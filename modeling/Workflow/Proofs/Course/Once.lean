import Workflow.Proofs.Course.DataFlow
import Workflow.Proofs.Course.Stage

/-!
# What happens at most once

A step is handed to the dispatcher once and reported once. Nobody else commits its result, and
nothing that has been reported or committed changes afterwards. So whoever marks a step finds it
where it has to be, and no change of a run ever fails.
-/

namespace Workflow

namespace Course

variable {c c' : Course} {move : Move} {moves : List Move} {id : String}

/-- The report on a step whose invocation has ended is not written again. -/
theorem Sound.report?_of_takes (h : c.Sound) (htakes : c.Takes move c') {report : StepReport}
    (hreport : c.run.report? id = some report) (hterminal : report.status.isTerminal = true) :
    c'.run.report? id = some report := by
  have hstatus : c.run.statusOf? id = some report.status :=
    Run.statusOf?_eq_some_iff.mpr ⟨report, hreport, rfl⟩
  have hne {status : StepStatus} (hother : c.run.statusOf? id = some status)
      (hopen : status.isTerminal = false) : False := by
    rw [hstatus] at hother
    rw [Option.some.inj hother, hopen] at hterminal
    cases hterminal
  have haffects := htakes.affects
  generalize c'.run = run at haffects ⊢
  cases haffects with
  | stored => exact hreport
  | quiet hquiet => exact (hquiet.report? id).trans hreport
  | begun now hphase hopen =>
      have hfresh := (h.unbegun (by rw [hphase]; rfl)).1
      exact (hfresh.not_hasLeftIdle (.of_eq hstatus fun hidle => hne (hidle ▸ hstatus) rfl)).elim
  | completed now step outcome released _ hprogress hcompletes =>
      have hrunning := h.running _ _ hprogress
      rw [hcompletes.report?, if_neg, Run.report?_closed_of_ne]
      · exact hreport
      · rintro rfl
        exact hne hrunning rfl
      · exact fun hmem => hne (hcompletes.idle_of_mem_released hrunning hmem).2 rfl

theorem Sound.report?_of_play (h : c.Sound) (hplay : c.play moves = some c') {report : StepReport}
    (hreport : c.run.report? id = some report) (hterminal : report.status.isTerminal = true) :
    c'.run.report? id = some report :=
  (h.play_induction (P := fun _ after => after.run.report? id = some report) hreport
    (fun _ _ _ _ _ hsound hsofar htakes => hsound.report?_of_takes htakes hsofar hterminal)
    hplay).2

/-- What a run holds of a step changes only when the step is reported. -/
theorem Takes.reports_of_find?_results_ne (h : c.Takes move c')
    (hne : Table.find? c'.run.results id ≠ Table.find? c.run.results id) :
    move.reports id = true := by
  have haffects := h.affects
  generalize c'.run = run at haffects hne
  cases haffects with
  | stored => exact absurd rfl hne
  | quiet hquiet =>
      rw [hquiet.results] at hne
      exact absurd rfl hne
  | begun now =>
      have hresults : ((c.run.introduce now).begun now).results = c.run.results :=
        (c.run.quiet_introduce now).results
      rw [hresults] at hne
      exact absurd rfl hne
  | completed now step outcome released _ hprogress hcompletes =>
      refine decide_eq_true ?_
      by_contra hother
      exact hne (hcompletes.find?_results_of_ne (Ne.symm hother))

/-- The driver never fails to begin a run. -/
theorem Sound.begin_run (h : c.Sound) (hphase : c.phase = .waiting) (now : Moment) :
    ∃ isOpen run, (Change.begin now).run c.run = .ok isOpen run := by
  by_cases hended : c.run.isTerminated
  · exact ⟨_, _, Change.begin_run_terminated hended⟩
  · have hfresh := (h.unbegun (by rw [hphase]; rfl)).1
    exact ⟨_, _, hfresh.begin_run (Bool.not_eq_true _ ▸ hended) now⟩

/-- Of all steps, however often edges lead to them, each is handed to the dispatcher at most once
and reported at most once. Its report is final as soon as its invocation has ended, only that report
commits its result, and what is committed stays. No step is told to run that has left the idle
status, and no result is committed that has been committed before: neither the beginning of a run
nor the completion of a step ever fails. -/
theorem invoked_and_committed_at_most_once (runId : String) (graph : Graph) (payload : Fields)
    (mode : FailureMode) (observers : List Observer) (moves : List Move) (c : Course)
    (hplay : (register runId graph payload mode observers).play moves = some c) :
    (∀ id, moves.countP (Move.hands id) ≤ 1) ∧
    (∀ id, moves.countP (Move.reports id) ≤ 1) ∧
    (∀ move c' id, c.step move = some c' →
      Table.find? c'.run.results id ≠ Table.find? c.run.results id →
        move.reports id = true ∧ Table.find? c.run.results id = none) ∧
    (∀ later c', c.play later = some c' →
      (∀ id result, Table.find? c.run.results id = some result →
        Table.find? c'.run.results id = some result) ∧
      ∀ id report, c.run.report? id = some report → report.status.isTerminal = true →
        c'.run.report? id = some report) ∧
    (c.phase = .waiting → ∀ now failure run,
      (Change.begin now).run c.run ≠ .error failure run) ∧
    ∀ now step outcome failure run, c.progress? step.id = some (.leaving outcome) →
      (Change.complete now step outcome).run c.run ≠ .error failure run := by
  have hstart := sound_register runId graph payload mode observers
  have hsound := (hstart.play hplay).1
  refine ⟨hstart.countP_hands_le_one hplay, hstart.countP_reports_le_one hplay,
    fun move c' id hstep hne => ?_, fun later c' hlater => ⟨?_, ?_⟩,
    fun hphase now failure run => ?_, fun now step outcome failure run hprogress => ?_⟩
  · have htakes := hsound.takes hstep
    refine ⟨htakes.reports_of_find?_results_ne hne, ?_⟩
    by_contra hsome
    obtain ⟨result, hresult⟩ := Option.ne_none_iff_exists'.mp hsome
    exact hne (((hsound.advances htakes).results id result hresult).trans hresult.symm)
  · exact (hsound.play hlater).2.results
  · exact fun id report => hsound.report?_of_play hlater
  · obtain ⟨isOpen, run', hbegin⟩ := hsound.begin_run hphase now
    rw [hbegin]
    simp
  · have hpending := hsound.stored (hsound.stored_of_progress hprogress)
    obtain ⟨released, run', hcomplete, -⟩ :=
      hsound.run.complete_run hpending (hsound.running _ _ hprogress) now outcome
    rw [hcomplete]
    simp

/-- An edge leads to the trigger, and two edges join the same steps. -/
def tangled : Graph where
  definition :=
    { steps :=
        [⟨"before", none, none, .wait none⟩, ⟨"start", none, none, .trigger⟩,
          ⟨"next", none, none, .wait none⟩]
      edges := [⟨"before", "start"⟩, ⟨"start", "next"⟩, ⟨"start", "next"⟩] }
  trigger := ⟨"start", none, none, .trigger⟩
  nodup := by decide
  sound := by decide
  acyclic := by decide +kernel
  triggers_eq := by decide

/-- The last step is about to be reported. -/
def tangledMoves : List Move :=
  .store :: .begin .origin :: invocation "start" [] ⟨.ok .null, 1⟩ ++
    [.enter "next", .hand "next" [], .finish .origin "next" [] ⟨.ok (.int 7), 1⟩]

theorem isSome_play_tangledMoves :
    ((register "run" tangled [] .proceed []).play tangledMoves).isSome := by decide +kernel

def tangledCourse : Course :=
  ((register "run" tangled [] .proceed []).play tangledMoves).get isSome_play_tangledMoves

theorem tangled_steps_once :
    (register "run" tangled [] .proceed []).play tangledMoves = some tangledCourse ∧
    (∀ id, tangledMoves.countP (Move.hands id) ≤ 1) ∧
    tangledMoves.countP (Move.hands "next") = 1 ∧
    tangledCourse.run.statusOf? "before" = some .idle ∧
    ∃ c, tangledCourse.step (.report .origin "next") = some c ∧
      Table.find? tangledCourse.run.results "next" = none ∧
      Table.find? c.run.results "next" = some (.int 7) ∧
      ∀ now step failure run, step.id = "next" →
        (Change.complete now step ⟨.ok (.int 7), 1⟩).run tangledCourse.run ≠
          .error failure run := by
  have hplay : (register "run" tangled [] .proceed []).play tangledMoves = some tangledCourse :=
    (Option.some_get _).symm
  obtain ⟨hhands, -, hcommits, -, -, hcomplete⟩ :=
    invoked_and_committed_at_most_once "run" tangled [] .proceed [] tangledMoves tangledCourse hplay
  have hstep : (tangledCourse.step (.report .origin "next")).isSome := by decide +kernel
  obtain ⟨c, hc⟩ := Option.isSome_iff_exists.mp hstep
  have hnext : (tangledCourse.step (.report .origin "next")).map
      (fun c => Table.find? c.run.results "next") = some (some (.int 7)) := by decide +kernel
  rw [hc, Option.map_some, Option.some.injEq] at hnext
  have hfree : Table.find? tangledCourse.run.results "next" = none :=
    (hcommits _ c "next" hc (by rw [hnext]; decide +kernel)).2
  refine ⟨hplay, hhands, by decide, by decide +kernel, c, hc, hfree, hnext, ?_⟩
  rintro now step failure run hid
  refine hcomplete now step _ failure run ?_
  rw [hid]
  rfl

end Course

end Workflow
