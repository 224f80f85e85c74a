import Workflow.Proofs.Course.DataFlow
import Workflow.Proofs.Course.Stage
import Workflow.Proofs.Run.Settling

/-!
# What a run records of its steps

A run keeps the reports of its steps, and beside them the results, the processed steps, those held
back and those in flight. Whenever no change of the run is under way, these agree with each other:
whoever reads one of them knows what the others hold.
-/

namespace Workflow

namespace Course

variable {c c' : Course} {move : Move} {moves : List Move} {id : String}

theorem inFlight_stopDriving (c : Course) (now : Moment) :
    (c.stopDriving now).run.inFlight = c.run.inFlight := by
  obtain ⟨log, hlog⟩ := c.run.abandon.exists_conclude_eq now
  rw [stopDriving, hlog]
  exact Run.inFlight_finish _ _ _ _

/-- Only reports change what is in flight, and the repository when it fails. -/
theorem Takes.mem_inFlight_iff (h : c.Takes move c') (hmove : ∀ id, move.reports id = false) :
    id ∈ c'.run.inFlight ↔ id ∈ c.run.inFlight ∧ ∀ failure, move ≠ .breakOff id failure := by
  have hsame (heq : c'.run.inFlight = c.run.inFlight)
      (hne : ∀ other failure, move ≠ .breakOff other failure) :
      id ∈ c'.run.inFlight ↔ id ∈ c.run.inFlight ∧ ∀ failure, move ≠ .breakOff id failure := by
    rw [heq]
    exact iff_self_and.mpr fun _ failure => hne id failure
  cases h with
  | breakOff other failure =>
      have heq : (c.breakOff other failure).run.inFlight = c.run.inFlight.filter (· ≠ other) :=
        Run.inFlight_finish _ _ _ _
      rw [heq, List.mem_filter, decide_eq_true_iff]
      refine and_congr_right fun _ => ⟨fun hne failure' hsame => ?_, fun hnot => ?_⟩
      · exact hne (Move.breakOff.inj hsame).1.symm
      · rintro rfl
        exact hnot failure rfl
  | report now step => exact absurd (hmove step.id) (by simp [Move.reports])
  | cancel now reason =>
      refine hsame ?_ (by simp)
      unfold Run.cancel
      split
      · rfl
      · exact Run.inFlight_finish _ _ _ _
  | begin now =>
      refine hsame ?_ (by simp)
      obtain ⟨log, hlog⟩ := c.run.exists_introduce_eq now
      rw [begun, hlog]
      rfl
  | beginLate now =>
      refine hsame ?_ (by simp)
      obtain ⟨log, hlog⟩ := c.run.exists_conclude_eq now
      rw [hlog]
  | conclude now =>
      refine hsame ?_ (by simp)
      obtain ⟨log, hlog⟩ := c.run.exists_conclude_eq now
      rw [hlog]
  | interruptDriver now => exact hsame (c.inFlight_stopDriving now) (by simp)
  | stopDriver now => exact hsame (c.inFlight_stopDriving now) (by simp)
  | _ => exact hsame rfl (by simp)

/-- Only reports move steps, and the beginning moves the trigger. -/
theorem Sound.statusOf?_of_takes (h : c.Sound) (htakes : c.Takes move c')
    (hmove : ∀ other, move.reports other = false)
    (hbegin : id = c.triggerId → ∀ now, move ≠ .begin now) :
    c'.run.statusOf? id = c.run.statusOf? id := by
  have haffects := htakes.affects
  generalize c'.run = run at haffects ⊢
  cases haffects with
  | stored => rfl
  | quiet hquiet => exact hquiet.statusOf? id
  | begun now hphase =>
      exact (h.statusOf?_begun hphase now id).trans
        (if_neg fun htrigger => hbegin htrigger now rfl)
  | completed now step => exact absurd (hmove step.id) (by simp [Move.reports])

/-- What the reports of the steps say about the processed steps and those in flight. -/
structure Recorded (moves : List Move) (c : Course) : Prop where
  processed : c.run.isTerminated = false → ∀ id status, c.run.statusOf? id = some status →
    status.isTerminal = true → id ∈ c.run.processed
  inFlight : ∀ id, id ∈ c.run.inFlight ↔ c.run.statusOf? id = some .running ∧
    id ≠ c.triggerId ∧ ∀ failure, .breakOff id failure ∉ moves
  brokenOff : ∀ id failure, .breakOff id failure ∈ moves → c.stage id = 5

theorem recorded_register (runId : String) (graph : Graph) (payload : Fields) (mode : FailureMode)
    (observers : List Observer) :
    Recorded [] (register runId graph payload mode observers) where
  processed := by
    intro _ id status hstatus hterminal
    have hfresh := Run.fresh_create runId graph payload mode observers
    refine absurd (.of_eq hstatus ?_) hfresh.not_hasLeftIdle
    rintro rfl
    cases hterminal
  inFlight := by
    intro id
    have hfresh := Run.fresh_create runId graph payload mode observers
    refine iff_of_false List.not_mem_nil fun hrunning => ?_
    exact hfresh.not_hasLeftIdle (.of_eq hrunning.1 (by decide))
  brokenOff := by simp

theorem Recorded.processed_of_takes (h : Recorded moves c) (hsound : c.Sound)
    (htakes : c.Takes move c') (hopen' : c'.run.isTerminated = false) {status : StepStatus}
    (hstatus : c'.run.statusOf? id = some status) (hterminal : status.isTerminal = true) :
    id ∈ c'.run.processed := by
  have hne : status ≠ .idle := by
    rintro rfl
    cases hterminal
  have haffects := htakes.affects
  generalize c'.run = run at haffects hopen' hstatus ⊢
  cases haffects with
  | stored hphase =>
      have hfresh := (hsound.unbegun (by rw [hphase]; rfl)).1
      exact absurd (.of_eq hstatus hne) hfresh.stored.not_hasLeftIdle
  | quiet hquiet =>
      rw [hquiet.statusOf?] at hstatus
      rw [hquiet.processed]
      exact h.processed (hquiet.isOpen hopen') id status hstatus hterminal
  | begun now hphase =>
      have hbefore := (hsound.statusOf?_begun hphase now id).symm.trans hstatus
      split at hbefore
      · rw [← Option.some.inj hbefore] at hterminal
        cases hterminal
      · have hfresh := (hsound.unbegun (by rw [hphase]; rfl)).1
        exact absurd (.of_eq hbefore hne) hfresh.not_hasLeftIdle
  | completed now step outcome released _ hprogress hcompletes =>
      have hopen := hcompletes.isOpen hopen'
      rw [hcompletes.statusOf? (hsound.running _ _ hprogress)] at hstatus
      rw [hcompletes.mem_processed hopen]
      split at hstatus
      · exact Or.inr ‹_›
      · split at hstatus
        · rw [← Option.some.inj hstatus] at hterminal
          cases hterminal
        · exact Or.inl (h.processed hopen id status hstatus hterminal)

theorem forall_breakOff_notMem_append :
    (∀ failure, .breakOff id failure ∉ moves ++ [move]) ↔
      (∀ failure, .breakOff id failure ∉ moves) ∧ ∀ failure, move ≠ .breakOff id failure := by
  rw [← forall_and]
  refine forall_congr' fun failure => ?_
  rw [List.mem_append, List.mem_singleton, not_or, eq_comm]

theorem Recorded.inFlight_of_takes (h : Recorded moves c) (hsound : c.Sound)
    (htakes : c.Takes move c') :
    id ∈ c'.run.inFlight ↔ c'.run.statusOf? id = some .running ∧ id ≠ c'.triggerId ∧
      ∀ failure, .breakOff id failure ∉ moves ++ [move] := by
  have htrigger : c'.triggerId = c.triggerId :=
    congrArg (·.trigger.id) (hsound.advances htakes).graph
  rw [forall_breakOff_notMem_append, htrigger]
  by_cases hmove : ∀ other, move.reports other = false
  · rw [htakes.mem_inFlight_iff hmove, h.inFlight]
    by_cases heq : id = c.triggerId
    · simp [heq]
    · simp only [hsound.statusOf?_of_takes htakes hmove fun htrigger => absurd htrigger heq,
        and_assoc]
  have hsound' := hsound.of_takes htakes
  -- A report takes its step out of what is in flight, and puts in what it releases.
  cases htakes with
  | report now step outcome released run hprogress hcompletes =>
      have hrunning := hsound.running _ _ hprogress
      have hinFlight : id ∈ run.inFlight ↔
          (id ∈ c.run.inFlight ∧ id ≠ step.id) ∨ id ∈ released := by
        rw [hcompletes.inFlight, List.mem_append, List.mem_filter, decide_eq_true_iff]
      rw [hinFlight, h.inFlight, hcompletes.statusOf? hrunning]
      by_cases hmem : id ∈ released
      · obtain ⟨hne, hidle⟩ := hcompletes.idle_of_mem_released hrunning hmem
        have hother := (hsound'.run.inFlight id (hinFlight.mpr (Or.inr hmem))).1
        rw [if_neg hne, if_pos hmem]
        refine iff_of_true (Or.inr hmem)
          ⟨rfl, htrigger ▸ hother, fun failure hbroken => ?_, by simp⟩
        have hstage := h.brokenOff id failure hbroken
        rw [hsound.stage_eq_zero_iff.mpr hidle] at hstage
        cases hstage
      · by_cases heq : id = step.id
        · simp [heq, heq ▸ hmem, Outcome.status_ne_running]
        · simp [heq, hmem]
  | _ => exact (hmove fun _ => rfl).elim

theorem Recorded.of_takes (h : Recorded moves c) (hsound : c.Sound) (htakes : c.Takes move c') :
    Recorded (moves ++ [move]) c' where
  processed := fun hopen _ _ => h.processed_of_takes hsound htakes hopen
  inFlight := fun _ => h.inFlight_of_takes hsound htakes
  brokenOff := by
    intro id failure hbroken
    rcases List.mem_append.mp hbroken with hbefore | hlast
    · exact (c'.stage_le id).antisymm
        (h.brokenOff id failure hbefore ▸ hsound.stage_le_of_takes htakes id)
    · obtain rfl := List.mem_singleton.mp hlast
      exact hsound.stage_of_breakOff htakes

theorem recorded_of_play {runId : String} {graph : Graph} {payload : Fields} {mode : FailureMode}
    {observers : List Observer}
    (hplay : (register runId graph payload mode observers).play moves = some c) :
    Recorded moves c :=
  ((sound_register runId graph payload mode observers).play_induction
    (recorded_register runId graph payload mode observers)
    (fun _ _ _ _ _ hsound hsofar htakes => hsofar.of_takes hsound htakes) hplay).2

/-- Whenever no change of a run is under way, what it holds of its steps agrees: the results are
those of the processed steps that have completed; what is processed has completed or failed, and in
an open run nothing else has; in flight is what runs, except for the trigger and for what the
repository has broken off; and what is held back is what the failed steps lead to, unless the run
fails fast. -/
theorem records_agree (runId : String) (graph : Graph) (payload : Fields) (mode : FailureMode)
    (observers : List Observer) (moves : List Move) (c : Course)
    (hplay : (register runId graph payload mode observers).play moves = some c) :
    (∀ id, id ∈ Table.keys c.run.results ↔
      id ∈ c.run.processed ∧ c.run.statusOf? id = some .completed) ∧
    (∀ id result, Table.find? c.run.results id = some result →
      ∃ report, c.run.report? id = some report ∧ report.result = result) ∧
    (∀ id ∈ c.run.processed,
      c.run.statusOf? id = some .completed ∨ c.run.statusOf? id = some .failed) ∧
    (∀ id, c.run.statusOf? id = some .completed ∨ c.run.statusOf? id = some .failed →
      id ∉ c.run.processed → c.run.isTerminated = true) ∧
    (∀ id, id ∈ c.run.inFlight ↔ c.run.statusOf? id = some .running ∧ id ≠ graph.trigger.id ∧
      ∀ failure, .breakOff id failure ∉ moves) ∧
    (mode = .failFast → c.run.blocked = []) ∧
    (mode = .proceed → ∀ id, id ∈ c.run.blocked ↔ ∃ failed ∈ c.run.processed,
      c.run.statusOf? failed = some .failed ∧ id ∈ graph.descendants failed) ∧
    ∀ id ∈ c.run.blocked, c.run.statusOf? id = some .idle := by
  obtain ⟨hsound, hadvances⟩ := (sound_register runId graph payload mode observers).play hplay
  have hrecorded := recorded_of_play hplay
  have hcoherent := hsound.run.toCoherent
  have hmode : c.run.failureMode = mode := hadvances.failureMode
  obtain rfl := graph_of_play hplay
  refine ⟨fun id => ?_, fun id result hfind => ?_, hcoherent.ended, fun id hstatus hnot => ?_,
    hrecorded.inFlight, fun hfast => ?_, fun hproceed id => ?_,
    fun _ => hcoherent.idle_of_mem_blocked⟩
  · rw [← Table.find?_isSome_iff, Option.isSome_iff_exists, Run.statusOf?_eq_some_iff]
    simp [hcoherent.committed]
  · obtain ⟨-, report, hreport, -, hresult⟩ := (hcoherent.committed id result).mp hfind
    exact ⟨report, hreport, hresult⟩
  · by_contra hopen
    refine hnot (hstatus.elim ?_ ?_) <;>
      exact fun hstatus => hrecorded.processed (Bool.not_eq_true _ ▸ hopen) id _ hstatus rfl
  · rw [List.eq_nil_iff_forall_not_mem]
    intro id hblocked
    have hproceed := ((hcoherent.heldBack id).mp hblocked).1
    rw [hmode, hfast] at hproceed
    cases hproceed
  · rw [hcoherent.heldBack, hmode]
    simp only [hproceed, true_and, Graph.mem_descendants_iff]

/-- What a step comes to, once its invocation has an outcome. -/
def Progress.outcomeStatus? : Progress → Option StepStatus
  | .leaving outcome => some outcome.status
  | _ => none

/-- The left step is about to be reported as failed, and the right one is with the dispatcher. -/
def failingMoves : List Move :=
  .store :: .begin .origin :: invocation "start" [] ⟨.ok .null, 1⟩ ++
    [.enter "left", .enter "right", .hand "right" [], .hand "left" [],
      .finish .origin "left" [] ⟨.error (.wrongValue "no"), 3⟩]

theorem isSome_play_failingMoves :
    ((register "run" diamond [] .proceed []).play failingMoves).isSome := by decide +kernel

def failing : Course :=
  ((register "run" diamond [] .proceed []).play failingMoves).get isSome_play_failingMoves

theorem isSome_step_failing : (failing.step (.report .origin "left")).isSome := by decide +kernel

theorem failed_step_holds_back : ∃ c,
    (register "run" diamond [] .proceed []).play (failingMoves ++ [.report .origin "left"]) =
      some c ∧
    "left" ∈ c.run.processed ∧ "left" ∉ Table.keys c.run.results ∧ "join" ∈ c.run.blocked ∧
    "right" ∈ c.run.inFlight := by
  have hplay : (register "run" diamond [] .proceed []).play failingMoves = some failing :=
    (Option.some_get _).symm
  obtain ⟨c, hstep⟩ := Option.isSome_iff_exists.mp isSome_step_failing
  have hsound := ((sound_register "run" diamond [] .proceed []).play hplay).1
  obtain ⟨step, outcome, released, hid, hprogress, hrunning, hcompletes⟩ :=
    hsound.completes_of_report hstep
  have hafter : (register "run" diamond [] .proceed []).play
      (failingMoves ++ [.report .origin "left"]) = some c := by
    rw [play_append, hplay, Option.bind_some, play, hstep]
    rfl
  obtain ⟨hkeys, -, -, -, hinFlight, -, hblocked, -⟩ := records_agree _ _ _ _ _ _ _ hafter
  have hfailed : (failing.progress? "left").bind Progress.outcomeStatus? = some .failed := by
    decide +kernel
  rw [hprogress, Option.bind_some] at hfailed
  have hstatus := hcompletes.statusOf? (hid.symm ▸ hrunning)
  have hleft : c.run.statusOf? "left" = some .failed := by
    rw [hstatus, hid, if_pos rfl]
    exact hfailed
  have hright : c.run.statusOf? "right" = some .running := by
    have hbefore : failing.run.statusOf? "right" = some .running := by decide +kernel
    rw [hstatus, hid, if_neg (by decide), hbefore, ite_self]
  have hprocessed : "left" ∈ c.run.processed :=
    (hcompletes.mem_processed (by decide +kernel)).mpr (Or.inr hid.symm)
  refine ⟨c, hafter, hprocessed, fun hmem => ?_, ?_, ?_⟩
  · have hcompleted := ((hkeys "left").mp hmem).2
    rw [hleft] at hcompleted
    cases hcompleted
  · have hleads : "join" ∈ diamond.children "left" := by decide
    exact (hblocked rfl "join").mpr
      ⟨"left", hprocessed, hleft, Graph.mem_descendants_iff.mpr (.single hleads)⟩
  · refine (hinFlight "right").mpr ⟨hright, by decide, fun failure hbroken => ?_⟩
    simp [failingMoves, invocation] at hbroken

end Course

end Workflow
