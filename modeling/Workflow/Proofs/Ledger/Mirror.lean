import Workflow.Proofs.Ledger.Recording

/-!
# The record of a run that is over

When a run is closed and nothing goes on any more, its repository tells how it has ended, and of
each step how its invocation has ended. Only a step that is lost runs for ever in its report, and no
record says so.
-/

namespace Workflow

/-! ### What it is to mirror a run -/

/-- The record of a step says what the report says. A failure without a text has the text of all
such failures in the report. -/
structure StepRecord.Mirrors (step : StepRecord) (report : StepReport) : Prop where
  status : step.status = some report.status.name
  completed : report.status = .completed →
    step.output = some (.record [("result", report.result)])
  failed : report.status = .failed → step.output = some (.map [])
  error : report.error = step.error.map fun text => if text = "" then "Step failed" else text

/-- A step that has left the idle status has one record, and it says what the report says; any other
step has none. -/
structure RunRecord.MirrorsStep (record : RunRecord) (run : Run) (id : String) : Prop where
  left : run.HasLeftIdle id → ∃ step report, record.stepsOf id = [step] ∧
    run.report? id = some report ∧ step.Mirrors report
  idle : ¬ run.HasLeftIdle id → record.stepsOf id = []

theorem StepRecord.IsClosedBy.mirrors {step : StepRecord} {outcome : Outcome}
    (h : step.IsClosedBy outcome.closing) {report : StepReport} (hopen : report.error = none)
    (now : Moment) : step.Mirrors (report.closedBy now outcome) where
  status := by rw [h.status, outcome.status_closing, StepReport.status_closedBy]
  completed := by
    rw [h.output]
    unfold StepReport.closedBy Outcome.closing
    cases outcome.result with
    | ok value => exact fun _ => rfl
    | error e => exact nofun
  failed := by
    rw [h.output]
    unfold StepReport.closedBy Outcome.closing
    cases outcome.result with
    | ok value => exact nofun
    | error e => exact fun _ => rfl
  error := by
    rw [h.error]
    unfold StepReport.closedBy Outcome.closing
    cases outcome.result with
    | ok value => exact hopen
    | error e => rfl

namespace Ledger

/-- When a run is closed, its invocations are over and its repository has done its work, the
repository has its record. The record tells how the run has ended, and it mirrors the steps, each
but those that are lost. -/
theorem mirrors_iff_not_lost (repository : Repository) (runId : String) (graph : Graph)
    (payload : Fields) (mode : FailureMode) (observers : List Observer) (acts : List Act)
    (l : Ledger) (hunknown : repository.IsUnknown runId)
    (hplay : (register repository runId graph payload mode observers).play acts = some l)
    (hregular : ∀ act ∈ acts, act.isRegular = true)
    (hrace : ¬ Course.StoredAfterCancel (Act.moves acts))
    (hclosed : .close none ∈ Act.moves acts) (hthrough : l.course.invocations = []) :
    ∃ record, l.repository.run? runId = .ok (some record) ∧ record.Tells l.course.run ∧
      ∀ id, record.MirrorsStep l.course.run id ↔
        ¬ Course.Lost (.register runId graph payload mode observers) (Act.moves acts) id := by
  have hstart := Course.sound_register runId graph payload mode observers
  have hcourse := course_of_play hplay
  have hid : l.course.run.id = runId := (hstart.play hcourse).2.id
  have htracked := Course.tracked_of_play hcourse
  have hnone (id : String) : l.course.progress? id = none := by
    rw [Course.progress?, hthrough]
    rfl
  rcases recorded_of_play hunknown hplay hregular hrace with hearly | ⟨record, hrecorded⟩
  · exact absurd hclosed hearly.unclosed
  refine ⟨record, hid ▸ hrecorded.run, hrecorded.closed hclosed, fun id => ?_⟩
  obtain ⟨filing, hfiles, hsuits⟩ := hrecorded.steps id
  constructor
  · -- A lost step runs for ever in its report, and no record says that its step is running.
    intro hmirrors hlost
    have hrunning := (htracked.running_iff id).mpr (Or.inr hlost)
    obtain ⟨step, report, hstep, hreport, hsame⟩ := hmirrors.left (.of_eq hrunning (by decide))
    rw [Run.statusOf?, hreport, Option.map_some, Option.some.injEq] at hrunning
    refine hfiles.keeps.status_ne (hstep ▸ List.mem_singleton_self step) ?_
    rw [hsame.status, hrunning]
  · -- No invocation is left, so a step that is not lost is idle, or reported after its record.
    intro hkept
    have hsuits := hsuits.resolve_right hkept
    rw [Filing.Suits, hnone id] at hsuits
    rcases hsuits with ⟨rfl, hidle⟩ | ⟨outcome, now, report, rfl, herror, hreport⟩
    · exact ⟨fun hleft => absurd hleft hidle, fun _ => hfiles.keeps⟩
    · obtain ⟨step, hstep, hclosedBy⟩ := hfiles.keeps
      refine ⟨fun _ => ⟨step, _, hstep, hreport, hclosedBy.mirrors herror now⟩, fun hidle => ?_⟩
      refine absurd (.of_eq (Run.statusOf?_eq_some_iff.mpr ⟨_, hreport, rfl⟩) ?_) hidle
      rw [StepReport.status_closedBy]
      exact outcome.status_ne_idle

/-! ### Two ways to the end -/

/-- The acts of an invocation, from the first write about its step to its report. -/
def invocation (id : String) (ending : Retry.Ending Value) (closing : StepClosing) : List Act :=
  [.write .origin (.startStep "run" id), .move (.hand id []),
    .move (.finish .origin id [] ending), .write .origin (.closeStep "run" id closing),
    .move (.report .origin id)]

def completing (value : Value) : StepClosing :=
  { status := some "completed", output := .record [("result", value)] }

/-- Both sides of the diamond are about to be written about. -/
def openingActs : List Act :=
  [.write .origin (Course.register "run" Course.diamond [] .failFast []).run.creation,
    .move .store, .move (.begin .origin)] ++
    invocation "start" ⟨.ok .null, 1⟩ (completing .null) ++
    [.move (.enter "left"), .move (.enter "right")]

/-- The right step fails without a text and ends the run, and the left one has a result too late.
Meanwhile another run is written about, and also has a left step. -/
def lateActs : List Act :=
  openingActs ++
    [.write .origin (.startStep "run" "left"), .move (.hand "left" []),
      .other .origin (.createRun "other" (.map []) .null),
      .other .origin (.startStep "other" "left")] ++
    invocation "right" ⟨.error (.typed .activityFailure "" false), 1⟩
      { status := some "failed", error := some "" } ++
    [.move (.conclude .origin), .move (.finish .origin "left" [] ⟨.ok (.int 7), 1⟩),
      .write .origin (.closeRun "run" "failed" (some "Step right failed: ")),
      .write .origin (.closeStep "run" "left" (completing (.int 7))),
      .move (.close none), .move (.report .origin "left")]

/-- The capability behind the left step ends by raising a cancellation, so that nothing is left to
do, and then somebody asks for the end of the run. -/
def hungActs : List Act :=
  openingActs ++ invocation "right" ⟨.ok .null, 1⟩ (completing .null) ++
    [.write .origin (.startStep "run" "left"), .move (.hand "left" []),
      .move (.finish .origin "left" [] ⟨.error .cancelled, 1⟩),
      .move (.cancel .origin "Run cancelled" true), .move (.conclude .origin),
      .write .origin (.closeRun "run" "cancelled" (some "Run cancelled")), .move (.close none)]

theorem isSome_play_lateActs : ((register (.database {}) "run" Course.diamond [] .failFast
    []).play lateActs).isSome := by decide +kernel

theorem isSome_play_hungActs : ((register (.memory {}) "run" Course.diamond [] .failFast
    []).play hungActs).isSome := by decide +kernel

def late : Ledger :=
  ((register (.database {}) "run" Course.diamond [] .failFast []).play lateActs).get
    isSome_play_lateActs

def hung : Ledger :=
  ((register (.memory {}) "run" Course.diamond [] .failFast []).play hungActs).get
    isSome_play_hungActs

theorem late_mirrored : ∃ record, late.repository.run? "run" = .ok (some record) ∧
    record.Tells late.course.run ∧
    (∀ id ∈ Course.diamond.ids, record.MirrorsStep late.course.run id) ∧
    late.course.run.status = .failed ∧ late.course.run.statusOf? "left" = some .completed ∧
    late.course.run.statusOf? "join" = some .idle := by
  have hplay : (register (.database {}) "run" Course.diamond [] .failFast []).play lateActs =
      some late := (Option.some_get _).symm
  have hthrough : late.course.invocations = [] := List.isEmpty_iff.mp (by decide +kernel)
  have hrace : ¬ Course.StoredAfterCancel (.store :: Act.moves (lateActs.drop 2)) :=
    Course.not_storedAfterCancel_cons nofun
      (by simp [lateActs, openingActs, invocation, Act.moves, Act.move?])
  have hclosed : Move.close none ∈ Act.moves lateActs := by
    simp [lateActs, openingActs, invocation, Act.moves, Act.move?]
  obtain ⟨record, hrun, htells, hsteps⟩ := mirrors_iff_not_lost (.database {}) "run"
    Course.diamond [] .failFast [] lateActs late ⟨List.not_mem_nil, List.not_mem_nil⟩ hplay
    (by decide +kernel) hrace hclosed hthrough
  have hidle : ∀ id ∈ Course.diamond.ids, late.course.run.statusOf? id ≠ some .running := by
    decide +kernel
  refine ⟨record, hrun, htells, fun id hid => (hsteps id).mpr fun hlost => hidle id hid ?_,
    by decide +kernel, by decide +kernel, by decide +kernel⟩
  exact ((Course.tracked_of_play (course_of_play hplay)).running_iff id).mpr (Or.inr hlost)

/-- When the run is closed and nothing goes on any more, the left step runs in its report, and its
record does not say anything about its end. -/
theorem not_mirrored_hung :
    (register (.memory {}) "run" Course.diamond [] .failFast []).play hungActs = some hung ∧
    (∀ act ∈ hungActs, act.isRegular = true) ∧
    ¬ Course.StoredAfterCancel (Act.moves hungActs) ∧ .close none ∈ Act.moves hungActs ∧
    hung.course.invocations = [] ∧ hung.course.run.statusOf? "left" = some .running ∧
    ∃ record, hung.repository.run? "run" = .ok (some record) ∧
      (record.stepsOf "left").map (·.status) = [none] ∧
      ¬ record.MirrorsStep hung.course.run "left" := by
  have hrunning : hung.course.run.statusOf? "left" = some .running := by decide +kernel
  have hrace : ¬ Course.StoredAfterCancel (.store :: Act.moves (hungActs.drop 2)) :=
    Course.not_storedAfterCancel_cons nofun
      (by simp [hungActs, openingActs, invocation, Act.moves, Act.move?])
  have hfound : ((hung.repository.run? "run").toOption.bind id).map
      (fun record => (record.stepsOf "left").map (·.status)) = some [none] := by decide +kernel
  obtain ⟨record, hrecord, hopen⟩ := Option.map_eq_some_iff.mp hfound
  have hrun : hung.repository.run? "run" = .ok (some record) := by
    cases hanswer : hung.repository.run? "run" with
    | error failure =>
        rw [hanswer] at hrecord
        cases hrecord
    | ok found =>
        rw [hanswer] at hrecord
        exact congrArg Except.ok hrecord
  refine ⟨(Option.some_get _).symm, by decide +kernel, hrace,
    by simp [hungActs, openingActs, invocation, Act.moves, Act.move?],
    List.isEmpty_iff.mp (by decide +kernel), hrunning, record, hrun, hopen, fun hmirrors => ?_⟩
  obtain ⟨step, report, hstep, hreport, hsame⟩ := hmirrors.left (.of_eq hrunning (by decide))
  rw [hstep, List.map_singleton, hsame.status] at hopen
  cases hopen

end Ledger

end Workflow
