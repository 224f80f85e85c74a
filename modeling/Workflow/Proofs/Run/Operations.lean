import Workflow.Run.Lifecycle
import Workflow.Proofs.Graph.Path
import Workflow.Proofs.Outcome

/-!
# What the operations on a run do

Every change of a run is run here once, on a run on which it does not fail, and the result is
written with functions that have no failures. A change that moves no step is quiet: it may talk, or
end the run.
-/

namespace Workflow

namespace StepReport

def start (now : Moment) (report : StepReport) : StepReport :=
  { report with status := .running, startedAt := some now }

/-- The report on a step whose invocation has ended. -/
def closedBy (now : Moment) (outcome : Outcome) (report : StepReport) : StepReport :=
  match outcome.result with
  | .ok result =>
    { report with
      status := .completed
      result
      attempts := outcome.attempts
      finishedAt := some now }
  | .error e =>
    { report with
      status := .failed
      error := some (if e.message = "" then "Step failed" else e.message)
      errorCode := some (if e.code = "" then FailureKind.activityFailure.code else e.code)
      attempts := outcome.attempts
      finishedAt := some now }

end StepReport

theorem StepReport.status_closedBy (now : Moment) (outcome : Outcome) (report : StepReport) :
    (report.closedBy now outcome).status = outcome.status := by
  unfold closedBy Outcome.status Outcome.isOk
  cases outcome.result <;> rfl

namespace Run

variable {run run' run'' : Run} {now : Moment} {id : String}

/-- The status of a step; what is no step has none. -/
def statusOf? (run : Run) (id : String) : Option StepStatus := (run.report? id).map (·.status)

theorem hasStatus_iff {status : StepStatus} :
    run.hasStatus status id = true ↔ run.statusOf? id = some status := by
  cases hreport : run.report? id <;> simp [hasStatus, statusOf?, hreport]

theorem statusOf?_eq_some_iff {status : StepStatus} :
    run.statusOf? id = some status ↔
      ∃ report, run.report? id = some report ∧ report.status = status :=
  Option.map_eq_some_iff

/-! ### Quiet changes -/

/-- No step moves: the run talks, forgets an invocation or ends. -/
structure Quiet (run run' : Run) : Prop where
  id : run'.id = run.id
  graph : run'.graph = run.graph
  failureMode : run'.failureMode = run.failureMode
  reports : run'.reports = run.reports
  results : run'.results = run.results
  processed : run'.processed = run.processed
  blocked : run'.blocked = run.blocked
  inFlight : run'.inFlight.Sublist run.inFlight
  verdict :
    (run'.status = run.status ∧ run'.error = run.error ∧ run'.errorCode = run.errorCode ∧
        run'.isFinished = run.isFinished) ∨
      (run.isTerminated = false ∧ run'.isTerminated = true ∧ run'.isFinished = true)

theorem Quiet.refl (run : Run) : Quiet run run :=
  ⟨rfl, rfl, rfl, rfl, rfl, rfl, rfl, List.Sublist.refl _, Or.inl ⟨rfl, rfl, rfl, rfl⟩⟩

theorem Quiet.trans (h : Quiet run run') (h' : Quiet run' run'') : Quiet run run'' where
  id := h'.id.trans h.id
  graph := h'.graph.trans h.graph
  failureMode := h'.failureMode.trans h.failureMode
  reports := h'.reports.trans h.reports
  results := h'.results.trans h.results
  processed := h'.processed.trans h.processed
  blocked := h'.blocked.trans h.blocked
  inFlight := h'.inFlight.trans h.inFlight
  verdict := by
    rcases h.verdict with ⟨hs, he, hc, hf⟩ | ⟨hopen, hended, hf⟩
    · rcases h'.verdict with ⟨hs', he', hc', hf'⟩ | ⟨hopen', hended', hf'⟩
      · exact Or.inl ⟨hs'.trans hs, he'.trans he, hc'.trans hc, hf'.trans hf⟩
      · exact Or.inr ⟨by rwa [isTerminated, ← hs], hended', hf'⟩
    · rcases h'.verdict with ⟨hs', _, _, hf'⟩ | ⟨hopen', _, _⟩
      · exact Or.inr ⟨hopen, by rwa [isTerminated, hs'], hf'.trans hf⟩
      · rw [hended] at hopen'
        cases hopen'

theorem Quiet.report? (h : Quiet run run') (id : String) : run'.report? id = run.report? id := by
  rw [Run.report?, Run.report?, h.reports]

theorem Quiet.statusOf? (h : Quiet run run') (id : String) :
    run'.statusOf? id = run.statusOf? id := by
  rw [Run.statusOf?, Run.statusOf?, h.report?]

theorem Quiet.incoming (h : Quiet run run') (id : String) : run'.incoming id = run.incoming id := by
  rw [Run.incoming, Run.incoming, parentResults, parentResults, h.graph, h.results]

theorem Quiet.isOpen (h : Quiet run run') (hopen' : run'.isTerminated = false) :
    run.isTerminated = false := by
  rcases h.verdict with ⟨hstatus, -⟩ | ⟨hopen, -⟩
  · rwa [isTerminated, ← hstatus]
  · exact hopen

theorem quiet_log (run : Run) (log : EventLog) : Quiet run { run with log } :=
  ⟨rfl, rfl, rfl, rfl, rfl, rfl, rfl, List.Sublist.refl _, Or.inl ⟨rfl, rfl, rfl, rfl⟩⟩

theorem quiet_emit (run : Run) (now : Moment) (message : Message) :
    Quiet run (run.emit now message) := quiet_log run _

theorem quiet_closeLog (run : Run) : Quiet run run.closeLog := quiet_log run _

theorem quiet_leaveFlight (run : Run) (id : String) : Quiet run (run.leaveFlight id) :=
  ⟨rfl, rfl, rfl, rfl, rfl, rfl, rfl, List.filter_sublist, Or.inl ⟨rfl, rfl, rfl, rfl⟩⟩

theorem quiet_finish {status : RunStatus} (hstatus : status.isTerminal = true) (run : Run)
    (error errorCode : Option String) : Quiet run (run.finish status error errorCode) := by
  unfold finish
  split
  · exact Quiet.refl run
  · rename_i hopen
    exact ⟨rfl, rfl, rfl, rfl, rfl, rfl, rfl, List.Sublist.refl _,
      Or.inr ⟨by simpa using hopen, hstatus, rfl⟩⟩

theorem isTerminated_finish {status : RunStatus} (hstatus : status.isTerminal = true) (run : Run)
    (error errorCode : Option String) :
    (run.finish status error errorCode).isTerminated = true := by
  unfold finish
  split
  · assumption
  · exact hstatus

/-- What is said when a run begins. -/
def introduce (now : Moment) (run : Run) : Run :=
  let started := run.emit now (.info "Starting Workflow Execution...")
  if run.graph.orphans.isEmpty then started
  else started.emit now
    (.info ("Steps without incoming edges will never run: " ++ noted run.graph.orphans))

theorem exists_introduce_eq (run : Run) (now : Moment) :
    ∃ log, run.introduce now = { run with log } := by
  unfold introduce
  split
  · exact ⟨_, rfl⟩
  · exact ⟨_, rfl⟩

theorem quiet_introduce (run : Run) (now : Moment) : Quiet run (run.introduce now) := by
  obtain ⟨log, hlog⟩ := run.exists_introduce_eq now
  rw [hlog]
  exact quiet_log run log

theorem exists_conclude_eq (run : Run) (now : Moment) :
    ∃ log, run.conclude now = { run with log } := by
  unfold conclude
  induction run.closingMessages generalizing run with
  | nil => exact ⟨run.log, rfl⟩
  | cons message messages ih =>
      obtain ⟨log, hlog⟩ := ih (run.emit now message)
      exact ⟨log, hlog⟩

theorem quiet_conclude (run : Run) (now : Moment) : Quiet run (run.conclude now) := by
  obtain ⟨log, hlog⟩ := run.exists_conclude_eq now
  rw [hlog]
  exact quiet_log run log

theorem quiet_announce (run : Run) (now : Moment) (step : Step) (outcome : Outcome) :
    Quiet run (run.announce now step outcome) := quiet_emit run now _

theorem quiet_failInternally (run : Run) (stepId : String) (failure : Failure) :
    Quiet run (run.failInternally stepId failure) :=
  (quiet_leaveFlight run stepId).trans (quiet_finish rfl _ _ _)

theorem quiet_abandon (run : Run) : Quiet run run.abandon := quiet_finish rfl run _ _

theorem quiet_cancel (run : Run) (now : Moment) (reason : String) :
    Quiet run (run.cancel now reason).2 := by
  unfold cancel
  split
  · exact Quiet.refl run
  · exact (quiet_emit run now _).trans (quiet_finish rfl _ _ _)

theorem quiet_settle (run : Run) : Quiet run run.settle := by
  unfold settle
  split <;> exact quiet_finish rfl run _ _

theorem quiet_settleIfIdle (run : Run) : Quiet run run.settleIfIdle := by
  unfold settleIfIdle
  split
  · exact quiet_settle run
  · exact Quiet.refl run

/-! ### Steps that move -/

/-- The invocation of a step is over, and its outcome is reported. -/
def closed (now : Moment) (id : String) (outcome : Outcome) (run : Run) : Run :=
  (run.leaveFlight id).adjustReport id (·.closedBy now outcome)

def commit (id : String) (result : Value) (run : Run) : Run :=
  { run.addProcessed id with results := Table.insert run.results id result }

def begun (now : Moment) (run : Run) : Run :=
  run.adjustReport run.graph.trigger.id (·.start now)

/-- A step is in flight from now on. -/
def dispatch (now : Moment) (step : Step) (run : Run) : Run :=
  { (run.adjustReport step.id (·.start now)).emit now
      (.info ("Running " ++ step.displayName ++ "...") (some step.id)) with
    inFlight := run.inFlight ++ [step.id] }

def dispatchAll (now : Moment) (steps : List Step) (run : Run) : Run :=
  steps.foldl (fun run step => run.dispatch now step) run

theorem report?_adjustReport (run : Run) (id other : String) (f : StepReport → StepReport) :
    (run.adjustReport id f).report? other =
      if other = id then (run.report? other).map f else run.report? other :=
  Table.find?_adjust run.reports id other f

theorem mem_processed_addProcessed {other : String} :
    other ∈ (run.addProcessed id).processed ↔ other ∈ run.processed ∨ other = id := by
  unfold addProcessed
  by_cases hmem : id ∈ run.processed
  · have hself : other = id → other ∈ run.processed := fun heq => heq ▸ hmem
    simpa [hmem] using hself
  · simp [hmem]

theorem mem_blocked_block {ids : List String} {other : String} :
    other ∈ (run.block ids).blocked ↔ other ∈ run.blocked ∨ other ∈ ids := by
  by_cases hmem : other ∈ run.blocked <;> simp [block, hmem]

theorem hasStatus_congr {status : StepStatus} (hreport : run'.report? id = run.report? id) :
    run'.hasStatus status id = run.hasStatus status id := by
  rw [hasStatus, hasStatus, hreport]

/-- Dispatching steps changes their reports, what is in flight, and the log. -/
theorem dispatchAll_eq (now : Moment) (steps : List Step) (run : Run) :
    run.dispatchAll now steps =
      { run with
        reports := (run.dispatchAll now steps).reports
        inFlight := run.inFlight ++ steps.map (·.id)
        log := (run.dispatchAll now steps).log } := by
  induction steps generalizing run with
  | nil => simp [dispatchAll]
  | cons step steps ih =>
      have hcons : run.dispatchAll now (step :: steps) =
          (run.dispatch now step).dispatchAll now steps := rfl
      rw [hcons, ih]
      simp [dispatch, emit, adjustReport]

theorem report?_dispatchAll (now : Moment) (steps : List Step) (run : Run) (id : String) :
    (run.dispatchAll now steps).report? id =
      if id ∈ steps.map (·.id) then (run.report? id).map (·.start now) else run.report? id := by
  induction steps generalizing run with
  | nil => simp [dispatchAll]
  | cons step steps ih =>
      have hcons : run.dispatchAll now (step :: steps) =
          (run.dispatch now step).dispatchAll now steps := rfl
      have hreport : (run.dispatch now step).report? id =
          if id = step.id then (run.report? id).map (·.start now) else run.report? id :=
        report?_adjustReport run step.id id _
      rw [hcons, ih, hreport]
      by_cases heq : id = step.id <;> by_cases hmem : id ∈ steps.map (·.id) <;>
        simp [heq, hmem, StepReport.start, Function.comp_def]

theorem isReady_dispatch_of_ne {step : Step} (hne : id ≠ step.id) :
    (run.dispatch now step).isReady id = run.isReady id := by
  have hstatus : (run.dispatch now step).hasStatus .idle id = run.hasStatus .idle id :=
    hasStatus_congr ((report?_adjustReport run step.id id _).trans (if_neg hne))
  unfold isReady
  rw [hstatus]
  rfl

end Run

namespace Change

variable {run : Run} {now : Moment} {id : String}

theorem reportOf_run {report : StepReport} (hreport : run.report? id = some report) :
    (reportOf id).run run = .ok report run := by
  simp [reportOf, hreport]

theorem markRunning_run {report : StepReport} (hreport : run.report? id = some report)
    (hidle : report.status = .idle) :
    (markRunning now id).run run = .ok () (run.adjustReport id (·.start now)) := by
  simp [markRunning, reportOf_run hreport, hidle, StepReport.start]

theorem dispatch_run {step : Step} {report : StepReport}
    (hreport : run.report? step.id = some report) (hidle : report.status = .idle) :
    (dispatch now step).run run = .ok () (run.dispatch now step) := by
  simp [dispatch, emit, markRunning_run hreport hidle, Run.dispatch, Run.emit, Run.adjustReport]

/-- Which of some distinct steps are dispatched depends on the run as it was before the first. -/
theorem dispatchReady_run (now : Moment) (run : Run) (ids : List String) (hnodup : ids.Nodup)
    (hsteps : ∀ id ∈ ids, (run.graph.step? id).isSome) :
    (dispatchReady now ids).run run =
      let released := ids.filter fun id => run.acceptsDispatches && run.isReady id
      .ok released (run.dispatchAll now (released.filterMap run.graph.step?)) := by
  induction ids generalizing run with
  | nil => simp [dispatchReady, Run.dispatchAll]
  | cons id ids ih =>
      obtain ⟨hnot, hnodup⟩ := List.nodup_cons.mp hnodup
      have hrest := fun other hother => hsteps other (List.mem_cons_of_mem id hother)
      obtain ⟨step, hstep⟩ := Option.isSome_iff_exists.mp (hsteps id List.mem_cons_self)
      have hid : step.id = id := by simpa using List.find?_some hstep
      by_cases hready : run.acceptsDispatches && run.isReady id
      · have hidle : run.hasStatus .idle id = true := by
          simp only [Run.isReady, Bool.and_eq_true] at hready
          exact hready.2.1.1.2
        obtain ⟨report, hreport, hstatus⟩ :=
          Run.statusOf?_eq_some_iff.mp (Run.hasStatus_iff.mp hidle)
        have hdispatch : (dispatch now step).run run = .ok () (run.dispatch now step) :=
          dispatch_run (by rw [hid]; exact hreport) hstatus
        have hsame : ∀ other ∈ ids,
            ((run.dispatch now step).acceptsDispatches && (run.dispatch now step).isReady other) =
              (run.acceptsDispatches && run.isReady other) := by
          intro other hother
          have hne : other ≠ step.id := by
            rintro rfl
            exact hnot (hid ▸ hother)
          rw [Run.isReady_dispatch_of_ne hne]
          rfl
        have hlater := ih (run.dispatch now step) hnodup hrest
        rw [List.filter_congr hsame] at hlater
        simp only [dispatchReady, EStateM.run_bind, EStateM.run_get, EStateM.run_pure, hstep,
          hready, if_true, hdispatch, hlater, List.filter_cons, List.filterMap_cons]
        rfl
      · have hlater := ih run hnodup hrest
        simp only [Bool.not_eq_true] at hready
        simp only [dispatchReady, EStateM.run_bind, EStateM.run_get, hstep, hready, hlater,
          List.filter_cons, Bool.false_eq_true, if_false]

theorem emitUnless_run (isSilent : Bool) (message : Message) (run : Run) :
    (if !isSilent then emit now message else pure () : Change Unit).run run =
      .ok () (if isSilent then run else run.emit now message) := by
  cases isSilent <;> rfl

theorem begin_run_terminated (hended : run.isTerminated = true) :
    (begin now).run run = .ok false run := by
  simp [begin, hended]

theorem begin_run_open {report : StepReport} (hopen : run.isTerminated = false)
    (hreport : run.report? run.graph.trigger.id = some report) (hidle : report.status = .idle) :
    (begin now).run run = .ok true ((run.introduce now).begun now) := by
  have hquiet := run.quiet_introduce now
  have hmark : (markRunning now run.graph.trigger.id).run (run.introduce now) =
      .ok () ((run.introduce now).begun now) := by
    rw [Run.begun, hquiet.graph]
    exact markRunning_run ((hquiet.report? _).trans hreport) hidle
  unfold Run.introduce at hmark ⊢
  by_cases horphans : run.graph.orphans.isEmpty
  · rw [if_pos horphans] at hmark ⊢
    simp only [begin, emit, EStateM.run_bind, EStateM.run_get, EStateM.run_modify, hopen, horphans,
      Bool.not_true, Bool.false_eq_true, if_false, EStateM.run_pure, hmark]
  · rw [if_neg horphans] at hmark ⊢
    rw [Bool.not_eq_true] at horphans
    simp only [begin, emit, EStateM.run_bind, EStateM.run_get, EStateM.run_modify, hopen, horphans,
      Bool.not_false, Bool.false_eq_true, if_false, if_true, EStateM.run_pure, hmark]

theorem record_run_uncommitted (now : Moment) (run : Run) (step : Step) (outcome : Outcome)
    (hreport : (run.report? step.id).isSome) :
    (record now step outcome false).run run =
      .ok () (run.adjustReport step.id (·.closedBy now outcome)) := by
  obtain ⟨report, hreport⟩ := Option.isSome_iff_exists.mp hreport
  unfold record StepReport.closedBy
  cases outcome.result <;> simp [markCompleted, markFailed, reportOf_run hreport]

theorem record_run_ok (now : Moment) (run : Run) {step : Step} {outcome : Outcome} {result : Value}
    (hresult : outcome.result = .ok result) (hreport : (run.report? step.id).isSome)
    (hfresh : Table.find? run.results step.id = none) :
    (record now step outcome true).run run =
      .ok () ((run.adjustReport step.id (·.closedBy now outcome)).commit step.id result) := by
  obtain ⟨report, hreport⟩ := Option.isSome_iff_exists.mp hreport
  have hnew : Table.contains (run.adjustReport step.id (·.closedBy now outcome)).results step.id =
      false := by
    rw [Table.contains, Run.adjustReport, hfresh]
    rfl
  unfold StepReport.closedBy at hnew ⊢
  simp only [hresult] at hnew ⊢
  simp [record, hresult, markCompleted, reportOf_run hreport, hnew, Run.commit]

theorem record_run_error (now : Moment) (run : Run) {step : Step} {outcome : Outcome}
    {e : StepError} (hresult : outcome.result = .error e) (hreport : (run.report? step.id).isSome) :
    (record now step outcome true).run run =
      .ok () ((run.adjustReport step.id (·.closedBy now outcome)).addProcessed step.id) := by
  obtain ⟨report, hreport⟩ := Option.isSome_iff_exists.mp hreport
  unfold StepReport.closedBy
  simp [record, hresult, markFailed, reportOf_run hreport]

end Change

namespace Run

/-! ### Completions -/

variable {run : Run}

/-- An invocation that ends after its run is reported, and nothing else. -/
def discard (now : Moment) (step : Step) (outcome : Outcome) (run : Run) : Run :=
  (run.closed now step.id outcome).emit now
    (.info ("Discarded late result of " ++ step.displayName ++ " (run already " ++
      run.status.name ++ ")") (some step.id))

/-- The steps that the completion of a step releases. -/
def released (id : String) (run : Run) : List String :=
  (run.graph.children id).filter fun child => run.acceptsDispatches && run.isReady child

def succeed (now : Moment) (step : Step) (outcome : Outcome) (result : Value) (run : Run) : Run :=
  let run := (run.closed now step.id outcome).commit step.id result
  (run.dispatchAll now ((run.released step.id).filterMap run.graph.step?)).settleIfIdle

/-- The first failure ends a run that fails fast. -/
def abort (now : Moment) (step : Step) (outcome : Outcome) (e : StepError) (run : Run) : Run :=
  (((run.closed now step.id outcome).addProcessed step.id).emit now
      (.error ("Run aborted after " ++ step.displayName ++ " failed") (some step.id))).finish
    .failed (some ("Step " ++ step.id ++ " failed: " ++ e.message)) (some e.code)

/-- The steps that a step leads to and that have not been processed. -/
def behind (id : String) (run : Run) : List String :=
  (run.graph.descendants id).filter (!run.processed.contains ·)

/-- The steps that a failed step leads to will not run. -/
def holdBack (now : Moment) (step : Step) (outcome : Outcome) (run : Run) : Run :=
  let run := (run.closed now step.id outcome).addProcessed step.id
  let heldBack := run.behind step.id
  let blocked := run.block heldBack
  (if heldBack.isEmpty then blocked
    else blocked.emit now (.info ("Holding back " ++ toString heldBack.length ++
      " downstream step(s) of " ++ step.displayName) (some step.id))).settleIfIdle

end Run

namespace Change

variable {run : Run} {now : Moment} {step : Step} {outcome : Outcome}

theorem complete_run_late (hreport : (run.report? step.id).isSome)
    (hlate : run.isTerminated = true) :
    (complete now step outcome).run run = .ok [] (run.discard now step outcome) := by
  have hlate' : (run.leaveFlight step.id).isTerminated = true := hlate
  have hrecord := record_run_uncommitted now (run.leaveFlight step.id) step outcome hreport
  simp only [complete, emit, EStateM.run_bind, EStateM.run_modify, EStateM.run_get, hlate',
    Bool.not_true, hrecord, if_true, EStateM.run_pure]
  rfl

theorem complete_run_ok {result : Value} (hresult : outcome.result = .ok result)
    (hreport : (run.report? step.id).isSome) (hfresh : Table.find? run.results step.id = none)
    (hopen : run.isTerminated = false)
    (hsteps : ∀ child ∈ run.graph.children step.id, (run.graph.step? child).isSome) :
    (complete now step outcome).run run =
      .ok (((run.closed now step.id outcome).commit step.id result).released step.id)
        (run.succeed now step outcome result) := by
  have hopen' : (run.leaveFlight step.id).isTerminated = false := hopen
  have hrecord := record_run_ok now (run.leaveFlight step.id) hresult hreport hfresh
  have hdispatch := dispatchReady_run now
    ((run.closed now step.id outcome).commit step.id result) (run.graph.children step.id)
    (Graph.nodup_children step.id) hsteps
  rw [Run.closed] at hdispatch
  simp only [complete, EStateM.run_bind, EStateM.run_modify, EStateM.run_get, hopen',
    Bool.not_false, hrecord, hresult, Bool.false_eq_true, if_false, EStateM.run_pure]
  rw [show (run.leaveFlight step.id).graph = run.graph from rfl, hdispatch]
  rfl

theorem complete_run_failFast {e : StepError} (hresult : outcome.result = .error e)
    (hreport : (run.report? step.id).isSome) (hopen : run.isTerminated = false)
    (hmode : run.failureMode = .failFast) :
    (complete now step outcome).run run = .ok [] (run.abort now step outcome e) := by
  have hopen' : (run.leaveFlight step.id).isTerminated = false := hopen
  have hrecord := record_run_error now (run.leaveFlight step.id) hresult hreport
  have hclosed : ((run.leaveFlight step.id).adjustReport step.id (·.closedBy now outcome)) =
    run.closed now step.id outcome := rfl
  have hmode' : ((run.closed now step.id outcome).addProcessed step.id).failureMode = .failFast :=
    hmode
  have hended : (run.abort now step outcome e).settleIfIdle = run.abort now step outcome e := by
    have hterminated : (run.abort now step outcome e).isTerminated = true := by
      have hbefore : (((run.closed now step.id outcome).addProcessed step.id).emit now
          (.error ("Run aborted after " ++ step.displayName ++ " failed")
            (some step.id))).isTerminated = false := hopen
      rw [Run.abort, Run.finish, hbefore]
      rfl
    simp [Run.settleIfIdle, hterminated]
  simp only [complete, handleFailure, emit, EStateM.run_bind, EStateM.run_modify, EStateM.run_get,
    hopen', Bool.not_false, hrecord, hclosed, hresult, Bool.false_eq_true, if_false,
    EStateM.run_pure, hmode']
  rw [← Run.abort, hended]

theorem complete_run_proceed {e : StepError} (hresult : outcome.result = .error e)
    (hreport : (run.report? step.id).isSome) (hopen : run.isTerminated = false)
    (hmode : run.failureMode = .proceed) :
    (complete now step outcome).run run = .ok [] (run.holdBack now step outcome) := by
  have hopen' : (run.leaveFlight step.id).isTerminated = false := hopen
  have hrecord := record_run_error now (run.leaveFlight step.id) hresult hreport
  have hclosed : ((run.leaveFlight step.id).adjustReport step.id (·.closedBy now outcome)) =
    run.closed now step.id outcome := rfl
  have hmode' : ((run.closed now step.id outcome).addProcessed step.id).failureMode = .proceed :=
    hmode
  simp only [complete, handleFailure, EStateM.run_bind, EStateM.run_modify, EStateM.run_get,
    hopen', Bool.not_false, hrecord, hclosed, hresult, Bool.false_eq_true, if_false,
    EStateM.run_pure, hmode', emitUnless_run]
  rfl

end Change

end Workflow
