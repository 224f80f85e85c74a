import Workflow.Proofs.Run.Completion

/-!
# How a run settles

A run that nobody interrupts ends when the last of its invocations has been reported. Its verdict is
then read off the reports: it has completed if no step has failed, and otherwise names the failed
steps in the order in which they were declared and takes the code of the first of them.
-/

namespace Workflow.Run

variable {run run' : Run} {now : Moment} {id : String} {step : Step} {outcome : Outcome}
  {released : List String}

/-- The verdict on a run says which steps have failed. -/
def IsSettled (run : Run) : Prop :=
  match run.committedFailures with
  | [] => run.status = .completed ∧ run.error = none ∧ run.errorCode = none
  | first :: rest => run.status = .failed ∧
    run.error =
      some (toString (rest.length + 1) ++ " step(s) failed: " ++ noted (first :: rest)) ∧
    run.errorCode = (run.report? first).bind (·.errorCode)

theorem committedFailures_finish (run : Run) (status : RunStatus)
    (error errorCode : Option String) :
    (run.finish status error errorCode).committedFailures = run.committedFailures := by
  unfold finish
  split <;> rfl

theorem isSettled_settle (hopen : run.isTerminated = false) : run.settle.IsSettled := by
  unfold settle
  split
  · rename_i hnone
    rw [IsSettled, committedFailures_finish, hnone, finish_of_open hopen]
    exact ⟨rfl, rfl, rfl⟩
  · rename_i first rest hsome
    rw [IsSettled, committedFailures_finish, hsome, finish_of_open hopen]
    exact ⟨rfl, rfl, rfl⟩

theorem inFlight_finish (run : Run) (status : RunStatus) (error errorCode : Option String) :
    (run.finish status error errorCode).inFlight = run.inFlight := by
  unfold finish
  split <;> rfl

theorem inFlight_settleIfIdle (run : Run) : run.settleIfIdle.inFlight = run.inFlight := by
  unfold settleIfIdle settle
  split
  · split <;> exact inFlight_finish run _ _ _
  · rfl

theorem settleIfIdle_eq_settle (hopen : run.isTerminated = false) (hidle : run.inFlight = []) :
    run.settleIfIdle = run.settle := by
  rw [settleIfIdle, hopen, hidle]
  rfl

/-- A run ends by itself only when nothing is in flight. -/
theorem isTerminated_settleIfIdle (hopen : run.isTerminated = false) :
    run.settleIfIdle.isTerminated = true ↔ run.inFlight = [] := by
  by_cases hidle : run.inFlight = []
  · refine iff_of_true ?_ hidle
    rw [settleIfIdle_eq_settle hopen hidle, settle]
    split <;> rw [finish_of_open hopen] <;> rfl
  · simp [settleIfIdle, hopen, hidle]

theorem isSettled_settleIfIdle (hopen : run.isTerminated = false)
    (hended : run.settleIfIdle.isTerminated = true) : run.settleIfIdle.IsSettled := by
  rw [settleIfIdle_eq_settle hopen ((isTerminated_settleIfIdle hopen).mp hended)]
  exact isSettled_settle hopen

/-! ### The failed steps -/

theorem stepsAt_eq (hnodup : (Table.keys run.reports).Nodup) (status : StepStatus) :
    run.stepsAt status = (Table.keys run.reports).filter (run.hasStatus status) := by
  rw [stepsAt, Table.keys, List.filter_map]
  refine congrArg _ (List.filter_congr fun entry hentry => ?_)
  have hreport : run.report? entry.1 = some entry.2 := Table.find?_eq_some_of_mem hnodup hentry
  rw [Function.comp_apply, hasStatus, hreport]
  rfl

theorem Coherent.committedFailures_eq (h : Coherent run)
    (hprocessed : ∀ id, run.statusOf? id = some .failed → id ∈ run.processed) :
    run.committedFailures = run.graph.ids.filter (run.hasStatus .failed) := by
  have hnodup : (Table.keys run.reports).Nodup := by
    rw [h.keys]
    exact run.graph.nodup
  rw [committedFailures, failedSteps, stepsAt_eq hnodup, h.keys, List.filter_eq_self]
  intro id hid
  have hfailed := hasStatus_iff.mp (List.mem_filter.mp hid).2
  simpa using hprocessed id hfailed

/-! ### Completions that nothing interrupts -/

namespace Completes

theorem inFlight (h : Completes now step outcome run released run') :
    run'.inFlight = run.inFlight.filter (· ≠ step.id) ++ released := by
  cases h with
  | late => simp [discard, Run.emit, Run.closed, leaveFlight, adjustReport]
  | succeeded =>
      rw [succeed, inFlight_settleIfIdle, dispatchAll_eq, ids_released]
      rfl
  | aborted =>
      rw [abort, inFlight_finish]
      simp [Run.emit, Run.closed, leaveFlight, adjustReport, addProcessed]
  | heldBack =>
      simp only [holdBack, inFlight_settleIfIdle, List.append_nil]
      split <;> rfl

theorem mem_processed (h : Completes now step outcome run released run')
    (hopen : run.isTerminated = false) {other : String} :
    other ∈ run'.processed ↔ other ∈ run.processed ∨ other = step.id := by
  have hadded : other ∈ ((run.closed now step.id outcome).addProcessed step.id).processed ↔
      other ∈ run.processed ∨ other = step.id := mem_processed_addProcessed
  cases h with
  | late hended =>
      rw [hopen] at hended
      cases hended
  | succeeded =>
      rw [succeed, (quiet_settleIfIdle _).processed, dispatchAll_eq]
      exact hadded
  | aborted =>
      rw [abort, (quiet_finish rfl _ _ _).processed]
      exact hadded
  | heldBack =>
      simp only [holdBack, (quiet_settleIfIdle _).processed]
      split <;> exact hadded

/-- What completes in an open run and does not abort it may settle it. -/
theorem settleIfIdle (h : Completes now step outcome run released run')
    (hopen : run.isTerminated = false)
    (hmode : ∀ e, outcome.result = .error e → run.failureMode = .proceed) :
    ∃ middle : Run, middle.isTerminated = false ∧ run' = middle.settleIfIdle := by
  cases h with
  | late hended =>
      rw [hopen] at hended
      cases hended
  | succeeded =>
      refine ⟨_, ?_, rfl⟩
      rw [dispatchAll_eq]
      change run.status.isTerminal = false
      exact hopen
  | aborted e _ hfast hresult =>
      rw [hmode e hresult] at hfast
      cases hfast
  | heldBack =>
      refine ⟨_, ?_, rfl⟩
      split
      · change run.status.isTerminal = false
        exact hopen
      · change run.status.isTerminal = false
        exact hopen

/-- A failure that does not end a run is one that holds steps back. -/
theorem failureMode_of_error (h : Completes now step outcome run released run')
    (hopen : run.isTerminated = false) (hstatus : run'.status ≠ .failed) {e : StepError}
    (herror : outcome.result = .error e) : run.failureMode = .proceed := by
  cases h with
  | late hended =>
      rw [hopen] at hended
      cases hended
  | succeeded result _ hresult =>
      rw [herror] at hresult
      cases hresult
  | aborted =>
      rw [abort, finish_of_open] at hstatus
      · exact absurd rfl hstatus
      · exact hopen
  | heldBack _ _ hmode => exact hmode

/-- A run completes when nothing is in flight any more. -/
theorem inFlight_of_completed (h : Completes now step outcome run released run')
    (hopen : run.isTerminated = false) (hcompleted : run'.status = .completed) :
    run'.inFlight = [] ∧ run'.isFinished = true := by
  obtain ⟨middle, hmiddle, rfl⟩ := h.settleIfIdle hopen fun _ herror =>
    h.failureMode_of_error hopen (by rw [hcompleted]; decide) herror
  have hidle := (isTerminated_settleIfIdle hmiddle).mp (by rw [isTerminated, hcompleted]; rfl)
  rw [inFlight_settleIfIdle, settleIfIdle_eq_settle hmiddle hidle, settle]
  split <;> rw [finish_of_open hmiddle] <;> exact ⟨hidle, rfl⟩

/-- While a run is open after a completion, some step is running. -/
theorem exists_running (h : Completes now step outcome run released run') (hsound' : Sound run')
    (hopen' : run'.isTerminated = false) : ∃ id, run'.statusOf? id = some .running := by
  obtain ⟨middle, hmiddle, rfl⟩ :=
    h.settleIfIdle (h.isOpen hopen') fun _ herror => h.failureMode_of_error (h.isOpen hopen')
      (fun hfailed => by rw [isTerminated, hfailed] at hopen'; cases hopen') herror
  have hflight : middle.settleIfIdle.inFlight ≠ [] := by
    rw [inFlight_settleIfIdle]
    intro hidle
    rw [(isTerminated_settleIfIdle hmiddle).mpr hidle] at hopen'
    cases hopen'
  obtain ⟨id, hid⟩ := List.exists_mem_of_ne_nil _ hflight
  exact ⟨id, (hsound'.inFlight id hid).2⟩

end Completes

end Workflow.Run
