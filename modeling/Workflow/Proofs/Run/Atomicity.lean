import Workflow.Proofs.Run.Invariant

/-!
# Operations that fail

A step is marked running only after its report has been looked at. A completion is reported first,
and only then the result table is looked at, so a second result of a step is refused when its report
has already been rewritten. Everything else that fails leaves no trace, and the result table itself
keeps the first result of every step.
-/

namespace Workflow

/-- What may be asked of a run. -/
inductive RunOperation where
  | markRunning (id : String)
  | markCompleted (id : String) (result : Value) (attempts : Int) (commit : Bool)
  | markFailed (id error errorCode : String) (attempts : Int) (commit : Bool)
  | finish (status : RunStatus) (error errorCode : Option String)

namespace RunOperation

def change (now : Moment) : RunOperation → Change Unit
  | .markRunning id => Change.markRunning now id
  | .markCompleted id result attempts commit => Change.markCompleted now id result attempts commit
  | .markFailed id error errorCode attempts commit =>
    Change.markFailed now id error errorCode attempts commit
  | .finish status error errorCode => modify (·.finish status error errorCode)

def stepId? : RunOperation → Option String
  | .markRunning id => some id
  | .markCompleted id _ _ _ => some id
  | .markFailed id _ _ _ _ => some id
  | .finish _ _ _ => none

/-- The result that an operation commits to a step. -/
def committed? (id : String) : RunOperation → Option Value
  | .markCompleted other result _ true => if other = id then some result else none
  | _ => none

end RunOperation

namespace StepReport

def complete (now : Moment) (result : Value) (attempts : Int) (report : StepReport) : StepReport :=
  { report with status := .completed, result, attempts, finishedAt := some now }

def fail (now : Moment) (error errorCode : String) (attempts : Int) (report : StepReport) :
    StepReport :=
  { report with
    status := .failed
    error := some error
    errorCode := some errorCode
    attempts
    finishedAt := some now }

end StepReport

namespace Run

variable {run run' : Run} {now : Moment} {id : String} {operation : RunOperation} {isDone : Bool}
  {steps : List (Moment × RunOperation)} {step : Moment × RunOperation}

/-- A run after an operation, also after one that has failed. -/
def after (run : Run) (step : Moment × RunOperation) : Run :=
  match (step.2.change step.1).run run with
  | .ok _ run => run
  | .error _ run => run

def afterAll (run : Run) (steps : List (Moment × RunOperation)) : Run := steps.foldl after run

def Fails (run : Run) (step : Moment × RunOperation) : Prop :=
  ∃ failure run', (step.2.change step.1).run run = .error failure run'

def reportedResult? (run : Run) (id : String) : Option Value := (run.report? id).map (·.result)

/-- Every committed result is the one in the report of its step. -/
def IsConsistent (run : Run) : Prop :=
  ∀ id result, Table.find? run.results id = some result → run.reportedResult? id = some result

/-- A second result is committed to a step, and not with the very report of the first. -/
def RewritesReport (run : Run) : Moment × RunOperation → Prop
  | (now, .markCompleted id result attempts true) =>
    Table.contains run.results id ∧
      ∃ report, run.report? id = some report ∧ report.complete now result attempts ≠ report
  | _ => False

/-- Another result is reported than the one that has been committed. -/
def Contradicts (run : Run) : Moment × RunOperation → Prop
  | (_, .markCompleted id result _ _) =>
    ∃ recorded, Table.find? run.results id = some recorded ∧ recorded ≠ result
  | _ => False

/-! ### What one operation does -/

/-- What an operation can make of a run, and whether it succeeds. -/
inductive Turns (run : Run) (now : Moment) : RunOperation → Bool → Run → Prop
  | unknown (operation : RunOperation) (id : String) (hid : operation.stepId? = some id)
      (hnone : run.report? id = none) :
      Turns run now operation false run
  | busy (id : String) (report : StepReport) (hreport : run.report? id = some report)
      (hbusy : report.status ≠ .idle) :
      Turns run now (.markRunning id) false run
  | running (id : String) (report : StepReport) (hreport : run.report? id = some report)
      (hidle : report.status = .idle) :
      Turns run now (.markRunning id) true (run.adjustReport id (·.start now))
  | reported (id : String) (result : Value) (attempts : Int) (hknown : (run.report? id).isSome) :
      Turns run now (.markCompleted id result attempts false) true
        (run.adjustReport id (·.complete now result attempts))
  | committed (id : String) (result : Value) (attempts : Int)
      (hknown : (run.report? id).isSome) (hnew : Table.contains run.results id = false) :
      Turns run now (.markCompleted id result attempts true) true
        ((run.adjustReport id (·.complete now result attempts)).commit id result)
  | repeated (id : String) (result : Value) (attempts : Int)
      (hknown : (run.report? id).isSome) (hold : Table.contains run.results id = true) :
      Turns run now (.markCompleted id result attempts true) false
        (run.adjustReport id (·.complete now result attempts))
  | failed (id error errorCode : String) (attempts : Int) (commit : Bool)
      (hknown : (run.report? id).isSome) :
      Turns run now (.markFailed id error errorCode attempts commit) true
        (let closed := run.adjustReport id (·.fail now error errorCode attempts)
         if commit then closed.addProcessed id else closed)
  | finished (status : RunStatus) (error errorCode : Option String) :
      Turns run now (.finish status error errorCode) true (run.finish status error errorCode)

theorem reportOf_run_unknown (hnone : run.report? id = none) :
    (Change.reportOf id).run run = .error (.notFound id) run := by
  simp only [Change.reportOf, EStateM.run_bind, EStateM.run_get, hnone]
  rfl

theorem turns_change (run : Run) (now : Moment) (operation : RunOperation) :
    match (operation.change now).run run with
    | .ok _ run' => Turns run now operation true run'
    | .error _ run' => Turns run now operation false run' := by
  cases operation with
  | markRunning id =>
      rw [RunOperation.change]
      cases hreport : run.report? id with
      | none =>
          simp only [Change.markRunning, EStateM.run_bind, reportOf_run_unknown hreport]
          exact .unknown _ id rfl hreport
      | some report =>
          by_cases hidle : report.status = .idle
          · rw [Change.markRunning_run hreport hidle]
            exact .running id report hreport hidle
          · simp only [Change.markRunning, EStateM.run_bind, Change.reportOf_run hreport,
              if_pos hidle]
            exact .busy id report hreport hidle
  | markCompleted id result attempts commit =>
      rw [RunOperation.change]
      cases hreport : run.report? id with
      | none =>
          simp only [Change.markCompleted, EStateM.run_bind, reportOf_run_unknown hreport]
          exact .unknown _ id rfl hreport
      | some report =>
          have hknown : (run.report? id).isSome := hreport ▸ rfl
          cases commit with
          | false =>
              simp only [Change.markCompleted, EStateM.run_bind, Change.reportOf_run hreport]
              exact .reported id result attempts hknown
          | true =>
              simp only [Change.markCompleted, EStateM.run_bind, Change.reportOf_run hreport,
                EStateM.run_modify, EStateM.run_get, if_true]
              have hsame (f : StepReport → StepReport) :
                  (run.adjustReport id f).results = run.results := rfl
              rw [hsame]
              cases hrecorded : Table.contains run.results id with
              | false => exact .committed id result attempts hknown hrecorded
              | true => exact .repeated id result attempts hknown hrecorded
  | markFailed id error errorCode attempts commit =>
      rw [RunOperation.change]
      cases hreport : run.report? id with
      | none =>
          simp only [Change.markFailed, EStateM.run_bind, reportOf_run_unknown hreport]
          exact .unknown _ id rfl hreport
      | some report =>
          have hknown : (run.report? id).isSome := hreport ▸ rfl
          simp only [Change.markFailed, EStateM.run_bind, Change.reportOf_run hreport]
          cases commit with
          | false => exact .failed id error errorCode attempts false hknown
          | true => exact .failed id error errorCode attempts true hknown
  | finish status error errorCode => exact .finished status error errorCode

theorem turns_after (run : Run) (step : Moment × RunOperation) :
    ∃ isDone, Turns run step.1 step.2 isDone (run.after step) ∧
      (run.Fails step ↔ isDone = false) := by
  have hturns := run.turns_change step.1 step.2
  rw [after, Fails]
  cases hchange : (step.2.change step.1).run run with
  | ok _ run' =>
      rw [hchange] at hturns
      exact ⟨true, hturns, by simp⟩
  | error failure run' =>
      rw [hchange] at hturns
      exact ⟨false, hturns, by simp⟩

/-! ### What it changes -/

theorem Turns.keys (h : Turns run now operation isDone run') :
    Table.keys run'.reports = Table.keys run.reports := by
  cases h with
  | unknown | busy => rfl
  | running | reported | committed | repeated => exact Table.keys_adjust _ _ _
  | failed id error errorCode attempts commit => cases commit <;> exact Table.keys_adjust _ _ _
  | finished => rw [finish]; split <;> rfl

/-- An operation that fails changes nothing but reports. -/
theorem Turns.eq_of_fails (h : Turns run now operation false run') :
    run' = { run with reports := run'.reports } := by
  cases h <;> rfl

theorem adjustReport_eq_self {f : StepReport → StepReport}
    (hnodup : (Table.keys run.reports).Nodup)
    (hsame : ∀ report, run.report? id = some report → f report = report) :
    run.adjustReport id f = run := by
  have hreports : Table.adjust run.reports id f = run.reports :=
    Table.adjust_eq_self fun report hmem =>
      hsame report (Table.find?_eq_some_of_mem hnodup hmem)
  rw [adjustReport, hreports]

/-- A failing operation leaves a run as it was, unless it rewrites the report of a result. -/
theorem after_eq_self_iff (hnodup : (Table.keys run.reports).Nodup) (hfails : run.Fails step) :
    run.after step = run ↔ ¬ run.RewritesReport step := by
  obtain ⟨now, operation⟩ := step
  obtain ⟨isDone, hturns, hdone⟩ := run.turns_after (now, operation)
  obtain rfl := hdone.mp hfails
  generalize run.after (now, operation) = run' at hturns
  cases hturns with
  | unknown _ id hid hnone =>
      refine iff_of_true rfl fun hrewrites => ?_
      cases operation with
      | markCompleted other result attempts commit =>
          obtain rfl := Option.some.inj hid
          cases commit with
          | true =>
              obtain ⟨-, report, hreport, -⟩ := hrewrites
              rw [hnone] at hreport
              cases hreport
          | false => exact hrewrites
      | _ => exact hrewrites
  | busy id report hreport hbusy => exact iff_of_true rfl fun hrewrites => hrewrites
  | repeated id result attempts hknown hold =>
      obtain ⟨report, hreport⟩ := Option.isSome_iff_exists.mp hknown
      have hrewrites : run.RewritesReport (now, .markCompleted id result attempts true) ↔
          report.complete now result attempts ≠ report := by
        simp only [RewritesReport, hold, true_and, hreport, Option.some.injEq, exists_eq_left']
      rw [hrewrites, not_not]
      constructor
      · intro hself
        have hafter := congrArg (·.report? id) hself
        dsimp only at hafter
        rw [report?_adjustReport, if_pos rfl, hreport] at hafter
        exact Option.some.inj hafter
      · intro hsame
        apply adjustReport_eq_self hnodup
        intro other hother
        rw [hreport] at hother
        exact Option.some.inj hother ▸ hsame

theorem fails_of_rewritesReport (hrewrites : run.RewritesReport step) : run.Fails step := by
  obtain ⟨now, operation⟩ := step
  obtain ⟨isDone, hturns, hdone⟩ := run.turns_after (now, operation)
  rw [hdone]
  generalize run.after (now, operation) = run' at hturns
  cases operation with
  | markCompleted id result attempts commit =>
      cases commit with
      | true =>
          obtain ⟨hold, report, hreport, -⟩ := hrewrites
          cases hturns with
          | unknown _ other hid hnone => rfl
          | committed _ _ _ hknown hnew => exact absurd (hold.symm.trans hnew) Bool.noConfusion
          | repeated => rfl
      | false => exact hrewrites.elim
  | _ => exact hrewrites.elim

/-! ### What it reports -/

theorem reportedResult?_adjustReport (run : Run) (id : String) (f : StepReport → StepReport)
    (hkeeps : ∀ report, (f report).result = report.result) (other : String) :
    (run.adjustReport id f).reportedResult? other = run.reportedResult? other := by
  rw [reportedResult?, report?_adjustReport, reportedResult?]
  split
  · rw [Option.map_map]
    congr 1
    funext report
    exact hkeeps report
  · rfl

theorem reportedResult?_complete (result : Value) (attempts : Int) (other : String) :
    (run.adjustReport id (·.complete now result attempts)).reportedResult? other =
      if other = id then (run.reportedResult? other).map fun _ => result
      else run.reportedResult? other := by
  rw [reportedResult?, report?_adjustReport, reportedResult?]
  split
  · rw [Option.map_map, Option.map_map]
    rfl
  · rfl

theorem isConsistent_complete (h : run.IsConsistent) {result : Value} {attempts : Int}
    (hagrees : ∀ recorded, Table.find? run.results id = some recorded → recorded = result) :
    (run.adjustReport id (·.complete now result attempts)).IsConsistent := by
  intro other value hvalue
  have hreported := h other value hvalue
  rw [reportedResult?_complete]
  split
  · rename_i heq
    subst heq
    rw [hreported, Option.map_some, hagrees value hvalue]
  · exact hreported

theorem Turns.isConsistent (h : Turns run now operation isDone run') (hbefore : run.IsConsistent)
    (hagrees : ¬ run.Contradicts (now, operation)) : run'.IsConsistent := by
  cases h with
  | unknown | busy => exact hbefore
  | running id report hreport hidle =>
      intro other value hvalue
      rw [reportedResult?_adjustReport run id (·.start now) (fun _ => rfl)]
      exact hbefore other value hvalue
  | reported id result attempts hknown | repeated id result attempts hknown hold =>
      refine isConsistent_complete hbefore fun recorded hrecorded => ?_
      by_contra hne
      exact hagrees ⟨recorded, hrecorded, hne⟩
  | committed id result attempts hknown hnew =>
      intro other value hvalue
      change Table.find? (Table.insert run.results id result) other = some value at hvalue
      change (run.adjustReport id (·.complete now result attempts)).reportedResult? other =
        some value
      rw [Table.find?_insert] at hvalue
      rw [reportedResult?_complete]
      split
      · rename_i heq
        subst heq
        obtain ⟨report, hreport⟩ := Option.isSome_iff_exists.mp hknown
        rw [if_pos rfl] at hvalue
        rw [reportedResult?, hreport]
        exact hvalue
      · rename_i hne
        rw [if_neg hne] at hvalue
        exact hbefore other value hvalue
  | failed id error errorCode attempts commit =>
      intro other value hvalue
      have hreported := run.reportedResult?_adjustReport id
        (·.fail now error errorCode attempts) (fun _ => rfl) other
      cases commit <;> exact hreported.trans (hbefore other value hvalue)
  | finished status error errorCode =>
      rw [finish]
      split <;> exact hbefore

theorem Turns.not_isConsistent (h : Turns run now operation isDone run')
    (hbefore : run.IsConsistent) (hcontradicts : run.Contradicts (now, operation)) :
    ¬ run'.IsConsistent := by
  intro hafter
  cases operation with
  | markCompleted id result attempts commit =>
      obtain ⟨recorded, hrecorded, hne⟩ := hcontradicts
      have hreported := hbefore id recorded hrecorded
      have hclosed : (run.adjustReport id
          (·.complete now result attempts)).reportedResult? id = some result := by
        rw [reportedResult?_complete, if_pos rfl, hreported, Option.map_some]
      cases h with
      | unknown _ other hid hnone =>
          obtain rfl := Option.some.inj hid
          rw [reportedResult?, hnone] at hreported
          cases hreported
      | reported | repeated =>
          have hsame := hafter id recorded hrecorded
          rw [hclosed] at hsame
          exact hne (Option.some.inj hsame).symm
      | committed _ _ _ hknown hnew =>
          rw [Table.contains, hrecorded] at hnew
          cases hnew
  | _ => exact hcontradicts

/-! ### What it commits -/

theorem Turns.find?_results (h : Turns run now operation isDone run')
    (hid : (run.report? id).isSome) :
    Table.find? run'.results id =
      (Table.find? run.results id).or (operation.committed? id) := by
  cases h with
  | unknown operation other hother hnone =>
      have hne : other ≠ id := by
        rintro rfl
        rw [hnone] at hid
        cases hid
      have hnothing : operation.committed? id = none := by
        unfold RunOperation.committed?
        split
        · obtain rfl := Option.some.inj hother
          exact if_neg hne
        · rfl
      rw [hnothing, Option.or_none]
  | busy | running | reported => exact (Option.or_none).symm
  | committed other result attempts hknown hnew =>
      change Table.find? (Table.insert run.results other result) id = _
      rw [Table.find?_insert, RunOperation.committed?]
      by_cases heq : id = other
      · subst heq
        have hnone : Table.find? run.results id = none := by
          rw [Table.contains, Option.isSome_eq_false_iff] at hnew
          exact Option.isNone_iff_eq_none.mp hnew
        rw [if_pos rfl, if_pos rfl, hnone, Option.none_or]
      · rw [if_neg heq, if_neg (Ne.symm heq), Option.or_none]
  | repeated other result attempts hknown hold =>
      change Table.find? run.results id = _
      rw [RunOperation.committed?]
      split
      · rename_i heq
        subst heq
        rw [Table.contains] at hold
        exact (Option.or_of_isSome hold).symm
      · exact (Option.or_none).symm
  | failed other error errorCode attempts commit => cases commit <;> exact (Option.or_none).symm
  | finished status error errorCode =>
      rw [finish]
      split <;> exact (Option.or_none).symm

/-! ### What a list of operations does -/

theorem afterAll_concat (run : Run) (steps : List (Moment × RunOperation))
    (step : Moment × RunOperation) :
    run.afterAll (steps ++ [step]) = (run.afterAll steps).after step := by
  rw [afterAll, List.foldl_append]
  rfl

theorem keys_afterAll (run : Run) (steps : List (Moment × RunOperation)) :
    Table.keys (run.afterAll steps).reports = Table.keys run.reports := by
  induction steps generalizing run with
  | nil => rfl
  | cons step steps ih =>
      obtain ⟨_, hturns, -⟩ := run.turns_after step
      calc Table.keys ((run.after step).afterAll steps).reports
          = Table.keys (run.after step).reports := ih _
        _ = Table.keys run.reports := hturns.keys

theorem isSome_report?_afterAll (hid : (run.report? id).isSome)
    (steps : List (Moment × RunOperation)) : ((run.afterAll steps).report? id).isSome := by
  rw [report?, Table.find?_isSome_iff] at hid ⊢
  rwa [keys_afterAll]

/-- The result table holds the first result that was committed. -/
theorem find?_results_afterAll (hid : (run.report? id).isSome)
    (steps : List (Moment × RunOperation)) :
    Table.find? (run.afterAll steps).results id =
      (Table.find? run.results id).or (steps.findSome? (·.2.committed? id)) := by
  induction steps using List.reverseRecOn with
  | nil => exact (Option.or_none).symm
  | append_singleton steps step ih =>
      obtain ⟨_, hturns, -⟩ := (run.afterAll steps).turns_after step
      rw [afterAll_concat, hturns.find?_results (isSome_report?_afterAll hid steps), ih,
        List.findSome?_append, Option.or_assoc]
      simp

theorem isConsistent_afterAll (hstart : run.IsConsistent)
    (hagrees : ∀ before step, before ++ [step] <+: steps →
      ¬ (run.afterAll before).Contradicts step) : (run.afterAll steps).IsConsistent := by
  induction steps using List.reverseRecOn with
  | nil => exact hstart
  | append_singleton steps step ih =>
      obtain ⟨_, hturns, -⟩ := (run.afterAll steps).turns_after step
      rw [afterAll_concat]
      apply hturns.isConsistent
      · exact ih fun before other hbefore =>
          hagrees before other (hbefore.trans (List.prefix_append _ _))
      · exact hagrees steps step (List.prefix_refl _)

/-- **Failures are clean unless a result is committed twice.** Among the operations on a run, those
that fail leave it as it was exactly if no second result rewrites the report of the first; and the
committed results are always the reported ones exactly if none is ever reported differently. In any
case a failure changes nothing but reports, and the result table holds the first result that was
committed to each step. -/
theorem clean_failures_iff (runId : String) (graph : Graph) (payload : Fields)
    (mode : FailureMode) (observers : List Observer) (steps : List (Moment × RunOperation)) :
    let start := create runId graph payload mode observers
    ((∀ before step, before ++ [step] <+: steps → (start.afterAll before).Fails step →
          (start.afterAll before).after step = start.afterAll before) ↔
        ∀ before step, before ++ [step] <+: steps →
          ¬ (start.afterAll before).RewritesReport step) ∧
      ((∀ before, before <+: steps → (start.afterAll before).IsConsistent) ↔
        ∀ before step, before ++ [step] <+: steps →
          ¬ (start.afterAll before).Contradicts step) ∧
      (∀ step, (start.afterAll steps).Fails step →
        (start.afterAll steps).after step =
          { start.afterAll steps with reports := ((start.afterAll steps).after step).reports }) ∧
      ∀ id ∈ graph.ids, Table.find? (start.afterAll steps).results id =
        steps.findSome? (·.2.committed? id) := by
  intro start
  have hkeys : Table.keys start.reports = graph.ids :=
    (fresh_create runId graph payload mode observers).keys
  have hnodup (before : List (Moment × RunOperation)) :
      (Table.keys (start.afterAll before).reports).Nodup := by
    rw [keys_afterAll, hkeys]
    exact graph.nodup
  refine ⟨⟨?_, ?_⟩, ⟨?_, ?_⟩, ?_, ?_⟩
  · intro hclean before step hbefore hrewrites
    have hfails := fails_of_rewritesReport hrewrites
    have hself := hclean before step hbefore hfails
    exact (after_eq_self_iff (hnodup before) hfails).mp hself hrewrites
  · intro hnone before step hbefore hfails
    exact (after_eq_self_iff (hnodup before) hfails).mpr (hnone before step hbefore)
  · intro hconsistent before step hbefore hcontradicts
    obtain ⟨_, hturns, -⟩ := (start.afterAll before).turns_after step
    have hafter := hconsistent (before ++ [step]) hbefore
    rw [afterAll_concat] at hafter
    have hearlier := hconsistent before ((List.prefix_append before [step]).trans hbefore)
    exact hturns.not_isConsistent hearlier hcontradicts hafter
  · intro hagrees before hbefore
    have hstart : start.IsConsistent := fun _ _ hresult => by cases hresult
    exact isConsistent_afterAll hstart fun earlier step hearlier =>
      hagrees earlier step (hearlier.trans hbefore)
  · intro step hfails
    obtain ⟨isDone, hturns, hdone⟩ := (start.afterAll steps).turns_after step
    obtain rfl := hdone.mp hfails
    exact hturns.eq_of_fails
  · intro id hid
    have hknown : (start.report? id).isSome := by
      rw [report?, Table.find?_isSome_iff, hkeys]
      exact hid
    rw [find?_results_afterAll hknown steps]
    rfl

/-- A trigger and a step behind it. -/
def chained : Graph where
  definition :=
    { steps := [⟨"start", none, none, .trigger⟩,
        ⟨"next", none, none, .externalAction { serviceId := "service", actionId := "action" }⟩]
      edges := [⟨"start", "next"⟩] }
  trigger := ⟨"start", none, none, .trigger⟩
  nodup := by decide
  sound := by decide
  acyclic := by decide +kernel
  triggers_eq := by decide

/-- The second result is refused, but it is in the report. -/
theorem second_result_is_reported :
    let start := create "run" chained [] .failFast []
    let first : Moment × RunOperation := (.origin, .markCompleted "next" (.int 1) 1 true)
    let second : Moment × RunOperation := (.origin, .markCompleted "next" (.int 2) 1 true)
    (start.after first).Fails second ∧
      (start.after first).reportedResult? "next" = some (.int 1) ∧
      ((start.after first).after second).reportedResult? "next" = some (.int 2) ∧
      ¬ ((start.after first).after second).IsConsistent := by
  intro start first second
  have hreported : ((start.after first).after second).reportedResult? "next" = some (.int 2) := by
    decide +kernel
  refine ⟨⟨_, _, rfl⟩, by decide +kernel, hreported, fun hconsistent => ?_⟩
  have hrecorded := hconsistent "next" (.int 1) (by decide +kernel)
  rw [hreported] at hrecorded
  cases hrecorded

end Run

end Workflow
