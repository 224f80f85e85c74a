import Workflow.Proofs.Run.Invariant
import Workflow.Proofs.Graph.Reachability

/-!
# What the end of an invocation preserves

The step that has been running is reported first; then its result is committed and its children are
released, or its failure ends the run or holds back what the step leads to. Each of these keeps a
run coherent, and together they leave no ready step behind.
-/

namespace Workflow.Run

variable {run run' : Run} {now : Moment} {id : String} {outcome : Outcome}

/-! ### The report -/

theorem report?_closed (now : Moment) (id other : String) (outcome : Outcome) (run : Run) :
    (run.closed now id outcome).report? other =
      if other = id then (run.report? other).map (·.closedBy now outcome)
      else run.report? other :=
  report?_adjustReport _ id other _

theorem report?_closed_of_ne {other : String} (hne : other ≠ id) :
    (run.closed now id outcome).report? other = run.report? other := by
  rw [report?_closed, if_neg hne]

theorem report?_closed_self (hrunning : run.statusOf? id = some .running) (now : Moment)
    (outcome : Outcome) : ∃ report, run.report? id = some report ∧
      (run.closed now id outcome).report? id = some (report.closedBy now outcome) := by
  obtain ⟨report, hreport, -⟩ := statusOf?_eq_some_iff.mp hrunning
  refine ⟨report, hreport, ?_⟩
  rw [report?_closed, if_pos rfl, hreport]
  rfl

theorem statusOf?_closed (hrunning : run.statusOf? id = some .running) :
    (run.closed now id outcome).statusOf? id = some outcome.status := by
  obtain ⟨report, -, hclosed⟩ := report?_closed_self hrunning now outcome
  rw [statusOf?, hclosed]
  exact congrArg some (StepReport.status_closedBy now outcome report)

theorem statusOf?_closed_of_ne {other : String} (hne : other ≠ id) :
    (run.closed now id outcome).statusOf? other = run.statusOf? other := by
  rw [statusOf?, statusOf?, report?_closed_of_ne hne]

theorem hasLeftIdle_closed (hrunning : run.statusOf? id = some .running) (other : String) :
    (run.closed now id outcome).HasLeftIdle other ↔ run.HasLeftIdle other := by
  by_cases heq : other = id
  · subst heq
    exact iff_of_true (.of_eq (statusOf?_closed hrunning) (Outcome.status_ne_idle outcome))
      (.of_eq hrunning (by decide))
  · rw [HasLeftIdle, HasLeftIdle, statusOf?_closed_of_ne heq]

theorem Coherent.uncommitted_closed (h : Coherent run)
    (hrunning : run.statusOf? id = some .running) (now : Moment) (outcome : Outcome) :
    Uncommitted run (run.closed now id outcome) where
  id := rfl
  graph := rfl
  failureMode := rfl
  finished := fun hfinished => hfinished
  leftIdle := fun other hleft => (hasLeftIdle_closed hrunning other).mpr hleft
  processed := fun _ hmem => hmem
  results := fun _ _ hfind => hfind
  final := by
    intro other hmem
    refine report?_closed_of_ne ?_
    rintro rfl
    exact h.not_mem_processed_of_running hrunning hmem
  keys := Table.keys_adjust _ _ _
  sameResults := rfl
  sameProcessed := rfl
  blocked := rfl
  verdict := fun _ => ⟨rfl, rfl⟩

theorem Coherent.closed (h : Coherent run) (hrunning : run.statusOf? id = some .running)
    (now : Moment) (outcome : Outcome) : Coherent (run.closed now id outcome) := by
  refine h.uncommitted (h.uncommitted_closed hrunning now outcome)
    (fun other _ hleft => Or.inl ((hasLeftIdle_closed hrunning other).mp hleft))
    (fun other hmem => ?_) (h.nodup.filter _)
  obtain ⟨hmem, hne⟩ := List.mem_filter.mp hmem
  rw [statusOf?_closed_of_ne (by simpa using hne)]
  exact h.inFlight other hmem

/-- Closing a step makes no other step ready, and itself it is not. -/
theorem isReady_of_closed (hrunning : run.statusOf? id = some .running) {other : String}
    (hready : (run.closed now id outcome).isReady other = true) : run.isReady other = true := by
  obtain ⟨hprocessed, hblocked, hidle, hparents⟩ := isReady_iff.mp hready
  have hne : other ≠ id := by
    rintro rfl
    rw [statusOf?_closed hrunning] at hidle
    exact Outcome.status_ne_idle outcome (Option.some.inj hidle)
  rw [statusOf?_closed_of_ne hne] at hidle
  exact isReady_iff.mpr ⟨hprocessed, hblocked, hidle, hparents⟩

theorem Sound.closed (h : Sound run) (hrunning : run.statusOf? id = some .running)
    (now : Moment) (outcome : Outcome) : Sound (run.closed now id outcome) where
  toCoherent := h.toCoherent.closed hrunning now outcome
  exhausted := by
    refine h.exhausted.imp (fun haborted => ?_) (fun hnone other => ?_)
    · obtain ⟨hmode, failed, hmem, hfailed⟩ := haborted
      have hkept := (h.uncommitted_closed hrunning now outcome).statusOf? hmem
      exact ⟨hmode, failed, hmem, hkept.trans hfailed⟩
    · exact fun hready => hnone other (isReady_of_closed hrunning hready)

theorem Sound.discard (h : Sound run) {step : Step}
    (hrunning : run.statusOf? step.id = some .running) (now : Moment) (outcome : Outcome) :
    Sound (run.discard now step outcome) :=
  (h.closed hrunning now outcome).quiet (quiet_emit _ now _)

/-! ### Success -/

theorem Coherent.commit (h : Coherent run) {report : StepReport}
    (hreport : run.report? id = some report) (hcompleted : report.status = .completed)
    (hnew : id ∉ run.processed) : Coherent (run.commit id report.result) := by
  have hstatus : run.statusOf? id = some .completed :=
    statusOf?_eq_some_iff.mpr ⟨report, hreport, hcompleted⟩
  have hmem {other : String} :
      other ∈ (run.commit id report.result).processed ↔ other ∈ run.processed ∨ other = id :=
    mem_processed_addProcessed
  have hfailed {other : String} (hother : other ∈ (run.commit id report.result).processed)
      (hfailed : run.statusOf? other = some .failed) : other ∈ run.processed := by
    rcases hmem.mp hother with hbefore | rfl
    · exact hbefore
    · rw [hstatus] at hfailed
      cases hfailed
  constructor
  case keys => exact h.keys
  case fed =>
    intro other htrigger hleft
    obtain ⟨hparents, hfed⟩ := h.fed other htrigger hleft
    exact ⟨hparents, fun parent hparent =>
      ⟨hmem.mpr (Or.inl (hfed parent hparent).1), (hfed parent hparent).2⟩⟩
  case ended =>
    intro other hother
    rcases hmem.mp hother with hbefore | rfl
    · exact h.ended other hbefore
    · exact Or.inl hstatus
  case committed =>
    intro other result
    have hfind : Table.find? (run.commit id report.result).results other =
        if other = id then some report.result else Table.find? run.results other :=
      Table.find?_insert _ _ _ _
    rw [hfind, hmem]
    by_cases heq : other = id
    · subst heq
      have hsame : (run.commit other report.result).report? other = some report := hreport
      simp [hsame, hcompleted]
    · rw [if_neg heq, h.committed other result]
      simp only [heq, or_false]
      rfl
  case heldBack =>
    intro other
    refine (h.heldBack other).trans (and_congr_right fun _ => exists_congr fun failed => ?_)
    refine ⟨fun ⟨hbefore, hrest⟩ => ⟨hmem.mpr (Or.inl hbefore), hrest⟩, ?_⟩
    rintro ⟨hafter, hstatus', hpath⟩
    exact ⟨hfailed hafter hstatus', hstatus', hpath⟩
  case aborted =>
    intro hmode other hother hstatus'
    exact h.aborted hmode other (hfailed hother hstatus') hstatus'
  case single =>
    intro hmode other hother other' hother' hstatus' hstatus''
    exact h.single hmode other (hfailed hother hstatus') other' (hfailed hother' hstatus'')
      hstatus' hstatus''
  case inFlight => exact h.inFlight
  case nodup => exact h.nodup

theorem report?_dispatch (now : Moment) (step : Step) (run : Run) (other : String) :
    (run.dispatch now step).report? other =
      if other = step.id then (run.report? other).map (·.start now) else run.report? other :=
  report?_adjustReport run step.id other _

theorem statusOf?_dispatch_of_ne {step : Step} {other : String} (hne : other ≠ step.id) :
    (run.dispatch now step).statusOf? other = run.statusOf? other := by
  rw [statusOf?, statusOf?, report?_dispatch, if_neg hne]

theorem statusOf?_dispatch {step : Step} (hready : run.isReady step.id) :
    (run.dispatch now step).statusOf? step.id = some .running := by
  obtain ⟨report, hreport, -⟩ := statusOf?_eq_some_iff.mp (isReady_iff.mp hready).2.2.1
  rw [statusOf?, report?_dispatch, if_pos rfl, hreport]
  rfl

theorem uncommitted_dispatch {step : Step} (hready : run.isReady step.id) (now : Moment) :
    Uncommitted run (run.dispatch now step) where
  id := rfl
  graph := rfl
  failureMode := rfl
  finished := fun hfinished => hfinished
  leftIdle := by
    intro other hleft
    by_cases heq : other = step.id
    · exact .of_eq (heq ▸ statusOf?_dispatch hready) (by decide)
    · rwa [HasLeftIdle, statusOf?_dispatch_of_ne heq]
  processed := fun _ hmem => hmem
  results := fun _ _ hfind => hfind
  final := by
    intro other hmem
    rw [report?_dispatch, if_neg]
    rintro rfl
    exact (isReady_iff.mp hready).1 hmem
  keys := Table.keys_adjust _ _ _
  sameResults := rfl
  sameProcessed := rfl
  blocked := rfl
  verdict := fun _ => ⟨rfl, rfl⟩

/-- In an open run the parents of a ready step have completed. -/
theorem Coherent.fed_of_isReady (h : Coherent run) (hopen : run.isTerminated = false)
    (hready : run.isReady id) : run.graph.parents id ≠ [] ∧ ∀ parent ∈ run.graph.parents id,
      parent ∈ run.processed ∧ run.statusOf? parent = some .completed := by
  obtain ⟨-, hblocked, -, hparents, hall⟩ := isReady_iff.mp hready
  refine ⟨hparents, fun parent hparent => ⟨hall parent hparent, ?_⟩⟩
  refine (h.ended parent (hall parent hparent)).resolve_right fun hfailed => ?_
  -- A parent that has failed would have ended the run, or held the step back.
  cases hmode : run.failureMode with
  | failFast => exact h.not_isAborted hopen ⟨hmode, parent, hall parent hparent, hfailed⟩
  | proceed =>
      exact hblocked ((h.heldBack id).mpr ⟨hmode, parent, hall parent hparent, hfailed,
        .single (Graph.leads_iff_mem_parents.mpr hparent)⟩)

theorem Coherent.ne_trigger_of_isReady (h : Coherent run) (hopen : run.isTerminated = false)
    (hready : run.isReady id) : id ≠ run.graph.trigger.id := by
  rintro rfl
  obtain ⟨hparents, hfed⟩ := h.fed_of_isReady hopen hready
  obtain ⟨parent, hparent⟩ := List.exists_mem_of_ne_nil _ hparents
  have hbegun := (h.trigger_leadsTo (.of_eq (hfed parent hparent).2 (by decide))).1
  exact hbegun.not_idle (isReady_iff.mp hready).2.2.1

theorem Coherent.dispatch (h : Coherent run) {step : Step} (hopen : run.isTerminated = false)
    (hready : run.isReady step.id) (now : Moment) : Coherent (run.dispatch now step) := by
  have hidle := (isReady_iff.mp hready).2.2.1
  have hidle_ne {other : String} (hmem : other ∈ run.inFlight) : other ≠ step.id := by
    rintro rfl
    have hrunning := (h.inFlight _ hmem).2
    rw [hidle] at hrunning
    cases hrunning
  refine h.uncommitted (uncommitted_dispatch hready now) (fun other _ hleft => ?_)
    (fun other hmem => ?_) ?_
  · by_cases heq : other = step.id
    · exact Or.inr (heq ▸ h.fed_of_isReady hopen hready)
    · rw [HasLeftIdle, statusOf?_dispatch_of_ne heq] at hleft
      exact Or.inl hleft
  · rcases List.mem_append.mp hmem with hbefore | hnew
    · rw [statusOf?_dispatch_of_ne (hidle_ne hbefore)]
      exact h.inFlight other hbefore
    · obtain rfl := List.mem_singleton.mp hnew
      exact ⟨h.ne_trigger_of_isReady hopen hready, statusOf?_dispatch hready⟩
  · refine List.nodup_append.mpr
      ⟨h.nodup, List.nodup_cons.mpr ⟨List.not_mem_nil, List.nodup_nil⟩, ?_⟩
    rintro other hbefore _ hnew rfl
    exact hidle_ne hbefore (List.mem_singleton.mp hnew)

/-- Of distinct ready steps, releasing the first leaves the others ready. -/
theorem isReady_dispatch_of_nodup {step : Step} {steps : List Step}
    (hnodup : ((step :: steps).map (·.id)).Nodup) (hready : ∀ other ∈ steps, run.isReady other.id)
    (now : Moment) : ∀ other ∈ steps, (run.dispatch now step).isReady other.id := by
  intro other hother
  have hne : other.id ≠ step.id := by
    intro heq
    rw [List.map_cons, List.nodup_cons] at hnodup
    exact hnodup.1 (heq ▸ List.mem_map_of_mem hother)
  rw [isReady_dispatch_of_ne hne]
  exact hready other hother

theorem Coherent.dispatchAll (h : Coherent run) (steps : List Step)
    (hopen : run.isTerminated = false) (hnodup : (steps.map (·.id)).Nodup)
    (hready : ∀ step ∈ steps, run.isReady step.id) (now : Moment) :
    Coherent (run.dispatchAll now steps) := by
  induction steps generalizing run with
  | nil => exact h
  | cons step steps ih =>
      obtain ⟨hfirst, hrest⟩ := List.forall_mem_cons.mp hready
      exact ih (h.dispatch hopen hfirst now) hopen hnodup.of_cons
        (isReady_dispatch_of_nodup hnodup hrest now)

theorem advances_dispatchAll (steps : List Step) (hnodup : (steps.map (·.id)).Nodup)
    (hready : ∀ step ∈ steps, run.isReady step.id) (now : Moment) :
    Advances run (run.dispatchAll now steps) := by
  induction steps generalizing run with
  | nil => exact Advances.refl run
  | cons step steps ih =>
      obtain ⟨hfirst, hrest⟩ := List.forall_mem_cons.mp hready
      exact (uncommitted_dispatch hfirst now).toAdvances.trans
        (ih hnodup.of_cons (isReady_dispatch_of_nodup hnodup hrest now))

/-- Committing the result of a step makes only children of the step ready. -/
theorem leads_of_isReady_commit {result : Value} {other : String} (hnot : ¬ run.isReady other)
    (hready : (run.commit id result).isReady other) : run.graph.Leads id other := by
  obtain ⟨hprocessed, hblocked, hidle, hparents, hall⟩ := isReady_iff.mp hready
  by_contra hleads
  refine hnot (isReady_iff.mpr
    ⟨fun hmem => ?_, hblocked, hidle, hparents, fun parent hparent => ?_⟩)
  · exact hprocessed (mem_processed_addProcessed.mpr (Or.inl hmem))
  · refine (mem_processed_addProcessed.mp (hall parent hparent)).resolve_right ?_
    rintro rfl
    exact hleads (Graph.leads_iff_mem_parents.mpr hparent)

theorem map_id_filterMap_step? {g : Graph} {ids : List String} (hids : ∀ id ∈ ids, id ∈ g.ids) :
    (ids.filterMap g.step?).map (·.id) = ids := by
  induction ids with
  | nil => rfl
  | cons id ids ih =>
      obtain ⟨step, hstep, hid⟩ := Graph.step?_eq_some_of_mem (hids id List.mem_cons_self)
      rw [List.filterMap_cons, hstep, List.map_cons, hid,
        ih fun other hother => hids other (List.mem_cons_of_mem id hother)]

theorem mem_released_iff {child : String} : child ∈ run.released id ↔
    run.graph.Leads id child ∧ run.acceptsDispatches ∧ run.isReady child := by
  rw [released, List.mem_filter, Bool.and_eq_true]
  rfl

theorem ids_released (run : Run) (id : String) :
    ((run.released id).filterMap run.graph.step?).map (·.id) = run.released id :=
  map_id_filterMap_step? fun _ hchild => (Graph.mem_ids_of_leads (mem_released_iff.mp hchild).1).2

theorem nodup_released (run : Run) (id : String) : (run.released id).Nodup :=
  (Graph.nodup_children id).filter _

theorem isReady_of_mem_steps_released {step : Step}
    (hstep : step ∈ (run.released id).filterMap run.graph.step?) : run.isReady step.id := by
  have hmem : step.id ∈ run.released id := ids_released run id ▸ List.mem_map_of_mem hstep
  exact (mem_released_iff.mp hmem).2.2

/-- When only children of a step are ready, releasing its children leaves nothing ready behind. -/
theorem Coherent.dispatchReleased (h : Coherent run) (id : String)
    (hstatus : run.status = .running)
    (hleads : ∀ other, run.isReady other → run.graph.Leads id other) (now : Moment) :
    Sound (run.dispatchAll now ((run.released id).filterMap run.graph.step?)) := by
  have hopen : run.isTerminated = false := by rw [isTerminated, hstatus]; rfl
  have haccepts : run.acceptsDispatches = true := decide_eq_true hstatus
  have hreport := report?_dispatchAll now ((run.released id).filterMap run.graph.step?) run
  rw [ids_released] at hreport
  refine ⟨h.dispatchAll _ hopen ((ids_released run id).symm ▸ nodup_released run id)
    (fun _ hstep => isReady_of_mem_steps_released hstep) now, Or.inr fun other hready => ?_⟩
  rw [isReady_iff, statusOf?, hreport, dispatchAll_eq] at hready
  obtain ⟨hprocessed, hblocked, hidle, hparents⟩ := hready
  by_cases hother : other ∈ run.released id
  · rw [if_pos hother, Option.map_map, Option.map_eq_some_iff] at hidle
    obtain ⟨report, -, hstart⟩ := hidle
    cases hstart
  · rw [if_neg hother] at hidle
    have hbefore : run.isReady other := isReady_iff.mpr ⟨hprocessed, hblocked, hidle, hparents⟩
    exact hother (mem_released_iff.mpr ⟨hleads other hbefore, haccepts, hbefore⟩)

theorem Sound.succeed (h : Sound run) {step : Step} {result : Value}
    (hrunning : run.statusOf? step.id = some .running) (hstatus : run.status = .running)
    (hresult : outcome.result = .ok result) (now : Moment) :
    Sound (run.succeed now step outcome result) := by
  have hopen : run.isTerminated = false := by rw [isTerminated, hstatus]; rfl
  have hnone := h.exhausted.resolve_left (h.not_isAborted hopen)
  obtain ⟨report, -, hclosed⟩ := report?_closed_self hrunning now outcome
  obtain ⟨hcompleted, hvalue⟩ : (report.closedBy now outcome).status = .completed ∧
      (report.closedBy now outcome).result = result := by
    rw [StepReport.closedBy, hresult]
    exact ⟨rfl, rfl⟩
  have hcommit : Coherent ((run.closed now step.id outcome).commit step.id result) :=
    hvalue ▸ (h.toCoherent.closed hrunning now outcome).commit hclosed hcompleted
      (h.not_mem_processed_of_running hrunning)
  have hnot (other : String) : ¬ (run.closed now step.id outcome).isReady other :=
    fun hready => hnone other (isReady_of_closed hrunning hready)
  have hreleased := hcommit.dispatchReleased step.id hstatus
    (fun other => leads_of_isReady_commit (hnot other)) now
  rw [Run.succeed]
  exact hreleased.quiet (quiet_settleIfIdle _)

/-! ### Failure -/

/-- The failure of a step is committed, and the run is told to end or what the step leads to is held
back. -/
theorem Coherent.commitFailure (h : Coherent run) {report : StepReport}
    (hreport : run.report? id = some report) (hfailed : report.status = .failed)
    (hnew : id ∉ run.processed) (hopen : run.isTerminated = false)
    (hgraph : run'.graph = run.graph) (hmode : run'.failureMode = run.failureMode)
    (hreports : run'.reports = run.reports) (hresults : run'.results = run.results)
    (hprocessed : run'.processed = (run.addProcessed id).processed)
    (hinFlight : run'.inFlight = run.inFlight)
    (hblocked : ∀ other, other ∈ run'.blocked ↔
      other ∈ run.blocked ∨ run.failureMode = .proceed ∧ run.graph.LeadsTo id other)
    (hverdict : run.failureMode = .failFast →
      run'.status = .failed ∧ run'.errorCode = report.errorCode) : Coherent run' := by
  have hstatus : run.statusOf? id = some .failed :=
    statusOf?_eq_some_iff.mpr ⟨report, hreport, hfailed⟩
  have hmem {other : String} : other ∈ run'.processed ↔ other ∈ run.processed ∨ other = id := by
    rw [hprocessed, mem_processed_addProcessed]
  have hreport' (other : String) : run'.report? other = run.report? other := by
    rw [Run.report?, Run.report?, hreports]
  have hstatus' (other : String) : run'.statusOf? other = run.statusOf? other := by
    rw [Run.statusOf?, Run.statusOf?, hreport']
  have hlast (hfast : run.failureMode = .failFast) {other : String}
      (hother : other ∈ run'.processed) (hfailed' : run'.statusOf? other = some .failed) :
      other = id := by
    rw [hstatus'] at hfailed'
    exact (hmem.mp hother).resolve_left fun hbefore =>
      h.not_isAborted hopen ⟨hfast, other, hbefore, hfailed'⟩
  constructor
  case keys => rw [hreports, hgraph, h.keys]
  case fed =>
    intro other htrigger hleft
    rw [hgraph] at htrigger ⊢
    rw [HasLeftIdle, hstatus'] at hleft
    obtain ⟨hparents, hfed⟩ := h.fed other htrigger hleft
    refine ⟨hparents, fun parent hparent => ?_⟩
    rw [hstatus']
    exact ⟨hmem.mpr (Or.inl (hfed parent hparent).1), (hfed parent hparent).2⟩
  case ended =>
    intro other hother
    rw [hstatus']
    rcases hmem.mp hother with hbefore | rfl
    · exact h.ended other hbefore
    · exact Or.inr hstatus
  case committed =>
    intro other result
    rw [hresults, hmem, hreport', h.committed other result]
    by_cases heq : other = id
    · subst heq
      simp [hnew, hreport, hfailed]
    · simp [heq]
  case heldBack =>
    intro other
    rw [hblocked, hmode, hgraph, h.heldBack other, ← and_or_left]
    refine and_congr_right fun _ => ?_
    constructor
    · rintro (⟨failed, hbefore, hfailed', hpath⟩ | hpath)
      · exact ⟨failed, hmem.mpr (Or.inl hbefore), (hstatus' failed).trans hfailed', hpath⟩
      · exact ⟨id, hmem.mpr (Or.inr rfl), (hstatus' id).trans hstatus, hpath⟩
    · rintro ⟨failed, hafter, hfailed', hpath⟩
      rcases hmem.mp hafter with hbefore | rfl
      · exact Or.inl ⟨failed, hbefore, (hstatus' failed).symm.trans hfailed', hpath⟩
      · exact Or.inr hpath
  case aborted =>
    intro hfast other hother hfailed'
    rw [hmode] at hfast
    obtain rfl := hlast hfast hother hfailed'
    exact ⟨(hverdict hfast).1, report, (hreport' _).trans hreport, (hverdict hfast).2⟩
  case single =>
    intro hfast other hother other' hother' hfailed' hfailed''
    rw [hmode] at hfast
    rw [hlast hfast hother hfailed', hlast hfast hother' hfailed'']
  case inFlight =>
    intro other hother
    rw [hgraph, hstatus']
    exact h.inFlight other (hinFlight ▸ hother)
  case nodup => exact hinFlight ▸ h.nodup

theorem finish_of_open (hopen : run.isTerminated = false) (status : RunStatus)
    (error errorCode : Option String) :
    run.finish status error errorCode =
      { run with status, error, errorCode, isFinished := true } := by
  rw [Run.finish, hopen]
  rfl

theorem closedBy_of_error (now : Moment) {e : StepError}
    (hresult : outcome.result = .error e)
    (hcode : e.code ≠ "") (report : StepReport) :
    (report.closedBy now outcome).status = .failed ∧
      (report.closedBy now outcome).errorCode = some e.code := by
  rw [StepReport.closedBy, hresult]
  exact ⟨rfl, congrArg some (if_neg hcode)⟩

theorem Sound.abort (h : Sound run) {step : Step} {e : StepError}
    (hrunning : run.statusOf? step.id = some .running) (hopen : run.isTerminated = false)
    (hmode : run.failureMode = .failFast) (hresult : outcome.result = .error e)
    (hcode : e.code ≠ "") (now : Moment) : Sound (run.abort now step outcome e) := by
  obtain ⟨report, -, hclosed⟩ := report?_closed_self hrunning now outcome
  obtain ⟨hfailed, hcode'⟩ := closedBy_of_error now hresult hcode report
  have hnew : step.id ∉ (run.closed now step.id outcome).processed :=
    h.not_mem_processed_of_running hrunning
  rw [Run.abort, finish_of_open]
  case hopen => exact hopen
  refine ⟨(h.toCoherent.closed hrunning now outcome).commitFailure hclosed hfailed hnew hopen
    rfl rfl rfl rfl rfl rfl ?_ ?_, Or.inl ⟨hmode, step.id, ?_, ?_⟩⟩
  · intro other
    simp [hmode, Run.closed, leaveFlight, adjustReport, addProcessed, Run.emit]
  · exact fun _ => ⟨rfl, hcode'.symm⟩
  · exact mem_processed_addProcessed.mpr (Or.inr rfl)
  · exact statusOf?_eq_some_iff.mpr ⟨_, hclosed, hfailed⟩

/-- A step that a failed step leads to has not left the idle status, so it is not processed. -/
theorem Coherent.not_mem_processed_of_leadsTo (h : Coherent run) {other : String}
    (hfailed : run.statusOf? id = some .failed) (hpath : run.graph.LeadsTo id other) :
    other ∉ run.processed := by
  intro hmem
  have hother : run.HasLeftIdle other := by
    rcases h.ended other hmem with hstatus | hstatus
    · exact .of_eq hstatus (by decide)
    · exact .of_eq hstatus (by decide)
  have hcompleted := h.completed_of_leadsTo hpath (.of_eq hfailed (by decide)) hother
  rw [hfailed] at hcompleted
  cases hcompleted

theorem Sound.holdBack (h : Sound run) {step : Step} {e : StepError}
    (hrunning : run.statusOf? step.id = some .running) (hopen : run.isTerminated = false)
    (hmode : run.failureMode = .proceed) (hresult : outcome.result = .error e)
    (hcode : e.code ≠ "") (now : Moment) : Sound (run.holdBack now step outcome) := by
  obtain ⟨report, -, hclosed⟩ := report?_closed_self hrunning now outcome
  obtain ⟨hfailed, -⟩ := closedBy_of_error now hresult hcode report
  have hcoherent := h.toCoherent.closed hrunning now outcome
  have hnew : step.id ∉ (run.closed now step.id outcome).processed :=
    h.not_mem_processed_of_running hrunning
  have hbehind {other : String} (hpath : run.graph.LeadsTo step.id other) :
      other ∉ ((run.closed now step.id outcome).addProcessed step.id).processed := by
    rw [mem_processed_addProcessed, not_or]
    refine ⟨hcoherent.not_mem_processed_of_leadsTo ?_ hpath, ?_⟩
    · exact statusOf?_eq_some_iff.mpr ⟨_, hclosed, hfailed⟩
    · rintro rfl
      exact Graph.not_leadsTo_self _ hpath
  have hbehind' (other : String) :
      other ∈ ((run.closed now step.id outcome).addProcessed step.id).behind step.id ↔
        run.graph.LeadsTo step.id other := by
    rw [behind, List.mem_filter]
    refine (and_congr_left' Graph.mem_descendants_iff).trans (and_iff_left_of_imp fun hpath => ?_)
    simpa using hbehind hpath
  have hblocked : Coherent (((run.closed now step.id outcome).addProcessed step.id).block
      (((run.closed now step.id outcome).addProcessed step.id).behind step.id)) := by
    refine hcoherent.commitFailure hclosed hfailed hnew hopen rfl rfl rfl rfl rfl rfl ?_ ?_
    · intro other
      rw [mem_blocked_block, hbehind' other]
      exact or_congr_right (iff_and_self.mpr fun _ => hmode)
    · intro hfast
      rw [show (run.closed now step.id outcome).failureMode = .proceed from hmode] at hfast
      cases hfast
  have hsound : Sound (((run.closed now step.id outcome).addProcessed step.id).block
      (((run.closed now step.id outcome).addProcessed step.id).behind step.id)) := by
    refine ⟨hblocked, Or.inr fun other hready => ?_⟩
    obtain ⟨hprocessed, hfree, hidle, hparents, hall⟩ := isReady_iff.mp hready
    rw [mem_blocked_block, hbehind' other, not_or] at hfree
    have hne {parent : String} (hparent : parent ∈ run.graph.parents other) : parent ≠ step.id := by
      rintro rfl
      exact hfree.2 (.single (Graph.leads_iff_mem_parents.mpr hparent))
    refine h.exhausted.resolve_left (h.not_isAborted hopen) other ?_
    have hbefore : (run.closed now step.id outcome).isReady other := by
      refine isReady_iff.mpr
        ⟨fun hmem => ?_, hfree.1, hidle, hparents, fun parent hparent => ?_⟩
      · exact hprocessed (mem_processed_addProcessed.mpr (Or.inl hmem))
      · exact (mem_processed_addProcessed.mp (hall parent hparent)).resolve_right (hne hparent)
    exact isReady_of_closed hrunning hbefore
  unfold Run.holdBack
  refine Sound.quiet ?_ (quiet_settleIfIdle _)
  split
  · exact hsound
  · exact hsound.quiet (quiet_emit _ now _)

/-! ### The beginning -/

theorem Fresh.statusOf?_begun (h : Fresh run) (now : Moment) (other : String) :
    (run.begun now).statusOf? other =
      if other = run.graph.trigger.id then some .running else run.statusOf? other := by
  have hreport : (run.begun now).report? other =
      if other = run.graph.trigger.id then (run.report? other).map (·.start now)
      else run.report? other := report?_adjustReport run _ other _
  rw [statusOf?, hreport]
  by_cases heq : other = run.graph.trigger.id
  · obtain ⟨report, hfound, -⟩ :=
      statusOf?_eq_some_iff.mp (h.idle _ (heq ▸ Graph.trigger_mem_ids (g := run.graph)))
    rw [if_pos heq, if_pos heq, hfound]
    rfl
  · rw [if_neg heq, if_neg heq]
    rfl

theorem Fresh.hasLeftIdle_begun_iff (h : Fresh run) {other : String} :
    (run.begun now).HasLeftIdle other ↔ other = run.graph.trigger.id := by
  rw [HasLeftIdle, h.statusOf?_begun]
  by_cases heq : other = run.graph.trigger.id
  · rw [if_pos heq]
    exact iff_of_true ⟨_, rfl, by decide⟩ heq
  · rw [if_neg heq]
    exact iff_of_false h.not_hasLeftIdle heq

theorem Fresh.uncommitted_begun (h : Fresh run) (now : Moment) :
    Uncommitted run (run.begun now) where
  id := rfl
  graph := rfl
  failureMode := rfl
  finished := fun hfinished => hfinished
  leftIdle := fun _ hleft => absurd hleft h.not_hasLeftIdle
  processed := fun _ hmem => hmem
  results := fun _ _ hfind => hfind
  final := by
    intro other hmem
    rw [h.processed] at hmem
    cases hmem
  keys := Table.keys_adjust _ _ _
  sameResults := rfl
  sameProcessed := rfl
  blocked := rfl
  verdict := fun _ => ⟨rfl, rfl⟩

theorem Fresh.begun (h : Fresh run) (now : Moment) : Sound (run.begun now) where
  toCoherent := by
    have hinFlight : (run.begun now).inFlight = [] := h.inFlight
    refine h.sound.toCoherent.uncommitted (h.uncommitted_begun now)
      (fun other htrigger hleft => ?_) (by simp [hinFlight]) (by simp [hinFlight])
    exact absurd (h.hasLeftIdle_begun_iff.mp hleft) htrigger
  exhausted := Or.inr fun _ => not_isReady_of_processed_eq_nil h.processed

theorem Fresh.begin_run (h : Fresh run) (hopen : run.isTerminated = false) (now : Moment) :
    (Change.begin now).run run = .ok true ((run.introduce now).begun now) := by
  obtain ⟨report, hreport, hidle⟩ := statusOf?_eq_some_iff.mp (h.idle _ Graph.trigger_mem_ids)
  exact Change.begin_run_open hopen hreport hidle

/-! ### Every completion -/

/-- What becomes of a run when the invocation of a step ends, and which steps it releases. -/
inductive Completes (now : Moment) (step : Step) (outcome : Outcome) (run : Run) :
    List String → Run → Prop
  | late (hended : run.isTerminated = true) :
    Completes now step outcome run [] (run.discard now step outcome)
  | succeeded (result : Value) (hstatus : run.status = .running)
    (hresult : outcome.result = .ok result) :
    Completes now step outcome run
      (((run.closed now step.id outcome).commit step.id result).released step.id)
      (run.succeed now step outcome result)
  | aborted (e : StepError) (hstatus : run.status = .running) (hmode : run.failureMode = .failFast)
    (hresult : outcome.result = .error e) :
    Completes now step outcome run [] (run.abort now step outcome e)
  | heldBack (e : StepError) (hstatus : run.status = .running)
    (hmode : run.failureMode = .proceed) (hresult : outcome.result = .error e) :
    Completes now step outcome run [] (run.holdBack now step outcome)

/-- The completion of a running step never fails. -/
theorem Sound.complete_run (h : Sound run) {step : Step} (hpending : run.status ≠ .pending)
    (hrunning : run.statusOf? step.id = some .running) (now : Moment) (outcome : Outcome) :
    ∃ released run', (Change.complete now step outcome).run run = .ok released run' ∧
      Completes now step outcome run released run' := by
  have hreport : (run.report? step.id).isSome := by
    obtain ⟨report, hreport, -⟩ := statusOf?_eq_some_iff.mp hrunning
    rw [hreport]
    rfl
  by_cases hended : run.isTerminated
  · exact ⟨_, _, Change.complete_run_late hreport hended, .late hended⟩
  · rw [Bool.not_eq_true] at hended
    have hstatus : run.status = .running := by
      rw [isTerminated] at hended
      cases hstatus : run.status <;> simp_all [RunStatus.isTerminal]
    cases hresult : outcome.result with
    | ok result =>
        have hfresh : Table.find? run.results step.id = none := by
          by_contra hsome
          obtain ⟨value, hvalue⟩ := Option.ne_none_iff_exists'.mp hsome
          exact h.not_mem_processed_of_running hrunning ((h.committed _ _).mp hvalue).1
        have hsteps : ∀ child ∈ run.graph.children step.id, (run.graph.step? child).isSome := by
          intro child hchild
          obtain ⟨found, hfound, -⟩ :=
            Graph.step?_eq_some_of_mem (Graph.mem_ids_of_leads hchild).2
          rw [hfound]
          rfl
        exact ⟨_, _, Change.complete_run_ok hresult hreport hfresh hended hsteps,
          .succeeded result hstatus hresult⟩
    | error e =>
        cases hmode : run.failureMode with
        | failFast =>
            exact ⟨_, _, Change.complete_run_failFast hresult hreport hended hmode,
              .aborted e hstatus hmode hresult⟩
        | proceed =>
            exact ⟨_, _, Change.complete_run_proceed hresult hreport hended hmode,
              .heldBack e hstatus hmode hresult⟩

theorem Sound.completes (h : Sound run) {step : Step} (hpending : run.status ≠ .pending)
    (hrunning : run.statusOf? step.id = some .running) (now : Moment) (outcome : Outcome) :
    Completes now step outcome run (run.applyFor step.id (Change.complete now step outcome)).1
      (run.applyFor step.id (Change.complete now step outcome)).2 := by
  obtain ⟨released, run', hcomplete, hcompletes⟩ := h.complete_run hpending hrunning now outcome
  rw [applyFor, hcomplete]
  exact hcompletes

theorem Sound.of_completes (h : Sound run) {step : Step} {released : List String}
    (hrunning : run.statusOf? step.id = some .running)
    (hcode : ∀ e, outcome.result = .error e → e.code ≠ "")
    (hcompletes : Completes now step outcome run released run') : Sound run' := by
  have hopen (hstatus : run.status = .running) : run.isTerminated = false := by
    rw [isTerminated, hstatus]
    rfl
  cases hcompletes with
  | late hended => exact h.discard hrunning now outcome
  | succeeded result hstatus hresult => exact h.succeed hrunning hstatus hresult now
  | aborted e hstatus hmode hresult =>
      exact h.abort hrunning (hopen hstatus) hmode hresult (hcode e hresult) now
  | heldBack e hstatus hmode hresult =>
      exact h.holdBack hrunning (hopen hstatus) hmode hresult (hcode e hresult) now

/-! ### What a completion changes -/

namespace Completes

variable {step : Step} {released : List String}

theorem report? (h : Completes now step outcome run released run') (other : String) :
    run'.report? other =
      if other ∈ released then
        ((run.closed now step.id outcome).report? other).map (·.start now)
      else (run.closed now step.id outcome).report? other := by
  cases h with
  | late =>
      rw [if_neg List.not_mem_nil]
      rfl
  | succeeded =>
      refine ((quiet_settleIfIdle _).report? other).trans ?_
      rw [report?_dispatchAll, ids_released]
      rfl
  | aborted =>
      rw [if_neg List.not_mem_nil]
      exact (quiet_finish rfl _ _ _).report? other
  | heldBack =>
      rw [if_neg List.not_mem_nil]
      refine ((quiet_settleIfIdle _).report? other).trans ?_
      split <;> rfl

theorem of_isTerminated (h : Completes now step outcome run released run')
    (hended : run.isTerminated = true) :
    released = [] ∧ run' = run.discard now step outcome := by
  have hopen (hstatus : run.status = .running) : False := by
    rw [isTerminated, hstatus] at hended
    cases hended
  cases h with
  | late => exact ⟨rfl, rfl⟩
  | succeeded result hstatus => exact (hopen hstatus).elim
  | aborted e hstatus => exact (hopen hstatus).elim
  | heldBack e hstatus => exact (hopen hstatus).elim

/-- A run that has ended stays so. -/
theorem isOpen (h : Completes now step outcome run released run')
    (hopen' : run'.isTerminated = false) : run.isTerminated = false := by
  by_contra hended
  obtain ⟨-, rfl⟩ := h.of_isTerminated (Bool.not_eq_false _ ▸ hended)
  exact hended hopen'

theorem nodup (h : Completes now step outcome run released run') : released.Nodup := by
  cases h with
  | succeeded => exact nodup_released _ _
  | late => exact List.nodup_nil
  | aborted => exact List.nodup_nil
  | heldBack => exact List.nodup_nil

/-- An open run stays as open as it was, or ends. -/
theorem verdict (h : Completes now step outcome run released run') :
    (run'.status = run.status ∧ run'.isFinished = run.isFinished) ∨ run'.isTerminated = true := by
  have hsettled {before : Run} (hstatus : before.status = run.status)
      (hfinished : before.isFinished = run.isFinished) :
      (before.settleIfIdle.status = run.status ∧ before.settleIfIdle.isFinished = run.isFinished) ∨
        before.settleIfIdle.isTerminated = true := by
    rcases (quiet_settleIfIdle before).verdict with ⟨hstatus', -, -, hfinished'⟩ | ⟨-, hended, -⟩
    · exact Or.inl ⟨hstatus'.trans hstatus, hfinished'.trans hfinished⟩
    · exact Or.inr hended
  cases h with
  | late hended => exact Or.inr hended
  | succeeded => exact hsettled (by rw [dispatchAll_eq]; rfl) (by rw [dispatchAll_eq]; rfl)
  | aborted e hstatus =>
      rw [abort, finish_of_open]
      · exact Or.inr rfl
      · rw [isTerminated]
        exact congrArg RunStatus.isTerminal hstatus
  | heldBack => exact hsettled (by split <;> rfl) (by split <;> rfl)

theorem status_ne_pending (h : Completes now step outcome run released run')
    (hpending : run.status ≠ .pending) : run'.status ≠ .pending := by
  rcases h.verdict with ⟨hstatus, -⟩ | hended
  · exact hstatus ▸ hpending
  · intro hpending
    rw [isTerminated, hpending] at hended
    cases hended

/-- A released step was idle, and the step that releases it is not among those released. -/
theorem idle_of_mem_released (h : Completes now step outcome run released run')
    (hrunning : run.statusOf? step.id = some .running) {other : String}
    (hother : other ∈ released) : other ≠ step.id ∧ run.statusOf? other = some .idle := by
  cases h with
  | succeeded =>
      have hidle : (run.closed now step.id outcome).statusOf? other = some .idle :=
        (isReady_iff.mp (mem_released_iff.mp hother).2.2).2.2.1
      have hne : other ≠ step.id := by
        rintro rfl
        rw [statusOf?_closed hrunning] at hidle
        exact Outcome.status_ne_idle outcome (Option.some.inj hidle)
      exact ⟨hne, (statusOf?_closed_of_ne hne).symm.trans hidle⟩
  | late => cases hother
  | aborted => cases hother
  | heldBack => cases hother

theorem statusOf? (h : Completes now step outcome run released run')
    (hrunning : run.statusOf? step.id = some .running) (other : String) :
    run'.statusOf? other =
      if other = step.id then some outcome.status
      else if other ∈ released then some .running else run.statusOf? other := by
  rw [Run.statusOf?, h.report?]
  by_cases hmem : other ∈ released
  · obtain ⟨hne, hidle⟩ := h.idle_of_mem_released hrunning hmem
    obtain ⟨report, hreport, -⟩ := statusOf?_eq_some_iff.mp hidle
    rw [if_pos hmem, if_neg hne, if_pos hmem, report?_closed_of_ne hne, hreport]
    rfl
  · rw [if_neg hmem, if_neg hmem]
    by_cases heq : other = step.id
    · rw [if_pos heq, heq]
      exact statusOf?_closed hrunning
    · rw [if_neg heq]
      exact statusOf?_closed_of_ne heq

/-- Released is what leaves the idle status with the completion. -/
theorem mem_released_iff (h : Completes now step outcome run released run')
    (hrunning : run.statusOf? step.id = some .running) {other : String} :
    other ∈ released ↔ run.statusOf? other = some .idle ∧ run'.HasLeftIdle other := by
  have hstatus := h.statusOf? hrunning other
  constructor
  · intro hmem
    obtain ⟨hne, hidle⟩ := h.idle_of_mem_released hrunning hmem
    rw [if_neg hne, if_pos hmem] at hstatus
    exact ⟨hidle, .of_eq hstatus (by decide)⟩
  · rintro ⟨hidle, hleft⟩
    by_contra hmem
    have hne : other ≠ step.id := by
      rintro rfl
      rw [hrunning] at hidle
      cases hidle
    rw [if_neg hne, if_neg hmem, hidle] at hstatus
    exact hleft.not_idle hstatus

theorem advances (h : Completes now step outcome run released run') (hsound : Sound run)
    (hrunning : run.statusOf? step.id = some .running) : Advances run run' := by
  have hclosed := (hsound.uncommitted_closed hrunning now outcome).toAdvances
  have hnew := hsound.not_mem_processed_of_running hrunning
  have hprocessed : ∀ other ∈ run.processed, other ∈ (run.addProcessed step.id).processed :=
    fun other hmem => mem_processed_addProcessed.mpr (Or.inl hmem)
  cases h with
  | late => exact hclosed.trans (quiet_emit _ now _).advances
  | succeeded result =>
      have hcommit : Advances (run.closed now step.id outcome)
          ((run.closed now step.id outcome).commit step.id result) := by
        refine ⟨rfl, rfl, rfl, fun hfinished => hfinished, fun _ hleft => hleft, hprocessed,
          fun other value hfind => ?_, fun _ _ => rfl⟩
        have hne : other ≠ step.id := by
          rintro rfl
          exact hnew ((hsound.committed _ value).mp hfind).1
        exact (Table.find?_insert _ _ _ _).trans ((if_neg hne).trans hfind)
      exact hclosed.trans (hcommit.trans ((advances_dispatchAll _
        ((ids_released _ step.id).symm ▸ nodup_released _ step.id)
        (fun _ hstep => isReady_of_mem_steps_released hstep) now).trans
          (quiet_settleIfIdle _).advances))
  | aborted =>
      refine hclosed.trans (Advances.trans ?_ (quiet_finish rfl _ _ _).advances)
      exact ⟨rfl, rfl, rfl, fun hfinished => hfinished, fun _ hleft => hleft, hprocessed,
        fun _ _ hfind => hfind, fun _ _ => rfl⟩
  | heldBack =>
      refine hclosed.trans (Advances.trans ?_ (quiet_settleIfIdle _).advances)
      split <;>
        exact ⟨rfl, rfl, rfl, fun hfinished => hfinished, fun _ hleft => hleft, hprocessed,
          fun _ _ hfind => hfind, fun _ _ => rfl⟩

end Completes

end Workflow.Run
