import Workflow.Proofs.Run.Operations

/-!
# The invariant of a run

A step leaves the idle status only after all its parents have completed, and what a run knows of
its steps hangs together: results belong to completed steps, a failed step holds back what it leads
to or has ended the run, and no step that could be released is waiting for it. Every operation that
the course of a run is made of keeps this.
-/

namespace Workflow.Run

variable {run run' run'' : Run} {now : Moment} {id : String}

def HasLeftIdle (run : Run) (id : String) : Prop :=
  ∃ status, run.statusOf? id = some status ∧ status ≠ .idle

/-- A failed step of a run that fails fast has been committed, so the run is at its end. -/
def IsAborted (run : Run) : Prop :=
  run.failureMode = .failFast ∧ ∃ id ∈ run.processed, run.statusOf? id = some .failed

structure Coherent (run : Run) : Prop where
  keys : Table.keys run.reports = run.graph.ids
  fed : ∀ id, id ≠ run.graph.trigger.id → run.HasLeftIdle id →
    run.graph.parents id ≠ [] ∧
      ∀ parent ∈ run.graph.parents id,
        parent ∈ run.processed ∧ run.statusOf? parent = some .completed
  ended : ∀ id ∈ run.processed,
    run.statusOf? id = some .completed ∨ run.statusOf? id = some .failed
  committed : ∀ id result, Table.find? run.results id = some result ↔
    id ∈ run.processed ∧
      ∃ report, run.report? id = some report ∧ report.status = .completed ∧ report.result = result
  heldBack : ∀ id, id ∈ run.blocked ↔ run.failureMode = .proceed ∧
    ∃ failed ∈ run.processed, run.statusOf? failed = some .failed ∧ run.graph.LeadsTo failed id
  aborted : run.failureMode = .failFast → ∀ id ∈ run.processed, run.statusOf? id = some .failed →
    run.status = .failed ∧
      ∃ report, run.report? id = some report ∧ run.errorCode = report.errorCode
  single : run.failureMode = .failFast → ∀ id ∈ run.processed, ∀ id' ∈ run.processed,
    run.statusOf? id = some .failed → run.statusOf? id' = some .failed → id = id'
  inFlight : ∀ id ∈ run.inFlight, id ≠ run.graph.trigger.id ∧ run.statusOf? id = some .running
  nodup : run.inFlight.Nodup

/-- Between two changes, no step that is ready is left behind. -/
structure Sound (run : Run) : Prop extends Coherent run where
  exhausted : run.IsAborted ∨ ∀ id, ¬ run.isReady id

/-- A run of which no step has moved yet. -/
structure Fresh (run : Run) : Prop where
  keys : Table.keys run.reports = run.graph.ids
  idle : ∀ id ∈ run.graph.ids, run.statusOf? id = some .idle
  results : run.results = []
  processed : run.processed = []
  blocked : run.blocked = []
  inFlight : run.inFlight = []

/-! ### Consequences -/

theorem isReady_iff : run.isReady id = true ↔
    id ∉ run.processed ∧ id ∉ run.blocked ∧ run.statusOf? id = some .idle ∧
      run.graph.parents id ≠ [] ∧ ∀ parent ∈ run.graph.parents id, parent ∈ run.processed := by
  simp [isReady, hasStatus_iff, and_assoc]

theorem statusOf?_isSome_iff (hkeys : Table.keys run.reports = run.graph.ids) :
    (run.statusOf? id).isSome ↔ id ∈ run.graph.ids := by
  rw [statusOf?, Option.isSome_map, report?, Table.find?_isSome_iff, hkeys]

theorem mem_ids_of_statusOf? {status : StepStatus} (hkeys : Table.keys run.reports = run.graph.ids)
    (hstatus : run.statusOf? id = some status) : id ∈ run.graph.ids :=
  (statusOf?_isSome_iff hkeys).mp (Option.isSome_iff_exists.mpr ⟨status, hstatus⟩)

theorem HasLeftIdle.of_eq {status : StepStatus} (hstatus : run.statusOf? id = some status)
    (hne : status ≠ .idle) : run.HasLeftIdle id := ⟨status, hstatus, hne⟩

theorem HasLeftIdle.not_idle (h : run.HasLeftIdle id) : run.statusOf? id ≠ some .idle := by
  obtain ⟨status, hstatus, hne⟩ := h
  rw [hstatus]
  exact fun heq => hne (Option.some.inj heq)

namespace Coherent

theorem not_isAborted (h : Coherent run) (hopen : run.isTerminated = false) :
    ¬ run.IsAborted := by
  rintro ⟨hmode, id, hmem, hfailed⟩
  rw [isTerminated, (h.aborted hmode id hmem hfailed).1] at hopen
  cases hopen

theorem not_mem_processed_of_running (h : Coherent run)
    (hrunning : run.statusOf? id = some .running) :
    id ∉ run.processed := by
  intro hmem
  rcases h.ended id hmem with hstatus | hstatus <;> rw [hrunning] at hstatus <;> cases hstatus

/-- Whatever has left the idle status has the trigger before it. -/
theorem trigger_leadsTo (h : Coherent run) (hleft : run.HasLeftIdle id) :
    run.HasLeftIdle run.graph.trigger.id ∧
      (id = run.graph.trigger.id ∨ run.graph.LeadsTo run.graph.trigger.id id) := by
  induction id using Graph.parents_induction (g := run.graph) with
  | hstep id ih =>
      by_cases htrigger : id = run.graph.trigger.id
      · exact ⟨htrigger ▸ hleft, Or.inl htrigger⟩
      · obtain ⟨hparents, hfed⟩ := h.fed id htrigger hleft
        obtain ⟨parent, hparent⟩ := List.exists_mem_of_ne_nil _ hparents
        have hcompleted := (hfed parent hparent).2
        obtain ⟨hbegun, hpath⟩ := ih parent hparent (.of_eq hcompleted (by decide))
        have hleads : run.graph.Leads parent id := Graph.leads_iff_mem_parents.mpr hparent
        refine ⟨hbegun, Or.inr ?_⟩
        rcases hpath with heq | hpath
        · exact heq ▸ .single hleads
        · exact hpath.tail hleads

theorem not_leadsTo_trigger (h : Coherent run) (hleft : run.HasLeftIdle id) :
    ¬ run.graph.LeadsTo id run.graph.trigger.id := by
  intro hpath
  rcases (h.trigger_leadsTo hleft).2 with heq | hback
  · exact Graph.not_leadsTo_self _ (heq ▸ hpath)
  · exact Graph.not_leadsTo_self _ (hback.trans hpath)

/-- On a path to a step that has left the idle status, what has left it as well is completed. -/
theorem completed_of_leadsTo {ancestor : String} (h : Coherent run)
    (hpath : run.graph.LeadsTo ancestor id) (hancestor : run.HasLeftIdle ancestor)
    (hleft : run.HasLeftIdle id) : run.statusOf? ancestor = some .completed := by
  induction hpath with
  | @single id hleads =>
      have hne : id ≠ run.graph.trigger.id := by
        rintro rfl
        exact h.not_leadsTo_trigger hancestor (.single hleads)
      exact ((h.fed id hne hleft).2 _ (Graph.leads_iff_mem_parents.mp hleads)).2
  | @tail parent id hpath hleads ih =>
      have hne : id ≠ run.graph.trigger.id := by
        rintro rfl
        exact h.not_leadsTo_trigger hancestor (hpath.tail hleads)
      have hparent := ((h.fed id hne hleft).2 parent (Graph.leads_iff_mem_parents.mp hleads)).2
      exact ih (.of_eq hparent (by decide))

/-- Once a step is through, so is the trigger. -/
theorem trigger_not_running (h : Coherent run) (hleft : run.HasLeftIdle id)
    (hnot : run.statusOf? id ≠ some .running) :
    run.statusOf? run.graph.trigger.id ≠ some .running := by
  intro hrunning
  obtain ⟨htrigger, heq | hpath⟩ := h.trigger_leadsTo hleft
  · exact hnot (heq ▸ hrunning)
  · have hcompleted := h.completed_of_leadsTo hpath htrigger hleft
    rw [hrunning] at hcompleted
    cases hcompleted

/-- What is held back has not moved. -/
theorem idle_of_mem_blocked (h : Coherent run) (hblocked : id ∈ run.blocked) :
    run.statusOf? id = some .idle := by
  obtain ⟨-, failed, -, hfailed, hpath⟩ := (h.heldBack id).mp hblocked
  obtain ⟨status, hstatus⟩ := Option.isSome_iff_exists.mp
    ((statusOf?_isSome_iff h.keys).mpr (Graph.mem_ids_of_leadsTo hpath))
  by_contra hnot
  have hleft : run.HasLeftIdle id := .of_eq hstatus fun hidle => hnot (hidle ▸ hstatus)
  have hcompleted := h.completed_of_leadsTo hpath (.of_eq hfailed (by decide)) hleft
  rw [hfailed] at hcompleted
  cases hcompleted

/-- The parents of the trigger never commit anything. -/
theorem incoming_trigger (h : Coherent run) : run.incoming run.graph.trigger.id = [] := by
  have hnone : ∀ parent ∈ run.graph.parents run.graph.trigger.id,
      Table.find? run.results parent = none := by
    intro parent hparent
    by_contra hsome
    obtain ⟨result, hresult⟩ := Option.ne_none_iff_exists'.mp hsome
    obtain ⟨-, report, hreport, hstatus, -⟩ := (h.committed parent result).mp hresult
    have hleft : run.HasLeftIdle parent :=
      .of_eq (statusOf?_eq_some_iff.mpr ⟨report, hreport, hstatus⟩) (by decide)
    exact h.not_leadsTo_trigger hleft (.single (Graph.leads_iff_mem_parents.mpr hparent))
  have hnull : run.parentResults run.graph.trigger.id =
      (run.graph.parents run.graph.trigger.id).map fun _ => Value.null := by
    refine List.map_congr_left fun parent hparent => ?_
    rw [hnone parent hparent]
    rfl
  rw [incoming, hnull, Incoming.merge]
  induction run.graph.parents run.graph.trigger.id with
  | nil => rfl
  | cons parent parents ih => exact ih

end Coherent

/-! ### Runs that have not begun -/

theorem not_isReady_of_processed_eq_nil (hnil : run.processed = []) : ¬ run.isReady id := by
  intro hready
  obtain ⟨-, -, -, hparents, hall⟩ := isReady_iff.mp hready
  obtain ⟨parent, hparent⟩ := List.exists_mem_of_ne_nil _ hparents
  have hmem := hall parent hparent
  rw [hnil] at hmem
  cases hmem

theorem Fresh.not_hasLeftIdle (h : Fresh run) : ¬ run.HasLeftIdle id := by
  rintro ⟨status, hstatus, hne⟩
  rw [h.idle id (mem_ids_of_statusOf? h.keys hstatus)] at hstatus
  exact hne (Option.some.inj hstatus).symm

theorem Fresh.isTerminal_eq_false (h : Fresh run) {status : StepStatus}
    (hstatus : run.statusOf? id = some status) : status.isTerminal = false := by
  by_contra hterminal
  refine h.not_hasLeftIdle (.of_eq hstatus ?_)
  rintro rfl
  exact hterminal rfl

theorem Fresh.sound (h : Fresh run) : Sound run where
  keys := h.keys
  fed := fun _ _ hleft => absurd hleft h.not_hasLeftIdle
  ended := by simp [h.processed]
  committed := by simp [h.results, h.processed, Table.find?]
  heldBack := by simp [h.blocked, h.processed]
  aborted := by simp [h.processed]
  single := by simp [h.processed]
  exhausted := Or.inr fun _ => not_isReady_of_processed_eq_nil h.processed
  inFlight := by simp [h.inFlight]
  nodup := by simp [h.inFlight]

theorem fresh_create (id : String) (graph : Graph) (payload : Fields) (failureMode : FailureMode)
    (observers : List Observer) : Fresh (create id graph payload failureMode observers) := by
  have hkeys : Table.keys (create id graph payload failureMode observers).reports = graph.ids := by
    simp [Table.keys, create, Graph.ids, Definition.stepIds, Graph.steps, Function.comp_def]
  refine ⟨hkeys, fun stepId hid => ?_, rfl, rfl, rfl, rfl⟩
  have hsome := (Table.find?_isSome_iff (k := stepId)
    (t := (create id graph payload failureMode observers).reports)).mpr (hkeys ▸ hid)
  obtain ⟨report, hreport⟩ := Option.isSome_iff_exists.mp hsome
  refine statusOf?_eq_some_iff.mpr ⟨report, hreport, ?_⟩
  obtain ⟨step, -, hstep⟩ := List.mem_map.mp (Table.mem_of_find?_eq_some hreport)
  obtain rfl := (Prod.mk.inj hstep).2
  rfl

theorem Fresh.quiet (h : Fresh run) (hquiet : Quiet run run') : Fresh run' where
  keys := by rw [hquiet.reports, hquiet.graph, h.keys]
  idle := fun id hid => by rw [hquiet.statusOf?, h.idle id (hquiet.graph ▸ hid)]
  results := hquiet.results.trans h.results
  processed := hquiet.processed.trans h.processed
  blocked := hquiet.blocked.trans h.blocked
  inFlight := List.sublist_nil.mp (h.inFlight ▸ hquiet.inFlight)

theorem Fresh.stored (h : Fresh run) : Fresh run.stored :=
  ⟨h.keys, h.idle, h.results, h.processed, h.blocked, h.inFlight⟩

/-! ### Progress -/

/-- A run only ever goes forwards. -/
structure Advances (run run' : Run) : Prop where
  id : run'.id = run.id
  graph : run'.graph = run.graph
  failureMode : run'.failureMode = run.failureMode
  finished : run.isFinished = true → run'.isFinished = true
  leftIdle : ∀ id, run.HasLeftIdle id → run'.HasLeftIdle id
  processed : ∀ id ∈ run.processed, id ∈ run'.processed
  results : ∀ id result, Table.find? run.results id = some result →
    Table.find? run'.results id = some result
  final : ∀ id ∈ run.processed, run'.report? id = run.report? id

theorem Advances.refl (run : Run) : Advances run run :=
  ⟨rfl, rfl, rfl, fun h => h, fun _ h => h, fun _ h => h, fun _ _ h => h, fun _ _ => rfl⟩

theorem Advances.trans (h : Advances run run') (h' : Advances run' run'') : Advances run run'' where
  id := h'.id.trans h.id
  graph := h'.graph.trans h.graph
  failureMode := h'.failureMode.trans h.failureMode
  finished := fun hfinished => h'.finished (h.finished hfinished)
  leftIdle := fun id hleft => h'.leftIdle id (h.leftIdle id hleft)
  processed := fun id hmem => h'.processed id (h.processed id hmem)
  results := fun id result hfind => h'.results id result (h.results id result hfind)
  final := fun id hmem => (h'.final id (h.processed id hmem)).trans (h.final id hmem)

theorem Advances.statusOf? (h : Advances run run') (hmem : id ∈ run.processed) :
    run'.statusOf? id = run.statusOf? id := by
  rw [Run.statusOf?, Run.statusOf?, h.final id hmem]

theorem Quiet.advances (h : Quiet run run') : Advances run run' where
  id := h.id
  graph := h.graph
  failureMode := h.failureMode
  finished := by
    intro hfinished
    rcases h.verdict with ⟨-, -, -, hsame⟩ | ⟨-, -, hfinished'⟩
    · exact hsame.trans hfinished
    · exact hfinished'
  leftIdle := by
    rintro id ⟨status, hstatus, hne⟩
    exact ⟨status, (h.statusOf? id).trans hstatus, hne⟩
  processed := fun id hmem => by rwa [h.processed]
  results := fun id result hfind => by rwa [h.results]
  final := fun id _ => h.report? id

/-- Steps move, but nothing is committed by it. -/
structure Uncommitted (run run' : Run) : Prop extends Advances run run' where
  keys : Table.keys run'.reports = Table.keys run.reports
  sameResults : run'.results = run.results
  sameProcessed : run'.processed = run.processed
  blocked : run'.blocked = run.blocked
  verdict : run.isTerminated = true → run'.status = run.status ∧ run'.errorCode = run.errorCode

theorem Quiet.uncommitted (h : Quiet run run') : Uncommitted run run' where
  toAdvances := h.advances
  keys := by rw [h.reports]
  sameResults := h.results
  sameProcessed := h.processed
  blocked := h.blocked
  verdict := by
    intro hended
    rcases h.verdict with ⟨hstatus, -, hcode, -⟩ | ⟨hopen, -, -⟩
    · exact ⟨hstatus, hcode⟩
    · rw [hopen] at hended
      cases hended

/-- What holds of the committed steps still holds when steps have moved without a commitment. -/
theorem Coherent.uncommitted (h : Coherent run) (hsame : Uncommitted run run')
    (hfed : ∀ id, id ≠ run.graph.trigger.id → run'.HasLeftIdle id → run.HasLeftIdle id ∨
      run.graph.parents id ≠ [] ∧ ∀ parent ∈ run.graph.parents id,
        parent ∈ run.processed ∧ run.statusOf? parent = some .completed)
    (hinFlight : ∀ id ∈ run'.inFlight,
      id ≠ run.graph.trigger.id ∧ run'.statusOf? id = some .running)
    (hnodup : run'.inFlight.Nodup) : Coherent run' where
  keys := by rw [hsame.keys, hsame.graph, h.keys]
  fed := by
    intro id htrigger hleft
    rw [hsame.graph] at htrigger ⊢
    have hbefore : run.graph.parents id ≠ [] ∧ ∀ parent ∈ run.graph.parents id,
        parent ∈ run.processed ∧ run.statusOf? parent = some .completed :=
      (hfed id htrigger hleft).elim (h.fed id htrigger) fun hnew => hnew
    refine ⟨hbefore.1, fun parent hparent => ?_⟩
    obtain ⟨hprocessed, hcompleted⟩ := hbefore.2 parent hparent
    exact ⟨hsame.processed parent hprocessed, (hsame.statusOf? hprocessed).trans hcompleted⟩
  ended := by
    intro id hmem
    rw [hsame.sameProcessed] at hmem
    rw [hsame.statusOf? hmem]
    exact h.ended id hmem
  committed := by
    intro id result
    rw [hsame.sameResults, hsame.sameProcessed, h.committed id result]
    refine and_congr_right fun hmem => ?_
    rw [hsame.final id hmem]
  heldBack := by
    intro id
    rw [hsame.blocked, hsame.failureMode, hsame.sameProcessed, hsame.graph, h.heldBack id]
    refine and_congr_right fun _ => exists_congr fun failed => and_congr_right fun hmem => ?_
    rw [hsame.statusOf? hmem]
  aborted := by
    intro hmode id hmem hfailed
    rw [hsame.failureMode] at hmode
    rw [hsame.sameProcessed] at hmem
    rw [hsame.statusOf? hmem] at hfailed
    obtain ⟨hstatus, hcode⟩ := h.aborted hmode id hmem hfailed
    have hended : run.isTerminated = true := by rw [isTerminated, hstatus]; rfl
    obtain ⟨hstatus', hcode'⟩ := hsame.verdict hended
    rw [hstatus', hcode', hsame.final id hmem]
    exact ⟨hstatus, hcode⟩
  single := by
    intro hmode id hmem id' hmem' hfailed hfailed'
    rw [hsame.failureMode] at hmode
    rw [hsame.sameProcessed] at hmem hmem'
    rw [hsame.statusOf? hmem] at hfailed
    rw [hsame.statusOf? hmem'] at hfailed'
    exact h.single hmode id hmem id' hmem' hfailed hfailed'
  inFlight := by rwa [hsame.graph]
  nodup := hnodup

theorem Sound.quiet (h : Sound run) (hquiet : Quiet run run') : Sound run' where
  toCoherent := by
    refine h.toCoherent.uncommitted hquiet.uncommitted (fun id _ hleft => Or.inl ?_)
      (fun id hmem => ?_) (h.nodup.sublist hquiet.inFlight)
    · obtain ⟨status, hstatus, hne⟩ := hleft
      exact ⟨status, (hquiet.statusOf? id).symm.trans hstatus, hne⟩
    · rw [hquiet.statusOf?]
      exact h.inFlight id (hquiet.inFlight.subset hmem)
  exhausted := by
    refine h.exhausted.imp (fun haborted => ?_) (fun hnone id => ?_)
    · obtain ⟨hmode, id, hmem, hfailed⟩ := haborted
      exact ⟨hquiet.failureMode.trans hmode, id, hquiet.processed ▸ hmem,
        (hquiet.statusOf? id).trans hfailed⟩
    · rw [isReady, hquiet.processed, hquiet.blocked, hquiet.graph,
        hasStatus_congr (hquiet.report? id)]
      exact hnone id

end Workflow.Run
