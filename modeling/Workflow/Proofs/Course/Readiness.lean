import Workflow.Proofs.Course.DataFlow

/-!
# Looking at the children is enough

When a step completes, only its children are asked whether they are ready. A step becomes ready only
by the completion of one of its parents, so this finds the same steps as a look at the whole graph,
and between two completions a look at the whole graph finds nothing.
-/

namespace Workflow

namespace Run

variable {run run' : Run} {now : Moment} {id : String} {outcome : Outcome}

/-- The steps that a look at the whole graph finds ready. -/
def scan (run : Run) : List String := run.graph.ids.filter run.isReady

theorem mem_scan_iff : id ∈ run.scan ↔ run.isReady id = true := by
  rw [scan, List.mem_filter]
  exact and_iff_right_of_imp fun hready =>
    Graph.mem_ids_of_parents_ne_nil (isReady_iff.mp hready).2.2.2.1

theorem Sound.scan_eq_nil (h : Sound run) (hopen : run.isTerminated = false) : run.scan = [] := by
  rw [List.eq_nil_iff_forall_not_mem]
  intro id hid
  exact h.exhausted.resolve_left (h.not_isAborted hopen) id (mem_scan_iff.mp hid)

/-- When a result is committed, the children that are released are all the steps that are ready. -/
theorem Sound.mem_scan_commit_iff (h : Sound run) (hstatus : run.status = .running)
    (hrunning : run.statusOf? id = some .running) (result : Value) {other : String} :
    other ∈ ((run.closed now id outcome).commit id result).scan ↔
      other ∈ ((run.closed now id outcome).commit id result).released id := by
  have hopen : run.isTerminated = false := by
    rw [isTerminated, hstatus]
    rfl
  have hbefore : ¬ (run.closed now id outcome).isReady other := fun hready =>
    h.exhausted.resolve_left (h.not_isAborted hopen) other (isReady_of_closed hrunning hready)
  rw [mem_scan_iff, mem_released_iff]
  constructor
  · intro hready
    have hleads : (run.closed now id outcome).graph.Leads id other :=
      leads_of_isReady_commit hbefore hready
    exact ⟨hleads, decide_eq_true hstatus, hready⟩
  · exact fun hreleased => hreleased.2.2

namespace Completes

variable {step : Step} {released : List String}

theorem released_of_ok (h : Completes now step outcome run released run')
    (hopen : run.isTerminated = false) {result : Value} (hresult : outcome.result = .ok result) :
    released = ((run.closed now step.id outcome).commit step.id result).released step.id := by
  cases h with
  | late hended =>
      rw [hopen] at hended
      cases hended
  | succeeded result' _ hresult' =>
      rw [hresult] at hresult'
      rw [Except.ok.inj hresult']
  | aborted e _ _ herror =>
      rw [hresult] at herror
      cases herror
  | heldBack e _ _ herror =>
      rw [hresult] at herror
      cases herror

theorem released_of_error (h : Completes now step outcome run released run') {e : StepError}
    (herror : outcome.result = .error e) : released = [] := by
  cases h with
  | succeeded result _ hresult =>
      rw [herror] at hresult
      cases hresult
  | _ => rfl

end Completes

end Run

namespace Course

variable {c c' : Course} {moves : List Move} {id : String}

/-- In a run that is going on, a look at the whole graph finds no ready step: whatever has all its
parents processed and is not held back has been dispatched. The completion of a step dispatches
nothing if the step has failed; and otherwise exactly what a look at the whole graph would find
right after the result has been committed, all of which are children of the step. -/
theorem scan_finds_what_the_children_show (runId : String) (graph : Graph) (payload : Fields)
    (mode : FailureMode) (observers : List Observer) (moves : List Move) (c : Course)
    (hplay : (register runId graph payload mode observers).play moves = some c)
    (hstatus : c.run.status = .running) :
    c.run.scan = [] ∧
    (∀ id ∈ graph.ids, id ∉ c.run.blocked → graph.parents id ≠ [] →
      (∀ parent ∈ graph.parents id, parent ∈ c.run.processed) → c.run.HasLeftIdle id) ∧
    ∀ now stepId outcome c', c.progress? stepId = some (.leaving outcome) →
      c.step (.report now stepId) = some c' →
      (∀ e, outcome.result = .error e → ∀ id, c.run.statusOf? id = some .idle →
        ¬ c'.run.HasLeftIdle id) ∧
      ∀ result, outcome.result = .ok result →
        (∀ id, c.run.statusOf? id = some .idle ∧ c'.run.HasLeftIdle id ↔
          id ∈ ((c.run.closed now stepId outcome).commit stepId result).scan) ∧
        ∀ id ∈ ((c.run.closed now stepId outcome).commit stepId result).scan,
          id ∈ graph.children stepId := by
  have hsound := ((sound_register runId graph payload mode observers).play hplay).1
  obtain rfl := graph_of_play hplay
  have hopen : c.run.isTerminated = false := by
    rw [Run.isTerminated, hstatus]
    rfl
  have hnil := hsound.run.scan_eq_nil hopen
  refine ⟨hnil, fun id hid hfree hparents hprocessed => ?_,
    fun now stepId outcome c' hprogress hstep => ?_⟩
  · obtain ⟨status, hid⟩ :=
      Option.isSome_iff_exists.mp ((Run.statusOf?_isSome_iff hsound.run.keys).mpr hid)
    refine .of_eq hid ?_
    rintro rfl
    have hnot : id ∉ c.run.processed := fun hmem => by
      rcases hsound.run.ended id hmem with hended | hended <;> rw [hid] at hended <;> cases hended
    have hready : id ∈ c.run.scan := Run.mem_scan_iff.mpr
      (Run.isReady_iff.mpr ⟨hnot, hfree, hid, hparents, hprocessed⟩)
    rw [hnil] at hready
    cases hready
  · obtain ⟨step, outcome', released, rfl, hprogress', hrunning, hcompletes⟩ :=
      hsound.completes_of_report hstep
    obtain rfl : outcome' = outcome := by
      rw [hprogress] at hprogress'
      exact (Progress.leaving.inj (Option.some.inj hprogress')).symm
    refine ⟨fun e herror id hidle hleft => ?_, fun result hresult => ?_⟩
    · have hmem := (hcompletes.mem_released_iff hrunning).mpr ⟨hidle, hleft⟩
      rw [hcompletes.released_of_error herror] at hmem
      cases hmem
    · have hreleased := hcompletes.released_of_ok hopen hresult
      have hscan (id : String) :
          id ∈ ((c.run.closed now step.id outcome').commit step.id result).scan ↔
            id ∈ released := by
        rw [hreleased]
        exact hsound.run.mem_scan_commit_iff hstatus hrunning result
      refine ⟨fun id => ?_, fun id hid => ?_⟩
      · rw [hscan, hcompletes.mem_released_iff hrunning]
      · rw [hscan, hreleased] at hid
        exact (Run.mem_released_iff.mp hid).1

/-- The right step has completed, and the left one is about to be reported. -/
def joiningMoves : List Move :=
  .store :: .begin .origin :: invocation "start" [] ⟨.ok .null, 1⟩ ++
    [.enter "left", .enter "right"] ++ invocation "right" [] ⟨.ok .null, 1⟩ ++
    [.hand "left" [], .finish .origin "left" [] ⟨.ok .null, 1⟩]

theorem isSome_play_joiningMoves :
    ((register "run" diamond [] .failFast []).play joiningMoves).isSome := by decide +kernel

def joining : Course :=
  ((register "run" diamond [] .failFast []).play joiningMoves).get isSome_play_joiningMoves

theorem isSome_step_joining : (joining.step (.report .origin "left")).isSome := by decide +kernel

theorem join_is_found : ∃ c, joining.step (.report .origin "left") = some c ∧
    joining.run.status = .running ∧ joining.run.scan = [] ∧ c.run.HasLeftIdle "join" ∧
    ∀ id, joining.run.statusOf? id = some .idle → c.run.HasLeftIdle id →
      id ∈ diamond.children "left" := by
  have hplay : (register "run" diamond [] .failFast []).play joiningMoves = some joining :=
    (Option.some_get _).symm
  have hstatus : joining.run.status = .running := by decide +kernel
  obtain ⟨c, hstep⟩ := Option.isSome_iff_exists.mp isSome_step_joining
  obtain ⟨hnil, -, hreport⟩ :=
    scan_finds_what_the_children_show _ _ _ _ _ _ _ hplay hstatus
  have hprogress : joining.progress? "left" = some (.leaving ⟨.ok .null, 1⟩) := rfl
  obtain ⟨hscan, hchildren⟩ := (hreport .origin "left" _ c hprogress hstep).2 .null rfl
  refine ⟨c, hstep, hstatus, hnil, ((hscan "join").mpr (by decide +kernel)).2, ?_⟩
  exact fun id hidle hleft => hchildren id ((hscan id).mp ⟨hidle, hleft⟩)

end Course

end Workflow
