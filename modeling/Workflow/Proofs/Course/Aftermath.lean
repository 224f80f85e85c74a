import Workflow.Proofs.Course.Invariant

/-!
# After the end of a run

The end of a run does not stop what is in flight. What is still reported then changes the report of
the step itself and nothing else, unless the run has ended before it was stored.
-/

namespace Workflow

/-- Of two states of a run that has ended, the later differs at most in reports on steps that were
running, and each of these has been closed by some outcome that is fit for it. -/
structure Run.Aftermath (run run' : Run) (fits : String → Outcome → Prop) : Prop where
  status : run'.status = run.status
  error : run'.error = run.error
  errorCode : run'.errorCode = run.errorCode
  isFinished : run'.isFinished = run.isFinished
  results : run'.results = run.results
  processed : run'.processed = run.processed
  blocked : run'.blocked = run.blocked
  reports : ∀ id, run'.report? id = run.report? id ∨ ∃ report now outcome,
    run.report? id = some report ∧ report.status = .running ∧
      run'.report? id = some (report.closedBy now outcome) ∧ fits id outcome

namespace Run.Aftermath

variable {run run' run'' : Run} {fits fits' : String → Outcome → Prop}

theorem refl (run : Run) (fits : String → Outcome → Prop) : run.Aftermath run fits :=
  ⟨rfl, rfl, rfl, rfl, rfl, rfl, rfl, fun _ => Or.inl rfl⟩

theorem isTerminated (h : run.Aftermath run' fits) : run'.isTerminated = run.isTerminated := by
  rw [Run.isTerminated, Run.isTerminated, h.status]

theorem mono (h : run.Aftermath run' fits)
    (himp : ∀ id outcome, fits id outcome → fits' id outcome) :
    run.Aftermath run' fits' := by
  refine { h with reports := fun id => (h.reports id).imp_right ?_ }
  rintro ⟨report, now, outcome, hreport, hrunning, hclosed, hfits⟩
  exact ⟨report, now, outcome, hreport, hrunning, hclosed, himp id outcome hfits⟩

/-- A step that has been closed does not run any more, so it is not closed again. -/
theorem trans (h : run.Aftermath run' fits) (h' : run'.Aftermath run'' fits) :
    run.Aftermath run'' fits where
  status := h'.status.trans h.status
  error := h'.error.trans h.error
  errorCode := h'.errorCode.trans h.errorCode
  isFinished := h'.isFinished.trans h.isFinished
  results := h'.results.trans h.results
  processed := h'.processed.trans h.processed
  blocked := h'.blocked.trans h.blocked
  reports := by
    intro id
    rcases h'.reports id with hsame | ⟨report, now, outcome, hreport, hrunning, hclosed, hfits⟩
    · rw [hsame]
      exact h.reports id
    · rcases h.reports id with hsame | ⟨report', now', outcome', -, -, hclosed', -⟩
      · exact Or.inr ⟨report, now, outcome, hsame ▸ hreport, hrunning, hclosed, hfits⟩
      · rw [hreport] at hclosed'
        obtain rfl := Option.some.inj hclosed'
        rw [StepReport.status_closedBy] at hrunning
        exact absurd hrunning (Outcome.status_ne_running outcome')

theorem statusOf?_idle_iff (h : run.Aftermath run' fits) (id : String) :
    run'.statusOf? id = some .idle ↔ run.statusOf? id = some .idle := by
  rcases h.reports id with hsame | ⟨report, now, outcome, hreport, hrunning, hclosed, -⟩
  · rw [Run.statusOf?, Run.statusOf?, hsame]
  · rw [Run.statusOf?, Run.statusOf?, hreport, hclosed, Option.map_some, Option.map_some, hrunning,
      StepReport.status_closedBy]
    exact iff_of_false (fun heq => Outcome.status_ne_idle outcome (Option.some.inj heq)) (by simp)

theorem statusOf?_idle (h : run.Aftermath run' fits) {id : String}
    (hidle : run.statusOf? id = some .idle) : run'.statusOf? id = some .idle :=
  (h.statusOf?_idle_iff id).mpr hidle

theorem hasLeftIdle (h : run.Aftermath run' fits) {id : String} (hleft : run'.HasLeftIdle id) :
    run.HasLeftIdle id := by
  rcases h.reports id with hsame | ⟨report, now, outcome, hreport, hrunning, -⟩
  · rwa [HasLeftIdle, Run.statusOf?, hsame] at hleft
  · exact .of_eq (statusOf?_eq_some_iff.mpr ⟨report, hreport, hrunning⟩) (by decide)

end Run.Aftermath

theorem Run.Quiet.aftermath {run run' : Run} (h : Run.Quiet run run')
    (hended : run.isTerminated = true) (fits : String → Outcome → Prop) :
    run.Aftermath run' fits := by
  rcases h.verdict with ⟨hstatus, herror, hcode, hfinished⟩ | ⟨hopen, -⟩
  · exact ⟨hstatus, herror, hcode, hfinished, h.results, h.processed, h.blocked,
      fun id => Or.inl (h.report? id)⟩
  · rw [hopen] at hended
    cases hended

namespace Course

variable {c c' : Course} {move : Move} {moves : List Move} {id : String}

/-- Whatever happens to a run that has ended, short of storing it, leaves all but its reports on
running steps as they are. -/
theorem Sound.aftermath (h : c.Sound) (htakes : c.Takes move c')
    (hended : c.run.isTerminated = true) (hstored : move ≠ .store) :
    c.run.Aftermath c'.run fun id outcome => c.progress? id = some (.leaving outcome) := by
  have haffects := htakes.affects
  generalize c'.run = run at haffects ⊢
  cases haffects with
  | stored => exact absurd rfl hstored
  | quiet hquiet => exact hquiet.aftermath hended _
  | begun now hphase hopen =>
      rw [hopen] at hended
      cases hended
  | completed now step outcome released _ hprogress hcompletes =>
      obtain ⟨-, rfl⟩ := hcompletes.of_isTerminated hended
      refine ⟨rfl, rfl, rfl, rfl, rfl, rfl, rfl, fun id => ?_⟩
      by_cases heq : id = step.id
      · subst heq
        have hrunning := h.running _ _ hprogress
        obtain ⟨report, hreport, hclosed⟩ := Run.report?_closed_self hrunning now outcome
        rw [Run.statusOf?, hreport] at hrunning
        exact Or.inr ⟨report, now, outcome, hreport, Option.some.inj hrunning, hclosed, hprogress⟩
      · exact Or.inl (Run.report?_closed_of_ne heq)

/-- An invocation of a step has ended with an outcome. -/
def HasEnded (moves : List Move) (id : String) (outcome : Outcome) : Prop :=
  ∃ now incoming ending, .finish now id incoming ending ∈ moves ∧
    Outcome.ofEnding? ending = some outcome

theorem HasEnded.append {outcome : Outcome} (h : HasEnded moves id outcome)
    (moves' : List Move) : HasEnded (moves ++ moves') id outcome := by
  obtain ⟨now, incoming, ending, hmem, houtcome⟩ := h
  exact ⟨now, incoming, ending, List.mem_append_left _ hmem, houtcome⟩

/-- An outcome that is being reported is what an invocation has ended with. -/
theorem hasEnded_of_leaving {runId : String} {graph : Graph} {payload : Fields}
    {mode : FailureMode} {observers : List Observer}
    (hplay : (register runId graph payload mode observers).play moves = some c)
    {outcome : Outcome} (hleaving : c.progress? id = some (.leaving outcome)) :
    HasEnded moves id outcome := by
  refine ((sound_register runId graph payload mode observers).play_induction
    (P := fun moves after => ∀ id outcome, after.progress? id = some (.leaving outcome) →
      HasEnded moves id outcome) ?_ ?_ hplay).2 id outcome hleaving
  · intro id outcome hnone
    cases hnone
  · intro moves before move after _ hsound hsofar htakes id outcome hleaving
    rcases hsound.progress?_of_takes htakes hleaving with hbefore | harises
    · exact (hsofar id outcome hbefore).append [move]
    · cases harises with
      | finished now incoming ending _ _ houtcome =>
          exact ⟨now, incoming, ending, List.mem_append_right _ List.mem_cons_self, houtcome⟩

theorem Takes.phase_of_store (h : c.Takes .store c') : c.phase = .registered := by
  cases h with
  | store hphase => exact hphase

/-- A run that has been stored is not stored again. -/
theorem Takes.registered_of_registered (h : c.Takes move c') (hphase : c'.phase = .registered) :
    c.phase = .registered := by
  cases h <;> first
    | exact hphase
    | cases hphase

theorem phase_ne_registered_of_play (hplay : c.play moves = some c') (h : c.Sound)
    (hphase : c.phase ≠ .registered) : c'.phase ≠ .registered :=
  (h.play_induction (P := fun _ after => after.phase ≠ .registered) hphase
    (fun _ _ _ _ _ _ hsofar htakes hafter => hsofar (htakes.registered_of_registered hafter))
    hplay).2

theorem store_not_mem_of_play (h : c.Sound) (hphase : c.phase ≠ .registered)
    (hplay : c.play moves = some c') : .store ∉ moves := by
  intro hmem
  obtain ⟨before, after, rfl⟩ := List.append_of_mem hmem
  obtain ⟨middle, hbefore, hafter⟩ := exists_of_play_append hplay
  obtain ⟨next, hstep, -⟩ := Option.bind_eq_some_iff.mp hafter
  exact phase_ne_registered_of_play hbefore h hphase
    ((h.play hbefore).1.takes hstep).phase_of_store

end Course

end Workflow
