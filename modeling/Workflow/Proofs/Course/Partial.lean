import Workflow.Proofs.Course.Confluence
import Workflow.Proofs.Course.Termination

/-!
# Partial results are never wrong

Whatever happens to a run, and wherever it stands, its invocations have received what they would
receive in a run that nothing disturbs and that no failure ends. So the results that it holds are
results of that run, and its processed steps have come to the same.
-/

namespace Workflow

/-- An invocation that ends with an outcome ends as `behave` says. Anything else may happen. -/
def Move.Conforms (behave : Conduct) : Move → Prop
  | .finish _ id incoming ending =>
    (Outcome.ofEnding? ending).isSome → ending.result = behave id incoming
  | _ => True

theorem Move.Follows.isWork {behave : String → Fields → Retry.Ending Value} {move : Move}
    (h : move.Follows behave) : move.isWork = true := by
  cases move <;> first | rfl | cases h

namespace Run

variable {behave : Conduct} {run run' : Run} {id : String}

theorem Conforms.quiet (h : Conforms behave run) (hquiet : Quiet run run') :
    Conforms behave run' := by
  refine ⟨fun id report hreport hstatus => ?_, fun id report hreport hstatus => ?_⟩
  · rw [hquiet.incoming]
    exact h.completed id report (hquiet.report? id ▸ hreport) hstatus
  · rw [hquiet.incoming]
    exact h.failed id report (hquiet.report? id ▸ hreport) hstatus

end Run

namespace Course

variable {behave : Conduct} {c c' : Course} {move : Move} {moves moves' : List Move} {id : String}

/-- What is reported, or about to be, is what the invocations were bound to come to. -/
structure Conforms (behave : Conduct) (c : Course) : Prop where
  run : c.run.Conforms behave
  leaving : ∀ id outcome, c.progress? id = some (.leaving outcome) →
    outcome.result = (behave id (c.run.incoming id)).mapError .ofFailure

theorem Conforms.run_of_takes (h : c.Conforms behave) (hsound : c.Sound)
    (htakes : c.Takes move c') : c'.run.Conforms behave := by
  have hsound' := (hsound.of_takes htakes).run
  have haffects := htakes.affects
  generalize c'.run = run at haffects hsound' ⊢
  cases haffects with
  | stored hphase => exact ⟨h.run.completed, h.run.failed⟩
  | quiet hquiet => exact h.run.quiet hquiet
  | begun now hphase =>
      have hfresh := (hsound.unbegun (by rw [hphase]; rfl)).1.quiet (c.run.quiet_introduce now)
      exact .of_unreported fun _ _ => hfresh.isTerminal_begun
  | completed now step outcome released _ hprogress hcompletes =>
      exact h.run.of_completes hsound.run hsound' (hsound.running _ _ hprogress) hcompletes
        (h.leaving step.id outcome hprogress)

theorem Conforms.of_takes (h : c.Conforms behave) (hsound : c.Sound) (htakes : c.Takes move c')
    (hmove : move.Conforms behave) : c'.Conforms behave where
  run := h.run_of_takes hsound htakes
  leaving := by
    intro id outcome hleaving
    have hsound' := hsound.of_takes htakes
    have hincoming {progress : Progress} (hprogress : c.progress? id = some progress) :
        c'.run.incoming id = c.run.incoming id :=
      (hsound.advances htakes).incoming hsound.run.toCoherent hsound'.run.toCoherent
        (.of_eq (hsound.running id progress hprogress) (by decide))
    rcases hsound.progress?_of_takes htakes hleaving with hbefore | harises
    · rw [hincoming hbefore]
      exact h.leaving id outcome hbefore
    · cases harises with
      | finished now incoming ending _ hbefore houtcome =>
          have hending := hmove (Option.isSome_iff_exists.mpr ⟨outcome, houtcome⟩)
          have hreceived : incoming = c.run.incoming id := hsound.fits id _ hbefore
          rw [Outcome.result_of_ofEnding? houtcome, hending, hincoming hbefore, hreceived]

theorem conforms_of_play {runId : String} {graph : Graph} {payload : Fields} {mode : FailureMode}
    {observers : List Observer}
    (hplay : (register runId graph payload mode observers).play moves = some c)
    (hconforms : ∀ move ∈ moves, move.Conforms behave) : c.Conforms behave := by
  refine ((sound_register runId graph payload mode observers).play_induction
    (P := fun moves after => (∀ move ∈ moves, move.Conforms behave) → after.Conforms behave)
    (fun _ => ⟨?_, ?_⟩) ?_ hplay).2 hconforms
  · have hfresh := Run.fresh_create runId graph payload mode observers
    exact .of_unreported fun _ _ => hfresh.isTerminal_eq_false
  · intro id outcome hnone
    cases hnone
  · intro moves before move after _ hsound hsofar htakes hconforms
    exact (hsofar fun earlier hearlier => hconforms earlier (List.mem_append_left _ hearlier))
      |>.of_takes hsound htakes (hconforms move (List.mem_append_right _ List.mem_cons_self))

/-- What a step has received in any run, it receives when the run is played out undisturbed. -/
theorem Final.incoming_of_hasLeftIdle (h : Final behave moves' c') (hsound : c.Sound)
    (hconforms : c.run.Conforms behave) (hgraph : c.run.graph = c'.run.graph)
    (hleft : c.run.HasLeftIdle id) :
    c'.run.HasLeftIdle id ∧ c'.run.incoming id = c.run.incoming id := by
  induction id using Graph.parents_induction (g := c.run.graph) with
  | hstep id ih =>
      rw [h.hasLeftIdle_iff, ← hgraph]
      by_cases htrigger : id = c.run.graph.trigger.id
      · refine ⟨Or.inl htrigger, ?_⟩
        rw [htrigger, hsound.run.incoming_trigger, hgraph, h.sound.run.incoming_trigger]
      obtain ⟨hparents, hfed⟩ := hsound.run.fed id htrigger hleft
      -- A parent has completed with what it was bound to come to, on what it receives there too.
      have hparent (parent : String) (hparent : parent ∈ c.run.graph.parents id) :
          c'.run.statusOf? parent = some .completed ∧
            Table.find? c'.run.results parent = Table.find? c.run.results parent := by
        obtain ⟨hprocessed, hcompleted⟩ := hfed parent hparent
        obtain ⟨report, hreport, hstatus⟩ := Run.statusOf?_eq_some_iff.mp hcompleted
        have hvalue := hconforms.completed parent report hreport hstatus
        obtain ⟨hleft', hincoming⟩ := ih parent hparent (.of_eq hcompleted (by decide))
        rw [← hincoming] at hvalue
        rw [h.statusOf?_completed_iff, h.find?_results_iff.mpr ⟨hleft', hvalue⟩,
          (hsound.run.committed parent report.result).mpr
            ⟨hprocessed, report, hreport, hstatus, rfl⟩]
        exact ⟨⟨hleft', report.result, hvalue⟩, rfl⟩
      refine ⟨Or.inr ⟨htrigger, hparents, fun parent hmem => (hparent parent hmem).1⟩, ?_⟩
      rw [Run.incoming, Run.incoming, Run.parentResults, Run.parentResults, ← hgraph]
      refine congrArg _ (List.map_congr_left fun parent hmem => ?_)
      rw [(hparent parent hmem).2]

theorem Final.find?_results_of_conforms (h : Final behave moves' c') (hsound : c.Sound)
    (hconforms : c.run.Conforms behave) (hgraph : c.run.graph = c'.run.graph) {value : Value}
    (hfind : Table.find? c.run.results id = some value) :
    Table.find? c'.run.results id = some value := by
  obtain ⟨-, report, hreport, hstatus, rfl⟩ := (hsound.run.committed id value).mp hfind
  obtain ⟨hleft, hincoming⟩ := h.incoming_of_hasLeftIdle hsound hconforms hgraph
    (.of_eq (Run.statusOf?_eq_some_iff.mpr ⟨report, hreport, hstatus⟩) (by decide))
  rw [h.find?_results_iff, hincoming]
  exact ⟨hleft, hconforms.completed id report hreport hstatus⟩

theorem Final.statusOf?_of_conforms (h : Final behave moves' c') (hsound : c.Sound)
    (hconforms : c.run.Conforms behave) (hgraph : c.run.graph = c'.run.graph)
    (hprocessed : id ∈ c.run.processed) : c'.run.statusOf? id = c.run.statusOf? id := by
  have hreceived {status : StepStatus} (hstatus : c.run.statusOf? id = some status)
      (hne : status ≠ .idle) :=
    h.incoming_of_hasLeftIdle hsound hconforms hgraph (.of_eq hstatus hne)
  rcases hsound.run.ended id hprocessed with hcompleted | hfailed
  · obtain ⟨report, hreport, hstatus⟩ := Run.statusOf?_eq_some_iff.mp hcompleted
    obtain ⟨hleft, hincoming⟩ := hreceived hcompleted (by decide)
    rw [hcompleted, h.statusOf?_completed_iff, hincoming]
    exact ⟨hleft, report.result, hconforms.completed id report hreport hstatus⟩
  · obtain ⟨report, hreport, hstatus⟩ := Run.statusOf?_eq_some_iff.mp hfailed
    obtain ⟨hleft, hincoming⟩ := hreceived hfailed (by decide)
    obtain ⟨failure, hfailure, -⟩ := hconforms.failed id report hreport hstatus
    rw [hfailed, h.statusOf?_failed_iff, hincoming]
    exact ⟨hleft, failure, hfailure⟩

/-! ### A run that nothing disturbs can be played out -/

/-- Invocations go on as `behave` has it until none is left. -/
theorem Sound.exists_played_out (h : c.Sound) (hbegun : c.phase.isUnbegun = false)
    (hbehave : ∀ id incoming, behave id incoming ≠ .error .cancelled) :
    ∃ moves c', c.play moves = some c' ∧ (∀ move ∈ moves, move.IsCalm behave) ∧
      c'.phase.isUnbegun = false ∧ c'.invocations = [] := by
  induction hwork : c.workLeft using Nat.strong_induction_on generalizing c with
  | _ work ih =>
      subst hwork
      by_cases hthrough : c.invocations = []
      · exact ⟨[], c, rfl, by simp, hbegun, hthrough⟩
      obtain ⟨entry, hentry⟩ := List.exists_mem_of_ne_nil _ hthrough
      have hprogress : c.progress? entry.1 = some entry.2 :=
        Table.find?_eq_some_of_mem h.nodup hentry
      obtain ⟨move, hfollows, hstep⟩ :=
        h.exists_follows (fun id incoming => ⟨behave id incoming, 1⟩) hprogress
      obtain ⟨next, hstep⟩ := Option.isSome_iff_exists.mp hstep
      have htakes := h.takes hstep
      have hcalm : move.IsCalm behave := by
        cases move with
        | finish now id incoming ending =>
            obtain rfl : ending = ⟨behave id incoming, 1⟩ := hfollows
            exact ⟨rfl, hbehave id incoming⟩
        | _ => trivial
      have hbegun' : next.phase.isUnbegun = false := by
        by_contra hunbegun
        rw [htakes.isUnbegun_of_isUnbegun (Bool.not_eq_false _ ▸ hunbegun)] at hbegun
        cases hbegun
      obtain ⟨moves, c', hplay, hcalms, hend⟩ :=
        ih _ (h.workLeft_lt_of_isWork htakes hfollows.isWork) (h.of_takes htakes) hbegun' rfl
      refine ⟨move :: moves, c', ?_, List.forall_mem_cons.mpr ⟨hcalm, hcalms⟩, hend⟩
      rw [Course.play, hstep, Option.bind_some, hplay]

theorem Takes.isUnbegun_of_begin {now : Moment} (h : c.Takes (.begin now) c') :
    c'.phase.isUnbegun = false := by
  cases h <;> rfl

theorem exists_runsOut (runId : String) (graph : Graph) (payload : Fields)
    (observers : List Observer)
    (hbehave : ∀ id incoming, behave id incoming ≠ .error .cancelled) :
    ∃ moves c, RunsOut (register runId graph payload .proceed observers) behave moves c := by
  have hsound := sound_register runId graph payload .proceed observers
  obtain ⟨stored, hstored, hwaiting⟩ : ∃ stored,
      (register runId graph payload .proceed observers).step .store = some stored ∧
        stored.phase = .waiting := ⟨_, rfl, rfl⟩
  obtain ⟨begun, hbegin⟩ : ∃ begun, stored.step (.begin .origin) = some begun := by
    rw [step, hwaiting]
    exact ⟨_, rfl⟩
  have hsound' := hsound.of_takes (hsound.takes hstored)
  have htakes := hsound'.takes hbegin
  obtain ⟨moves, c, hplay, hcalm, hbegun, hthrough⟩ :=
    (hsound'.of_takes htakes).exists_played_out htakes.isUnbegun_of_begin hbehave
  refine ⟨.store :: .begin .origin :: moves, c, ?_, ?_, Or.inl rfl, ?_, ?_, hthrough⟩
  · rw [Course.play, hstored, Option.bind_some, Course.play, hbegin, Option.bind_some, hplay]
  · exact List.forall_mem_cons.mpr ⟨trivial, List.forall_mem_cons.mpr ⟨trivial, hcalm⟩⟩
  · intro hphase
    rw [hphase] at hbegun
    cases hbegun
  · intro hphase
    rw [hphase] at hbegun
    cases hbegun

/-- Wherever a run stands, in either failure mode, with its invocations in whatever order and no
matter who cancels it or what the repository fails at: the results that it holds are results of
every run of the graph that goes on after failures and that nothing disturbs until it is played out,
and each step that it has processed has come to the same there. There are such runs, as long as no
capability raises a cancellation by itself. -/
theorem partial_results_are_final (runId runId' : String) (graph : Graph)
    (payload payload' : Fields) (mode : FailureMode) (observers observers' : List Observer)
    (behave : Conduct) (moves : List Move) (c : Course)
    (hplay : (register runId graph payload mode observers).play moves = some c)
    (hconforms : ∀ move ∈ moves, move.Conforms behave) :
    (∀ moves' c', RunsOut (register runId' graph payload' .proceed observers') behave moves' c' →
      (∀ id value, Table.find? c.run.results id = some value →
        Table.find? c'.run.results id = some value) ∧
      ∀ id ∈ c.run.processed, c'.run.statusOf? id = c.run.statusOf? id) ∧
    ((∀ id incoming, behave id incoming ≠ .error .cancelled) → ∃ moves' c',
      RunsOut (register runId' graph payload' .proceed observers') behave moves' c') := by
  have hsound := ((sound_register runId graph payload mode observers).play hplay).1
  have hconforms' := (conforms_of_play hplay hconforms).run
  refine ⟨fun moves' c' hout => ?_, exists_runsOut runId' graph payload' observers'⟩
  have hgraph : c.run.graph = c'.run.graph :=
    (graph_of_play hplay).trans (graph_of_play hout.play).symm
  exact ⟨fun _ _ => hout.final.find?_results_of_conforms hsound hconforms' hgraph,
    fun _ => hout.final.statusOf?_of_conforms hsound hconforms' hgraph⟩

/-- The left step fails, and every other step brings its name. -/
def stumbling : Conduct := fun id incoming =>
  if id = "left" then .error (.wrongValue "no") else naming id incoming

/-- The right step is reported after the failure of the left one has ended the run, and somebody
asks for its end twice. -/
def stumblingMoves : List Move :=
  let named := Fields.named [("by", .str "start")]
  .store :: .begin .origin :: invocation "start" [] ⟨stumbling "start" [], 1⟩ ++
    [.enter "left", .enter "right"] ++ invocation "left" named ⟨stumbling "left" named, 3⟩ ++
    .cancel .origin "Run cancelled" false ::
      invocation "right" named ⟨stumbling "right" named, 1⟩

theorem isSome_play_stumblingMoves :
    ((register "run" diamond [] .failFast []).play stumblingMoves).isSome := by decide +kernel

def stumbled : Course :=
  ((register "run" diamond [] .failFast []).play stumblingMoves).get isSome_play_stumblingMoves

theorem stumbled_is_part_of_undisturbed : ∃ moves c,
    RunsOut (register "other" diamond [] .proceed []) stumbling moves c ∧
    stumbled.run.isTerminated = true ∧ stumbled.run.processed = ["start", "left"] ∧
    stumbled.run.statusOf? "right" = some .completed ∧
    Table.find? c.run.results "start" = some (.record [("by", .str "start")]) ∧
    c.run.statusOf? "left" = some .failed := by
  have hplay : (register "run" diamond [] .failFast []).play stumblingMoves = some stumbled :=
    (Option.some_get _).symm
  have hbehave (id : String) (incoming : Fields) : stumbling id incoming ≠ .error .cancelled := by
    unfold stumbling naming
    split <;> nofun
  have hprocessed : stumbled.run.processed = ["start", "left"] := by decide +kernel
  obtain ⟨hpart, hexists⟩ := partial_results_are_final "run" "other" diamond [] [] .failFast [] []
    stumbling stumblingMoves stumbled hplay (by simp [stumblingMoves, invocation, Move.Conforms])
  obtain ⟨moves, c, hout⟩ := hexists hbehave
  obtain ⟨hresults, hstatus⟩ := hpart moves c hout
  have hleft : stumbled.run.statusOf? "left" = some .failed := by decide +kernel
  exact ⟨moves, c, hout, by decide +kernel, hprocessed, by decide +kernel,
    hresults "start" _ (by decide +kernel),
    (hstatus "left" (by rw [hprocessed]; decide)).trans hleft⟩

end Course

end Workflow
