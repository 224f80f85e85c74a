import Workflow.Proofs.Course.DataFlow
import Workflow.Proofs.Run.Settling

/-!
# Calm plays

In a calm play nothing is cancelled, the repository takes everything it is told, and every
invocation ends as its step and what it has received determine. Then every step that runs is being
invoked, every report is committed, and the run ends when the last invocation has been reported.
-/

namespace Workflow

/-- A capability: what the invocation of a step comes to with what the step has received. -/
abbrev Conduct := String → Fields → Except Failure Value

/-- Nothing goes wrong in a move but what `behave` says. -/
def Move.IsCalm (behave : Conduct) : Move → Prop
  | .cancel _ _ isGranted => isGranted = false
  | .finish _ id incoming ending =>
    ending.result = behave id incoming ∧ ending.result ≠ .error .cancelled
  | .refuse | .breakOff _ _ | .stop _ | .stopDriver _ | .close (some _) => False
  | _ => True

/-- The dispatcher has the step, or has had it. -/
def Progress.isHanded : Progress → Bool
  | .working _ | .leaving _ => true
  | _ => false

namespace Run

/-- Every report says what the invocation of its step was bound to come to. -/
structure Conforms (behave : Conduct) (run : Run) : Prop where
  completed : ∀ id report, run.report? id = some report → report.status = .completed →
    behave id (run.incoming id) = .ok report.result
  failed : ∀ id report, run.report? id = some report → report.status = .failed →
    ∃ failure, behave id (run.incoming id) = .error failure ∧
      report.errorCode = some failure.code

/-- What happens to a run that nobody interrupts. -/
structure Calm (behave : Conduct) (run : Run) : Prop extends Conforms behave run where
  inFlight : ∀ id, run.statusOf? id = some .running → id ≠ run.graph.trigger.id → id ∈ run.inFlight
  processed : ∀ id status, run.statusOf? id = some status → status.isTerminal → id ∈ run.processed
  settled : run.isTerminated = true →
    (∀ id, run.statusOf? id ≠ some .running) ∧ run.IsSettled

variable {behave : Conduct} {run run' : Run} {now : Moment} {step : Step} {outcome : Outcome}
  {released : List String}

theorem Calm.withLog (h : Calm behave run) (log : EventLog) : Calm behave { run with log } :=
  ⟨⟨h.completed, h.failed⟩, h.inFlight, h.processed, h.settled⟩

/-- While nothing is reported, no report is wrong. -/
theorem Conforms.of_unreported
    (h : ∀ id status, run.statusOf? id = some status → status.isTerminal = false) :
    Conforms behave run := by
  have hnot {id : String} {report : StepReport} (hreport : run.report? id = some report)
      (hterminal : report.status.isTerminal = true) : False := by
    rw [h id report.status (statusOf?_eq_some_iff.mpr ⟨report, hreport, rfl⟩)] at hterminal
    cases hterminal
  refine ⟨fun id report hreport hstatus => ?_, fun id report hreport hstatus => ?_⟩
  · exact (hnot hreport (by rw [hstatus]; rfl)).elim
  · exact (hnot hreport (by rw [hstatus]; rfl)).elim

theorem Fresh.calm (h : Fresh run) (hopen : run.isTerminated = false) : Calm behave run := by
  refine ⟨.of_unreported fun _ _ => h.isTerminal_eq_false, fun id hrunning _ => ?_,
    fun id status hid hterminal => ?_, fun hended => ?_⟩
  · exact (h.not_hasLeftIdle (.of_eq hrunning (by decide))).elim
  · rw [h.isTerminal_eq_false hid] at hterminal
    cases hterminal
  · rw [hopen] at hended
    cases hended

/-- When a run has begun, its trigger runs, and nothing else has moved. -/
theorem Fresh.isTerminal_begun (h : Fresh run) {id : String} {status : StepStatus}
    (hstatus : (run.begun now).statusOf? id = some status) : status.isTerminal = false := by
  rw [h.statusOf?_begun] at hstatus
  split at hstatus
  · exact Option.some.inj hstatus ▸ rfl
  · exact h.isTerminal_eq_false hstatus

theorem Fresh.calm_begun (h : Fresh run) (hopen : run.isTerminated = false) (now : Moment) :
    Calm behave (run.begun now) := by
  refine ⟨.of_unreported fun _ _ => h.isTerminal_begun, fun id hrunning hne => ?_,
    fun id status hid hterminal => ?_, fun hended => ?_⟩
  · exact absurd (h.hasLeftIdle_begun_iff.mp (.of_eq hrunning (by decide))) hne
  · rw [h.isTerminal_begun hid] at hterminal
    cases hterminal
  · have hended' : run.isTerminated = true := hended
    rw [hopen] at hended'
    cases hended'

theorem Calm.stored (h : Calm behave run) : Calm behave run.stored :=
  ⟨⟨h.completed, h.failed⟩, h.inFlight, h.processed, fun hended => by cases hended⟩

theorem Calm.isOpen (h : Calm behave run) {id : String}
    (hrunning : run.statusOf? id = some .running) : run.isTerminated = false := by
  by_contra hended
  exact (h.settled (Bool.not_eq_false _ ▸ hended)).1 id hrunning

/-- After a completion, a report says what the outcome says, or that its step has been released, or
what it said before. -/
theorem Completes.report?_cases (h : Completes now step outcome run released run') {id : String}
    {report' : StepReport} (hreport : run'.report? id = some report') :
    (id = step.id ∧ ∃ report : StepReport, report' = report.closedBy now outcome) ∨
      report'.status = .running ∨ id ≠ step.id ∧ run.report? id = some report' := by
  rw [h.report?] at hreport
  split at hreport
  · obtain ⟨report, -, rfl⟩ := Option.map_eq_some_iff.mp hreport
    exact Or.inr (Or.inl rfl)
  · rw [report?_closed] at hreport
    split at hreport
    · obtain ⟨report, -, rfl⟩ := Option.map_eq_some_iff.mp hreport
      exact Or.inl ⟨‹_›, report, rfl⟩
    · exact Or.inr (Or.inr ⟨‹_›, hreport⟩)

theorem Conforms.of_completes (h : Conforms behave run) (hsound : Sound run) (hsound' : Sound run')
    (hrunning : run.statusOf? step.id = some .running)
    (hcompletes : Completes now step outcome run released run')
    (houtcome : outcome.result = (behave step.id (run.incoming step.id)).mapError .ofFailure) :
    Conforms behave run' := by
  have hincoming {id : String} (hleft : run.HasLeftIdle id) : run'.incoming id = run.incoming id :=
    (hcompletes.advances hsound hrunning).incoming hsound.toCoherent hsound'.toCoherent hleft
  have hleft {id : String} {report : StepReport} (hreport : run.report? id = some report)
      (hne : report.status ≠ .idle) : run.HasLeftIdle id :=
    .of_eq (statusOf?_eq_some_iff.mpr ⟨report, hreport, rfl⟩) hne
  have hself : run'.incoming step.id = run.incoming step.id :=
    hincoming (.of_eq hrunning (by decide))
  constructor
  case completed =>
    intro id report' hreport hstatus
    rcases hcompletes.report?_cases hreport with ⟨rfl, report, rfl⟩ | hreleased | ⟨-, hbefore⟩
    · rw [hself]
      cases hbehave : behave step.id (run.incoming step.id) with
      | ok value =>
          rw [hbehave] at houtcome
          rw [StepReport.closedBy, houtcome]
          rfl
      | error failure =>
          rw [hbehave] at houtcome
          rw [StepReport.closedBy, houtcome] at hstatus
          cases hstatus
    · rw [hreleased] at hstatus
      cases hstatus
    · rw [hincoming (hleft hbefore (by rw [hstatus]; decide))]
      exact h.completed id report' hbefore hstatus
  case failed =>
    intro id report' hreport hstatus
    rcases hcompletes.report?_cases hreport with ⟨rfl, report, rfl⟩ | hreleased | ⟨-, hbefore⟩
    · rw [hself]
      cases hbehave : behave step.id (run.incoming step.id) with
      | ok value =>
          rw [hbehave] at houtcome
          rw [StepReport.closedBy, houtcome] at hstatus
          cases hstatus
      | error failure =>
          rw [hbehave] at houtcome
          refine ⟨failure, rfl, ?_⟩
          exact (closedBy_of_error now houtcome failure.code_ne report).2
    · rw [hreleased] at hstatus
      cases hstatus
    · rw [hincoming (hleft hbefore (by rw [hstatus]; decide))]
      exact h.failed id report' hbefore hstatus

theorem Calm.of_completes (h : Calm behave run) (hsound : Sound run) (hsound' : Sound run')
    (hrunning : run.statusOf? step.id = some .running)
    (hcompletes : Completes now step outcome run released run')
    (houtcome : outcome.result = (behave step.id (run.incoming step.id)).mapError .ofFailure)
    (hmode : ∀ e, outcome.result = .error e → run.failureMode = .proceed) : Calm behave run' := by
  have hopen := h.isOpen hrunning
  have hstatus := hcompletes.statusOf? hrunning
  have hgraph := (hcompletes.advances hsound hrunning).graph
  have hinFlight (id : String) (hrunning' : run'.statusOf? id = some .running)
      (htrigger : id ≠ run'.graph.trigger.id) : id ∈ run'.inFlight := by
    rw [hgraph] at htrigger
    rw [hstatus] at hrunning'
    rw [hcompletes.inFlight, List.mem_append, List.mem_filter]
    split at hrunning'
    · exact absurd (Option.some.inj hrunning') (Outcome.status_ne_running outcome)
    · split at hrunning'
      · exact Or.inr ‹_›
      · exact Or.inl ⟨h.inFlight id hrunning' htrigger, by simpa⟩
  refine ⟨h.toConforms.of_completes hsound hsound' hrunning hcompletes houtcome, hinFlight, ?_, ?_⟩
  · intro id status hid hterminal
    rw [hcompletes.mem_processed hopen]
    rw [hstatus] at hid
    split at hid
    · exact Or.inr ‹_›
    · split at hid
      · obtain rfl := Option.some.inj hid
        cases hterminal
      · exact Or.inl (h.processed id status hid hterminal)
  · intro hended
    obtain ⟨middle, hmiddle, rfl⟩ := hcompletes.settleIfIdle hopen hmode
    have hidle := (isTerminated_settleIfIdle hmiddle).mp hended
    rw [← inFlight_settleIfIdle] at hidle
    refine ⟨fun id hrunning' => ?_, isSettled_settleIfIdle hmiddle hended⟩
    have htrigger : id = middle.settleIfIdle.graph.trigger.id := by
      by_contra htrigger
      have hmem := hinFlight id hrunning' htrigger
      rw [hidle] at hmem
      cases hmem
    -- The step that has just been reported was released after the trigger had completed.
    have hself : middle.settleIfIdle.statusOf? step.id = some outcome.status := by
      rw [hstatus, if_pos rfl]
    refine hsound'.trigger_not_running (.of_eq hself (Outcome.status_ne_idle outcome)) ?_
      (htrigger ▸ hrunning')
    rw [hself]
    exact fun heq => Outcome.status_ne_running outcome (Option.some.inj heq)

end Run

namespace Course

variable {behave : Conduct} {c c' : Course} {move : Move} {moves moves' : List Move} {id : String}

/-- A course of which all moves so far have been calm. -/
structure Calm (behave : Conduct) (moves : List Move) (c : Course) : Prop where
  run : c.run.Calm behave
  taken : c.phase ≠ .refused
  fresh : c.phase.isUnbegun → c.run.isTerminated = false
  begun : c.phase.isUnbegun = false → c.run.HasLeftIdle c.triggerId
  lively : c.phase.isUnbegun = false → c.run.isTerminated = false →
    ∃ id, c.run.statusOf? id = some .running
  invoked : ∀ id, c.run.statusOf? id = some .running → ∃ progress, c.progress? id = some progress
  leaving : ∀ id outcome, c.progress? id = some (.leaving outcome) →
    outcome.result = (behave id (c.run.incoming id)).mapError .ofFailure
  handed : ∀ id, (∃ incoming, .hand id incoming ∈ moves) ↔
    c.run.HasLeftIdle id ∧ ∀ progress, c.progress? id = some progress → progress.isHanded

theorem exists_hand_append_iff (hmove : ∀ incoming, move ≠ .hand id incoming) :
    (∃ incoming, .hand id incoming ∈ moves ++ [move]) ↔ ∃ incoming, .hand id incoming ∈ moves := by
  refine exists_congr fun incoming => ?_
  rw [List.mem_append, List.mem_singleton]
  exact or_iff_left fun heq => hmove incoming heq.symm

theorem Calm.withLog (h : Calm behave moves c) (log : EventLog) {phase : Phase}
    (hphase : phase.isUnbegun = c.phase.isUnbegun) (htaken : phase ≠ .refused)
    (hmoves : ∀ id, (∃ incoming, .hand id incoming ∈ moves') ↔
      ∃ incoming, .hand id incoming ∈ moves) :
    Calm behave moves' { c with run := { c.run with log }, phase } where
  run := h.run.withLog log
  taken := htaken
  fresh := fun hunbegun => h.fresh (hphase ▸ hunbegun)
  begun := fun hbegun => h.begun (hphase ▸ hbegun)
  lively := fun hbegun => h.lively (hphase ▸ hbegun)
  invoked := h.invoked
  leaving := h.leaving
  handed := fun id => (hmoves id).trans (h.handed id)

theorem Calm.store (h : Calm behave moves c) :
    Calm behave (moves ++ [.store]) { c with run := c.run.stored, phase := .waiting } where
  run := h.run.stored
  taken := by simp
  fresh := fun _ => rfl
  begun := by
    intro hbegun
    cases hbegun
  lively := by
    intro hbegun
    cases hbegun
  invoked := h.invoked
  leaving := h.leaving
  handed := fun id => (exists_hand_append_iff (by simp)).trans (h.handed id)

theorem Calm.put (h : Calm behave moves c) (hsound : c.Sound) {before progress : Progress}
    (hbefore : c.progress? id = some before)
    (hmoves : ∀ other, (∃ incoming, .hand other incoming ∈ moves') ↔
      (∃ incoming, .hand other incoming ∈ moves) ∨ other = id ∧ progress.isHanded)
    (hkept : before.isHanded → progress.isHanded)
    (hleaving : ∀ outcome, progress = .leaving outcome →
      outcome.result = (behave id (c.run.incoming id)).mapError .ofFailure) :
    Calm behave moves' (c.put id progress) where
  run := h.run
  taken := h.taken
  fresh := h.fresh
  begun := h.begun
  lively := h.lively
  invoked := by
    intro other hrunning
    rw [progress?_put]
    split
    · exact ⟨progress, rfl⟩
    · exact h.invoked other hrunning
  leaving := by
    intro other outcome hprogress
    rw [progress?_put] at hprogress
    split at hprogress
    · rename_i heq
      exact heq ▸ hleaving outcome (Option.some.inj hprogress)
    · exact h.leaving other outcome hprogress
  handed := by
    intro other
    have hleft : c.run.HasLeftIdle id := .of_eq (hsound.running id before hbefore) (by decide)
    rw [hmoves, h.handed, progress?_put]
    by_cases heq : other = id
    · subst heq
      simp only [true_and, if_true, Option.some.injEq, forall_eq']
      constructor
      · rintro (⟨-, hhanded⟩ | hhanded)
        · exact ⟨hleft, hkept (hhanded before hbefore)⟩
        · exact ⟨hleft, hhanded⟩
      · exact fun hhanded => Or.inr hhanded.2
    · simp [heq, Course.put]

theorem Calm.begin (h : Calm behave moves c) (hsound : c.Sound) (hphase : c.phase = .waiting)
    (now : Moment) :
    Calm behave (moves ++ [.begin now]) (c.begun now) := by
  have hfresh := (hsound.unbegun (by rw [hphase]; rfl)).1
  have hquiet := c.run.quiet_introduce now
  have hintroduced := hfresh.quiet hquiet
  have hopen : (c.run.introduce now).isTerminated = false := by
    obtain ⟨log, hlog⟩ := c.run.exists_introduce_eq now
    rw [hlog]
    exact h.fresh (by rw [hphase]; rfl)
  have htrigger : (c.run.introduce now).graph.trigger.id = c.triggerId := by
    rw [hquiet.graph]
    rfl
  have hrunning : (c.begun now).run.statusOf? c.triggerId = some .running :=
    (hintroduced.statusOf?_begun now _).trans (if_pos htrigger.symm)
  have hentering : (c.begun now).progress? c.triggerId =
      some (.entering ((c.begun now).run.incoming c.triggerId)) := by
    rw [progress?, hsound.invocations_begun hphase]
    exact if_pos rfl
  have honly {id : String} (hleft : (c.begun now).run.HasLeftIdle id) : id = c.triggerId :=
    (hintroduced.hasLeftIdle_begun_iff.mp hleft).trans htrigger
  constructor
  case run => exact hintroduced.calm_begun hopen now
  case taken =>
    intro hrefused
    cases hrefused
  case fresh =>
    intro hunbegun
    cases hunbegun
  case begun =>
    intro _
    rw [show (c.begun now).triggerId = c.triggerId from htrigger]
    exact .of_eq hrunning (by decide)
  case lively => exact fun _ _ => ⟨_, hrunning⟩
  case invoked =>
    intro id hid
    rw [honly (.of_eq hid (by decide))]
    exact ⟨_, hentering⟩
  case leaving =>
    intro id outcome hprogress
    cases (hsound.progress?_begun hphase hprogress).2
  case handed =>
    intro id
    rw [exists_hand_append_iff (by simp), h.handed]
    refine iff_of_false (fun hhanded => hfresh.not_hasLeftIdle hhanded.1) fun hhanded => ?_
    rw [honly hhanded.1] at hhanded
    cases hhanded.2 _ hentering

theorem Calm.report (h : Calm behave moves c) (hsound : c.Sound) {now : Moment} {step : Step}
    {outcome : Outcome} {released : List String} {run : Run}
    (hprogress : c.progress? step.id = some (.leaving outcome))
    (hcompletes : Run.Completes now step outcome c.run released run)
    (hmode : ∀ e, outcome.result = .error e → c.run.failureMode = .proceed) :
    Calm behave (moves ++ [.report now step.id]) { c with
      run
      invocations := (c.drop step.id).invocations ++ released.map fun id => (id, .released) } := by
  have hrunning := hsound.running _ _ hprogress
  have hopen := h.run.isOpen hrunning
  have hsound' := (hsound.report hprogress hcompletes).run
  have hstatus := hcompletes.statusOf? hrunning
  have hadvances := hcompletes.advances hsound.run hrunning
  have hprogress' := hsound.progress?_report hprogress hcompletes
  have hincoming {id : String} (hleft : c.run.HasLeftIdle id) :
      run.incoming id = c.run.incoming id :=
    hadvances.incoming hsound.run.toCoherent hsound'.toCoherent hleft
  have hbegun : c.phase.isUnbegun = false := by
    by_contra hunbegun
    rw [Bool.not_eq_false] at hunbegun
    exact (hsound.unbegun hunbegun).1.not_hasLeftIdle (.of_eq hrunning (by decide))
  constructor
  case run =>
    exact h.run.of_completes hsound.run hsound' hrunning hcompletes
      (h.leaving step.id outcome hprogress) hmode
  case taken => exact h.taken
  case fresh =>
    intro hunbegun
    rw [hbegun] at hunbegun
    cases hunbegun
  case begun =>
    intro _
    have htrigger := hadvances.leftIdle _ (h.begun hbegun)
    rw [Course.triggerId, hadvances.graph]
    exact htrigger
  case lively => exact fun _ hopen' => hcompletes.exists_running hsound' hopen'
  case invoked =>
    intro id hrunning'
    rw [hstatus] at hrunning'
    rw [progress?, hprogress']
    split at hrunning'
    · exact absurd (Option.some.inj hrunning') (Outcome.status_ne_running outcome)
    · rename_i hne
      by_cases hmem : id ∈ released
      · exact ⟨_, if_pos hmem⟩
      · rw [if_neg hmem] at hrunning' ⊢
        rw [if_neg hne]
        exact h.invoked id hrunning'
  case leaving =>
    intro id outcome' hleaving
    rw [progress?, hprogress'] at hleaving
    split at hleaving
    · cases hleaving
    · split at hleaving
      · cases hleaving
      · rw [hincoming (.of_eq (hsound.running id _ hleaving) (by decide))]
        exact h.leaving id outcome' hleaving
  case handed =>
    intro id
    rw [exists_hand_append_iff (by simp), h.handed]
    change _ ↔ run.HasLeftIdle id ∧ ∀ progress, Table.find? (_ ++ _) id = some progress → _
    rw [hprogress', Run.HasLeftIdle, Run.HasLeftIdle, hstatus]
    by_cases hmem : id ∈ released
    · obtain ⟨hne, hidle⟩ := hcompletes.idle_of_mem_released hrunning hmem
      rw [hidle]
      refine iff_of_false (fun hhanded => ?_) fun hhanded => ?_
      · obtain ⟨⟨status, hstatus', hne'⟩, -⟩ := hhanded
        exact hne' (Option.some.inj hstatus').symm
      · cases hhanded.2 _ (if_pos hmem)
    · simp only [if_neg hmem]
      by_cases heq : id = step.id
      · rw [if_pos heq, if_pos heq, heq, hrunning, hprogress]
        refine iff_of_true ⟨⟨_, rfl, by decide⟩, ?_⟩
          ⟨⟨_, rfl, Outcome.status_ne_idle outcome⟩, by simp⟩
        rintro progress ⟨⟩
        rfl
      · rw [if_neg heq, if_neg heq]

theorem Calm.hand_of_progress? (h : Calm behave moves c) (hsound : c.Sound) {progress : Progress}
    (hprogress : c.progress? id = some progress) (hhanded : progress.isHanded) :
    ∃ incoming, .hand id incoming ∈ moves := by
  refine (h.handed id).mpr ⟨.of_eq (hsound.running id progress hprogress) (by decide), ?_⟩
  intro progress' hprogress'
  rw [hprogress] at hprogress'
  exact Option.some.inj hprogress' ▸ hhanded

theorem Calm.finish (h : Calm behave moves c) (hsound : c.Sound) {step : Step} {incoming : Fields}
    {ending : Retry.Ending Value} {outcome : Outcome}
    (hprogress : c.progress? step.id = some (.working incoming))
    (houtcome : Outcome.ofEnding? ending = some outcome)
    (hending : ending.result = behave step.id incoming) (now : Moment) :
    Calm behave (moves ++ [.finish now step.id incoming ending])
      { c.put step.id (.leaving outcome) with run := c.run.announce now step outcome } := by
  have hincoming : incoming = c.run.incoming step.id := hsound.fits step.id _ hprogress
  have hput : Calm behave (moves ++ [.finish now step.id incoming ending])
      (c.put step.id (.leaving outcome)) := by
    refine h.put hsound hprogress (fun other => ?_) (fun _ => rfl) ?_
    · rw [exists_hand_append_iff (by simp)]
      refine (or_iff_left_of_imp ?_).symm
      rintro ⟨rfl, -⟩
      exact h.hand_of_progress? hsound hprogress rfl
    · rintro outcome' ⟨⟩
      rw [Outcome.result_of_ofEnding? houtcome, hending, hincoming]
  exact hput.withLog _ rfl h.taken fun _ => Iff.rfl

/-- A calm move keeps a course calm, unless it is the failure of a step in a run that fails fast. -/
theorem Calm.of_takes (h : Calm behave moves c) (hsound : c.Sound) (htakes : c.Takes move c')
    (hcalm : move.IsCalm behave)
    (hincoming : ∀ id incoming, .hand id incoming ∈ moves → c.run.incoming id = incoming)
    (hmode : c.run.failureMode = .proceed ∨
      ∀ id incoming, .hand id incoming ∈ moves → ∃ value, behave id incoming = .ok value) :
    Calm behave (moves ++ [move]) c' := by
  cases htakes with
  | store => exact h.store
  | cancel now reason =>
      have hsame : (c.run.cancel now reason).2 = c.run := by
        by_cases hended : c.run.isTerminated
        · rw [Run.cancel, if_pos hended]
        · rw [Move.IsCalm, Run.cancel, if_neg hended] at hcalm
          cases hcalm
      rw [hsame]
      exact h.withLog c.run.log rfl h.taken fun _ => exists_hand_append_iff (by simp)
  | begin now hphase hopen => exact h.begin hsound hphase now
  | beginLate now hphase hended =>
      rw [h.fresh (by rw [hphase]; rfl)] at hended
      cases hended
  | enter id hprogress =>
      refine h.put hsound hprogress (fun other => ?_) (fun hhanded => ?_) (by simp)
      · rw [exists_hand_append_iff (by simp)]
        simp [Progress.isHanded]
      · cases hhanded
  | hand id incoming hprogress =>
      refine h.put hsound hprogress (fun other => ?_) (fun _ => rfl) (by simp)
      simp [Progress.isHanded, exists_or]
  | finish now step incoming ending outcome hprogress hstep houtcome =>
      exact h.finish hsound hprogress houtcome hcalm.1 now
  | interrupt now id incoming ending hprogress houtcome =>
      have hsome := Outcome.ofEnding?_isSome_iff.mpr hcalm.2
      rw [houtcome] at hsome
      cases hsome
  | interruptDriver now incoming ending hprogress houtcome =>
      have hsome := Outcome.ofEnding?_isSome_iff.mpr hcalm.2
      rw [houtcome] at hsome
      cases hsome
  | report now step outcome released run hprogress hcompletes =>
      refine h.report hsound hprogress hcompletes fun e hresult => hmode.resolve_right ?_
      -- The outcome is what the step was handed for, and no handed step fails.
      intro hunfailing
      obtain ⟨incoming, hhand⟩ := h.hand_of_progress? hsound hprogress rfl
      obtain ⟨value, hvalue⟩ := hunfailing step.id incoming hhand
      rw [h.leaving step.id outcome hprogress, hincoming step.id incoming hhand, hvalue] at hresult
      cases hresult
  | conclude now hphase =>
      obtain ⟨log, hlog⟩ := c.run.exists_conclude_eq now
      rw [hlog]
      exact h.withLog log (by rw [hphase]; rfl) (by simp) fun _ => exists_hand_append_iff (by simp)
  | close failure hphase =>
      exact h.withLog _ (by rw [hphase]; rfl) (by simp) fun _ => exists_hand_append_iff (by simp)
  | subscribe =>
      exact h.withLog _ rfl h.taken fun _ => exists_hand_append_iff (by simp)
  | read =>
      exact h.withLog _ rfl h.taken fun _ => exists_hand_append_iff (by simp)
  | refuse => cases hcalm
  | breakOff => cases hcalm
  | stop => cases hcalm
  | closeFailing => cases hcalm
  | leave => cases hcalm
  | stopDriver => cases hcalm

theorem calm_register (runId : String) (graph : Graph) (payload : Fields) (mode : FailureMode)
    (observers : List Observer) : Calm behave [] (register runId graph payload mode observers) := by
  have hfresh := Run.fresh_create runId graph payload mode observers
  refine ⟨hfresh.calm rfl, by simp [register], fun _ => rfl, ?_, ?_, fun id hrunning => ?_, ?_,
    fun id => ?_⟩
  · intro hbegun
    cases hbegun
  · intro hbegun
    cases hbegun
  · exact (hfresh.not_hasLeftIdle (.of_eq hrunning (by decide))).elim
  · intro id outcome hnone
    cases hnone
  · refine iff_of_false (by simp) fun hhanded => ?_
    exact hfresh.not_hasLeftIdle hhanded.1

theorem calm_of_play {runId : String} {graph : Graph} {payload : Fields} {mode : FailureMode}
    {observers : List Observer}
    (hplay : (register runId graph payload mode observers).play moves = some c)
    (hcalm : ∀ move ∈ moves, move.IsCalm behave)
    (hmode : mode = .proceed ∨
      ∀ id incoming, .hand id incoming ∈ moves → ∃ value, behave id incoming = .ok value) :
    Calm behave moves c := by
  have hstart := sound_register runId graph payload mode observers
  refine (hstart.play_induction (P := fun moves after => (∀ move ∈ moves, move.IsCalm behave) →
    (mode = .proceed ∨
      ∀ id incoming, .hand id incoming ∈ moves → ∃ value, behave id incoming = .ok value) →
    Calm behave moves after) (fun _ _ => calm_register runId graph payload mode observers) ?_
    hplay).2 hcalm hmode
  intro moves before move after hmoves hsound hsofar htakes hcalm hmode
  have hunfailing := hmode.imp_right fun hall id incoming hhand =>
    hall id incoming (List.mem_append_left [move] hhand)
  have hbefore := hsofar (fun move' hmove => hcalm move' (List.mem_append_left [move] hmove))
    hunfailing
  refine hbefore.of_takes hsound htakes (hcalm move (List.mem_append_right _ List.mem_cons_self))
    (fun id incoming hhand => (hstart.incoming_of_hand hmoves hhand).2) ?_
  rw [(hstart.play hmoves).2.failureMode]
  exact hunfailing

end Course

end Workflow
