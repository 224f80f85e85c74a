import Workflow.Proofs.Course.Calm
import Workflow.Proofs.Course.Termination

/-!
# What becomes of a step when its invocation ends

An invocation that ends with an outcome is reported: its step has completed, or has failed with a
text. An invocation may also end without one, when the repository fails while it is told about the
step, or when the invocation is cancelled, by the capability itself or from outside. Then nothing is
reported, and the step runs for ever; unless it was the repository that failed, the step stays in
flight too, and the run waits for it.
-/

namespace Workflow

namespace Course

variable {start c c' : Course} {move : Move} {moves : List Move} {id : String}

/-- A move that ends the invocation of a step without a report. -/
inductive Loses (c : Course) (id : String) : Move → Prop
  | brokenOff (failure : Failure) : Loses c id (.breakOff id failure)
  | stopped : Loses c id (.stop id)
  | cancelled (now : Moment) (incoming : Fields) (ending : Retry.Ending Value)
    (houtcome : Outcome.ofEnding? ending = none) : Loses c id (.finish now id incoming ending)
  /-- The driver takes the trigger to the dispatcher itself. -/
  | driverStopped (now : Moment) (hphase : c.phase = .driving) (htrigger : id = c.triggerId)
    (hprogress : (c.progress? id).isSome) : Loses c id (.stopDriver now)

/-- The invocation of a step has ended in a play without a report. -/
def Lost (start : Course) (moves : List Move) (id : String) : Prop :=
  ∃ before move c, before ++ [move] <+: moves ∧ start.play before = some c ∧ c.Loses id move

/-- Every step whose invocation has ended is accounted for: it is no longer in flight, it has
completed, or has failed with a text; and a run that has begun has ended when nothing is left. -/
structure Accounts (c : Course) : Prop where
  landed : ∀ id, c.run.HasLeftIdle id → c.progress? id = none → id ∉ c.run.inFlight
  reported : ∀ id, c.run.HasLeftIdle id → c.progress? id = none →
    ∃ report, c.run.report? id = some report ∧ (report.status = .completed ∨
      report.status = .failed ∧ ∃ text, report.error = some text ∧ text ≠ "")
  ended : c.run.HasLeftIdle c.triggerId → c.invocations = [] → c.run.isTerminated = true

theorem Accounts.not_running (h : c.Accounts) (hover : c.progress? id = none) :
    c.run.statusOf? id ≠ some .running := by
  intro hrunning
  obtain ⟨report, hreport, hreported⟩ := h.reported id (.of_eq hrunning (by decide)) hover
  have hstatus := Run.statusOf?_eq_some_iff.mpr ⟨report, hreport, rfl⟩
  rw [hrunning, Option.some.injEq] at hstatus
  rw [← hstatus] at hreported
  rcases hreported with hcompleted | ⟨hfailed, -⟩
  · cases hcompleted
  · cases hfailed

/-! ### Lost steps -/

theorem not_lost_nil : ¬ Lost start [] id := by
  rintro ⟨before, move, c, hprefix, -⟩
  exact List.append_ne_nil_of_right_ne_nil before (List.cons_ne_nil move [])
    (List.prefix_nil.mp hprefix)

theorem lost_append_iff (hplay : start.play moves = some c) :
    Lost start (moves ++ [move]) id ↔ Lost start moves id ∨ c.Loses id move := by
  constructor
  · rintro ⟨before, move', c', hprefix, hbefore, hloses⟩
    rcases List.prefix_concat_iff.mp hprefix with heq | hearlier
    · obtain ⟨rfl, hmove⟩ := List.append_inj' heq rfl
      obtain rfl := List.cons.inj hmove |>.1
      rw [hplay] at hbefore
      exact Or.inr (Option.some.inj hbefore ▸ hloses)
    · exact Or.inl ⟨before, move', c', hearlier, hbefore, hloses⟩
  · rintro (⟨before, move', c', hprefix, hbefore, hloses⟩ | hloses)
    · exact ⟨before, move', c', hprefix.trans (List.prefix_append _ _), hbefore, hloses⟩
    · exact ⟨moves, move, c, List.prefix_rfl, hplay, hloses⟩

/-- A step that runs is not touched once its invocation has ended. -/
theorem Sound.running_of_takes (h : c.Sound) (htakes : c.Takes move c')
    (hrunning : c.run.statusOf? id = some .running) (hnone : c.progress? id = none) :
    c'.run.statusOf? id = some .running := by
  have haffects := htakes.affects
  generalize c'.run = run at haffects ⊢
  cases haffects with
  | stored => exact hrunning
  | quiet hquiet => rw [hquiet.statusOf?, hrunning]
  | begun now hphase =>
      exact absurd hrunning (h.not_running_of_isUnbegun (by rw [hphase]; rfl))
  | completed now step outcome released _ hprogress hcompletes =>
      have hne : id ≠ step.id := by
        rintro rfl
        rw [hnone] at hprogress
        cases hprogress
      rw [hcompletes.statusOf? (h.running _ _ hprogress), if_neg hne, hrunning, ite_self]

theorem Sound.progress?_of_loses (h : c.Sound) (htakes : c.Takes move c')
    (hloses : c.Loses id move) :
    (c.progress? id).isSome ∧ c'.progress? id = none := by
  cases hloses with
  | brokenOff failure =>
      cases htakes with
      | breakOff _ _ hprogress =>
          refine ⟨?_, h.progress?_drop_self id⟩
          rcases hprogress with ⟨_, hprogress⟩ | ⟨_, hprogress⟩ <;> rw [hprogress] <;> rfl
  | stopped =>
      cases htakes with
      | stop _ hprogress => exact ⟨hprogress, h.progress?_drop_self id⟩
  | cancelled now incoming ending houtcome =>
      cases htakes with
      | finish _ step _ _ outcome _ _ hsome =>
          rw [houtcome] at hsome
          cases hsome
      | interrupt _ _ _ _ hprogress => exact ⟨by rw [hprogress]; rfl, h.progress?_drop_self id⟩
      | interruptDriver _ _ _ hprogress =>
          exact ⟨by rw [hprogress]; rfl, h.progress?_drop_self _⟩
  | driverStopped now hphase htrigger hprogress =>
      cases htakes with
      | leave _ hother =>
          rw [hphase] at hother
          simp at hother
      | stopDriver => exact ⟨hprogress, htrigger ▸ h.progress?_drop_self _⟩

theorem Sound.statusOf?_of_loses (h : c.Sound) (htakes : c.Takes move c')
    (hloses : c.Loses id move) : c'.run.statusOf? id = some .running := by
  obtain ⟨progress, hprogress⟩ :=
    Option.isSome_iff_exists.mp (h.progress?_of_loses htakes hloses).1
  refine (h.statusOf?_of_takes htakes (fun other => ?_) fun _ now => ?_).trans
    (h.running id progress hprogress)
  · cases hloses <;> rfl
  · cases hloses <;> nofun

/-- An invocation is reported, or its step is lost. -/
theorem Sound.loses_of_progress? (h : c.Sound) (htakes : c.Takes move c')
    (hsome : (c.progress? id).isSome) (hnone : c'.progress? id = none) :
    move.reports id = true ∨ c.Loses id move := by
  have hput {other : String} {progress : Progress}
      (hnone : (c.put other progress).progress? id = none) : False := by
    rw [progress?_put] at hnone
    split at hnone
    · cases hnone
    · rw [hnone] at hsome
      cases hsome
  have hdrop {other : String} (hnone : (c.drop other).progress? id = none) : id = other := by
    by_contra hne
    rw [h.progress?_drop, if_neg hne] at hnone
    rw [hnone] at hsome
    cases hsome
  cases htakes with
  | begin now hphase =>
      rw [progress?, (h.unbegun (by rw [hphase]; rfl)).2] at hsome
      cases hsome
  | enter => exact (hput hnone).elim
  | hand => exact (hput hnone).elim
  | finish => exact (hput hnone).elim
  | interrupt now other incoming ending hprogress houtcome =>
      obtain rfl := hdrop hnone
      exact Or.inr (.cancelled now incoming ending houtcome)
  | interruptDriver now incoming ending hprogress houtcome =>
      obtain rfl := hdrop hnone
      exact Or.inr (.cancelled now incoming ending houtcome)
  | report now step outcome released run hprogress hcompletes =>
      rw [progress?, h.progress?_report hprogress hcompletes] at hnone
      split at hnone
      · cases hnone
      · split at hnone
        · exact Or.inl (decide_eq_true (Eq.symm ‹_›))
        · rw [hnone] at hsome
          cases hsome
  | breakOff other failure =>
      obtain rfl := hdrop hnone
      exact Or.inr (.brokenOff failure)
  | stop other =>
      obtain rfl := hdrop hnone
      exact Or.inr .stopped
  | stopDriver now hphase =>
      have htrigger := hdrop hnone
      exact Or.inr (.driverStopped now hphase htrigger hsome)
  | _ =>
      rw [show c.progress? id = none from hnone] at hsome
      cases hsome

/-- The steps that run are those that are being invoked and those that are lost. -/
structure Tracked (start : Course) (moves : List Move) (c : Course) : Prop where
  running_iff : ∀ id, c.run.statusOf? id = some .running ↔
    (c.progress? id).isSome ∨ Lost start moves id
  through : ∀ id, Lost start moves id → c.progress? id = none

theorem Tracked.of_takes (h : Tracked start moves c) (hplay : start.play moves = some c)
    (hsound : c.Sound) (htakes : c.Takes move c') : Tracked start (moves ++ [move]) c' := by
  have hrunning {id : String} (hid : c.run.statusOf? id ≠ some .running)
      (hid' : c'.run.statusOf? id = some .running) : (c'.progress? id).isSome :=
    hsound.isSome_progress?_of_starts htakes hid hid'
  have hlost {id : String} (hlost : Lost start moves id) :
      c.run.statusOf? id = some .running ∧ c.progress? id = none :=
    ⟨(h.running_iff id).mpr (Or.inr hlost), h.through id hlost⟩
  have hsound' := hsound.of_takes htakes
  constructor
  case running_iff =>
    intro id
    rw [lost_append_iff hplay]
    constructor
    · intro hid'
      by_cases hid : c.run.statusOf? id = some .running
      · rcases (h.running_iff id).mp hid with hsome | hlost
        · cases hnone : c'.progress? id with
          | some progress => exact Or.inl rfl
          | none =>
              have hlost := hsound.loses_of_progress? htakes hsome hnone
              exact Or.inr (Or.inr (hlost.resolve_left fun hreports =>
                hsound.not_running_of_reports htakes hreports hid'))
        · exact Or.inr (Or.inl hlost)
      · exact Or.inl (hrunning hid hid')
    · rintro (hsome | hbefore | hloses)
      · obtain ⟨progress, hprogress⟩ := Option.isSome_iff_exists.mp hsome
        exact hsound'.running id progress hprogress
      · exact hsound.running_of_takes htakes (hlost hbefore).1 (hlost hbefore).2
      · exact hsound.statusOf?_of_loses htakes hloses
  case through =>
    intro id hlost'
    rcases (lost_append_iff hplay).mp hlost' with hbefore | hloses
    · obtain ⟨hid, hnone⟩ := hlost hbefore
      by_contra hsome
      have hidle := hsound.idle_of_starts htakes hnone (Option.isSome_iff_ne_none.mpr hsome)
      rw [hid] at hidle
      cases hidle
    · exact (hsound.progress?_of_loses htakes hloses).2

theorem tracked_of_play {runId : String} {graph : Graph} {payload : Fields} {mode : FailureMode}
    {observers : List Observer}
    (hplay : (register runId graph payload mode observers).play moves = some c) :
    Tracked (register runId graph payload mode observers) moves c := by
  have hstart := sound_register runId graph payload mode observers
  refine (hstart.play_induction ⟨fun id => ?_, fun id hlost => ?_⟩
    (fun _ _ _ _ hmoves hsound hsofar htakes => hsofar.of_takes hmoves hsound htakes) hplay).2
  · refine iff_of_false (hstart.not_running_of_isUnbegun rfl) ?_
    rintro (hsome | hlost)
    · cases hsome
    · exact not_lost_nil hlost
  · exact (not_lost_nil hlost).elim

/-! ### What is reported -/

/-- A failed step has a text that says why. -/
def Explained (run : Run) : Prop :=
  ∀ id report, run.report? id = some report → report.status = .failed →
    ∃ text, report.error = some text ∧ text ≠ ""

/-- A failed report says what the outcome says, if that says anything. -/
theorem exists_error_of_failed (now : Moment) (outcome : Outcome) (report : StepReport)
    (hfailed : (report.closedBy now outcome).status = .failed) : ∃ e, outcome.result = .error e ∧
      (report.closedBy now outcome).error =
        some (if e.message = "" then "Step failed" else e.message) := by
  unfold StepReport.closedBy at hfailed ⊢
  cases hresult : outcome.result with
  | ok value =>
      rw [hresult] at hfailed
      cases hfailed
  | error e => exact ⟨e, rfl, rfl⟩

/-- Every failed report has been closed by an outcome that an invocation of its step has ended
with. -/
theorem exists_closedBy_of_play {runId : String} {graph : Graph} {payload : Fields}
    {mode : FailureMode} {observers : List Observer}
    (hplay : (register runId graph payload mode observers).play moves = some c)
    {report : StepReport} (hreport : c.run.report? id = some report)
    (hfailed : report.status = .failed) :
    ∃ now outcome opened, HasEnded moves id outcome ∧
      report = StepReport.closedBy now outcome opened := by
  have hunreported {run : Run}
      (hnone : ∀ id status, run.statusOf? id = some status → status.isTerminal = false)
      {id : String} {report : StepReport} (hreport : run.report? id = some report) :
      report.status ≠ .failed := by
    intro hfailed
    have hterminal := hnone id report.status (Run.statusOf?_eq_some_iff.mpr ⟨report, hreport, rfl⟩)
    rw [hfailed] at hterminal
    cases hterminal
  have hfresh := Run.fresh_create runId graph payload mode observers
  refine ((sound_register runId graph payload mode observers).play_induction
    (P := fun moves after => ∀ id report, after.run.report? id = some report →
      report.status = .failed → ∃ now outcome opened, HasEnded moves id outcome ∧
        report = StepReport.closedBy now outcome opened)
    (fun _ _ hreport hfailed =>
      absurd hfailed (hunreported (fun _ _ => hfresh.isTerminal_eq_false) hreport))
    ?_ hplay).2 id report hreport hfailed
  intro moves before move after hmoves hsound hsofar htakes
  have hearlier (id : String) (report : StepReport) (hreport : before.run.report? id = some report)
      (hfailed : report.status = .failed) :
      ∃ now outcome opened, HasEnded (moves ++ [move]) id outcome ∧
        report = StepReport.closedBy now outcome opened := by
    obtain ⟨now, outcome, opened, hended, hclosed⟩ := hsofar id report hreport hfailed
    exact ⟨now, outcome, opened, hended.append [move], hclosed⟩
  have haffects := htakes.affects
  generalize after.run = run at haffects ⊢
  cases haffects with
  | stored => exact hearlier
  | quiet hquiet => exact fun id report hreport => hearlier id report (hquiet.report? id ▸ hreport)
  | begun now hphase =>
      have hfresh := (hsound.unbegun (by rw [hphase]; rfl)).1.quiet (before.run.quiet_introduce now)
      exact fun _ _ hreport hfailed =>
        absurd hfailed (hunreported (fun _ _ => hfresh.isTerminal_begun) hreport)
  | completed now step outcome released _ hprogress hcompletes =>
      intro id report hreport hfailed
      rcases hcompletes.report?_cases hreport with ⟨rfl, opened, rfl⟩ | hrunning | ⟨-, hbefore⟩
      · exact ⟨_, outcome, opened, (hasEnded_of_leaving hmoves hprogress).append [_], rfl⟩
      · rw [hrunning] at hfailed
        cases hfailed
      · exact hearlier id report hbefore hfailed

theorem explained_of_play {runId : String} {graph : Graph} {payload : Fields} {mode : FailureMode}
    {observers : List Observer}
    (hplay : (register runId graph payload mode observers).play moves = some c) :
    Explained c.run := by
  intro id report hreport hfailed
  obtain ⟨now, outcome, opened, -, rfl⟩ := exists_closedBy_of_play hplay hreport hfailed
  obtain ⟨e, -, herror⟩ := exists_error_of_failed now outcome opened hfailed
  refine ⟨_, herror, ?_⟩
  split
  · decide
  · assumption

/-- In a run that has begun and is open, some step runs. -/
theorem exists_running_of_play {runId : String} {graph : Graph} {payload : Fields}
    {mode : FailureMode} {observers : List Observer}
    (hplay : (register runId graph payload mode observers).play moves = some c)
    (hbegun : c.run.HasLeftIdle c.triggerId) (hopen : c.run.isTerminated = false) :
    ∃ id, c.run.statusOf? id = some .running := by
  have hfresh := Run.fresh_create runId graph payload mode observers
  refine ((sound_register runId graph payload mode observers).play_induction
    (P := fun _ after => after.run.HasLeftIdle after.triggerId → after.run.isTerminated = false →
      ∃ id, after.run.statusOf? id = some .running)
    (fun hbegun => (hfresh.not_hasLeftIdle hbegun).elim) ?_ hplay).2 hbegun hopen
  intro moves before move after _ hsound hsofar htakes hbegun hopen
  have hsound' := (hsound.of_takes htakes).run
  have hgraph := (hsound.advances htakes).graph
  have haffects := htakes.affects
  rw [triggerId, hgraph] at hbegun
  generalize after.run = run at haffects hsound' hbegun hopen ⊢
  cases haffects with
  | stored hphase =>
      have hfresh := (hsound.unbegun (by rw [hphase]; rfl)).1
      exact (hfresh.stored.not_hasLeftIdle hbegun).elim
  | quiet hquiet =>
      obtain ⟨status, hstatus, hne⟩ := hbegun
      obtain ⟨id, hrunning⟩ :=
        hsofar ⟨status, hquiet.statusOf? _ ▸ hstatus, hne⟩ (hquiet.isOpen hopen)
      exact ⟨id, (hquiet.statusOf? id).trans hrunning⟩
  | begun now hphase =>
      exact ⟨_, (hsound.statusOf?_begun hphase now _).trans (if_pos rfl)⟩
  | completed now step outcome released _ hprogress hcompletes =>
      exact hcompletes.exists_running hsound' hopen

/-- Whatever happens in a play, the steps of a run are accounted for as long as no invocation ends
without a report. A step whose invocation does so runs for ever, and it stays in flight unless the
repository has broken it off. -/
theorem accounts_iff_nothing_lost (runId : String) (graph : Graph) (payload : Fields)
    (mode : FailureMode) (observers : List Observer) (moves : List Move) (c : Course)
    (hplay : (register runId graph payload mode observers).play moves = some c) :
    (c.Accounts ↔ ∀ id, ¬ Lost (register runId graph payload mode observers) moves id) ∧
    (∀ id, c.run.statusOf? id = some .running ↔
      (c.progress? id).isSome ∨ Lost (register runId graph payload mode observers) moves id) ∧
    ∀ id, id ≠ graph.trigger.id → Lost (register runId graph payload mode observers) moves id →
      (id ∈ c.run.inFlight ↔ ∀ failure, .breakOff id failure ∉ moves) := by
  have hsound := ((sound_register runId graph payload mode observers).play hplay).1
  have htracked := tracked_of_play hplay
  have hrecorded := recorded_of_play hplay
  have hexplained := explained_of_play hplay
  refine ⟨⟨fun haccounts id hlost => ?_, fun hnone => ?_⟩, htracked.running_iff,
    fun id htrigger hlost => ?_⟩
  · exact haccounts.not_running (htracked.through id hlost)
      ((htracked.running_iff id).mpr (Or.inr hlost))
  · have hnot {id : String} (hover : c.progress? id = none) :
        c.run.statusOf? id ≠ some .running := by
      intro hrunning
      rcases (htracked.running_iff id).mp hrunning with hsome | hlost
      · rw [hover] at hsome
        cases hsome
      · exact hnone id hlost
    refine ⟨fun id _ hover hinFlight => ?_, fun id hleft hover => ?_, fun hbegun hthrough => ?_⟩
    · exact hnot hover (hsound.run.inFlight id hinFlight).2
    · obtain ⟨status, hstatus, hne⟩ := hleft
      obtain ⟨report, hreport, rfl⟩ := Run.statusOf?_eq_some_iff.mp hstatus
      refine ⟨report, hreport, ?_⟩
      cases hcase : report.status with
      | idle => exact absurd hcase hne
      | running => exact absurd (hcase ▸ hstatus) (hnot hover)
      | completed => exact Or.inl rfl
      | failed => exact Or.inr ⟨rfl, hexplained id report hreport hcase⟩
    · by_contra hopen
      obtain ⟨id, hrunning⟩ := exists_running_of_play hplay hbegun (Bool.not_eq_true _ ▸ hopen)
      refine hnot ?_ hrunning
      rw [progress?, hthrough]
      rfl
  · have hrunning := (htracked.running_iff id).mpr (Or.inr hlost)
    obtain rfl := graph_of_play hplay
    rw [hrecorded.inFlight]
    exact ⟨fun hinFlight => hinFlight.2.2, fun hbroken => ⟨hrunning, htrigger, hbroken⟩⟩

/-- The right step has completed, and the outcome of the left one is known. -/
def oneToGoMoves (ending : Retry.Ending Value) : List Move :=
  .store :: .begin .origin :: invocation "start" [] ⟨.ok .null, 1⟩ ++
    [.enter "left", .enter "right"] ++ invocation "right" [] ⟨.ok .null, 1⟩ ++
    [.hand "left" [], .finish .origin "left" [] ending]

/-- The repository fails while it is told how the left step has ended. -/
def brokenOffMoves : List Move :=
  oneToGoMoves ⟨.ok .null, 1⟩ ++ [.breakOff "left" (.fault "RuntimeError" "unavailable")]

/-- The capability behind the left step ends by raising a cancellation. -/
def cancelledMoves : List Move := oneToGoMoves ⟨.error .cancelled, 1⟩

theorem isSome_play_brokenOffMoves :
    ((register "run" diamond [] .failFast []).play brokenOffMoves).isSome := by decide +kernel

theorem isSome_play_cancelledMoves :
    ((register "run" diamond [] .failFast []).play cancelledMoves).isSome := by decide +kernel

def brokenOff : Course :=
  ((register "run" diamond [] .failFast []).play brokenOffMoves).get isSome_play_brokenOffMoves

def leftHanging : Course :=
  ((register "run" diamond [] .failFast []).play cancelledMoves).get isSome_play_cancelledMoves

theorem invocations_leftHanging : leftHanging.invocations = [] :=
  List.isEmpty_iff.mp (by decide +kernel)

theorem statusOf?_leftHanging : leftHanging.run.statusOf? "left" = some .running := by
  decide +kernel

/-- When nothing is left in either play, the left step still runs. In the one the run has failed; in
the other it waits for the left step. -/
theorem not_accounts_brokenOff_leftHanging :
    ((register "run" diamond [] .failFast []).play brokenOffMoves = some brokenOff ∧
      brokenOff.invocations = [] ∧ brokenOff.run.status = .failed ∧
      brokenOff.run.statusOf? "left" = some .running ∧ ¬ brokenOff.Accounts) ∧
    (register "run" diamond [] .failFast []).play cancelledMoves = some leftHanging ∧
      leftHanging.invocations = [] ∧ leftHanging.run.isTerminated = false ∧
      leftHanging.run.inFlight = ["left"] ∧
      leftHanging.run.statusOf? "left" = some .running ∧ ¬ leftHanging.Accounts := by
  have hthrough : brokenOff.invocations = [] := List.isEmpty_iff.mp (by decide +kernel)
  have hrunning : brokenOff.run.statusOf? "left" = some .running := by decide +kernel
  have hopen : leftHanging.run.isTerminated = false := by decide +kernel
  refine ⟨⟨(Option.some_get _).symm, hthrough, by decide +kernel, hrunning, fun haccounts => ?_⟩,
    (Option.some_get _).symm, invocations_leftHanging, hopen, by decide +kernel,
    statusOf?_leftHanging, fun haccounts => ?_⟩
  · refine haccounts.not_running ?_ hrunning
    rw [progress?, hthrough]
    rfl
  · have hbegun : leftHanging.run.statusOf? leftHanging.triggerId = some .completed := by
      decide +kernel
    have hended := haccounts.ended (.of_eq hbegun (by decide)) invocations_leftHanging
    rw [hopen] at hended
    cases hended

theorem leftHanging_lost :
    (register "run" diamond [] .failFast []).play cancelledMoves = some leftHanging ∧
    Lost (register "run" diamond [] .failFast []) cancelledMoves "left" ∧
    "left" ∈ leftHanging.run.inFlight := by
  have hplay : (register "run" diamond [] .failFast []).play cancelledMoves = some leftHanging :=
    (Option.some_get _).symm
  obtain ⟨-, hrunning, hinFlight⟩ := accounts_iff_nothing_lost _ _ _ _ _ _ _ hplay
  have hlost := ((hrunning "left").mp statusOf?_leftHanging).resolve_left (by
    rw [progress?, invocations_leftHanging]
    simp [Table.find?])
  exact ⟨hplay, hlost, (hinFlight "left" (by decide) hlost).mpr
    (by simp [cancelledMoves, oneToGoMoves, invocation])⟩

end Course

end Workflow
