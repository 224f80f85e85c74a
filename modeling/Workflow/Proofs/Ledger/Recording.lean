import Workflow.Proofs.Course.Verdict
import Workflow.Proofs.Ledger.Filing

/-!
# What is recorded of a run

From the moment at which a run is created in its repository it has a record there. In every play of
its ledger the record of each step has come as far as its invocation, unless the step is lost, and
the end of the run is recorded, or owed, once the last words on the run are said.
-/

namespace Workflow

/-! ### Reports without a failure -/

theorem StepReport.error_closedBy_of_ne {report : StepReport} {now : Moment} {outcome : Outcome}
    (hstatus : (report.closedBy now outcome).status ≠ .failed) :
    (report.closedBy now outcome).error = report.error := by
  unfold closedBy at hstatus ⊢
  cases hresult : outcome.result with
  | ok value => rfl
  | error e =>
      rw [hresult] at hstatus
      exact absurd rfl hstatus

namespace Course

variable {runId : String} {graph : Graph} {payload : Fields} {mode : FailureMode}
  {observers : List Observer} {moves : List Move} {c c' : Course} {move : Move}

/-- Only a failed step has an error. -/
def Unblamed (run : Run) : Prop :=
  ∀ id report, run.report? id = some report → report.status ≠ .failed → report.error = none

theorem Unblamed.of_takes (h : Unblamed c.run) (hsound : c.Sound) (htakes : c.Takes move c') :
    Unblamed c'.run := by
  have hbefore {id : String} {report : StepReport} {status : StepStatus}
      (hreport : c.run.report? id = some report) (hstatus : c.run.statusOf? id = some status)
      (hne : status ≠ .failed) : report.error = none := by
    rw [Run.statusOf?, hreport, Option.map_some, Option.some.injEq] at hstatus
    exact h id report hreport (hstatus ▸ hne)
  have haffects := htakes.affects
  generalize c'.run = run at haffects ⊢
  intro id report hreport hstatus
  cases haffects with
  | stored => exact h id report hreport hstatus
  | quiet hquiet => exact h id report (hquiet.report? id ▸ hreport) hstatus
  | begun now hphase =>
      have hquiet := c.run.quiet_introduce now
      have hfresh := (hsound.unbegun (by rw [hphase]; rfl)).1
      rw [Run.begun, Run.report?_adjustReport, hquiet.report?, hquiet.graph] at hreport
      split at hreport
      · rename_i htrigger
        obtain ⟨before, hfound, rfl⟩ := Option.map_eq_some_iff.mp hreport
        have herror : before.error = none :=
          hbefore hfound (htrigger ▸ hfresh.idle _ Graph.trigger_mem_ids) (by decide)
        exact herror
      · exact h id report hreport hstatus
  | completed now step outcome released _ hprogress hcompletes =>
      have hrunning := hsound.running _ _ hprogress
      rw [hcompletes.report?, Run.report?_closed] at hreport
      split at hreport
      · rename_i hmem
        obtain ⟨hne, hidle⟩ := hcompletes.idle_of_mem_released hrunning hmem
        rw [if_neg hne] at hreport
        obtain ⟨before, hfound, rfl⟩ := Option.map_eq_some_iff.mp hreport
        have herror : before.error = none := hbefore hfound hidle (by decide)
        exact herror
      · split at hreport
        · subst id
          obtain ⟨before, hfound, rfl⟩ := Option.map_eq_some_iff.mp hreport
          rw [StepReport.error_closedBy_of_ne hstatus]
          exact hbefore hfound hrunning (by decide)
        · exact h id report hreport hstatus

theorem unblamed_of_play
    (hplay : (register runId graph payload mode observers).play moves = some c) :
    Unblamed c.run := by
  refine ((sound_register runId graph payload mode observers).play_induction
    (P := fun _ after => Unblamed after.run) ?_
    (fun _ _ _ _ _ hsound hsofar htakes => hsofar.of_takes hsound htakes) hplay).2
  intro id report hreport _
  obtain ⟨step, -, hstep⟩ := List.mem_map.mp (Table.mem_of_find?_eq_some hreport)
  cases hstep
  rfl

theorem play_concat {start : Course} (hplay : start.play moves = some c)
    (hstep : c.step move = some c') : start.play (moves ++ [move]) = some c' := by
  rw [play_append, hplay, Option.bind_some, play, hstep]
  rfl

/-- When a run has ended, a move leaves its verdict as it is, unless it is stored after all. -/
theorem verdict_of_isTerminated
    (hplay : (register runId graph payload mode observers).play moves = some c)
    (hstep : c.step move = some c') (hended : c.run.isTerminated = true)
    (hrace : ¬ StoredAfterCancel (moves ++ [move])) :
    c'.run.isTerminated = true ∧ c'.run.status = c.run.status ∧ c'.run.error = c.run.error := by
  have hlater : c.play [move] = some c' := by rw [play, hstep, Option.bind_some, play]
  have haftermath := aftermath_of_play hplay hlater hended hrace
  exact ⟨haftermath.isTerminated.trans hended, haftermath.status, haftermath.error⟩

end Course

/-- What a capability returns is made of what JSON has. -/
def Move.isNative : Move → Bool
  | .finish _ _ _ ⟨.ok value, _⟩ => Json.isNative value
  | _ => true

theorem Outcome.isNativePart_closing {now : Moment} {id : String} {incoming : Fields}
    {ending : Retry.Ending Value} {outcome : Outcome}
    (houtcome : ofEnding? ending = some outcome)
    (hnative : (Move.finish now id incoming ending).isNative = true) :
    outcome.closing.output.IsNativePart := by
  have hresult := result_of_ofEnding? houtcome
  obtain ⟨failure | value, attempts⟩ := ending
  · rw [closing, hresult]
    trivial
  · have hvalue : Json.isNative value = true := hnative
    rw [closing, hresult]
    show Json.isNative (.map [(.str "result", value)]) = true
    simp [Json.isNative, Json.haveNative, hvalue, Table.keys]

namespace Act

/-- The repository does its work, whoever waits for it, and a capability returns what JSON has. -/
def isRegular : Act → Bool
  | .move m => !m.isRefusal && m.isNative
  | .write now _ => decide now.IsValid
  | .other .. => true

theorem isRegular_move_iff {move : Move} :
    (Act.move move).isRegular = true ↔ move.isRefusal = false ∧ move.isNative = true := by
  rw [isRegular, Bool.and_eq_true, Bool.not_eq_true']

theorem isNative_of_mem_moves {acts : List Act} (h : ∀ act ∈ acts, act.isRegular = true)
    {move : Move} (hmem : move ∈ moves acts) : move.isNative = true := by
  obtain ⟨act, hact, hmove⟩ := List.mem_filterMap.mp hmem
  cases act with
  | move move' =>
      obtain rfl := Option.some.inj hmove
      exact (isRegular_move_iff.mp (h _ hact)).2
  | write => cases hmove
  | other => cases hmove

end Act

/-! ### The invariant -/

/-- The record says how its run has ended. -/
structure RunRecord.Tells (record : RunRecord) (run : Run) : Prop where
  ended : run.isTerminated = true
  status : record.status = some run.status.name
  error : record.error = run.error

namespace Ledger

variable {l l' : Ledger} {move : Move} {now : Moment} {entry : Entry} {act : Act} {acts : List Act}
  {record record' : RunRecord} {id : String} {filing filing' : Filing} {start : Course}
  {moves : List Move} {course : Course} {repository : Repository}

/-- The run is not in its repository yet. -/
structure Unrecorded (moves : List Move) (l : Ledger) : Prop where
  phase : l.course.phase = .registered
  unclosed : .close none ∉ moves
  unknown : l.repository.IsUnknown l.course.run.id
  owed : ∃ definition payload,
    l.owed = [.createRun l.course.run.id (.map definition) (.map payload)]

/-- What a ledger has of a step, and what it owes. -/
structure Files (l : Ledger) (record : RunRecord) (id : String) (filing : Filing) : Prop where
  keeps : filing.Keeps (record.stepsOf id)
  owed_iff : ∀ entry, entry.stepId? = some id →
    (entry ∈ l.owed ↔ filing.owes l.course.run.id id = some entry)

/-- The run has a record, and the record keeps up with it. -/
structure Recorded (start : Course) (moves : List Move) (l : Ledger) (record : RunRecord) :
    Prop where
  run : l.repository.run? l.course.run.id = .ok (some record)
  steps : ∀ id, ∃ filing, l.Files record id filing ∧
    (filing.Suits l.course id ∨ Course.Lost start moves id)
  native : ∀ runId id closing, .closeStep runId id closing ∈ l.owed → closing.output.IsNativePart
  ending : ∀ entry ∈ l.owed, entry.stepId? = none →
    entry = l.course.run.ending ∧ l.course.run.isTerminated = true
  closing : l.course.phase.isClosing = true →
    l.course.run.ending ∈ l.owed ∨ record.Tells l.course.run
  closed : .close none ∈ moves → record.Tells l.course.run

/-! ### Moves -/

theorem Files.turns (h : l.Files record id filing) (hid : course.run.id = l.course.run.id)
    {new : List Entry} (hturns : Filing.Turns l.course.run.id id new filing filing') :
    Files { l with course, owed := l.owed ++ new } record id filing' where
  keeps := hturns.keeps _ h.keeps
  owed_iff := by
    intro entry hentry
    show entry ∈ l.owed ++ new ↔ filing'.owes course.run.id id = some entry
    rw [hid, hturns.owes_iff entry hentry, List.mem_append, h.owed_iff entry hentry]

section Moves

variable {runId : String} {graph : Graph} {payload : Fields} {mode : FailureMode}
  {observers : List Observer}

theorem Recorded.files_of_takes
    (h : l.Recorded (.register runId graph payload mode observers) moves record)
    (hplay : (Course.register runId graph payload mode observers).play moves = some l.course)
    (hstep : l.course.step move = some course)
    (hready : ∀ entry ∈ l.owed, move.follows entry = false) (id : String) : ∃ filing,
      Files { l with course, owed := l.owed ++ l.course.owed course move } record id filing ∧
      (filing.Suits course id ∨
        Course.Lost (.register runId graph payload mode observers) (moves ++ [move]) id) := by
  have hsound := ((Course.sound_register runId graph payload mode observers).play hplay).1
  have htakes := hsound.takes hstep
  have hid := (hsound.advances htakes).id
  have htracked := Course.tracked_of_play (Course.play_concat hplay hstep)
  have hlost {filing : Filing} (hfiles : l.Files record id filing)
      (hlost : Course.Lost (.register runId graph payload mode observers) (moves ++ [move]) id) :=
    hfiles.turns hid (Filing.turns_of_progress?_none hsound htakes (htracked.through id hlost))
  obtain ⟨filing, hfiles, hsuits | hbefore⟩ := h.steps id
  · by_cases hloses : l.course.Loses id move
    · have hnow := (Course.lost_append_iff hplay).mpr (Or.inr hloses)
      exact ⟨filing, hlost hfiles hnow, Or.inr hnow⟩
    · obtain ⟨filing', hsuits', hturns⟩ := hsuits.of_takes hsound htakes
        (fun report hreport hrunning =>
          Course.unblamed_of_play hplay id report hreport (by rw [hrunning]; decide))
        (fun entry howes => hready entry
          ((hfiles.owed_iff entry (Filing.stepId?_of_owes howes).1).mpr howes)) hloses
      exact ⟨filing', hfiles.turns hid hturns, Or.inl hsuits'⟩
  · have hnow : Course.Lost (.register runId graph payload mode observers) (moves ++ [move]) id :=
      (Course.lost_append_iff hplay).mpr (Or.inl hbefore)
    exact ⟨filing, hlost hfiles hnow, Or.inr hnow⟩

/-- The end of a run is owed from the move on by which its last words are said. -/
theorem mem_owed_of_stepId?_none {c : Course} (hentry : entry.stepId? = none)
    (hmem : entry ∈ c.owed course move) :
    entry = course.run.ending ∧ course.phase.isClosing = true := by
  rw [Course.owed, List.mem_append, Option.mem_toList] at hmem
  rcases hmem with hstep | hending
  · cases move with
    | begin now =>
        simp only [Course.stepOwed] at hstep
        split at hstep <;> cases hstep
        cases hentry
    | enter stepId =>
        cases hstep
        cases hentry
    | finish now stepId incoming ending =>
        obtain ⟨outcome, -, rfl⟩ := Option.map_eq_some_iff.mp hstep
        cases hentry
    | _ => cases hstep
  · split at hending
    · rename_i hclosing
      rw [Bool.and_eq_true] at hclosing
      exact ⟨List.mem_singleton.mp hending, hclosing.1⟩
    · cases hending

theorem ending_mem_owed {c : Course} (hclosing : course.phase.isClosing = true)
    (hnot : c.phase.isClosing = false) : course.run.ending ∈ c.owed course move := by
  rw [Course.owed, hclosing, hnot]
  exact List.mem_append_right _ (List.mem_singleton_self _)

theorem Recorded.of_move
    (h : l.Recorded (.register runId graph payload mode observers) moves record)
    (hplay : (Course.register runId graph payload mode observers).play moves = some l.course)
    (hstep : l.course.step move = some course)
    (hready : ∀ entry ∈ l.owed, move.follows entry = false)
    (hnative : ∀ earlier ∈ moves ++ [move], earlier.isNative = true)
    (hrace : ¬ Course.StoredAfterCancel (moves ++ [move])) :
    Recorded (.register runId graph payload mode observers) (moves ++ [move])
      { l with course, owed := l.owed ++ l.course.owed course move } record := by
  have hsound := ((Course.sound_register runId graph payload mode observers).play hplay).1
  have htakes := hsound.takes hstep
  have hid := (hsound.advances htakes).id
  have hplay' := Course.play_concat hplay hstep
  have horderly' := Course.orderly_of_play hplay' hrace
  have hkept (hended : l.course.run.isTerminated = true) :=
    Course.verdict_of_isTerminated hplay hstep hended hrace
  have hending (hended : l.course.run.isTerminated = true) :
      course.run.ending = l.course.run.ending := by
    obtain ⟨-, hstatus, herror⟩ := hkept hended
    rw [Run.ending, Run.ending, hid, hstatus, herror]
  have htells (htold : record.Tells l.course.run) : record.Tells course.run := by
    obtain ⟨hended, hstatus, herror⟩ := hkept htold.ended
    exact ⟨hended, htold.status.trans (by rw [hstatus]), htold.error.trans herror.symm⟩
  constructor
  case run => exact hid ▸ h.run
  case steps => exact h.files_of_takes hplay hstep hready
  case native =>
    intro otherRun id closing hmem
    rcases List.mem_append.mp hmem with hbefore | hnew
    · exact h.native otherRun id closing hbefore
    · obtain ⟨progress, hprogress, -, hwrite⟩ := (hsound.mem_owed_iff htakes rfl).mp hnew
      cases progress with
      | leaving outcome =>
          obtain ⟨now, incoming, ending, hfinish, houtcome⟩ :=
            Course.hasEnded_of_leaving hplay' hprogress
          cases hwrite
          exact Outcome.isNativePart_closing houtcome (hnative _ hfinish)
      | _ => cases hwrite
  case ending =>
    intro entry hmem hentry
    rcases List.mem_append.mp hmem with hbefore | hnew
    · obtain ⟨hsame, hended⟩ := h.ending entry hbefore hentry
      exact ⟨hsame.trans (hending hended).symm, (hkept hended).1⟩
    · obtain ⟨hsame, hclosing⟩ := mem_owed_of_stepId?_none hentry hnew
      refine ⟨hsame, horderly'.ended ?_⟩
      cases hphase : course.phase <;> simp_all [Phase.isClosing, Phase.isEnded]
  case closing =>
    intro hclosing
    by_cases hbefore : l.course.phase.isClosing = true
    · rcases h.closing hbefore with howed | htold
      · refine Or.inl (List.mem_append_left _ ?_)
        exact hending (h.ending _ howed rfl).2 ▸ howed
      · exact Or.inr (htells htold)
    · rw [Bool.not_eq_true] at hbefore
      exact Or.inl (List.mem_append_right _ (ending_mem_owed hclosing hbefore))
  case closed =>
    intro hmem
    rcases List.mem_append.mp hmem with hbefore | hnow
    · exact htells (h.closed hbefore)
    · obtain rfl := List.mem_singleton.mp hnow
      -- Whoever closes a run has been waiting for its end to be recorded.
      cases htakes with
      | close failure hphase =>
          have hdone := h.closing (by rw [hphase]; rfl)
          refine htells (hdone.resolve_left fun howed => ?_)
          simpa [Move.follows, Run.ending] using hready _ howed

end Moves

/-! ### Writes -/

theorem Files.written (h : l.Files record id filing)
    (howes : filing.owes l.course.run.id id = some entry)
    (hkeeps : filing.written.Keeps (record'.stepsOf id)) :
    Files { l with repository, owed := l.owed.filter (· ≠ entry) } record' id filing.written where
  keeps := hkeeps
  owed_iff := by
    intro other hother
    show other ∈ l.owed.filter (· ≠ entry) ↔ filing.written.owes l.course.run.id id = some other
    rw [List.mem_filter, h.owed_iff other hother, howes, Filing.owes_written]
    refine iff_of_false (fun hboth => ?_) nofun
    exact of_decide_eq_true hboth.2 (Option.some.inj hboth.1).symm

theorem Files.of_ne (h : l.Files record id filing) (hne : entry.stepId? ≠ some id)
    (hsame : record'.stepsOf id = record.stepsOf id) :
    Files { l with repository, owed := l.owed.filter (· ≠ entry) } record' id filing where
  keeps := hsame ▸ h.keeps
  owed_iff := by
    intro other hother
    have hdistinct : other ≠ entry := by
      rintro rfl
      exact hne hother
    show other ∈ l.owed.filter (· ≠ entry) ↔ _
    rw [List.mem_filter, h.owed_iff other hother]
    simp [hdistinct]

theorem Recorded.nodup (h : l.Recorded start moves record) :
    (record.steps.map (·.stepId)).Nodup := by
  refine RunRecord.nodup_of_length_stepsOf fun id => ?_
  obtain ⟨filing, hfiles, -⟩ := h.steps id
  exact hfiles.keeps.length_le_one

/-- A write about a step takes the record of that step one stage further, and nothing else. -/
theorem Recorded.of_stepWrite (h : l.Recorded start moves record)
    (hentry : entry.stepId? = some id) (hfiles : l.Files record id filing)
    (hsuits : filing.Suits l.course id ∨ Course.Lost start moves id)
    (howes : filing.owes l.course.run.id id = some entry)
    (hrun : repository.run? l.course.run.id = .ok (some record'))
    (hkeeps : filing.written.Keeps (record'.stepsOf id))
    (hothers : ∀ other ≠ id, record'.stepsOf other = record.stepsOf other)
    (hstatus : record'.status = record.status) (herror : record'.error = record.error) :
    Recorded start moves { l with repository, owed := l.owed.filter (· ≠ entry) } record' := by
  have htells (htold : record.Tells l.course.run) : record'.Tells l.course.run :=
    ⟨htold.ended, hstatus.trans htold.status, herror.trans htold.error⟩
  constructor
  case run => exact hrun
  case steps =>
    intro other
    by_cases hother : other = id
    · subst hother
      exact ⟨filing.written, hfiles.written howes hkeeps, hsuits.imp_left Filing.Suits.written⟩
    · obtain ⟨filing', hfiles', hsuits'⟩ := h.steps other
      refine ⟨filing', hfiles'.of_ne ?_ (hothers other hother), hsuits'⟩
      rw [hentry, ne_eq, Option.some.injEq]
      exact Ne.symm hother
  case native =>
    intro otherRun stepId closing hmem
    exact h.native otherRun stepId closing (List.mem_filter.mp hmem).1
  case ending =>
    intro other hmem
    exact h.ending other (List.mem_filter.mp hmem).1
  case closing =>
    intro hclosing
    refine (h.closing hclosing).imp (fun howed => List.mem_filter.mpr ⟨howed, ?_⟩) htells
    refine decide_eq_true fun hsame => ?_
    rw [← hsame] at hentry
    cases hentry
  case closed => exact fun hmem => htells (h.closed hmem)

theorem Recorded.startStep (h : l.Recorded start moves record) {runId : String}
    (howed : .startStep runId id ∈ l.owed) (hnow : now.IsValid) :
    ∃ record', Recorded start moves
      { l with
        repository := l.repository.startStep now runId id
        owed := l.owed.filter (· ≠ .startStep runId id) } record' := by
  obtain ⟨filing, hfiles, hsuits⟩ := h.steps id
  have howes := (hfiles.owed_iff _ rfl).mp howed
  obtain rfl : runId = l.course.run.id := (Filing.stepId?_of_owes howes).2
  obtain rfl := Filing.eq_of_owes_eq_startStep howes
  have hnew : ∀ step ∈ record.steps, step.stepId ≠ id := by
    rintro step hmem rfl
    exact RunRecord.stepsOf_eq_nil_iff.mp hfiles.keeps (List.mem_map_of_mem hmem)
  refine ⟨_, h.of_stepWrite rfl hfiles hsuits howes
    (Repository.run?_startStep hnow h.run hnew) ?_ (fun other hother => ?_) rfl rfl⟩
  · rw [RunRecord.stepsOf_addStep, if_pos rfl]
    exact hfiles.keeps.opened ⟨rfl, rfl⟩
  · rw [RunRecord.stepsOf_addStep, if_neg hother]

theorem Recorded.closeStep (h : l.Recorded start moves record) {runId : String}
    {closing : StepClosing} (howed : .closeStep runId id closing ∈ l.owed) (hnow : now.IsValid)
    (hwrite : l.repository.closeStep now runId id closing = .ok repository) :
    ∃ record', Recorded start moves
      { l with repository, owed := l.owed.filter (· ≠ .closeStep runId id closing) } record' := by
  obtain ⟨filing, hfiles, hsuits⟩ := h.steps id
  have howes := (hfiles.owed_iff _ rfl).mp howed
  obtain rfl : runId = l.course.run.id := (Filing.stepId?_of_owes howes).2
  obtain ⟨outcome, rfl, rfl⟩ := Filing.eq_of_owes_eq_closeStep howes
  obtain ⟨hkept, hnative⟩ := (h.native _ _ _ howed).kept_eq
  have hopen : ∀ step ∈ record.steps, step.stepId = id → step.completedAt = none := by
    intro step hmem hstep
    obtain ⟨only, honly, hopen⟩ := hfiles.keeps
    have hmem' : step ∈ record.stepsOf id := RunRecord.mem_stepsOf_iff.mpr ⟨hmem, hstep⟩
    rw [honly, List.mem_singleton] at hmem'
    exact hmem' ▸ hopen.completedAt
  have hrun := Repository.run?_closeStep hnow hkept h.run h.nodup hopen hwrite
  rw [Repository.shelved_of_isNative hnative] at hrun
  refine ⟨_, h.of_stepWrite rfl hfiles hsuits howes hrun ?_ (fun other hother => ?_) rfl rfl⟩
  · rw [RunRecord.stepsOf_closeStep, if_pos rfl]
    exact hfiles.keeps.closed
  · rw [RunRecord.stepsOf_closeStep, if_neg hother]

theorem Recorded.closeRun (h : l.Recorded start moves record)
    (hended : l.course.run.isTerminated = true)
    (hwrite : l.repository.closeRun l.course.run.id (some l.course.run.status.name)
      l.course.run.error = .ok repository) :
    ∃ record', Recorded start moves
      { l with repository, owed := l.owed.filter (· ≠ l.course.run.ending) } record' := by
  have htells : RunRecord.Tells
      { record with status := some l.course.run.status.name, error := l.course.run.error }
      l.course.run := ⟨hended, rfl, rfl⟩
  refine ⟨_, Repository.run?_closeRun h.run hwrite, ?steps, ?native, ?ending, ?closing, ?closed⟩
  case steps =>
    intro id
    obtain ⟨filing, hfiles, hsuits⟩ := h.steps id
    exact ⟨filing, hfiles.of_ne nofun rfl, hsuits⟩
  case native =>
    intro otherRun stepId closing hmem
    exact h.native otherRun stepId closing (List.mem_filter.mp hmem).1
  case ending =>
    intro other hmem
    exact h.ending other (List.mem_filter.mp hmem).1
  case closing => exact fun _ => Or.inr htells
  case closed => exact fun _ => htells

theorem Recorded.of_write (h : l.Recorded start moves record) (howed : entry ∈ l.owed)
    (hnow : now.IsValid) (hwrite : l.repository.write now entry = .ok repository) :
    ∃ record', Recorded start moves
      { l with repository, owed := l.owed.filter (· ≠ entry) } record' := by
  cases entry with
  | createRun runId definition payload => cases (h.ending _ howed rfl).1
  | startStep runId stepId =>
      obtain rfl := Except.ok.inj hwrite
      exact h.startStep howed hnow
  | closeStep runId stepId closing => exact h.closeStep howed hnow hwrite
  | closeRun runId status error =>
      obtain ⟨hsame, hended⟩ := h.ending _ howed rfl
      rw [hsame] at hwrite ⊢
      exact h.closeRun hended hwrite

theorem Recorded.of_other (h : l.Recorded start moves record)
    (hne : entry.runId ≠ l.course.run.id)
    (hwrite : l.repository.write now entry = .ok repository) :
    Recorded start moves { l with repository } record :=
  { h with
    run := (Repository.spares_write hwrite hne).run?.trans h.run
    steps := fun id => by
      obtain ⟨filing, hfiles, hsuits⟩ := h.steps id
      exact ⟨filing, ⟨hfiles.keeps, hfiles.owed_iff⟩, hsuits⟩ }

/-! ### The beginning -/

theorem Unrecorded.of_move (h : l.Unrecorded moves) (hsound : l.course.Sound)
    (hstep : l.course.step move = some course) (hmove : move.isRefusal = false)
    (hready : ∀ entry ∈ l.owed, move.follows entry = false) :
    Unrecorded (moves ++ [move])
      { l with course, owed := l.owed ++ l.course.owed course move } := by
  obtain ⟨definition, payload, howed⟩ := h.owed
  have hinvoked {id : String} {progress : Progress}
      (hprogress : l.course.progress? id = some progress) : False := by
    have hbegun := hsound.begun_of_progress hprogress
    rw [h.phase] at hbegun
    cases hbegun
  have hregistered {phase : Phase} (hphase : l.course.phase = phase) : phase = .registered :=
    hphase.symm.trans h.phase
  have hstays (hnothing : l.course.owed course move = []) (hid : course.run.id = l.course.run.id)
      (hregistered : course.phase = .registered) (hclose : move ≠ .close none) :
      Unrecorded (moves ++ [move])
        { l with course, owed := l.owed ++ l.course.owed course move } := by
    refine ⟨hregistered, ?_, hid ▸ h.unknown, definition, payload, ?_⟩
    · rw [List.mem_append, List.mem_singleton]
      exact not_or.mpr ⟨h.unclosed, hclose.symm⟩
    · rw [hnothing, List.append_nil, hid, howed]
  have htakes := hsound.takes hstep
  have hid := (hsound.advances htakes).id
  cases htakes with
  | store => simp [howed, Move.follows] at hready
  | cancel now reason =>
      refine hstays ?_ hid h.phase (by simp)
      simp [Course.owed, Course.stepOwed, Phase.isClosing, h.phase]
  | subscribe =>
      refine hstays ?_ hid h.phase (by simp)
      simp [Course.owed, Course.stepOwed, Phase.isClosing, h.phase]
  | read index =>
      refine hstays ?_ hid h.phase (by simp)
      simp [Course.owed, Course.stepOwed, Phase.isClosing, h.phase]
  | refuse => cases hmove
  | breakOff => cases hmove
  | begin now hwaiting => cases hregistered hwaiting
  | beginLate now hwaiting => cases hregistered hwaiting
  | conclude now hdriving => cases hregistered hdriving
  | close failure hclosing => cases hregistered hclosing
  | closeFailing failure problem hclosing => cases hregistered hclosing
  | leave now hother =>
      rcases hother with hwaiting | ⟨failure, hclosing⟩
      · cases hregistered hwaiting
      · cases hregistered hclosing
  | stopDriver now hdriving => cases hregistered hdriving
  | enter id hprogress => exact (hinvoked hprogress).elim
  | hand id incoming hprogress => exact (hinvoked hprogress).elim
  | finish now step incoming ending outcome hprogress => exact (hinvoked hprogress).elim
  | interrupt now id incoming ending hprogress => exact (hinvoked hprogress).elim
  | interruptDriver now incoming ending hprogress => exact (hinvoked hprogress).elim
  | report now step outcome released run hprogress => exact (hinvoked hprogress).elim
  | stop id hprogress =>
      obtain ⟨progress, hprogress⟩ := Option.isSome_iff_exists.mp hprogress
      exact (hinvoked hprogress).elim

theorem Unrecorded.of_write (h : l.Unrecorded moves) (hsound : l.course.Sound)
    (howed : entry ∈ l.owed) (hwrite : l.repository.write now entry = .ok repository) :
    ∃ record, Recorded start moves
      { l with repository, owed := l.owed.filter (· ≠ entry) } record := by
  obtain ⟨definition, payload, hall⟩ := h.owed
  rw [hall, List.mem_singleton] at howed
  subst howed
  have hpaid : l.owed.filter (· ≠ .createRun l.course.run.id (.map definition) (.map payload)) =
      [] := by
    rw [hall]
    simp
  have hkept : keptPayload (.map payload) = .map payload := by
    cases payload <;> rfl
  obtain ⟨hfresh, hnone⟩ := hsound.unbegun (by rw [h.phase]; rfl)
  refine ⟨_, Repository.run?_createRun h.unknown hkept hwrite, fun id => ⟨.absent, ⟨rfl, ?_⟩, ?_⟩,
    ?_, ?_, ?_, ?_⟩
  · intro other hother
    rw [hpaid]
    exact iff_of_false List.not_mem_nil nofun
  · refine Or.inl ?_
    rw [Filing.Suits, Course.progress?, hnone]
    exact Or.inl ⟨rfl, hfresh.not_hasLeftIdle⟩
  · intro otherRun id closing hmem
    rw [hpaid] at hmem
    cases hmem
  · intro other hmem
    rw [hpaid] at hmem
    cases hmem
  · intro hclosing
    rw [h.phase] at hclosing
    cases hclosing
  · exact fun hmem => absurd hmem h.unclosed

theorem Unrecorded.of_other (h : l.Unrecorded moves) (hne : entry.runId ≠ l.course.run.id)
    (hwrite : l.repository.write now entry = .ok repository) :
    Unrecorded moves { l with repository } :=
  ⟨h.phase, h.unclosed, (Repository.spares_write hwrite hne).isUnknown h.unknown, h.owed⟩

theorem unrecorded_register {runId : String} {graph : Graph} {payload : Fields}
    {mode : FailureMode} {observers : List Observer} (hunknown : repository.IsUnknown runId) :
    (register repository runId graph payload mode observers).Unrecorded [] :=
  ⟨rfl, List.not_mem_nil, hunknown, _, _, rfl⟩

/-- In every play in which the repository does its work, the record of a run keeps up with it from
its creation on. -/
theorem recorded_of_play {runId : String} {graph : Graph} {payload : Fields} {mode : FailureMode}
    {observers : List Observer} (hunknown : repository.IsUnknown runId)
    (hplay : (register repository runId graph payload mode observers).play acts = some l)
    (hregular : ∀ act ∈ acts, act.isRegular = true)
    (hrace : ¬ Course.StoredAfterCancel (Act.moves acts)) :
    l.Unrecorded (Act.moves acts) ∨ ∃ record,
      l.Recorded (.register runId graph payload mode observers) (Act.moves acts) record := by
  induction acts using List.reverseRecOn generalizing l with
  | nil =>
      obtain rfl := Option.some.inj hplay
      exact Or.inl (unrecorded_register hunknown)
  | append_singleton acts act ih =>
      obtain ⟨middle, hmiddle, hact⟩ := play_concat_eq hplay
      have hcourse := course_of_play hmiddle
      have hsound := ((Course.sound_register runId graph payload mode observers).play hcourse).1
      have hnative : ∀ move ∈ Act.moves (acts ++ [act]), move.isNative = true :=
        fun _ => Act.isNative_of_mem_moves hregular
      have hlast := hregular act (List.mem_append_right _ (List.mem_singleton_self _))
      rw [moves_concat] at hnative hrace ⊢
      have hbefore := ih hmiddle (fun act hmem => hregular act (List.mem_append_left _ hmem))
        fun hearlier => hrace (hearlier.append _)
      cases act with
      | move move =>
          have hmove := (Act.isRegular_move_iff.mp hlast).1
          obtain ⟨hready, course, hstep, rfl⟩ := step_move_eq hact hmove
          rcases hbefore with hbefore | ⟨record, hbefore⟩
          · exact Or.inl (hbefore.of_move hsound hstep hmove hready)
          · exact Or.inr ⟨record, hbefore.of_move hcourse hstep hready hnative hrace⟩
      | write now entry =>
          obtain ⟨howed, repository', hwrite, rfl⟩ := step_write_eq hact
          rw [Act.move?, Option.toList_none, List.append_nil]
          rcases hbefore with hbefore | ⟨record, hbefore⟩
          · exact Or.inr (hbefore.of_write hsound howed hwrite)
          · exact Or.inr (hbefore.of_write howed (of_decide_eq_true hlast) hwrite)
      | other now entry =>
          obtain ⟨hne, repository', hwrite, rfl⟩ := step_other_eq hact
          rw [Act.move?, Option.toList_none, List.append_nil]
          rcases hbefore with hbefore | ⟨record, hbefore⟩
          · exact Or.inl (hbefore.of_other hne hwrite)
          · exact Or.inr ⟨record, hbefore.of_other hne hwrite⟩

end Ledger

end Workflow
