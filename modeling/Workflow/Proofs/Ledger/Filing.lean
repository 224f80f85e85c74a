import Workflow.Proofs.Course.Account
import Workflow.Proofs.Course.Once
import Workflow.Proofs.Ledger
import Workflow.Proofs.Store.Journal

/-!
# How far the record of a step has come

The record of a step is opened by one write and closed by another, and an invocation waits for each
of them before it goes on. How far an invocation has come, and which write it still waits for, says
how far the record has come; a move takes the record one stage further by owing a write, and the
write itself takes it to the next one.
-/

namespace Workflow

/-- How far the record of a step has come. -/
inductive Filing where
  | absent
  /-- The record is to be opened. -/
  | awaited
  | opened
  /-- The record is to be closed. -/
  | closing (outcome : Outcome)
  | closed (outcome : Outcome)

/-! ### What is kept -/

theorem Outcome.status_closing (outcome : Outcome) :
    outcome.closing.status = some outcome.status.name := by
  unfold closing status isOk
  cases outcome.result <;> rfl

namespace StepRecord

/-- Nothing is said about the end of the step. -/
structure IsOpen (step : StepRecord) : Prop where
  completedAt : step.completedAt = none
  status : step.status = none

/-- The record says how the invocation of its step has ended. -/
structure IsClosedBy (closing : StepClosing) (step : StepRecord) : Prop where
  status : step.status = closing.status
  output : step.output = some (.map closing.output.entries)
  error : step.error = closing.error

end StepRecord

namespace RunRecord

variable {record : RunRecord} {id stepId : String}

/-- The records of one step. -/
def stepsOf (record : RunRecord) (id : String) : List StepRecord :=
  record.steps.filter (·.stepId = id)

theorem mem_stepsOf_iff {step : StepRecord} :
    step ∈ record.stepsOf id ↔ step ∈ record.steps ∧ step.stepId = id := by
  simp [stepsOf]

theorem stepsOf_eq_nil_iff : record.stepsOf id = [] ↔ id ∉ record.steps.map (·.stepId) := by
  simp [stepsOf]

theorem stepsOf_addStep (step : StepRecord) :
    (record.addStep step).stepsOf id =
      if id = step.stepId then record.stepsOf id ++ [step] else record.stepsOf id := by
  by_cases hid : id = step.stepId
  · simp [stepsOf, addStep, hid]
  · simp [stepsOf, addStep, hid, Ne.symm hid]

theorem stepsOf_closeStep (now : Moment) (closing : StepClosing) (output : Value) :
    (record.closeStep now stepId closing output).stepsOf id =
      if id = stepId then (record.stepsOf id).map (·.close now closing output)
      else record.stepsOf id := by
  have hkeeps (step : StepRecord) : decide ((if step.stepId = stepId then
      step.close now closing output else step).stepId = id) = decide (step.stepId = id) := by
    split <;> rfl
  split
  · subst id
    rw [stepsOf, closeStep, filter_map_of_keeps hkeeps]
    exact List.map_congr_left fun step hmem => if_pos (mem_stepsOf_iff.mp hmem).2
  · rename_i hne
    refine filter_map_of_spares hkeeps (fun step hstep => if_neg fun hother => hne ?_) _
    exact (of_decide_eq_true hstep).symm.trans hother

theorem nodup_of_length_stepsOf (h : ∀ id, (record.stepsOf id).length ≤ 1) :
    (record.steps.map (·.stepId)).Nodup := by
  refine List.nodup_iff_count_le_one.mpr fun id => ?_
  rw [List.count, List.countP_map, List.countP_eq_length_filter]
  exact h id

end RunRecord

namespace Filing

variable {filing : Filing} {runId id : String} {outcome : Outcome} {kept : List StepRecord}
  {now : Moment}

/-- What is kept of a step at each stage. -/
def Keeps (kept : List StepRecord) : Filing → Prop
  | .absent | .awaited => kept = []
  | .opened | .closing _ => ∃ step, kept = [step] ∧ step.IsOpen
  | .closed outcome => ∃ step, kept = [step] ∧ step.IsClosedBy outcome.closing

/-- The write that is owed at each stage. -/
def owes (runId id : String) : Filing → Option Entry
  | .awaited => some (.startStep runId id)
  | .closing outcome => some (.closeStep runId id outcome.closing)
  | .absent | .opened | .closed _ => none

/-- What becomes of the filing when the owed write is done. -/
def written : Filing → Filing
  | .awaited => .opened
  | .closing outcome => .closed outcome
  | filing => filing

theorem Keeps.length_le_one (h : filing.Keeps kept) : kept.length ≤ 1 := by
  cases filing with
  | absent | awaited =>
      rw [show kept = [] from h]
      exact Nat.zero_le 1
  | opened | closing | closed =>
      obtain ⟨step, rfl, -⟩ := h
      exact le_rfl

theorem eq_of_owes_eq_startStep (h : filing.owes runId id = some (.startStep runId id)) :
    filing = .awaited := by
  cases filing <;> simp [owes] at h
  rfl

theorem eq_of_owes_eq_closeStep {closing : StepClosing}
    (h : filing.owes runId id = some (.closeStep runId id closing)) :
    ∃ outcome, filing = .closing outcome ∧ closing = outcome.closing := by
  cases filing <;> simp [owes] at h
  exact ⟨_, rfl, h.symm⟩

theorem stepId?_of_owes {entry : Entry} (h : filing.owes runId id = some entry) :
    entry.stepId? = some id ∧ entry.runId = runId := by
  cases filing <;> simp [owes] at h <;> subst h <;> exact ⟨rfl, rfl⟩

@[simp]
theorem owes_written : filing.written.owes runId id = none := by
  cases filing <;> rfl

theorem Keeps.opened (h : awaited.Keeps kept) {step : StepRecord} (hopen : step.IsOpen) :
    opened.Keeps (kept ++ [step]) := by
  rw [show kept = [] from h]
  exact ⟨step, rfl, hopen⟩

theorem Keeps.closed (h : (Filing.closing outcome).Keeps kept) :
    (Filing.closed outcome).Keeps
      (kept.map (·.close now outcome.closing (.map outcome.closing.output.entries))) := by
  obtain ⟨step, rfl, -⟩ := h
  exact ⟨_, rfl, rfl, rfl, rfl⟩

/-- No record says that its step is running. -/
theorem Keeps.status_ne (h : filing.Keeps kept) {step : StepRecord} (hmem : step ∈ kept) :
    step.status ≠ some StepStatus.running.name := by
  cases filing with
  | absent | awaited =>
      rw [show kept = [] from h] at hmem
      cases hmem
  | opened | closing =>
      obtain ⟨only, rfl, hopen⟩ := h
      rw [List.mem_singleton.mp hmem, hopen.status]
      simp
  | closed outcome =>
      obtain ⟨only, rfl, hclosed⟩ := h
      rw [List.mem_singleton.mp hmem, hclosed.status, outcome.status_closing]
      unfold Outcome.status
      split <;> decide

end Filing

/-! ### What a move does to an invocation -/

/-- The write that an invocation waits for from where it stands. -/
def Progress.write? (runId id : String) : Progress → Option Entry
  | .entering _ => some (.startStep runId id)
  | .leaving outcome => some (.closeStep runId id outcome.closing)
  | .released | .working _ => none

namespace Course

variable {c c' : Course} {move : Move} {id : String}

/-- What a move does to the invocation of a step. -/
inductive Passes (c c' : Course) (id : String) (move : Move) : Prop
  | stays (hsame : c'.progress? id = c.progress? id)
  | starts (hidle : c.run.statusOf? id = some .idle)
    (hstarted : c'.progress? id = some .released ∨
      ∃ incoming, c'.progress? id = some (.entering incoming))
  | enters (incoming : Fields) (hbefore : c.progress? id = some .released)
    (hafter : c'.progress? id = some (.entering incoming))
  | handed (incoming : Fields) (hmove : move = .hand id incoming)
    (hbefore : c.progress? id = some (.entering incoming))
    (hafter : c'.progress? id = some (.working incoming))
  | finished (incoming : Fields) (outcome : Outcome)
    (hbefore : c.progress? id = some (.working incoming))
    (hafter : c'.progress? id = some (.leaving outcome))
  | reported (now : Moment) (outcome : Outcome) (report : StepReport)
    (hmove : move = .report now id) (hbefore : c.progress? id = some (.leaving outcome))
    (hafter : c'.progress? id = none) (hreport : c.run.report? id = some report)
    (hrunning : report.status = .running)
    (hreport' : c'.run.report? id = some (report.closedBy now outcome))
  | lost (hloses : c.Loses id move)

theorem Sound.report?_of_reports (h : c.Sound) {now : Moment}
    (htakes : c.Takes (.report now id) c') : ∃ outcome report,
    c.progress? id = some (.leaving outcome) ∧ c.run.report? id = some report ∧
      report.status = .running ∧ c'.run.report? id = some (report.closedBy now outcome) := by
  cases htakes with
  | report _ step outcome released run hprogress hcompletes =>
      have hrunning := h.running _ _ hprogress
      obtain ⟨report, hreport, hclosed⟩ := Run.report?_closed_self hrunning now outcome
      refine ⟨outcome, report, hprogress, hreport, ?_, ?_⟩
      · rw [Run.statusOf?, hreport] at hrunning
        exact Option.some.inj hrunning
      · refine (hcompletes.report? step.id).trans ((if_neg fun hmem => ?_).trans hclosed)
        exact (hcompletes.idle_of_mem_released hrunning hmem).1 rfl

theorem Sound.passes (h : c.Sound) (htakes : c.Takes move c') (id : String) :
    c.Passes c' id move := by
  cases hafter : c'.progress? id with
  | none =>
      cases hbefore : c.progress? id with
      | none => exact .stays (hafter.trans hbefore.symm)
      | some progress =>
          have hsome : (c.progress? id).isSome := by rw [hbefore]; rfl
          rcases h.loses_of_progress? htakes hsome hafter with hreports | hloses
          · cases move with
            | report now stepId =>
                obtain rfl : stepId = id := of_decide_eq_true hreports
                obtain ⟨outcome, report, hleaving, hreport, hrunning, hreport'⟩ :=
                  h.report?_of_reports htakes
                exact .reported now outcome report rfl hleaving hafter hreport hrunning hreport'
            | _ => cases hreports
          · exact .lost hloses
  | some progress =>
      rcases h.progress?_of_takes htakes hafter with hsame | harises
      · exact .stays (hafter.trans hsame.symm)
      cases harises with
      | released now stepId =>
          -- An invocation never goes back, and a released step is at its beginning.
          rcases h.rank_lt_of_takes htakes hafter with hsame | hidle | ⟨before, -, hlt⟩
          · exact .stays (hafter.trans hsame.symm)
          · exact .starts hidle (Or.inl hafter)
          · exact absurd before.rank_pos (Nat.not_lt.mpr (Nat.le_of_lt_succ hlt))
      | begun now incoming htrigger =>
          rcases h.rank_lt_of_takes htakes hafter with hsame | hidle | ⟨before, hbefore, -⟩
          · exact .stays (hafter.trans hsame.symm)
          · exact .starts hidle (Or.inr ⟨incoming, hafter⟩)
          · cases htakes with
            | begin _ hphase =>
                rw [progress?, (h.unbegun (by rw [hphase]; rfl)).2] at hbefore
                cases hbefore
            | beginLate => exact .stays rfl
      | entered incoming =>
          cases htakes with
          | enter _ hreleased => exact .enters incoming hreleased hafter
      | handed incoming hbefore => exact .handed incoming rfl hbefore hafter
      | finished now incoming ending outcome hbefore =>
          exact .finished incoming outcome hbefore hafter

theorem Sound.hasLeftIdle_of_takes (h : c.Sound) (htakes : c.Takes move c')
    (hleft : c'.run.HasLeftIdle id) (hnone : c'.progress? id = none) : c.run.HasLeftIdle id := by
  by_contra hidle
  have hnot {status : StepStatus} (hstatus : c.run.statusOf? id = some status)
      (hne : status ≠ .idle) : False := hidle ⟨status, hstatus, hne⟩
  obtain ⟨status, hstatus, hne⟩ := hleft
  have hstarts : status ≠ .running := by
    rintro rfl
    have hsome := h.isSome_progress?_of_starts htakes (fun hrunning => hnot hrunning hne) hstatus
    rw [hnone] at hsome
    cases hsome
  have haffects := htakes.affects
  generalize c'.run = run at haffects hstatus
  cases haffects with
  | stored => exact hnot hstatus hne
  | quiet hquiet => exact hnot ((hquiet.statusOf? id).symm.trans hstatus) hne
  | begun now hphase =>
      rw [show ((c.run.introduce now).begun now).statusOf? id = _ from
        h.statusOf?_begun hphase now id] at hstatus
      split at hstatus
      · exact hstarts (Option.some.inj hstatus).symm
      · exact hnot hstatus hne
  | completed now step outcome released _ hprogress hcompletes =>
      have hrunning := h.running _ _ hprogress
      rw [hcompletes.statusOf? hrunning] at hstatus
      split at hstatus
      · rename_i heq
        exact hnot (heq ▸ hrunning) (by decide)
      · split at hstatus
        · exact hstarts (Option.some.inj hstatus).symm
        · exact hnot hstatus hne

theorem mem_owed_iff_stepOwed {entry : Entry} (hentry : entry.stepId? = some id) :
    entry ∈ c.owed c' move ↔ c.stepOwed c' move = some entry := by
  have hending : entry ≠ c'.run.ending := by
    rintro rfl
    cases hentry
  rw [owed, List.mem_append, Option.mem_toList]
  refine or_iff_left fun hmem => ?_
  split at hmem
  · exact hending (List.mem_singleton.mp hmem)
  · cases hmem

/-- A write about a step is owed from the move on by which its invocation comes to wait for it. -/
theorem Sound.mem_owed_iff (h : c.Sound) (htakes : c.Takes move c') {entry : Entry}
    (hentry : entry.stepId? = some id) : entry ∈ c.owed c' move ↔ ∃ progress,
      c'.progress? id = some progress ∧ c.progress? id ≠ some progress ∧
        progress.write? c.run.id id = some entry := by
  rw [mem_owed_iff_stepOwed hentry]
  constructor
  · intro howed
    cases htakes with
    | begin now hphase =>
        obtain rfl := Option.some.inj howed
        obtain rfl := Option.some.inj hentry
        refine ⟨.entering ((c.begun now).run.incoming c.triggerId), ?_, ?_, rfl⟩
        · rw [progress?, h.invocations_begun hphase]
          simp [Table.find?]
        · rw [progress?, (h.unbegun (by rw [hphase]; rfl)).2]
          simp [Table.find?]
    | enter stepId hreleased =>
        obtain rfl := Option.some.inj howed
        obtain rfl := Option.some.inj hentry
        exact ⟨_, c.progress?_put_self _ _, by simp [hreleased], rfl⟩
    | finish now step incoming ending outcome hworking hstep houtcome =>
        rw [stepOwed, houtcome] at howed
        obtain rfl := Option.some.inj howed
        obtain rfl := Option.some.inj hentry
        exact ⟨.leaving outcome, c.progress?_put_self _ _, by simp [hworking], rfl⟩
    | interrupt now stepId incoming ending hprogress houtcome =>
        rw [stepOwed, houtcome] at howed
        cases howed
    | interruptDriver now incoming ending hprogress houtcome =>
        rw [stepOwed, houtcome] at howed
        cases howed
    | _ => cases howed
  · rintro ⟨progress, hafter, hnew, hwrite⟩
    have harises := (h.progress?_of_takes htakes hafter).resolve_left hnew
    cases harises with
    | released => cases hwrite
    | begun now incoming htrigger =>
        cases htakes with
        | begin =>
            subst htrigger
            exact hwrite
        | beginLate => exact absurd hafter hnew
    | entered => exact hwrite
    | handed => cases hwrite
    | finished now incoming ending outcome hbefore houtcome =>
        rw [stepOwed, houtcome]
        exact hwrite

end Course

/-! ### What a move does to the filing -/

namespace Filing

variable {filing filing' : Filing} {runId id : String} {owed : List Entry} {c c' : Course}
  {move : Move}

/-- A record has come as far as the invocation of its step lets it come. -/
def Suits (c : Course) (id : String) (filing : Filing) : Prop :=
  match c.progress? id with
  | some .released => filing = .absent
  | some (.entering _) => filing = .awaited ∨ filing = .opened
  | some (.working _) => filing = .opened
  | some (.leaving outcome) => filing = .closing outcome ∨ filing = .closed outcome
  | none => (filing = .absent ∧ ¬ c.run.HasLeftIdle id) ∨ ∃ outcome now report,
      filing = .closed outcome ∧ StepReport.error report = none ∧
        c.run.report? id = some (report.closedBy now outcome)

/-- A filing goes on while what is kept stays as it is: the writes that are owed are those that were
owed before and some new ones. -/
structure Turns (runId id : String) (new : List Entry) (filing filing' : Filing) : Prop where
  keeps : ∀ kept, filing.Keeps kept → filing'.Keeps kept
  owes_iff : ∀ entry, entry.stepId? = some id → (filing'.owes runId id = some entry ↔
    filing.owes runId id = some entry ∨ entry ∈ new)

theorem Turns.refl (hnone : ∀ entry, entry.stepId? = some id → entry ∉ owed) :
    Turns runId id owed filing filing where
  keeps _ h := h
  owes_iff entry hentry := (or_iff_left (hnone entry hentry)).symm

theorem Turns.awaited (hnew : ∀ entry, entry.stepId? = some id →
      (entry ∈ owed ↔ some (.startStep runId id) = some entry)) :
    Turns runId id owed absent awaited where
  keeps _ h := h
  owes_iff entry hentry := (hnew entry hentry).symm.trans (or_iff_right nofun).symm

theorem Turns.closing {outcome : Outcome} (hnew : ∀ entry, entry.stepId? = some id →
      (entry ∈ owed ↔ some (.closeStep runId id outcome.closing) = some entry)) :
    Turns runId id owed opened (closing outcome) where
  keeps _ h := h
  owes_iff entry hentry := (hnew entry hentry).symm.trans (or_iff_right nofun).symm

theorem Suits.eq_absent (h : filing.Suits c id) (hsound : c.Sound)
    (hidle : c.run.statusOf? id = some .idle) : filing = .absent := by
  have hnone : c.progress? id = none := by
    by_contra hsome
    obtain ⟨progress, hprogress⟩ := Option.ne_none_iff_exists'.mp hsome
    rw [hsound.running _ _ hprogress] at hidle
    cases hidle
  rw [Suits, hnone] at h
  rcases h with ⟨habsent, -⟩ | ⟨outcome, now, report, -, -, hreport⟩
  · exact habsent
  · rw [Run.statusOf?, hreport, Option.map_some, StepReport.status_closedBy] at hidle
    exact absurd (Option.some.inj hidle) outcome.status_ne_idle

theorem Suits.stays (h : filing.Suits c id) (hsound : c.Sound) (htakes : c.Takes move c')
    (hsame : c'.progress? id = c.progress? id) : filing.Suits c' id := by
  rw [Suits, hsame]
  cases hprogress : c.progress? id with
  | some progress =>
      rw [Suits, hprogress] at h
      cases progress <;> exact h
  | none =>
      rw [Suits, hprogress] at h
      refine h.imp ?_ ?_
      · rintro ⟨rfl, hidle⟩
        exact ⟨rfl, fun hleft =>
          hidle (hsound.hasLeftIdle_of_takes htakes hleft (hsame.trans hprogress))⟩
      · rintro ⟨outcome, now, report, rfl, herror, hreport⟩
        refine ⟨outcome, now, report, rfl, herror, hsound.report?_of_takes htakes hreport ?_⟩
        rw [StepReport.status_closedBy, Outcome.status]
        split <;> rfl

theorem Suits.written (h : filing.Suits c id) : filing.written.Suits c id := by
  cases hprogress : c.progress? id with
  | none =>
      rw [Suits, hprogress] at h ⊢
      rcases h with ⟨rfl, hidle⟩ | ⟨outcome, now, report, rfl, hreport⟩
      · exact Or.inl ⟨rfl, hidle⟩
      · exact Or.inr ⟨outcome, now, report, rfl, hreport⟩
  | some progress =>
      rw [Suits, hprogress] at h ⊢
      cases progress with
      | released =>
          obtain rfl : filing = .absent := h
          rfl
      | entering incoming => rcases h with rfl | rfl <;> exact Or.inr rfl
      | working incoming =>
          obtain rfl : filing = .opened := h
          rfl
      | leaving outcome => rcases h with rfl | rfl <;> exact Or.inr rfl

/-- Whatever move is made, short of one by which the step is lost, its record goes on with it. -/
theorem Suits.of_takes (h : filing.Suits c id) (hsound : c.Sound) (htakes : c.Takes move c')
    (hunblamed : ∀ report, c.run.report? id = some report → report.status = .running →
      report.error = none)
    (hready : ∀ entry, filing.owes c.run.id id = some entry → move.follows entry = false)
    (hkept : ¬ c.Loses id move) :
    ∃ filing', filing'.Suits c' id ∧ Turns c.run.id id (c.owed c' move) filing filing' := by
  have hnew {progress : Progress} (hafter : c'.progress? id = some progress)
      (hne : c.progress? id ≠ some progress) (entry : Entry) (hentry : entry.stepId? = some id) :
      entry ∈ c.owed c' move ↔ progress.write? c.run.id id = some entry := by
    rw [hsound.mem_owed_iff htakes hentry, hafter]
    exact ⟨fun ⟨_, hsame, _, hwrite⟩ => Option.some.inj hsame ▸ hwrite,
      fun hwrite => ⟨progress, rfl, hne, hwrite⟩⟩
  cases hsound.passes htakes id with
  | stays hsame =>
      refine ⟨filing, h.stays hsound htakes hsame, .refl fun entry hentry => ?_⟩
      rw [hsound.mem_owed_iff htakes hentry, hsame]
      rintro ⟨progress, hafter, hne, -⟩
      exact hne hafter
  | starts hidle hstarted =>
      obtain rfl := h.eq_absent hsound hidle
      have hne (progress : Progress) : c.progress? id ≠ some progress := by
        intro hprogress
        rw [hsound.running _ _ hprogress] at hidle
        cases hidle
      rcases hstarted with hafter | ⟨incoming, hafter⟩
      · refine ⟨.absent, by rw [Suits, hafter], .refl fun entry hentry => ?_⟩
        rw [hnew hafter (hne _) entry hentry]
        exact nofun
      · exact ⟨.awaited, by rw [Suits, hafter]; exact Or.inl rfl, .awaited (hnew hafter (hne _))⟩
  | enters incoming hbefore hafter =>
      rw [Suits, hbefore] at h
      subst h
      exact ⟨.awaited, by rw [Suits, hafter]; exact Or.inl rfl,
        .awaited (hnew hafter (by simp [hbefore]))⟩
  | handed incoming hmove hbefore hafter =>
      rw [Suits, hbefore] at h
      -- Whoever hands a step on has been waiting for its record to be opened.
      have hopened : filing = .opened := h.resolve_left fun hawaited => by
        subst hmove hawaited
        simpa [Move.follows] using hready _ rfl
      refine ⟨filing, by rw [Suits, hafter]; exact hopened, .refl fun entry hentry => ?_⟩
      rw [hnew hafter (by simp [hbefore]) entry hentry]
      exact nofun
  | finished incoming outcome hbefore hafter =>
      rw [Suits, hbefore] at h
      subst h
      exact ⟨.closing outcome, by rw [Suits, hafter]; exact Or.inl rfl,
        .closing (hnew hafter (by simp [hbefore]))⟩
  | reported now outcome report hmove hbefore hafter hreport hrunning hreport' =>
      rw [Suits, hbefore] at h
      -- Whoever reports a step has been waiting for its record to be closed.
      have hclosed : filing = .closed outcome := h.resolve_left fun hclosing => by
        subst hmove hclosing
        simpa [Move.follows] using hready _ rfl
      refine ⟨filing, ?_, .refl fun entry hentry => ?_⟩
      · rw [Suits, hafter]
        exact Or.inr ⟨outcome, now, report, hclosed, hunblamed report hreport hrunning, hreport'⟩
      · rw [hsound.mem_owed_iff htakes hentry, hafter]
        rintro ⟨progress, hnone, -⟩
        cases hnone
  | lost hloses => exact absurd hloses hkept

theorem turns_of_progress?_none (hsound : c.Sound) (htakes : c.Takes move c')
    (hnone : c'.progress? id = none) : Turns c.run.id id (c.owed c' move) filing filing := by
  refine .refl fun entry hentry => ?_
  rw [hsound.mem_owed_iff htakes hentry, hnone]
  rintro ⟨progress, hafter, -⟩
  cases hafter

end Filing

end Workflow
