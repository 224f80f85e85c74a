import Mathlib.Logic.Relation
import Workflow.Proofs.Course.Verdict
import Workflow.Proofs.Engine.Following
import Workflow.Proofs.Engine.Stroke

/-!
# Every rehearsal is a play

Whatever is done with an engine, each of its runs and its repository stand where some play of a
ledger leads. So what holds of all plays holds of every run that an engine has ever had, and since
an engine stores a run before anybody can ask for its end, the end of such a run is final.
-/

namespace Workflow

/-- An engine knows nothing of a run. -/
def View.empty (runId : String) : View := ⟨runId, none, none, []⟩

theorem View.Rests.ne_empty {view : View} {c : Course} (h : view.Rests c) (runId : String) :
    view ≠ .empty runId := by
  rintro rfl
  cases h.run

namespace Repository

variable {repository repository' : Repository} {runId other : String}

theorem IsTold.isUnknown (h : repository.IsTold runId repository') (hne : runId ≠ other)
    (hunknown : repository.IsUnknown other) : repository'.IsUnknown other := by
  induction h with
  | refl => exact hunknown
  | tail _ hwrite ih =>
      obtain ⟨now, entry, rfl, hwrite⟩ := hwrite
      exact (spares_write hwrite hne).isUnknown ih

end Repository

namespace Ledger

variable {repository repository' : Repository} {runId : String} {l l' : Ledger}

/-- The ledger of a run that the repository has been told of as soon as it was known. If it had not
been written about before some time, it was new in the repository. -/
def Started (before : Repository) (runId : String) (l : Ledger) : Prop :=
  ∃ repository graph payload mode observers first l₀,
    (before.IsUnknown runId → repository.IsUnknown runId) ∧
    (Act.moves first = [.store] ∨ Act.moves first = [.refuse]) ∧
    (register repository runId graph payload mode observers).play first = some l₀ ∧ l₀.Becomes l

theorem Started.becomes (h : Started repository runId l) (h' : l.Becomes l') :
    Started repository runId l' := by
  obtain ⟨new, graph, payload, mode, observers, first, l₀, hunknown, hfirst, hplay, hbefore⟩ := h
  exact ⟨new, graph, payload, mode, observers, first, l₀, hunknown, hfirst, hplay,
    hbefore.trans h'⟩

theorem Started.of_isUnknown (h : Started repository' runId l)
    (hunknown : repository.IsUnknown runId → repository'.IsUnknown runId) :
    Started repository runId l := by
  obtain ⟨new, graph, payload, mode, observers, first, l₀, hnew, hrest⟩ := h
  exact ⟨new, graph, payload, mode, observers, first, l₀, hnew ∘ hunknown, hrest⟩

/-- Whoever cancels a run that an engine has started comes too late to do so before it is stored. -/
theorem Started.exists_play {before : Repository} (h : Started before runId l) :
    ∃ repository graph payload mode observers acts,
      (before.IsUnknown runId → repository.IsUnknown runId) ∧
      (register repository runId graph payload mode observers).play acts = some l ∧
        ∀ later c', l.course.play later = some c' →
          ¬ Course.StoredAfterCancel (Act.moves acts ++ later) := by
  obtain ⟨new, graph, payload, mode, observers, first, l₀, hunknown, hfirst, hplay, acts, hacts⟩ :=
    h
  refine ⟨new, graph, payload, mode, observers, first ++ acts, hunknown, ?_,
    fun later c' hlater => ?_⟩
  · rw [play_append, hplay]
    exact hacts
  · obtain ⟨move, hmove, hmoves⟩ : ∃ move, (move = .store ∨ move = .refuse) ∧
        Act.moves first = [move] := by
      rcases hfirst with hfirst | hfirst
      · exact ⟨.store, Or.inl rfl, hfirst⟩
      · exact ⟨.refuse, Or.inr rfl, hfirst⟩
    have hcourse := course_of_play hplay
    rw [hmoves, Course.play, Option.bind_eq_some_iff] at hcourse
    obtain ⟨c₀, hstep, hsame⟩ := hcourse
    have hstart := Course.sound_register runId graph payload mode observers
    have htakes := hstart.takes hstep
    have hphase : c₀.phase ≠ .registered := by
      rcases hmove with rfl | rfl <;> cases htakes <;> simp
    obtain rfl := Option.some.inj hsame
    have hlater : l₀.course.play (Act.moves acts ++ later) = some c' := by
      rw [Course.play_append, course_of_play hacts]
      exact hlater
    have hall : Act.moves (first ++ acts) = move :: Act.moves acts := by
      rw [Act.moves, List.filterMap_append, ← Act.moves, hmoves]
      rfl
    rw [hall]
    refine Course.not_storedAfterCancel_cons ?_
      (Course.store_not_mem_of_play (hstart.of_takes htakes) hphase hlater)
    rcases hmove with rfl | rfl <;> simp

theorem play_store {graph : Graph} {payload : Fields} {mode : FailureMode}
    {observers : List Observer} {now : Moment}
    (hwrite : repository.write now (Run.create runId graph payload mode observers).creation =
      .ok repository') :
    (register repository runId graph payload mode observers).play
        [.write now (Run.create runId graph payload mode observers).creation, .move .store] =
      some ⟨{ run := (Run.create runId graph payload mode observers).stored, phase := .waiting },
        repository', []⟩ := by
  simp [play, step, register, Course.register, Course.step, hwrite, Course.owed, Course.stepOwed,
    Phase.isClosing]

end Ledger

namespace Engine

/-- The id that is given out for the time so numbered. -/
def idOf (number : Nat) : String := "run-" ++ toString number

theorem idOf_injective {number number' : Nat} (heq : idOf number = idOf number') :
    number = number' := by
  have hlists := congrArg String.toList heq
  simp only [idOf, String.toList_append, List.append_cancel_left_eq,
    Nat.toString_eq_ofList_toDigits, String.toList_ofList] at hlists
  have hvalue := congrArg (fun digits => Nat.ofDigitChars 10 digits 0) hlists
  simpa [Nat.ofDigitChars_toDigits] using hvalue

/-- Every run stands somewhere on its course, and the ids to come are still free. -/
structure Sound (e : Engine) : Prop where
  runs : ∀ runId, e.view runId = .empty runId ∨ ∃ c, (e.view runId).Rests c
  free : ∀ number, e.runCount < number → e.view (idOf number) = .empty (idOf number)

/-- All runs go on along their courses, and new ones have been started under new ids. The repository
is told of it all, and of nothing else. -/
structure GoesOn (e e' : Engine) : Prop where
  runs : ∀ runId c, (e.view runId).Rests c → ∃ c',
    Ledger.Becomes ⟨c, e.repository, []⟩ ⟨c', e'.repository, []⟩ ∧ (e'.view runId).Rests c'
  started : ∀ runId, e.view runId = .empty runId →
    e'.view runId = .empty runId ∧
        (e.repository.IsUnknown runId → e'.repository.IsUnknown runId) ∨
      (∃ number ≤ e'.runCount, runId = idOf number) ∧
        ∃ c, Ledger.Started e.repository runId ⟨c, e'.repository, []⟩ ∧ (e'.view runId).Rests c
  runCount : e.runCount ≤ e'.runCount

variable {e e' e'' : Engine} {runId : String} {c c' : Course}

theorem GoesOn.of_views (hviews : ∀ runId, e'.view runId = e.view runId)
    (hrepository : e'.repository = e.repository) (hcount : e.runCount ≤ e'.runCount) :
    GoesOn e e' where
  runs := fun runId c h => ⟨c, hrepository ▸ .refl _, (hviews runId).symm ▸ h⟩
  started := fun runId hempty => Or.inl ⟨(hviews runId).trans hempty, hrepository ▸ id⟩
  runCount := hcount

theorem GoesOn.refl (e : Engine) : GoesOn e e := .of_views (fun _ => rfl) rfl le_rfl

theorem GoesOn.trans (h : GoesOn e e') (h' : GoesOn e' e'') : GoesOn e e'' where
  runs := by
    intro runId c hrests
    obtain ⟨c', hbecomes, hrests'⟩ := h.runs runId c hrests
    obtain ⟨c'', hbecomes', hrests''⟩ := h'.runs runId c' hrests'
    exact ⟨c'', hbecomes.trans hbecomes', hrests''⟩
  started := by
    intro runId hempty
    rcases h.started runId hempty with
      ⟨hempty', hunknown⟩ | ⟨⟨number, hnumber, hid⟩, c, hstarted, hrests⟩
    · rcases h'.started runId hempty' with ⟨hempty'', hunknown'⟩ | ⟨hid, c, hstarted, hrests⟩
      · exact Or.inl ⟨hempty'', hunknown' ∘ hunknown⟩
      · exact Or.inr ⟨hid, c, hstarted.of_isUnknown hunknown, hrests⟩
    · obtain ⟨c', hbecomes, hrests'⟩ := h'.runs runId c hrests
      exact Or.inr ⟨⟨number, hnumber.trans h'.runCount, hid⟩, c', hstarted.becomes hbecomes,
        hrests'⟩
  runCount := h.runCount.trans h'.runCount

theorem GoesOn.sound (h : GoesOn e e') (hsound : e.Sound) : e'.Sound where
  runs := by
    intro runId
    rcases hsound.runs runId with hempty | ⟨c, hrests⟩
    · rcases h.started runId hempty with ⟨hempty', -⟩ | ⟨-, c, -, hrests⟩
      · exact Or.inl hempty'
      · exact Or.inr ⟨c, hrests⟩
    · obtain ⟨c', -, hrests'⟩ := h.runs runId c hrests
      exact Or.inr ⟨c', hrests'⟩
  free := by
    intro number hnumber
    rcases h.started _ (hsound.free number (h.runCount.trans_lt hnumber)) with
      ⟨hempty, -⟩ | ⟨⟨number', hnumber', hid⟩, -⟩
    · exact hempty
    · have heq := idOf_injective hid
      omega

theorem GoesOn.of_run (runId : String) (hspares : Spares runId e e')
    (hrun : ∀ c, (e.view runId).Rests c → ∃ c',
      Ledger.Becomes ⟨c, e.repository, []⟩ ⟨c', e'.repository, []⟩ ∧ (e'.view runId).Rests c')
    (hempty : e.view runId = .empty runId →
      e'.view runId = e.view runId ∧ e'.repository = e.repository) : GoesOn e e' where
  runs := by
    intro other c hrests
    by_cases heq : other = runId
    · exact heq ▸ hrun c (heq ▸ hrests)
    · refine ⟨c, .of_isTold hspares.repository ?_, (hspares.views other heq).symm ▸ hrests⟩
      rw [hrests.id]
      exact Ne.symm heq
  started := by
    intro other hother
    by_cases heq : other = runId
    · subst heq
      obtain ⟨hview, hrepository⟩ := hempty hother
      exact Or.inl ⟨hview.trans hother, hrepository ▸ id⟩
    · exact Or.inl ⟨(hspares.views other heq).trans hother,
        hspares.repository.isUnknown (Ne.symm heq)⟩
  runCount := hspares.runCount.ge

/-- What has been started is known, and stands somewhere on its course. -/
theorem Sound.exists_rests (h : e.Sound) {run : Run}
    (hrun : Table.find? e.runs runId = some run) : ∃ c, c.run = run ∧ (e.view runId).Rests c := by
  rcases h.runs runId with hempty | ⟨c, hrests⟩
  · rw [show Table.find? e.runs runId = none from congrArg View.run hempty] at hrun
    cases hrun
  · exact ⟨c, Option.some.inj (hrests.run.symm.trans hrun), hrests⟩

/-! ### What is on the agenda -/

/-- What is due next belongs to one run, and takes it further on its course. -/
theorem Sound.advance (h : e.Sound) {until? : Option Float}
    (hadvance : e.advance? until? = some e') : GoesOn e e' := by
  obtain ⟨⟨time, task⟩, agenda, hagenda, -, rfl, -⟩ := exists_turn hadvance
  have htasks (runId : String) : e.tasksOf runId =
      if task.holder.1 = runId then task :: tasksOf { e with agenda } runId
      else tasksOf { e with agenda } runId := by
    simp [tasksOf, hagenda, List.filter_cons]
  have hcontinues (c : Course) (hrests : (e.view task.holder.1).Rests c) :
      Continues { e with agenda, stage := { e.stage with now := time } } task.holder.1 c []
        (perform { e with agenda, stage := { e.stage with now := time } } task) := by
    have hall := hrests.tasks
    have hnodup := hrests.nodup
    rw [view, htasks, if_pos rfl] at hall hnodup
    obtain ⟨hnew, hnodup⟩ := List.nodup_cons.mp hnodup
    have hpopped : (view { e with agenda, stage := { e.stage with now := time } }
        task.holder.1).Rests c :=
      ⟨⟨hrests.sound, hrests.id, hrests.run, hrests.driver,
        fun other hmem => hall other (List.mem_cons_of_mem task hmem), hnodup⟩, hrests.free⟩
    refine hpopped.perform rfl (hall task List.mem_cons_self) fun other hmem hholder => hnew ?_
    exact List.mem_map.mpr ⟨other, hmem, hholder⟩
  have hspares : Spares task.holder.1 e
      { e with agenda, stage := { e.stage with now := time } } := by
    refine ⟨rfl, fun other hne => ?_, .refl⟩
    rw [view, view, htasks, if_neg hne.symm]
    rfl
  -- A run that is not known has no task on the agenda.
  rcases h.runs task.holder.1 with hempty | ⟨c, hrests⟩
  · have hnone : e.tasksOf task.holder.1 = [] := congrArg View.tasks hempty
    rw [htasks, if_pos rfl] at hnone
    cases hnone
  · exact .of_run _ (hspares.trans (hcontinues c hrests).1) (fun c' h' => (hcontinues c' h').2)
      fun hempty => absurd hempty (hrests.ne_empty _)

theorem Sound.work (h : e.Sound) (stop : Engine → Bool) (until? : Option Float) (fuel : Nat) :
    GoesOn e (work stop until? fuel e) :=
  work_of_turns stop until? fuel (.refl e) fun _ _ hgoes hadvance =>
    hgoes.trans ((hgoes.sound h).advance hadvance)

theorem goesOn_read (e : Engine) (runId : String) (index : Nat) :
    GoesOn e { e with
      runs := Table.adjust e.runs runId fun run =>
        { run with log := run.log.modifySubscription index Subscription.readAll } } := by
  have hview := e.view_adjust runId
  refine .of_run runId ⟨rfl, fun other hne => ?_, .refl⟩ (fun c h => ?_) fun hempty => ⟨?_, rfl⟩
  · rw [hview, if_neg hne]
  · have hstep : c.step (.read index) = some { c with
        run := { c.run with log := c.run.log.modifySubscription index Subscription.readAll } } :=
      rfl
    refine ⟨_, .of_move hstep (Course.owed_of_phase_eq rfl rfl), ?_⟩
    rw [hview, if_pos rfl, show Table.find? e.runs runId = some c.run from h.run]
    exact ⟨⟨h.sound.of_takes (h.sound.takes hstep), h.id, rfl, h.driver, h.tasks, h.nodup⟩, h.free⟩
  · have hrun : Table.find? e.runs runId = none := congrArg View.run hempty
    rw [hview, if_pos rfl, hrun, hempty]
    rfl

theorem goesOn_informFollowers (e : Engine) : GoesOn e e.informFollowers :=
  informFollowers_of_reads (.refl e) fun e' follower hgoes =>
    hgoes.trans (goesOn_read e' follower.runId follower.index)

theorem goesOn_setClock (e : Engine) (time : Float) : GoesOn e (e.setClock time) :=
  .of_views (fun _ => rfl) rfl le_rfl

theorem Sound.sleep (h : e.Sound) (seconds : Float) : GoesOn e (e.sleep seconds) :=
  ((h.work _ _ _).trans (goesOn_setClock _ _)).trans (goesOn_informFollowers _)

theorem Sound.drain (h : e.Sound) : GoesOn e e.drain :=
  (h.work _ _ _).trans (goesOn_informFollowers _)

theorem Sound.wait (h : e.Sound) (runId : String) (timeout : Option Float) :
    GoesOn e (e.wait runId timeout).2 :=
  wait_of_work runId timeout (.refl e)
    (fun _ => (h.work _ _ _).trans (goesOn_informFollowers _))
    fun e' time hgoes => hgoes.trans (goesOn_setClock e' time)

/-! ### What is done to a run from outside -/

theorem Sound.setRun (h : e.Sound) {run : Run} (hrun : Table.find? e.runs runId = some run)
    (run' : Run)
    (hmove : ∀ c : Course, c.run = run → ∃ move, c.step move = some { c with run := run' } ∧
      c.stepOwed { c with run := run' } move = none) :
    GoesOn e (e.setRun run') := by
  have hrests (c : Course) (hc : (e.view runId).Rests c) :
      Ledger.Becomes ⟨c, e.repository, []⟩
          ⟨{ c with run := run' }, (e.setRun run').repository, []⟩ ∧
        ((e.setRun run').view runId).Rests { c with run := run' } := by
    have hsame : c.run = run := Option.some.inj (hc.run.symm.trans hrun)
    obtain ⟨move, hstep, hnone⟩ := hmove c hsame
    have hadvances := hc.sound.advances (hc.sound.takes hstep)
    have hquiet : c.owed { c with run := run' } move = [] :=
      Course.owed_of_phase_eq rfl (congrArg Option.toList hnone)
    refine ⟨e.repository_setRun run' ▸ .of_move hstep hquiet,
      hc.toFollows.setRun hstep rfl fun task hmem => ?_, ?_⟩
    · exact (hc.tasks task hmem).of_keeps hadvances.finished fun _ _ _ hprogress => hprogress
    · rw [Course.IsFree, Course.triggerId, hadvances.graph]
      exact hc.free
  obtain ⟨c, -, hc⟩ := h.exists_rests hrun
  refine .of_run runId (e.spares_setRun (hrests c hc).2.id) (fun c hc => ⟨_, hrests c hc⟩) ?_
  exact fun hempty => absurd hempty (hc.ne_empty runId)

theorem Sound.cancel (h : e.Sound) (runId reason : String) :
    GoesOn e (e.cancel runId reason).2 := by
  unfold Engine.cancel run?
  cases hrun : Table.find? e.runs runId with
  | none => exact .refl e
  | some run =>
      refine h.setRun hrun _ fun c hc => ⟨.cancel e.now reason (run.cancel e.now reason).1, ?_, rfl⟩
      subst hc
      exact if_pos rfl

theorem Sound.follow (h : e.Sound) (hfollow : e.follow runId = .ok e') : GoesOn e e' := by
  obtain ⟨run, hrun, rfl⟩ := follow_eq_ok hfollow
  have hset := h.setRun hrun { run with log := run.log.subscribe } fun c hc => by
    subst hc
    exact ⟨.subscribe, rfl, rfl⟩
  rw [Engine.change, hrun]
  exact hset.trans (.of_views (fun _ => rfl) rfl le_rfl)

theorem goesOn_stopDriver (e : Engine) (runId : String) : GoesOn e (e.stopDriver runId).2 := by
  have hdropped : Spares runId e (e.dropTasks (isFor runId)) :=
    e.spares_dropTasks fun task htask => congrArg Prod.fst (isFor_iff.mp htask)
  have hinvocation : ∀ task ∈ (e.dropTasks (isFor runId)).tasksOf runId, task.holder.2 ≠ none := by
    intro task hmem hholder
    rw [tasksOf_dropTasks, List.mem_filter] at hmem
    rw [isFor_iff.mpr (Prod.ext (holder_of_mem_tasksOf hmem.1) hholder)] at hmem
    cases hmem.2
  have hknown {state : DriverState} (hdriver : Table.find? e.drivers runId = some state)
      (hempty : e.view runId = .empty runId) : False := by
    rw [show Table.find? e.drivers runId = none from congrArg View.driver hempty] at hdriver
    cases hdriver
  have hwoken {state : DriverState} (hdriver : Table.find? e.drivers runId = some state)
      (hdriving : ∀ phase, DriverState.Shows (some state) phase → phase = .driving) :
      GoesOn e (((e.dropTasks (isFor runId)).setDriver runId .closing).schedule e.stage.now
        (.abandon runId)) := by
    refine .of_run runId ((hdropped.trans (spares_setDriver _ _ _)).trans
      (spares_schedule _ _ (.abandon runId) rfl)) (fun c hc => ⟨c, .refl _, ?_⟩)
      fun hempty => (hknown hdriver hempty).elim
    have hrests := hc.dropTasks (isFor runId)
    have hshown := hc.driver
    rw [view, hdriver] at hshown
    have hset : (((e.dropTasks (isFor runId)).setDriver runId .closing).view runId).Follows c := by
      rw [view_setDriver]
      exact ⟨hrests.sound, hrests.id, hrests.run, hdriving _ hshown,
        fun task hmem => (hrests.tasks task hmem).of_holder_ne (hinvocation task hmem) _,
        hrests.nodup⟩
    refine ⟨hset.schedule _ (.abandon runId) rfl ?_ fun task hmem hholder => ?_, hc.free⟩
    · exact (Table.find?_insert _ _ _ _).trans (if_pos rfl)
    · exact hinvocation task hmem (congrArg Prod.snd hholder)
  unfold Engine.stopDriver
  split
  · exact .refl e
  · exact .refl e
  · rename_i hdriver
    refine .of_run runId (hdropped.trans (spares_setDriver _ _ _)) (fun c hc => ?_)
      fun hempty => (hknown hdriver hempty).elim
    have hrests := hc.dropTasks (isFor runId)
    have hphase : c.phase = .waiting := by
      have hshown := hc.driver
      rwa [view, hdriver] at hshown
    have hstep : c.step (.stopDriver e.now) =
        some { c with phase := .closed (some .cancelled) } := by simp [Course.step, hphase]
    refine ⟨_, .of_move hstep (by simp [Course.owed, Course.stepOwed, Phase.isClosing]), ?_⟩
    have hrun : Table.find? (e.dropTasks (isFor runId)).runs runId = some c.run := hrests.run
    rw [view_setDriver, view, hrun]
    exact hrests.closed (.refl c.run) (hc.sound.of_takes (hc.sound.takes hstep)) hinvocation
  · rename_i state hdone hwaiting hdriver
    refine hwoken hdriver fun phase hshown => ?_
    cases state with
    | waiting => exact absurd rfl hwaiting
    | driving => exact hshown
    | closing => exact hshown
    | done failure => exact absurd rfl (hdone failure)

theorem Sound.stopStep (h : e.Sound) (runId stepId : String) :
    GoesOn e (e.stopStep runId stepId).2 := by
  unfold Engine.stopStep run?
  cases hrun : Table.find? e.runs runId with
  | none => exact .refl e
  | some run =>
      dsimp only
      split
      · have hspares : Spares runId e (e.dropTasks (isOf runId stepId)) :=
          e.spares_dropTasks fun task htask => congrArg Prod.fst (isOf_iff.mp htask)
        obtain ⟨c, -, hc⟩ := h.exists_rests hrun
        refine .of_run runId hspares (fun c hc => ?_)
          fun hempty => absurd hempty (hc.ne_empty runId)
        have hrests := hc.dropTasks (isOf runId stepId)
        cases hprogress : c.progress? stepId with
        | none => exact ⟨c, .refl _, hrests⟩
        | some progress =>
            have hne : stepId ≠ c.triggerId := by
              rintro rfl
              rw [show c.progress? c.triggerId = none from hc.free] at hprogress
              cases hprogress
            have hstep : c.step (.stop stepId) = some (c.drop stepId) := by
              simp [Course.step, hprogress, hne]
            have hdrop (id : String) (hid : id ≠ stepId) :
                (c.drop stepId).progress? id = c.progress? id := by
              rw [hc.sound.progress?_drop, if_neg hid]
            refine ⟨_, .of_move hstep (Course.owed_of_phase_eq rfl rfl),
              ⟨⟨hc.sound.drop stepId, hrests.id, hrests.run, hrests.driver, fun task hmem => ?_,
                hrests.nodup⟩, (hdrop _ hne.symm).trans hc.free⟩⟩
            refine (hrests.tasks task hmem).of_keeps (fun hfinished => hfinished) ?_
            intro id progress' hholder hid
            refine (hdrop id ?_).trans hid
            rintro rfl
            have hmem : task ∈ (e.dropTasks (isOf runId id)).tasksOf runId := hmem
            rw [tasksOf_dropTasks, List.mem_filter] at hmem
            rw [isOf_iff.mpr (Prod.ext (holder_of_mem_tasksOf hmem.1) hholder)] at hmem
            cases hmem.2
      · exact .refl e

/-! ### How a run is started -/

/-- A run that has just become known is stored or refused at once. -/
theorem exists_started_launch {graph : Graph} {payload : Fields} {mode : FailureMode}
    {observers : List Observer}
    (hview : e.view runId =
      ⟨runId, some (Run.create runId graph payload mode observers), none, []⟩) :
    Spares runId e (e.launch runId).2 ∧
      ∃ c, Ledger.Started e.repository runId ⟨c, (e.launch runId).2.repository, []⟩ ∧
        ((e.launch runId).2.view runId).Rests c := by
  have hstart := Course.sound_register runId graph payload mode observers
  have hrun : Table.find? e.runs runId = some (Run.create runId graph payload mode observers) :=
    congrArg View.run hview
  have hdriver : Table.find? e.drivers runId ≠ some .driving := by
    rw [show Table.find? e.drivers runId = none from congrArg View.driver hview]
    simp
  unfold launch
  rw [hrun]
  dsimp only
  split
  · have hrefuse : (Course.register runId graph payload mode observers).step .refuse =
        some { Course.register runId graph payload mode observers with phase := .refused } := rfl
    refine ⟨.refl _ _, _, ⟨e.repository, graph, payload, mode, observers, [.move .refuse], _, id,
      Or.inr rfl, rfl, .refl _⟩, ?_⟩
    rw [hview]
    exact ⟨⟨hstart.of_takes (hstart.takes hrefuse), rfl, rfl, rfl, by simp, List.nodup_nil⟩, rfl⟩
  · rename_i repository hwritten
    have hstore : (Course.register runId graph payload mode observers).step .store =
        some { run := (Run.create runId graph payload mode observers).stored, phase := .waiting } :=
      rfl
    have hid : (Run.create runId graph payload mode observers).stored.id = runId := rfl
    have hcreated : (Run.create runId graph payload mode observers).creation.runId = runId := rfl
    have hspares := (spares_store hcreated hwritten).trans
      (spares_setRun { e with repository } hid)
    have hrepository := repository_setRun { e with repository }
      (Run.create runId graph payload mode observers).stored
    have hset := view_setRun (e := { e with repository }) hid hdriver
    rw [Engine.change, hrun]
    dsimp only
    generalize Engine.setRun { e with repository } _ = e₁ at hspares hrepository hset ⊢
    have hwaiting : (e₁.setDriver runId .waiting).view runId =
        ⟨runId, some (Run.create runId graph payload mode observers).stored, some .waiting,
          []⟩ := by
      rw [view_setDriver, hset]
      exact congrArg (View.mk _ _ _) (congrArg View.tasks hview)
    have hspares' : Spares runId e (e₁.setDriver runId .waiting) :=
      hspares.trans (spares_setDriver _ _ _)
    have hplay := Ledger.play_store (store_eq_ok hwritten)
    rw [← show (e₁.setDriver runId .waiting).repository = repository from hrepository] at hplay
    generalize e₁.setDriver runId .waiting = e₂ at hspares' hwaiting hplay ⊢
    refine ⟨hspares'.trans (spares_schedule _ _ (.begin runId) rfl), _, ⟨e.repository, graph,
      payload, mode, observers, _, _, id, Or.inl rfl, hplay, .refl _⟩, ?_, rfl⟩
    have hnone : e₂.tasksOf runId = [] := congrArg View.tasks hwaiting
    refine View.Follows.schedule ?_ _ (.begin runId) rfl (congrArg View.driver hwaiting)
      (by simp [hnone])
    rw [hwaiting]
    exact ⟨hstart.of_takes (hstart.takes hstore), rfl, rfl, rfl, by simp, List.nodup_nil⟩

theorem register_eq_ok {graph : Graph} {order : Order}
    (hregister : e.register runId graph order = .ok e') :
    ∃ payload mode, e' = e.setRun (Run.create runId graph payload mode e.observers) := by
  obtain ⟨mode, -, hrest⟩ := bind_eq_ok_iff.mp hregister
  obtain ⟨payload, -, hregistered⟩ := bind_eq_ok_iff.mp hrest
  exact ⟨payload, mode, (Except.ok.inj hregistered).symm⟩

theorem Sound.start (h : e.Sound) (order : Order) : GoesOn e (e.start order).2 := by
  unfold Engine.start
  split
  · exact .refl e
  · rename_i graph _
    have hfresh := h.free (e.runCount + 1) (Nat.lt_succ_self _)
    rw [show "run-" ++ toString (e.runCount + 1) = idOf (e.runCount + 1) from rfl]
    generalize hnew : idOf (e.runCount + 1) = runId at hfresh ⊢
    dsimp only
    split
    · exact .of_views (fun _ => rfl) rfl (Nat.le_succ _)
    · rename_i e₁ hregister
      obtain ⟨payload, mode, rfl⟩ := register_eq_ok hregister
      have hid : (Run.create runId graph payload mode e.observers).id = runId := rfl
      have hdriver : Table.find? e.drivers runId ≠ some .driving := by
        rw [show Table.find? e.drivers runId = none from congrArg View.driver hfresh]
        simp
      have hregistered := spares_setRun { e with runCount := e.runCount + 1 } hid
      have hview := view_setRun (e := { e with runCount := e.runCount + 1 }) hid hdriver
      rw [show view { e with runCount := e.runCount + 1 } runId = .empty runId from hfresh] at hview
      obtain ⟨hspares, c, hstarted, hrests⟩ := exists_started_launch hview
      rw [repository_setRun] at hstarted
      have hall := hregistered.trans hspares
      refine ⟨fun other c' hc' => ?_, fun other hempty => ?_, ?_⟩
      · have hne : other ≠ runId := by
          rintro rfl
          exact hc'.ne_empty other hfresh
        refine ⟨c', .of_isTold hall.repository ?_, (hall.views other hne).symm ▸ hc'⟩
        rw [hc'.id]
        exact hne.symm
      · by_cases heq : other = runId
        · subst heq
          exact Or.inr ⟨⟨e.runCount + 1, hall.runCount.ge, hnew.symm⟩, c, hstarted, hrests⟩
        · exact Or.inl ⟨(hall.views other heq).trans hempty,
            hall.repository.isUnknown (Ne.symm heq)⟩
      · exact (Nat.le_succ _).trans hall.runCount.ge

theorem Sound.execute (h : e.Sound) (order : Order) (timeout : Option Float) :
    GoesOn e (e.execute order timeout).2 := by
  have hstart := h.start order
  unfold Engine.execute
  generalize e.start order = started at hstart
  obtain ⟨_ | runId, e₁⟩ := started
  · exact hstart
  · exact hstart.trans ((hstart.sound h).wait runId timeout)

/-! ### Rehearsals -/

/-- What can be done with an engine. -/
inductive Evolves (e : Engine) : Engine → Prop
  | start (order : Order) : Evolves e (e.start order).2
  | execute (order : Order) (timeout : Option Float) : Evolves e (e.execute order timeout).2
  | wait (runId : String) (timeout : Option Float) : Evolves e (e.wait runId timeout).2
  | sleep (seconds : Float) : Evolves e (e.sleep seconds)
  | drain : Evolves e e.drain
  | cancel (runId reason : String) : Evolves e (e.cancel runId reason).2
  | stopDriver (runId : String) : Evolves e (e.stopDriver runId).2
  | stopStep (runId stepId : String) : Evolves e (e.stopStep runId stepId).2
  | follow (runId : String) (e' : Engine) (hfollow : e.follow runId = .ok e') : Evolves e e'
  | setStage (stage : Stage) : Evolves e { e with stage }

theorem Evolves.goesOn (h : Evolves e e') (hsound : e.Sound) : GoesOn e e' := by
  cases h with
  | start order => exact hsound.start order
  | execute order timeout => exact hsound.execute order timeout
  | wait runId timeout => exact hsound.wait runId timeout
  | sleep seconds => exact hsound.sleep seconds
  | drain => exact hsound.drain
  | cancel runId reason => exact hsound.cancel runId reason
  | stopDriver runId => exact goesOn_stopDriver e runId
  | stopStep runId stepId => exact hsound.stopStep runId stepId
  | follow runId e' hfollow => exact hsound.follow hfollow
  | setStage stage => exact .of_views (fun _ => rfl) rfl le_rfl

/-- A rehearsal: one thing after the other is done with an engine. -/
def Rehearses : Engine → Engine → Prop := Relation.ReflTransGen Evolves

theorem Rehearses.goesOn (h : Rehearses e e') (hsound : e.Sound) : GoesOn e e' := by
  induction h with
  | refl => exact .refl e
  | tail _ hevolves ih => exact ih.trans (hevolves.goesOn (ih.sound hsound))

/-- An engine that has not been asked for anything yet. -/
structure IsNew (e : Engine) : Prop where
  runs : e.runs = []
  drivers : e.drivers = []
  agenda : e.agenda = []

theorem IsNew.view (h : e.IsNew) (runId : String) : e.view runId = .empty runId := by
  rw [Engine.view, tasksOf, h.runs, h.drivers, h.agenda]
  rfl

theorem IsNew.sound (h : e.IsNew) : e.Sound :=
  ⟨fun runId => Or.inl (h.view runId), fun _ _ => h.view _⟩

/-- What an engine knows of a run has been started since the engine was new. -/
theorem Rehearses.exists_started {start : Engine} (h : Rehearses start e) (hnew : start.IsNew)
    {run : Run} (hrun : Table.find? e.runs runId = some run) :
    ∃ c, c.run = run ∧ Ledger.Started start.repository runId ⟨c, e.repository, []⟩ ∧
      (e.view runId).Rests c := by
  rcases (h.goesOn hnew.sound).started runId (hnew.view runId) with
    ⟨hempty, -⟩ | ⟨-, c, hstarted, hrests⟩
  · rw [show Table.find? e.runs runId = none from congrArg View.run hempty] at hrun
    cases hrun
  · exact ⟨c, Option.some.inj (hrests.run.symm.trans hrun), hstarted, hrests⟩

/-- Whatever is done with an engine, each of its runs and its repository are where some play of a
ledger leads. -/
theorem Rehearses.exists_ledger {start : Engine} (h : Rehearses start e) (hnew : start.IsNew)
    {run : Run} (hrun : Table.find? e.runs runId = some run) :
    ∃ repository graph payload mode observers acts l,
      (start.repository.IsUnknown runId → repository.IsUnknown runId) ∧
      (Ledger.register repository runId graph payload mode observers).play acts = some l ∧
        l.course.run = run ∧ l.repository = e.repository ∧ l.owed = [] ∧
        ¬ Course.StoredAfterCancel (Act.moves acts) := by
  obtain ⟨c, hsame, hstarted, -⟩ := h.exists_started hnew hrun
  obtain ⟨repository, graph, payload, mode, observers, acts, hunknown, hplay, hrace⟩ :=
    hstarted.exists_play
  refine ⟨repository, graph, payload, mode, observers, acts, _, hunknown, hplay, hsame, rfl, rfl,
    ?_⟩
  have hrace := hrace [] c rfl
  rwa [List.append_nil] at hrace

/-- Whatever is done with an engine, each of its runs is where some play of its course leads. -/
theorem Rehearses.exists_play {start : Engine} (h : Rehearses start e) (hnew : start.IsNew)
    {run : Run} (hrun : Table.find? e.runs runId = some run) :
    ∃ graph payload mode observers moves c,
      (Course.register runId graph payload mode observers).play moves = some c ∧ c.run = run ∧
        ¬ Course.StoredAfterCancel moves := by
  obtain ⟨repository, graph, payload, mode, observers, acts, l, -, hplay, hsame, -, -, hrace⟩ :=
    h.exists_ledger hnew hrun
  exact ⟨graph, payload, mode, observers, _, _, Ledger.course_of_play hplay, hsame, hrace⟩

/-- Whatever is done with an engine, a run of it that has ended keeps its verdict, and only the
reports on its running steps change. -/
theorem Rehearses.aftermath {start : Engine} (h : Rehearses start e) (hnew : start.IsNew)
    (h' : Rehearses e e') {run : Run} (hrun : Table.find? e.runs runId = some run)
    (hended : run.isTerminated = true) :
    ∃ run', Table.find? e'.runs runId = some run' ∧ run.Aftermath run' fun _ _ => True := by
  obtain ⟨c, rfl, hstarted, hrests⟩ := h.exists_started hnew hrun
  obtain ⟨repository, graph, payload, mode, observers, acts, -, hplay, hrace⟩ :=
    hstarted.exists_play
  have hsound := (h.goesOn hnew.sound).sound hnew.sound
  obtain ⟨c', ⟨later, hlater⟩, hrests'⟩ := (h'.goesOn hsound).runs runId c hrests
  have hlater := Ledger.course_of_play hlater
  have haftermath := Course.aftermath_of_play (Ledger.course_of_play hplay) hlater hended
    (hrace _ c' hlater)
  exact ⟨c'.run, hrests'.run, haftermath.mono fun _ _ _ => trivial⟩

end Engine

end Workflow
