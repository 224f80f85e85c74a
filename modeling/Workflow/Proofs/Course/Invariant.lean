import Workflow.Proofs.Course
import Workflow.Proofs.Run.Completion
import Mathlib.Data.List.Induction

/-!
# The invariant of a course

A course is sound when its run is, when each of its invocations belongs to a running step and has
received what the run holds for that step, and when nothing is going on before the driver has begun.
Whatever move is made next, in whatever order, a sound course stays sound, and its run only goes
forwards.
-/

namespace Workflow

def Phase.isUnstored : Phase → Bool
  | .registered | .refused => true
  | _ => false

def Phase.isUnbegun : Phase → Bool
  | .registered | .refused | .waiting => true
  | _ => false

theorem Phase.isUnbegun_of_isUnstored {phase : Phase} (hunstored : phase.isUnstored) :
    phase.isUnbegun := by
  cases phase <;> first | rfl | cases hunstored

/-- What an invocation has received is what its run holds for it, and a failure has a code. -/
def Progress.Fits (run : Run) (id : String) : Progress → Prop
  | .released => True
  | .entering incoming => incoming = run.incoming id
  | .working incoming => incoming = run.incoming id
  | .leaving outcome => ∀ e, outcome.result = .error e → e.code ≠ ""

theorem Progress.Fits.of_incoming {run run' : Run} {id : String} {progress : Progress}
    (h : progress.Fits run id) (hincoming : run'.incoming id = run.incoming id) :
    progress.Fits run' id := by
  cases progress with
  | released => trivial
  | entering incoming => exact Eq.trans h hincoming.symm
  | working incoming => exact Eq.trans h hincoming.symm
  | leaving outcome => exact h

namespace Run

/-- What a step that has left the idle status receives does not change any more. -/
theorem Advances.incoming {run run' : Run} {id : String} (h : Advances run run')
    (hcoherent : run.Coherent) (hcoherent' : run'.Coherent) (hleft : run.HasLeftIdle id) :
    run'.incoming id = run.incoming id := by
  by_cases htrigger : id = run.graph.trigger.id
  · have htrigger' : id = run'.graph.trigger.id := by rw [h.graph, htrigger]
    rw [htrigger, hcoherent.incoming_trigger, ← htrigger, htrigger', hcoherent'.incoming_trigger]
  · rw [Run.incoming, Run.incoming, parentResults, parentResults, h.graph]
    refine congrArg _ (List.map_congr_left fun parent hparent => ?_)
    obtain ⟨hprocessed, hcompleted⟩ := (hcoherent.fed id htrigger hleft).2 parent hparent
    obtain ⟨report, hreport, hstatus⟩ := statusOf?_eq_some_iff.mp hcompleted
    have hresult := (hcoherent.committed parent report.result).mpr
      ⟨hprocessed, report, hreport, hstatus, rfl⟩
    rw [hresult, h.results parent _ hresult]

end Run

namespace Course

variable {c c' : Course} {move : Move} {id : String} {now : Moment}

structure Sound (c : Course) : Prop where
  run : c.run.Sound
  nodup : (Table.keys c.invocations).Nodup
  running : ∀ id progress, c.progress? id = some progress → c.run.statusOf? id = some .running
  fits : ∀ id progress, c.progress? id = some progress → progress.Fits c.run id
  unbegun : c.phase.isUnbegun → c.run.Fresh ∧ c.invocations = []
  stored : c.phase.isUnstored = false → c.run.status ≠ .pending

/-- A course whose driver has begun its run: the trigger is on its way. -/
def begun (c : Course) (now : Moment) : Course where
  run := (c.run.introduce now).begun now
  phase := .driving
  invocations := c.invocations ++
    [(c.triggerId, .entering (((c.run.introduce now).begun now).incoming c.triggerId))]

/-- What each possible move makes of a sound course. -/
inductive Takes (c : Course) : Move → Course → Prop
  | store (hphase : c.phase = .registered) :
    Takes c .store { c with run := c.run.stored, phase := .waiting }
  | refuse (hphase : c.phase = .registered) : Takes c .refuse { c with phase := .refused }
  | cancel (now : Moment) (reason : String) :
    Takes c (.cancel now reason (c.run.cancel now reason).1)
      { c with run := (c.run.cancel now reason).2 }
  | begin (now : Moment) (hphase : c.phase = .waiting) (hopen : c.run.isTerminated = false) :
    Takes c (.begin now) (c.begun now)
  | beginLate (now : Moment) (hphase : c.phase = .waiting) (hended : c.run.isTerminated = true) :
    Takes c (.begin now) { c with run := c.run.conclude now, phase := .closing none }
  | enter (id : String) (hprogress : c.progress? id = some .released) :
    Takes c (.enter id) (c.put id (.entering (c.run.incoming id)))
  | hand (id : String) (incoming : Fields)
    (hprogress : c.progress? id = some (.entering incoming)) :
    Takes c (.hand id incoming) (c.put id (.working incoming))
  | finish (now : Moment) (step : Step) (incoming : Fields) (ending : Retry.Ending Value)
    (outcome : Outcome) (hprogress : c.progress? step.id = some (.working incoming))
    (hstep : c.run.graph.step? step.id = some step)
    (houtcome : Outcome.ofEnding? ending = some outcome) :
    Takes c (.finish now step.id incoming ending)
      { c.put step.id (.leaving outcome) with run := c.run.announce now step outcome }
  | interrupt (now : Moment) (id : String) (incoming : Fields) (ending : Retry.Ending Value)
    (hprogress : c.progress? id = some (.working incoming))
    (houtcome : Outcome.ofEnding? ending = none) (hne : id ≠ c.triggerId) :
    Takes c (.finish now id incoming ending) (c.drop id)
  | interruptDriver (now : Moment) (incoming : Fields) (ending : Retry.Ending Value)
    (hprogress : c.progress? c.triggerId = some (.working incoming))
    (houtcome : Outcome.ofEnding? ending = none) :
    Takes c (.finish now c.triggerId incoming ending) (c.stopDriving now)
  | report (now : Moment) (step : Step) (outcome : Outcome) (released : List String) (run : Run)
    (hprogress : c.progress? step.id = some (.leaving outcome))
    (hcompletes : Run.Completes now step outcome c.run released run) :
    Takes c (.report now step.id)
      { c with
        run
        invocations := (c.drop step.id).invocations ++ released.map fun id => (id, .released) }
  | breakOff (id : String) (failure : Failure)
    (hprogress : (∃ incoming, c.progress? id = some (.entering incoming)) ∨
      ∃ outcome, c.progress? id = some (.leaving outcome)) :
    Takes c (.breakOff id failure) (c.breakOff id failure)
  | stop (id : String) (hprogress : (c.progress? id).isSome) (hne : id ≠ c.triggerId) :
    Takes c (.stop id) (c.drop id)
  | conclude (now : Moment) (hphase : c.phase = .driving) (hfinished : c.run.isFinished = true)
    (hthrough : c.progress? c.triggerId = none) :
    Takes c (.conclude now) { c with run := c.run.conclude now, phase := .closing none }
  | close (failure : Option Failure) (hphase : c.phase = .closing failure) :
    Takes c (.close none) { c with run := c.run.closeLog, phase := .closed failure }
  | closeFailing (failure : Option Failure) (problem : Failure)
    (hphase : c.phase = .closing failure) :
    Takes c (.close (some problem)) { c with phase := .closed (some problem) }
  | leave (now : Moment) (hphase : c.phase = .waiting ∨ ∃ failure, c.phase = .closing failure) :
    Takes c (.stopDriver now) { c with phase := .closed (some .cancelled) }
  | stopDriver (now : Moment) (hphase : c.phase = .driving) :
    Takes c (.stopDriver now) (c.stopDriving now)
  | subscribe : Takes c .subscribe { c with run := { c.run with log := c.run.log.subscribe } }
  | read (index : Nat) :
    Takes c (.read index) { c with
      run := { c.run with log := c.run.log.modifySubscription index Subscription.readAll } }

/-- A step with an invocation belongs to a run that has begun. -/
theorem Sound.begun_of_progress (h : c.Sound) {progress : Progress}
    (hprogress : c.progress? id = some progress) : c.phase.isUnbegun = false := by
  by_contra hunbegun
  rw [progress?, (h.unbegun (Bool.not_eq_false _ ▸ hunbegun)).2] at hprogress
  cases hprogress

theorem Sound.stored_of_progress (h : c.Sound) {progress : Progress}
    (hprogress : c.progress? id = some progress) : c.phase.isUnstored = false := by
  by_contra hunstored
  have hunbegun := Phase.isUnbegun_of_isUnstored (Bool.not_eq_false _ ▸ hunstored)
  rw [h.begun_of_progress hprogress] at hunbegun
  cases hunbegun

theorem step_id_of_step? {g : Graph} {step : Step} (hstep : g.step? id = some step) :
    step.id = id := by
  simpa using List.find?_some hstep

theorem Sound.takes (h : c.Sound) (hstep : c.step move = some c') : c.Takes move c' := by
  cases move with
  | store =>
      simp only [step] at hstep
      split at hstep <;> cases hstep
      exact .store ‹_›
  | refuse =>
      simp only [step] at hstep
      split at hstep <;> cases hstep
      exact .refuse ‹_›
  | cancel now reason isGranted =>
      simp only [step] at hstep
      split at hstep <;> cases hstep
      rename_i hgranted
      exact hgranted ▸ .cancel now reason
  | begin now =>
      simp only [step] at hstep
      split at hstep <;> cases hstep
      rename_i hphase
      have hfresh := (h.unbegun (by rw [hphase]; rfl)).1
      unfold begin
      by_cases hended : c.run.isTerminated
      · rw [Change.begin_run_terminated hended]
        exact .beginLate now hphase hended
      · rw [Bool.not_eq_true] at hended
        rw [hfresh.begin_run hended]
        have hgraph : ((c.run.introduce now).begun now).graph = c.run.graph :=
          (c.run.quiet_introduce now).graph
        simp only [hgraph]
        exact .begin now hphase hended
  | enter id =>
      simp only [step] at hstep
      split at hstep <;> cases hstep
      exact .enter id ‹_›
  | hand id incoming =>
      simp only [step] at hstep
      split at hstep
      · split at hstep <;> cases hstep
        rename_i hprogress hreceived
        exact .hand id incoming (hreceived ▸ hprogress)
      · cases hstep
  | finish now id incoming ending =>
      simp only [step] at hstep
      split at hstep
      · split at hstep <;> cases hstep
        rename_i received step hprogress hfound hreceived
        obtain rfl := step_id_of_step? hfound
        rw [hreceived] at hprogress
        unfold finish
        split
        · exact .finish now step incoming ending _ hprogress hfound ‹_›
        · split
          · rename_i houtcome htrigger
            rw [htrigger] at hprogress ⊢
            exact .interruptDriver now incoming ending hprogress houtcome
          · exact .interrupt now step.id incoming ending hprogress ‹_› ‹_›
      · cases hstep
  | report now id =>
      simp only [step] at hstep
      split at hstep <;> cases hstep
      rename_i outcome step hprogress hfound
      obtain rfl := step_id_of_step? hfound
      exact .report now step outcome _ _ hprogress
        (h.run.completes (h.stored (h.stored_of_progress hprogress)) (h.running _ _ hprogress) now
          outcome)
  | breakOff id failure =>
      simp only [step] at hstep
      split at hstep <;> cases hstep
      · exact .breakOff id failure (Or.inl ⟨_, ‹_›⟩)
      · exact .breakOff id failure (Or.inr ⟨_, ‹_›⟩)
  | stop id =>
      simp only [step] at hstep
      split at hstep <;> cases hstep
      rename_i hguard
      simp only [Bool.and_eq_true, decide_eq_true_eq] at hguard
      exact .stop id hguard.1 hguard.2
  | conclude now =>
      simp only [step] at hstep
      split at hstep
      · split at hstep <;> cases hstep
        rename_i hphase hguard
        simp only [Bool.and_eq_true, Option.isNone_iff_eq_none] at hguard
        exact .conclude now hphase hguard.1 hguard.2
      · cases hstep
  | close failure =>
      simp only [step] at hstep
      split at hstep <;> cases hstep
      · exact .close _ ‹_›
      · exact .closeFailing _ _ ‹_›
  | stopDriver now =>
      simp only [step] at hstep
      split at hstep <;> cases hstep
      · exact .leave now (Or.inl ‹_›)
      · exact .stopDriver now ‹_›
      · exact .leave now (Or.inr ⟨_, ‹_›⟩)
  | subscribe =>
      cases hstep
      exact .subscribe
  | read index =>
      cases hstep
      exact .read index

/-! ### What keeps a course sound -/

theorem sound_register (id : String) (graph : Graph) (payload : Fields)
    (failureMode : FailureMode) (observers : List Observer) :
    (register id graph payload failureMode observers).Sound where
  run := (Run.fresh_create id graph payload failureMode observers).sound
  nodup := List.nodup_nil
  running := by simp [register, progress?, Table.find?]
  fits := by simp [register, progress?, Table.find?]
  unbegun := fun _ => ⟨Run.fresh_create id graph payload failureMode observers, rfl⟩
  stored := by
    intro hphase
    cases hphase

theorem Sound.quiet (h : c.Sound) {run : Run} (hquiet : c.run.Quiet run) :
    Sound { c with run } where
  run := h.run.quiet hquiet
  nodup := h.nodup
  running := fun id progress hprogress =>
    (hquiet.statusOf? id).trans (h.running id progress hprogress)
  fits := fun id progress hprogress =>
    (h.fits id progress hprogress).of_incoming (hquiet.incoming id)
  unbegun := fun hphase => ⟨(h.unbegun hphase).1.quiet hquiet, (h.unbegun hphase).2⟩
  stored := by
    intro hphase
    rcases hquiet.verdict with ⟨hstatus, -⟩ | ⟨-, hended, -⟩
    · exact hstatus ▸ h.stored hphase
    · rintro hpending
      rw [Run.isTerminated, hpending] at hended
      cases hended

theorem Sound.setPhase (h : c.Sound) (hstored : c.phase.isUnstored = false) {phase : Phase}
    (hbegun : phase.isUnbegun = false) : Sound { c with phase } where
  run := h.run
  nodup := h.nodup
  running := h.running
  fits := h.fits
  unbegun := by
    intro hphase
    rw [hbegun] at hphase
    cases hphase
  stored := fun _ => h.stored hstored

theorem progress?_put (c : Course) (id other : String) (progress : Progress) :
    (c.put id progress).progress? other =
      if other = id then some progress else c.progress? other :=
  Table.find?_insert _ _ _ _

theorem progress?_put_self (c : Course) (id : String) (progress : Progress) :
    (c.put id progress).progress? id = some progress :=
  (progress?_put c id id progress).trans (if_pos rfl)

theorem Sound.put (h : c.Sound) {before progress : Progress}
    (hbefore : c.progress? id = some before) (hfits : progress.Fits c.run id) :
    (c.put id progress).Sound where
  run := h.run
  nodup := by
    have hmem : id ∈ Table.keys c.invocations :=
      Table.find?_isSome_iff.mp (Option.isSome_iff_exists.mpr ⟨before, hbefore⟩)
    rw [Course.put, Table.keys_insert_of_mem progress hmem]
    exact h.nodup
  running := by
    intro other progress' hprogress
    rw [progress?_put] at hprogress
    split at hprogress
    · rename_i heq
      exact heq ▸ h.running id before hbefore
    · exact h.running other progress' hprogress
  fits := by
    intro other progress' hprogress
    rw [progress?_put] at hprogress
    split at hprogress
    · rename_i heq
      obtain rfl := Option.some.inj hprogress
      exact heq ▸ hfits
    · exact h.fits other progress' hprogress
  unbegun := by
    intro hphase
    rw [progress?, (h.unbegun hphase).2] at hbefore
    cases hbefore
  stored := h.stored

theorem Sound.progress?_drop (h : c.Sound) (id other : String) :
    (c.drop id).progress? other = if other = id then none else c.progress? other :=
  Table.find?_eraseP h.nodup id other

theorem Sound.progress?_drop_self (h : c.Sound) (id : String) : (c.drop id).progress? id = none :=
  (h.progress?_drop id id).trans (if_pos rfl)

theorem Sound.progress?_of_drop (h : c.Sound) {other : String} {progress : Progress}
    (hprogress : (c.drop id).progress? other = some progress) :
    other ≠ id ∧ c.progress? other = some progress := by
  rw [h.progress?_drop] at hprogress
  split at hprogress
  · cases hprogress
  · exact ⟨‹_›, hprogress⟩

theorem Sound.drop (h : c.Sound) (id : String) : (c.drop id).Sound where
  run := h.run
  nodup := h.nodup.sublist (Table.keys_eraseP_sublist _ _)
  running := fun other progress hprogress =>
    h.running other progress (h.progress?_of_drop hprogress).2
  fits := fun other progress hprogress => h.fits other progress (h.progress?_of_drop hprogress).2
  unbegun := by
    intro hphase
    refine ⟨(h.unbegun hphase).1, ?_⟩
    rw [Course.drop, (h.unbegun hphase).2]
    rfl
  stored := h.stored

theorem Sound.store (h : c.Sound) (hphase : c.phase = .registered) :
    Sound { c with run := c.run.stored, phase := .waiting } where
  run := ((h.unbegun (by rw [hphase]; rfl)).1.stored).sound
  nodup := h.nodup
  running := h.running
  fits := h.fits
  unbegun := by
    intro _
    obtain ⟨hfresh, hnil⟩ := h.unbegun (by rw [hphase]; rfl)
    exact ⟨hfresh.stored, hnil⟩
  stored := by
    rintro - hstatus
    cases hstatus

theorem Sound.refuse (h : c.Sound) (hphase : c.phase = .registered) :
    Sound { c with phase := .refused } where
  run := h.run
  nodup := h.nodup
  running := h.running
  fits := h.fits
  unbegun := fun _ => h.unbegun (by rw [hphase]; rfl)
  stored := by
    intro hstored
    cases hstored

/-- When a run has begun, the only invocation is that of its trigger. -/
theorem Sound.invocations_begun (h : c.Sound) (hphase : c.phase = .waiting) (now : Moment) :
    (c.begun now).invocations =
      [(c.triggerId, .entering ((c.begun now).run.incoming c.triggerId))] := by
  rw [begun, (h.unbegun (by rw [hphase]; rfl)).2, List.nil_append]

theorem Sound.progress?_begun (h : c.Sound) (hphase : c.phase = .waiting) {progress : Progress}
    (hprogress : (c.begun now).progress? id = some progress) :
    id = c.triggerId ∧ progress = .entering ((c.begun now).run.incoming c.triggerId) := by
  rw [progress?, h.invocations_begun hphase] at hprogress
  exact Prod.mk.inj (List.mem_singleton.mp (Table.mem_of_find?_eq_some hprogress))

theorem Sound.statusOf?_begun (h : c.Sound) (hphase : c.phase = .waiting) (now : Moment)
    (id : String) : (c.begun now).run.statusOf? id =
      if id = c.triggerId then some .running else c.run.statusOf? id := by
  have hquiet := c.run.quiet_introduce now
  have hfresh := (h.unbegun (by rw [hphase]; rfl)).1.quiet hquiet
  rw [begun, hfresh.statusOf?_begun, hquiet.graph, hquiet.statusOf?]
  rfl

theorem Sound.begin (h : c.Sound) (hphase : c.phase = .waiting) (now : Moment) :
    (c.begun now).Sound := by
  have hfresh := (h.unbegun (by rw [hphase]; rfl)).1
  have hquiet := c.run.quiet_introduce now
  refine ⟨(hfresh.quiet hquiet).begun now, ?_, fun id progress hprogress => ?_,
    fun id progress hprogress => ?_, fun hunbegun => ?_, fun _ => ?_⟩
  · rw [h.invocations_begun hphase]
    exact List.nodup_cons.mpr ⟨List.not_mem_nil, List.nodup_nil⟩
  · obtain ⟨rfl, -⟩ := h.progress?_begun hphase hprogress
    exact (h.statusOf?_begun hphase now _).trans (if_pos rfl)
  · obtain ⟨rfl, rfl⟩ := h.progress?_begun hphase hprogress
    rfl
  · cases hunbegun
  · have hstored := (h.quiet hquiet).stored (by rw [hphase]; rfl)
    exact hstored

theorem find?_map_released (released : List String) (id : String) :
    Table.find? (released.map fun id => (id, Progress.released)) id =
      if id ∈ released then some .released else none := by
  induction released with
  | nil => rfl
  | cons other released ih =>
      by_cases heq : other = id
      · simp [Table.find?, heq]
      · simp [Table.find?, heq, Ne.symm heq, ih]

/-- Where the invocations stand after one of them has been reported. -/
theorem Sound.progress?_report (hsound : c.Sound) {now : Moment} {step : Step} {outcome : Outcome}
    {released : List String} {run : Run}
    (hprogress : c.progress? step.id = some (.leaving outcome))
    (hcompletes : Run.Completes now step outcome c.run released run) (id : String) :
    Table.find? ((c.drop step.id).invocations ++ released.map fun id => (id, .released)) id =
      if id ∈ released then some .released else if id = step.id then none else c.progress? id := by
  have hrunning := hsound.running _ _ hprogress
  have hdrop : Table.find? (c.drop step.id).invocations id =
      if id = step.id then none else c.progress? id := hsound.progress?_drop step.id id
  rw [Table.find?_append, find?_map_released, hdrop]
  by_cases hmem : id ∈ released
  · obtain ⟨hne, hidle⟩ := hcompletes.idle_of_mem_released hrunning hmem
    have hnone : c.progress? id = none := by
      by_contra hsome
      obtain ⟨progress, hid⟩ := Option.ne_none_iff_exists'.mp hsome
      rw [hsound.running id progress hid] at hidle
      cases hidle
    rw [if_neg hne, hnone, if_pos hmem]
    rfl
  · rw [if_neg hmem, if_neg hmem, Option.or_none]

theorem Sound.report (h : c.Sound) {step : Step} {outcome : Outcome} {released : List String}
    {run : Run} (hprogress : c.progress? step.id = some (.leaving outcome))
    (hcompletes : Run.Completes now step outcome c.run released run) :
    Sound { c with
      run
      invocations := (c.drop step.id).invocations ++ released.map fun id => (id, .released) } := by
  have hrunning := h.running _ _ hprogress
  have hsound := h.run.of_completes hrunning (h.fits _ _ hprogress) hcompletes
  have hadvances := hcompletes.advances h.run hrunning
  have hstatus := hcompletes.statusOf? hrunning
  have hcases {id : String} {progress : Progress}
      (hfind : Table.find? ((c.drop step.id).invocations ++
        released.map fun id => (id, .released)) id = some progress) :
      (id ≠ step.id ∧ c.progress? id = some progress) ∨ id ∈ released ∧ progress = .released := by
    rw [h.progress?_report hprogress hcompletes] at hfind
    split at hfind
    · exact Or.inr ⟨‹_›, (Option.some.inj hfind).symm⟩
    · split at hfind
      · cases hfind
      · exact Or.inl ⟨‹_›, hfind⟩
  refine ⟨hsound, ?_, fun id progress hfind => ?_, fun id progress hfind => ?_, fun hphase => ?_,
    fun hphase => ?_⟩
  · have hkeys : Table.keys (released.map fun id => (id, Progress.released)) = released := by
      simp [Table.keys, Function.comp_def]
    rw [Table.keys, List.map_append, ← Table.keys, ← Table.keys, hkeys, List.nodup_append]
    refine ⟨(h.drop step.id).nodup, hcompletes.nodup, ?_⟩
    rintro id hkept _ hmem rfl
    obtain ⟨progress, hfind⟩ := Option.isSome_iff_exists.mp (Table.find?_isSome_iff.mpr hkept)
    have hidle := (hcompletes.idle_of_mem_released hrunning hmem).2
    rw [h.running id progress (h.progress?_of_drop hfind).2] at hidle
    cases hidle
  · rw [hstatus]
    rcases hcases hfind with ⟨hne, hkept⟩ | ⟨hmem, -⟩
    · rw [if_neg hne]
      split
      · rfl
      · exact h.running id progress hkept
    · rw [if_neg (hcompletes.idle_of_mem_released hrunning hmem).1, if_pos hmem]
  · rcases hcases hfind with ⟨-, hkept⟩ | ⟨-, rfl⟩
    · exact (h.fits id progress hkept).of_incoming (hadvances.incoming h.run.toCoherent
        hsound.toCoherent (.of_eq (h.running id progress hkept) (by decide)))
    · trivial
  · rw [progress?, (h.unbegun hphase).2] at hprogress
    cases hprogress
  · exact hcompletes.status_ne_pending (h.stored hphase)

theorem Sound.breakOff (h : c.Sound) (id : String) (failure : Failure) :
    (c.breakOff id failure).Sound :=
  (h.drop id).quiet (c.run.quiet_failInternally id failure)

theorem Sound.stopDriving (h : c.Sound) (hstored : c.phase.isUnstored = false) (now : Moment) :
    (c.stopDriving now).Sound :=
  ((h.drop c.triggerId).quiet
    (c.run.quiet_abandon.trans (c.run.abandon.quiet_conclude now))).setPhase hstored rfl

/-! ### Every move -/

theorem Sound.of_takes (h : c.Sound) (htakes : c.Takes move c') : c'.Sound := by
  cases htakes with
  | store hphase => exact h.store hphase
  | refuse hphase => exact h.refuse hphase
  | cancel now reason => exact h.quiet (c.run.quiet_cancel now reason)
  | begin now hphase hopen => exact h.begin hphase now
  | beginLate now hphase hended =>
      exact (h.quiet (c.run.quiet_conclude now)).setPhase (by rw [hphase]; rfl) rfl
  | enter id hprogress => exact h.put hprogress rfl
  | hand id incoming hprogress => exact h.put hprogress (h.fits id (.entering incoming) hprogress)
  | finish now step incoming ending outcome hprogress hstep houtcome =>
      refine (h.put hprogress ?_).quiet (c.run.quiet_announce now step outcome)
      exact Outcome.code_ne_of_ofEnding? houtcome
  | interrupt now id incoming ending hprogress houtcome hne => exact h.drop id
  | interruptDriver now incoming ending hprogress houtcome =>
      exact h.stopDriving (h.stored_of_progress hprogress) now
  | report now step outcome released run hprogress hcompletes =>
      exact h.report hprogress hcompletes
  | breakOff id failure hprogress => exact h.breakOff id failure
  | stop id hprogress hne => exact h.drop id
  | conclude now hphase hfinished hthrough =>
      exact (h.quiet (c.run.quiet_conclude now)).setPhase (by rw [hphase]; rfl) rfl
  | close failure hphase =>
      exact (h.quiet c.run.quiet_closeLog).setPhase (by rw [hphase]; rfl) rfl
  | closeFailing failure problem hphase => exact h.setPhase (by rw [hphase]; rfl) rfl
  | leave now hphase =>
      refine h.setPhase ?_ rfl
      rcases hphase with hphase | ⟨failure, hphase⟩ <;> rw [hphase] <;> rfl
  | stopDriver now hphase => exact h.stopDriving (by rw [hphase]; rfl) now
  | subscribe => exact h.quiet (c.run.quiet_log _)
  | read index => exact h.quiet (c.run.quiet_log _)

/-- Only the completion of a running step is reported. -/
theorem Sound.completes_of_report (h : c.Sound) (hstep : c.step (.report now id) = some c') :
    ∃ step outcome released, step.id = id ∧ c.progress? id = some (.leaving outcome) ∧
      c.run.statusOf? id = some .running ∧
      Run.Completes now step outcome c.run released c'.run := by
  cases h.takes hstep with
  | report _ step outcome released run hprogress hcompletes =>
      exact ⟨step, outcome, released, rfl, hprogress, h.running _ _ hprogress, hcompletes⟩

/-- What a move does to the run: most moves do nothing that the steps of the run notice. -/
inductive Affects (c : Course) : Move → Run → Prop
  | stored (hphase : c.phase = .registered) : Affects c .store c.run.stored
  | quiet {move : Move} {run : Run} (hquiet : c.run.Quiet run) : Affects c move run
  | begun (now : Moment) (hphase : c.phase = .waiting) (hopen : c.run.isTerminated = false) :
    Affects c (.begin now) ((c.run.introduce now).begun now)
  | completed (now : Moment) (step : Step) (outcome : Outcome) (released : List String) (run : Run)
    (hprogress : c.progress? step.id = some (.leaving outcome))
    (hcompletes : Run.Completes now step outcome c.run released run) :
    Affects c (.report now step.id) run

theorem Takes.affects (h : c.Takes move c') : c.Affects move c'.run := by
  cases h with
  | store hphase => exact .stored hphase
  | cancel now reason => exact .quiet (c.run.quiet_cancel now reason)
  | begin now hphase hopen => exact .begun now hphase hopen
  | beginLate now => exact .quiet (c.run.quiet_conclude now)
  | finish now step incoming ending outcome => exact .quiet (c.run.quiet_announce now step outcome)
  | interruptDriver now =>
      exact .quiet (c.run.quiet_abandon.trans (c.run.abandon.quiet_conclude now))
  | report now step outcome released run hprogress hcompletes =>
      exact .completed now step outcome released run hprogress hcompletes
  | breakOff id failure => exact .quiet (c.run.quiet_failInternally id failure)
  | conclude now => exact .quiet (c.run.quiet_conclude now)
  | close => exact .quiet c.run.quiet_closeLog
  | stopDriver now => exact .quiet (c.run.quiet_abandon.trans (c.run.abandon.quiet_conclude now))
  | refuse => exact .quiet (.refl _)
  | enter => exact .quiet (.refl _)
  | hand => exact .quiet (.refl _)
  | interrupt => exact .quiet (.refl _)
  | stop => exact .quiet (.refl _)
  | closeFailing => exact .quiet (.refl _)
  | leave => exact .quiet (.refl _)
  | subscribe => exact .quiet (c.run.quiet_log _)
  | read => exact .quiet (c.run.quiet_log _)

/-- A move takes the run forwards. -/
theorem Sound.advances (h : c.Sound) (htakes : c.Takes move c') : c.run.Advances c'.run := by
  have haffects := htakes.affects
  generalize c'.run = run at haffects ⊢
  cases haffects with
  | stored hphase => exact ⟨rfl, rfl, rfl, fun hfinished => hfinished, fun _ hleft => hleft,
      fun _ hmem => hmem, fun _ _ hfind => hfind, fun _ _ => rfl⟩
  | quiet hquiet => exact hquiet.advances
  | begun now hphase hopen =>
      have hquiet := c.run.quiet_introduce now
      have hfresh := (h.unbegun (by rw [hphase]; rfl)).1.quiet hquiet
      exact hquiet.advances.trans (hfresh.uncommitted_begun now).toAdvances
  | completed now step outcome released _ hprogress hcompletes =>
      exact hcompletes.advances h.run (h.running _ _ hprogress)

/-- How an invocation comes to where it stands after a move. -/
inductive Arises (c : Course) (id : String) : Move → Progress → Prop
  | released (now : Moment) (stepId : String) : Arises c id (.report now stepId) .released
  | begun (now : Moment) (incoming : Fields) (htrigger : id = c.triggerId) :
    Arises c id (.begin now) (.entering incoming)
  | entered (incoming : Fields) : Arises c id (.enter id) (.entering incoming)
  | handed (incoming : Fields) (hbefore : c.progress? id = some (.entering incoming)) :
    Arises c id (.hand id incoming) (.working incoming)
  | finished (now : Moment) (incoming : Fields) (ending : Retry.Ending Value) (outcome : Outcome)
    (hbefore : c.progress? id = some (.working incoming))
    (houtcome : Outcome.ofEnding? ending = some outcome) :
    Arises c id (.finish now id incoming ending) (.leaving outcome)

/-- A move leaves an invocation where it is, or takes it one step further. -/
theorem Sound.progress?_of_takes (h : c.Sound) (htakes : c.Takes move c') {progress : Progress}
    (hprogress : c'.progress? id = some progress) :
    c.progress? id = some progress ∨ c.Arises id move progress := by
  have hput {other : String} {progress' : Progress}
      (hput : (c.put other progress').progress? id = some progress) :
      c.progress? id = some progress ∨ id = other ∧ progress = progress' := by
    rw [progress?_put] at hput
    split at hput
    · exact Or.inr ⟨‹_›, (Option.some.inj hput).symm⟩
    · exact Or.inl hput
  cases htakes with
  | begin now hphase hopen =>
      obtain ⟨rfl, rfl⟩ := h.progress?_begun hphase hprogress
      exact Or.inr (.begun now _ rfl)
  | enter other =>
      refine (hput hprogress).imp_right ?_
      rintro ⟨rfl, rfl⟩
      exact .entered _
  | hand other incoming hbefore =>
      refine (hput hprogress).imp_right ?_
      rintro ⟨rfl, rfl⟩
      exact .handed incoming hbefore
  | finish now step incoming ending outcome hbefore hstep houtcome =>
      refine (hput hprogress).imp_right ?_
      rintro ⟨rfl, rfl⟩
      exact .finished now incoming ending outcome hbefore houtcome
  | report now step outcome released run =>
      rename_i hleaving hcompletes
      rw [progress?, h.progress?_report hleaving hcompletes] at hprogress
      split at hprogress
      · obtain rfl := Option.some.inj hprogress
        exact Or.inr (.released now step.id)
      · split at hprogress
        · cases hprogress
        · exact Or.inl hprogress
  | interrupt => exact Or.inl (h.progress?_of_drop hprogress).2
  | interruptDriver => exact Or.inl (h.progress?_of_drop hprogress).2
  | breakOff => exact Or.inl (h.progress?_of_drop hprogress).2
  | stop => exact Or.inl (h.progress?_of_drop hprogress).2
  | stopDriver => exact Or.inl (h.progress?_of_drop hprogress).2
  | store => exact Or.inl hprogress
  | refuse => exact Or.inl hprogress
  | cancel => exact Or.inl hprogress
  | beginLate => exact Or.inl hprogress
  | conclude => exact Or.inl hprogress
  | close => exact Or.inl hprogress
  | closeFailing => exact Or.inl hprogress
  | leave => exact Or.inl hprogress
  | subscribe => exact Or.inl hprogress
  | read => exact Or.inl hprogress

/-! ### Every play -/

theorem play_append (moves moves' : List Move) :
    c.play (moves ++ moves') = (c.play moves).bind fun next => next.play moves' := by
  induction moves generalizing c with
  | nil => rfl
  | cons move moves ih =>
      rw [List.cons_append, play, play, Option.bind_assoc]
      exact congrArg _ (funext fun next => ih)

theorem exists_of_play_append {moves moves' : List Move}
    (hplay : c.play (moves ++ moves') = some c') :
    ∃ middle, c.play moves = some middle ∧ middle.play moves' = some c' := by
  rw [play_append] at hplay
  exact Option.bind_eq_some_iff.mp hplay

/-- What holds of a sound course and the moves so far, and is kept by every move, holds after every
play. -/
theorem Sound.play_induction {P : List Move → Course → Prop} (h : c.Sound) (hstart : P [] c)
    (hmove : ∀ moves before move after, c.play moves = some before → before.Sound →
      P moves before → before.Takes move after → P (moves ++ [move]) after)
    {moves : List Move} (hplay : c.play moves = some c') : c'.Sound ∧ P moves c' := by
  induction moves using List.reverseRecOn generalizing c' with
  | nil =>
      obtain rfl := Option.some.inj hplay
      exact ⟨h, hstart⟩
  | append_singleton moves move ih =>
      rw [play_append, Option.bind_eq_some_iff] at hplay
      obtain ⟨before, hbefore, hplay⟩ := hplay
      obtain ⟨after, hstep, hafter⟩ := Option.bind_eq_some_iff.mp hplay
      obtain rfl := Option.some.inj hafter
      obtain ⟨hsound, hprop⟩ := ih hbefore
      have htakes := hsound.takes hstep
      exact ⟨hsound.of_takes htakes, hmove moves before move after hbefore hsound hprop htakes⟩

theorem Sound.play (h : c.Sound) {moves : List Move} (hplay : c.play moves = some c') :
    c'.Sound ∧ c.run.Advances c'.run :=
  h.play_induction (P := fun _ after => c.run.Advances after.run) (.refl _)
    (fun _ _ _ _ _ hsound hsofar htakes => hsofar.trans (hsound.advances htakes)) hplay

end Course

end Workflow
