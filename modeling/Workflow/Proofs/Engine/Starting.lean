import Workflow.Proofs.Engine.Rehearsal
import Workflow.Proofs.Engine.Roster

/-!
# Starts that fail

A start has two halves: the run becomes known, and then the repository is asked to store it. While
the repository is at work anything else may happen, and it may refuse the run. A run gets its driver
only when it has been stored, and it is not forgotten when it has been refused. So the runs that
cannot be waited for are those of which the repository has not yet said yes.
-/

namespace Workflow

namespace Engine

variable {e e' : Engine} {order : Order} {runId : String}

/-! ### The halves of a start -/

/-- The first half of a start. The run is known, and the repository has not been asked. -/
def submit (e : Engine) (order : Order) : Except Failure String × Engine :=
  match order.blueprint.build with
  | .error failure => (.error failure, e)
  | .ok graph =>
    match register { e with runCount := e.runCount + 1 } (idOf (e.runCount + 1)) graph order with
    | .error failure => (.error failure, { e with runCount := e.runCount + 1 })
    | .ok e' => (.ok (idOf (e.runCount + 1)), e')

/-- A start is one half after the other. -/
theorem start_eq (e : Engine) (order : Order) :
    e.start order =
      match e.submit order with
      | (.error failure, e') => (.error failure, e')
      | (.ok runId, e') => ((e'.launch runId).1.map fun _ => runId, (e'.launch runId).2) := by
  unfold start submit
  cases order.blueprint.build with
  | error failure => rfl
  | ok graph =>
      rw [show "run-" ++ toString (e.runCount + 1) = idOf (e.runCount + 1) from rfl]
      dsimp only
      cases register { e with runCount := e.runCount + 1 } (idOf (e.runCount + 1)) graph order <;>
        rfl

/-- The repository does not take the run that a start has made known. -/
def Refuses (e : Engine) (order : Order) : Prop :=
  ∃ runId e' failure, e.submit order = (.ok runId, e') ∧ (e'.launch runId).1 = .error failure

/-- If a start fails, no run and no driver is there that was not there before. -/
def LeavesNoTrace (e : Engine) (order : Order) : Prop :=
  ∀ failure, (e.start order).1 = .error failure →
    (e.start order).2.listRuns = e.listRuns ∧ (e.start order).2.drivers = e.drivers

/-- A run has a driver, and all that can be asked about it is answered. Whoever waits for it gets to
know that it has ended, that it is late, or what its driver has failed with. -/
structure Serves (e : Engine) (runId : String) : Prop where
  driver : e.IsDriven runId
  status : ∃ run, e.run? runId = .ok run
  wait : ∀ timeout, (e.wait runId timeout).1 = .ok () ∨
    (e.wait runId timeout).1 = .error .timedOut ∨
    ∃ failure, (e.wait runId timeout).1 = .error failure ∧
      Table.find? (e.wait runId timeout).2.drivers runId = some (.done (some failure))
  cancel : ∀ reason, ∃ done, (e.cancel runId reason).1 = .ok done
  follow : ∃ e', e.follow runId = .ok e'

theorem exists_run?_of_mem (h : runId ∈ e.listRuns) : ∃ run, e.run? runId = .ok run := by
  obtain ⟨run, hrun⟩ := Option.isSome_iff_exists.mp (Table.find?_isSome_iff.mpr h)
  exact ⟨run, run?_eq_ok_iff.mpr hrun⟩

/-- Whoever waits for a run with a driver is told how the driver has ended, or that he is late. -/
theorem wait_answers (hlisted : runId ∈ e.listRuns) (hdriven : e.IsDriven runId)
    (timeout : Option Float) :
    (e.wait runId timeout).1 = .error .timedOut ∨
      (e.wait runId timeout).1 = .ok () ∧
        Table.find? (e.wait runId timeout).2.drivers runId = some (.done none) ∨
      ∃ failure, (e.wait runId timeout).1 = .error failure ∧
        Table.find? (e.wait runId timeout).2.drivers runId = some (.done (some failure)) := by
  obtain ⟨run, hrun⟩ := exists_run?_of_mem hlisted
  obtain ⟨state, hstate⟩ := Option.isSome_iff_exists.mp (Table.find?_isSome_iff.mpr hdriven)
  unfold Engine.wait
  rw [hrun, hstate]
  split
  · rename_i hfailed
    cases hfailed
  · rename_i hnone
    cases hnone
  · rename_i hdone
    exact .inr (.inl ⟨rfl, hstate.trans hdone⟩)
  · rename_i failure _ hdone
    exact .inr (.inr ⟨failure, rfl, hstate.trans hdone⟩)
  · dsimp only
    split
    · exact .inl rfl
    · split
      · exact .inr (.inl ⟨rfl, ‹_›⟩)
      · rename_i failure hdone
        exact .inr (.inr ⟨failure, rfl, hdone⟩)
      · exact .inl rfl

/-- Who has a driver is served. -/
theorem serves_of_isDriven (hlisted : runId ∈ e.listRuns) (hdriven : e.IsDriven runId) :
    e.Serves runId := by
  obtain ⟨run, hrun⟩ := exists_run?_of_mem hlisted
  refine ⟨hdriven, ⟨run, hrun⟩, fun timeout => ?_, fun reason => ?_, ?_⟩
  · rcases wait_answers hlisted hdriven timeout with hlate | ⟨hok, -⟩ | hfailed
    · exact .inr (.inl hlate)
    · exact .inl hok
    · exact .inr (.inr hfailed)
  · unfold Engine.cancel
    rw [hrun]
    exact ⟨_, rfl⟩
  · unfold Engine.follow
    rw [hrun]
    exact ⟨_, rfl⟩

theorem wait_of_not_isDriven (hlisted : runId ∈ e.listRuns) (hdriven : ¬ e.IsDriven runId)
    (timeout : Option Float) : e.wait runId timeout = (.error (.notFound runId), e) := by
  obtain ⟨run, hrun⟩ := exists_run?_of_mem hlisted
  have hnone : Table.find? e.drivers runId = none := Table.find?_eq_none_iff.mpr hdriven
  unfold Engine.wait
  rw [hrun, hnone]

/-! ### What either half does to the roster -/

theorem submit_error {failure : Failure} (h : e.submit order = (.error failure, e')) :
    e'.listRuns = e.listRuns ∧ e'.drivers = e.drivers ∧ e.runCount ≤ e'.runCount ∧
      (e.IsOrderly → e'.IsOrderly) := by
  unfold submit at h
  split at h
  · cases h
    exact ⟨rfl, rfl, le_rfl, id⟩
  · split at h <;> cases h
    exact ⟨rfl, rfl, Nat.le_succ _, fun horderly => ⟨horderly.ids, horderly.tasks⟩⟩

/-- What becomes known is new, and no driver wakes. -/
theorem submit_ok (horderly : e.IsOrderly)
    (hfresh : idOf (e.runCount + 1) ∉ e.listRuns) (h : e.submit order = (.ok runId, e')) :
    runId = idOf (e.runCount + 1) ∧ e'.runCount = e.runCount + 1 ∧
      e'.listRuns = e.listRuns ++ [runId] ∧ e'.drivers = e.drivers ∧ e'.IsOrderly := by
  unfold submit at h
  split at h
  · cases h
  · rename_i graph _
    split at h
    · cases h
    · rename_i e₁ hregister
      cases h
      obtain ⟨payload, mode, rfl⟩ := register_eq_ok hregister
      generalize hnew : idOf (e.runCount + 1) = runId at hfresh ⊢
      rw [setRun_of_not_wakes fun hwakes => absurd hwakes.1 (by simp [Run.create])]
      refine ⟨rfl, rfl, ?_, rfl, fun other run hfind => ?_, horderly.tasks⟩
      · exact congrArg Table.keys (Table.insert_of_notMem _ hfresh) |>.trans List.map_append
      · rw [Table.find?_insert] at hfind
        split at hfind
        · cases hfind
          rename_i heq
          exact heq.symm
        · exact horderly.ids other run hfind

theorem launch_error {failure : Failure} (h : e.launch runId = (.error failure, e')) : e' = e := by
  unfold launch at h
  split at h
  · cases h
    rfl
  · split at h <;> cases h
    rfl

theorem launch_ok (horderly : e.IsOrderly) (h : e.launch runId = (.ok (), e')) :
    e'.runCount = e.runCount ∧ e'.listRuns = e.listRuns ∧
      (∀ other, e'.IsDriven other ↔ other = runId ∨ e.IsDriven other) ∧ e'.IsOrderly := by
  unfold launch at h
  split at h
  · cases h
  · split at h <;> cases h
    rename_i repository _
    have hwritten := horderly.setRepository repository
    have hstored := hwritten.trans
      (hwritten.orderly.change runId (f := Run.stored) fun _ => rfl)
    generalize change { e with repository } runId Run.stored = stored at hstored ⊢
    have hbegun := (hstored.orderly.engage runId .waiting).schedule stored.stage.now
      (.begin runId) fun _ => isDriven_setDriver.mpr (.inl rfl)
    refine ⟨hbegun.runCount.trans hstored.runCount, hbegun.listed.trans hstored.listed,
      fun other => ?_, hbegun.orderly⟩
    rw [hbegun.isDriven_iff, isDriven_setDriver, hstored.isDriven_iff]

end Engine

/-! ### Starts among everything else -/

/-- What the repository has said of a run. -/
inductive Reception where
  | awaited
  | taken
  | refused
  deriving DecidableEq

/-- An engine, and what the repository has said of each of its runs. -/
structure Desk where
  engine : Engine
  receptions : Table String Reception := []

/-- What can happen: one half of a start, or anything that is not a start. -/
inductive Happening where
  | submit (order : Engine.Order)
  | launch (runId : String)
  | deed (deed : Deed)

def Deed.isStart : Deed → Bool
  | .start _ | .execute .. => true
  | _ => false

namespace Desk

/-- Only what has been submitted and not been answered yet can be launched. -/
def step (d : Desk) : Happening → Option Desk
  | .submit order =>
    match d.engine.submit order with
    | (.error _, engine) => some { d with engine }
    | (.ok runId, engine) => some ⟨engine, Table.insert d.receptions runId .awaited⟩
  | .launch runId =>
    if Table.find? d.receptions runId = some .awaited then
      match d.engine.launch runId with
      | (.error _, engine) => some ⟨engine, Table.insert d.receptions runId .refused⟩
      | (.ok (), engine) => some ⟨engine, Table.insert d.receptions runId .taken⟩
    else none
  | .deed deed => if deed.isStart then none else some { d with engine := (d.engine.act deed).2 }

def play (d : Desk) : List Happening → Option Desk
  | [] => some d
  | happening :: happenings => (d.step happening).bind fun d => d.play happenings

/-- The runs that are listed are those that were submitted, and those that were taken have
drivers. -/
structure IsSound (d : Desk) : Prop where
  orderly : d.engine.IsOrderly
  listed : d.engine.listRuns = Table.keys d.receptions
  driven : ∀ runId, d.engine.IsDriven runId ↔ Table.find? d.receptions runId = some .taken
  fresh : ∀ number, d.engine.runCount < number → Engine.idOf number ∉ d.engine.listRuns

variable {d d' : Desk}

theorem IsSound.of_keeps (h : d.IsSound) {engine : Engine} (hkeeps : d.engine.KeepsRoster engine) :
    IsSound { d with engine } where
  orderly := hkeeps.orderly
  listed := hkeeps.listed.trans h.listed
  driven runId := hkeeps.isDriven_iff.trans (h.driven runId)
  fresh number hnumber := by
    rw [hkeeps.listed]
    exact h.fresh number (hkeeps.runCount ▸ hnumber)

end Desk

/-- Nothing but a start changes the roster. -/
theorem Engine.IsOrderly.act {e : Engine} (h : e.IsOrderly) {deed : Deed}
    (hdeed : deed.isStart = false) : e.KeepsRoster (e.act deed).2 := by
  cases deed with
  | start | execute => cases hdeed
  | wait runId timeout => exact h.wait runId timeout
  | sleep seconds => exact h.sleep seconds
  | drain => exact h.drain
  | cancel runId reason => exact h.cancel runId reason
  | stopDriver runId => exact h.stopDriver runId
  | stopStep runId stepId => exact h.stopStep runId stepId
  | follow runId =>
      unfold Engine.act
      dsimp only
      split
      · exact h.refl
      · rename_i next hfollow
        exact h.follow hfollow
  | pick index time => exact h.pick index time

namespace Desk

variable {d d' : Desk}

section Step

variable {engine : Engine} {runId : String} {failure : Failure}

theorem IsSound.rejected (h : d.IsSound) {order : Engine.Order}
    (hsubmit : d.engine.submit order = (.error failure, engine)) :
    IsSound { d with engine } := by
  obtain ⟨hlisted, hdrivers, hcount, horderly⟩ := Engine.submit_error hsubmit
  refine ⟨horderly h.orderly, hlisted.trans h.listed, fun runId => ?_, fun number hnumber => ?_⟩
  · rw [Engine.IsDriven, hdrivers]
    exact h.driven runId
  · rw [hlisted]
    exact h.fresh number (hcount.trans_lt hnumber)

theorem IsSound.submitted (h : d.IsSound) {order : Engine.Order}
    (hsubmit : d.engine.submit order = (.ok runId, engine)) :
    IsSound ⟨engine, Table.insert d.receptions runId .awaited⟩ := by
  have hfresh := h.fresh _ (Nat.lt_succ_self _)
  obtain ⟨rfl, hcount, hlisted, hdrivers, horderly⟩ := Engine.submit_ok h.orderly hfresh hsubmit
  rw [h.listed] at hfresh
  refine ⟨horderly, ?_, fun other => ?_, fun number hnumber => ?_⟩
  · rw [hlisted, h.listed, Table.insert_of_notMem _ hfresh]
    simp [Table.keys]
  · rw [Engine.IsDriven, hdrivers, Table.find?_insert]
    refine (h.driven other).trans ?_
    split
    · rename_i heq
      rw [heq, Table.find?_eq_none_iff.mpr hfresh]
      simp
    · rfl
  · rw [hlisted, List.mem_append, List.mem_singleton, not_or]
    rw [hcount] at hnumber
    refine ⟨h.fresh number (Nat.lt_of_succ_lt hnumber), fun heq => ?_⟩
    exact absurd (Engine.idOf_injective heq) hnumber.ne'

section Launch

variable (h : d.IsSound) (hawaited : Table.find? d.receptions runId = some .awaited)

include h hawaited

theorem IsSound.keys_answered (reception : Reception) :
    Table.keys (Table.insert d.receptions runId reception) = d.engine.listRuns := by
  rw [h.listed, Table.keys_insert_of_mem]
  exact Table.find?_isSome_iff.mp (by rw [hawaited, Option.isSome_some])

theorem IsSound.refused (hlaunch : d.engine.launch runId = (.error failure, engine)) :
    IsSound ⟨engine, Table.insert d.receptions runId .refused⟩ := by
  obtain rfl := Engine.launch_error hlaunch
  refine ⟨h.orderly, (h.keys_answered hawaited .refused).symm, fun other => ?_, h.fresh⟩
  rw [Table.find?_insert]
  refine (h.driven other).trans ?_
  split
  · rename_i heq
    rw [heq, hawaited]
    simp
  · rfl

theorem IsSound.taken (hlaunch : d.engine.launch runId = (.ok (), engine)) :
    IsSound ⟨engine, Table.insert d.receptions runId .taken⟩ := by
  obtain ⟨hcount, hlisted, hdriven, horderly⟩ := Engine.launch_ok h.orderly hlaunch
  refine ⟨horderly, hlisted.trans (h.keys_answered hawaited .taken).symm, fun other => ?_,
    fun number hnumber => ?_⟩
  · rw [hdriven, h.driven, Table.find?_insert]
    split
    · rename_i heq
      simp [heq]
    · rename_i hne
      simp [hne]
  · rw [hlisted]
    exact h.fresh number (hcount ▸ hnumber)

end Launch

end Step

theorem IsSound.step (h : d.IsSound) {happening : Happening} (hstep : d.step happening = some d') :
    d'.IsSound := by
  cases happening with
  | submit order =>
      unfold Desk.step at hstep
      dsimp only at hstep
      split at hstep
      · rename_i hsubmit
        cases hstep
        exact h.rejected hsubmit
      · rename_i hsubmit
        cases hstep
        exact h.submitted hsubmit
  | launch runId =>
      unfold Desk.step at hstep
      dsimp only at hstep
      split at hstep
      · rename_i hawaited
        split at hstep
        · rename_i hlaunch
          cases hstep
          exact h.refused hawaited hlaunch
        · rename_i hlaunch
          cases hstep
          exact h.taken hawaited hlaunch
      · cases hstep
  | deed deed =>
      unfold Desk.step at hstep
      dsimp only at hstep
      split at hstep
      · cases hstep
      · rename_i hdeed
        cases hstep
        exact h.of_keeps (h.orderly.act (Bool.eq_false_of_not_eq_true hdeed))

theorem IsSound.play (h : d.IsSound) {happenings : List Happening}
    (hplay : d.play happenings = some d') : d'.IsSound := by
  induction happenings generalizing d with
  | nil =>
      cases hplay
      exact h
  | cons happening happenings ih =>
      obtain ⟨next, hstep, hrest⟩ := Option.bind_eq_some_iff.mp hplay
      exact ih (h.step hstep) hrest

theorem isSound_of_isNew {e : Engine} (hnew : e.IsNew) : IsSound { engine := e } := by
  refine ⟨⟨fun runId run hfind => ?_, fun entry hmem => ?_⟩, ?_, fun runId => ?_,
    fun number _ => ?_⟩
  · rw [hnew.runs] at hfind
    cases hfind
  · rw [hnew.agenda] at hmem
    cases hmem
  · rw [Engine.listRuns, hnew.runs]
    rfl
  · simp [Engine.IsDriven, hnew.drivers, Table.keys, Table.find?]
  · simp [Engine.listRuns, hnew.runs, Table.keys]

end Desk

namespace Engine

variable {e : Engine}

theorem leavesNoTrace_iff {d : Desk} (h : d.IsSound) (order : Order) :
    d.engine.LeavesNoTrace order ↔ ¬ d.engine.Refuses order := by
  unfold LeavesNoTrace Refuses
  rw [start_eq]
  obtain ⟨result, e', hsubmit⟩ : ∃ result e', d.engine.submit order = (result, e') := ⟨_, _, rfl⟩
  cases result with
  | error failure =>
      obtain ⟨hlisted, hdrivers, -⟩ := submit_error hsubmit
      simp [hsubmit, hlisted, hdrivers]
  | ok runId =>
      -- The run is on the list by now; only the repository can still refuse it.
      have hfresh := h.fresh _ (Nat.lt_succ_self d.engine.runCount)
      obtain ⟨-, -, hlisted, -⟩ := submit_ok h.orderly hfresh hsubmit
      obtain ⟨answer, e'', hlaunch⟩ : ∃ answer e'', e'.launch runId = (answer, e'') := ⟨_, _, rfl⟩
      cases answer with
      | ok _ => simp [hsubmit, hlaunch, Except.map]
      | error failure =>
          obtain rfl := launch_error hlaunch
          simp [hsubmit, hlaunch, hlisted, Except.map]

/-- Whatever has been done with an engine, and wherever its repository is with the runs that it has
been told of: a start that fails leaves no trace unless it is the repository that refuses the run,
and the runs that are served are those that the repository has taken. All other runs on the list can
only be waited for in vain. -/
theorem start_is_all_or_nothing_unless_refused (hnew : e.IsNew) {happenings : List Happening}
    {d : Desk} (hplay : Desk.play { engine := e } happenings = some d) :
    (∀ order, d.engine.LeavesNoTrace order ↔ ¬ d.engine.Refuses order) ∧
      ∀ runId ∈ d.engine.listRuns,
        (d.engine.Serves runId ↔ Table.find? d.receptions runId = some .taken) ∧
          (Table.find? d.receptions runId ≠ some .taken →
            ∀ timeout, (d.engine.wait runId timeout).1 = .error (.notFound runId)) := by
  have hsound := (Desk.isSound_of_isNew hnew).play hplay
  refine ⟨leavesNoTrace_iff hsound, fun runId hlisted => ⟨⟨fun hserves => ?_, fun htaken => ?_⟩,
    fun hnot timeout => ?_⟩⟩
  · exact (hsound.driven runId).mp hserves.driver
  · exact serves_of_isDriven hlisted ((hsound.driven runId).mpr htaken)
  · rw [wait_of_not_isDriven hlisted (fun hdriven => hnot ((hsound.driven runId).mp hdriven))]

/-- A run of a trigger and nothing else. -/
def solitary : Order where
  blueprint := .data (.record
    [("steps", .list [.record [("id", .str "start"), ("kind", .str "trigger")]])])

/-- The repository has taken one run, and has not answered yet about another. -/
theorem awaited_run_is_not_served : ∃ d,
    Desk.play { engine := {} } [.submit solitary, .launch "run-1", .submit solitary] = some d ∧
      d.engine.listRuns = ["run-1", "run-2"] ∧ d.engine.Serves "run-1" ∧
      ¬ d.engine.Serves "run-2" ∧
      ∀ timeout, (d.engine.wait "run-2" timeout).1 = .error (.notFound "run-2") := by
  have hseen : (Desk.play { engine := {} }
      [.submit solitary, .launch "run-1", .submit solitary]).map (fun d =>
        (d.engine.listRuns, d.receptions)) =
      some (["run-1", "run-2"], [("run-1", .taken), ("run-2", .awaited)]) := by decide +kernel
  obtain ⟨d, hplay, hd⟩ := Option.map_eq_some_iff.mp hseen
  obtain ⟨hlisted, hreceptions⟩ := Prod.mk.inj hd
  obtain ⟨-, hall⟩ := start_is_all_or_nothing_unless_refused ⟨rfl, rfl, rfl⟩ hplay
  obtain ⟨htaken, -⟩ := hall "run-1" (by simp [hlisted])
  obtain ⟨hawaited, hwait⟩ := hall "run-2" (by simp [hlisted])
  rw [hreceptions] at htaken hawaited hwait
  exact ⟨d, hplay, hlisted, htaken.mpr rfl, fun hserves => absurd (hawaited.mp hserves) (by decide),
    hwait (by decide)⟩

/-- An engine whose repository cannot create runs. -/
def unwritable : Engine where
  outOfOrder := ["create_run"]

/-- A start that fails leaves a run behind, which has no driver and cannot be waited for. -/
theorem refused_run_stays_listed :
    (unwritable.start solitary).1 = .error (.wrongState "create_run unavailable") ∧
      unwritable.listRuns = [] ∧ (unwritable.start solitary).2.listRuns = ["run-1"] ∧
      (unwritable.start solitary).2.drivers = [] ∧
      ((unwritable.start solitary).2.wait "run-1").1 = .error (.notFound "run-1") ∧
      ¬ unwritable.LeavesNoTrace solitary := by
  have hfails : (unwritable.start solitary).1 = .error (.wrongState "create_run unavailable") := by
    decide +kernel
  have hlisted : (unwritable.start solitary).2.listRuns = ["run-1"] := by decide +kernel
  refine ⟨hfails, rfl, hlisted, by decide +kernel, by decide +kernel, fun hnone => ?_⟩
  have hsame := (hnone _ hfails).1
  rw [hlisted] at hsame
  cases hsame

end Engine

end Workflow
