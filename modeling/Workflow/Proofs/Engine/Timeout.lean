import Workflow.Proofs.Engine.Clock
import Workflow.Proofs.Retry.Schedule

/-!
# Giving up the wait for a run

Whoever executes an order may give up the wait for its run at some time. So the wait is over when
the run is through or when that time has come, whichever is earlier. Nobody stops the run, though:
when the engine is drained after the wait, all that is left is still performed, and in the end the
same has been done as without a timeout.
-/

namespace Workflow

namespace Engine

variable {e e' next : Engine} {stop : Engine → Bool} {until? : Option Float} {deadline : Float}
  {fuel : Nat} {runId : String}

/-! ### One turn after the other -/

/-- The tasks that are performed by `work`, with the times at which they are due. -/
def performed (stop : Engine → Bool) (until? : Option Float) : Nat → Engine → List (Float × Task)
  | 0, _ => []
  | fuel + 1, e =>
    if stop e then []
    else match e.advance? until? with
      | some next => e.agenda.take 1 ++ performed stop until? fuel next
      | none => []

theorem advance?_of_nil (hagenda : e.agenda = []) (until? : Option Float) :
    e.advance? until? = none := by
  rw [advance?, hagenda]

theorem advance?_of_due (h : e.advance? none = some next)
    (hdue : ∀ entry ∈ e.agenda.take 1, entry.1 ≤ deadline) :
    e.advance? (some deadline) = some next := by
  obtain ⟨entry, agenda, hagenda, -, rfl, -⟩ := exists_turn h
  rw [hagenda] at hdue
  have hfirst : entry.1 ≤ deadline := hdue entry (List.mem_singleton_self entry)
  rw [advance?, hagenda]
  exact if_pos (decide_eq_true hfirst)

theorem exists_advance? (hagenda : e.agenda ≠ []) : ∃ next, e.advance? none = some next := by
  obtain ⟨entry, agenda, hagenda⟩ := List.exists_cons_of_ne_nil hagenda
  rw [advance?, hagenda]
  exact ⟨_, rfl⟩

/-! ### Deadlines -/

theorem le_of_mem_performed {entry : Float × Task}
    (h : entry ∈ performed stop (some deadline) fuel e) : entry.1 ≤ deadline := by
  induction fuel generalizing e with
  | zero => cases h
  | succ fuel ih =>
      rw [performed] at h
      split at h
      · cases h
      · split at h
        · rename_i next hadvance
          obtain ⟨first, agenda, hagenda, hdue, -, -⟩ := exists_turn hadvance
          rw [hagenda] at h
          rcases List.mem_append.mp h with hmem | hmem
          · obtain rfl := List.mem_singleton.mp hmem
            exact of_decide_eq_true hdue
          · exact ih hmem
        · cases h

/-- A deadline that comes after everything changes nothing. -/
theorem work_of_due (hdue : ∀ entry ∈ performed stop none fuel e, entry.1 ≤ deadline) :
    work stop (some deadline) fuel e = work stop none fuel e := by
  induction fuel generalizing e with
  | zero => rfl
  | succ fuel ih =>
      rw [performed] at hdue
      rw [work, work]
      split
      · rfl
      · rename_i hopen
        rw [if_neg hopen] at hdue
        cases hadvance : e.advance? none with
        | none =>
            have hnone : e.advance? (some deadline) = none := by
              by_contra hsome
              obtain ⟨next, hnext⟩ := Option.ne_none_iff_exists'.mp hsome
              obtain ⟨_, _, _, _, _, hturn⟩ := exists_turn hnext
              cases hadvance.symm.trans hturn
            rw [hnone]
        | some next =>
            rw [hadvance] at hdue
            rw [advance?_of_due hadvance fun entry hmem =>
              hdue entry (List.mem_append_left _ hmem)]
            exact ih fun entry hmem => hdue entry (List.mem_append_right _ hmem)

/-- A deadline that comes before something leaves that for later. -/
theorem not_stop_of_not_due
    (hlate : ¬ ∀ entry ∈ performed stop none fuel e, entry.1 ≤ deadline) :
    stop (work stop (some deadline) fuel e) = false := by
  induction fuel generalizing e with
  | zero => exact absurd (List.forall_mem_nil _) hlate
  | succ fuel ih =>
      rw [performed] at hlate
      rw [work]
      split
      · rename_i hstop
        rw [if_pos hstop] at hlate
        exact absurd (List.forall_mem_nil _) hlate
      · rename_i hopen
        rw [if_neg hopen] at hlate
        cases hadvance : e.advance? (some deadline) with
        | none => exact Bool.eq_false_of_not_eq_true hopen
        | some next =>
            obtain ⟨first, agenda, hagenda, hdue, -, hturn⟩ := exists_turn hadvance
            refine ih fun hrest => hlate ?_
            rw [hturn, hagenda]
            intro entry hmem
            rcases List.mem_append.mp hmem with hfirst | hmem
            · obtain rfl := List.mem_singleton.mp hfirst
              exact of_decide_eq_true hdue
            · exact hrest entry hmem

/-! ### Calls -/

/-- Whatever is called is called at the time of a task that is performed. -/
theorem callsWithin_work (stop : Engine → Bool) (until? : Option Float) (fuel : Nat) (e : Engine) :
    e.stage.CallsWithin (fun time => ∃ entry ∈ performed stop until? fuel e, entry.1 = time)
      (work stop until? fuel e).stage := by
  induction fuel generalizing e with
  | zero => exact .refl _
  | succ fuel ih =>
      rw [work, performed]
      split
      · exact .refl _
      · cases hadvance : e.advance? until? with
        | none => exact .refl _
        | some next =>
            obtain ⟨entry, agenda, hagenda, -, hnext, -⟩ := exists_turn hadvance
            have hturn := takesTurn_perform
              { e with agenda, stage := { e.stage with now := entry.1 } } entry.2
            rw [← hnext] at hturn
            have hcalls : e.stage.CallsWithin (· = entry.1) next.stage :=
              ⟨hturn.stage.calls.external, hturn.stage.calls.models⟩
            rw [hagenda]
            refine (hcalls.mono ?_).trans ((ih next).mono ?_)
            · rintro _ rfl
              exact ⟨entry, List.mem_cons_self, rfl⟩
            · rintro time ⟨other, hmem, htime⟩
              exact ⟨other, List.mem_cons_of_mem entry hmem, htime⟩

theorem followers_work (stop : Engine → Bool) (until? : Option Float) (fuel : Nat) (e : Engine) :
    (work stop until? fuel e).followers = e.followers := by
  refine work_of_turns (P := fun e' => e'.followers = e.followers) stop until? fuel rfl
    fun e' next hfollowers hadvance => ?_
  obtain ⟨entry, agenda, -, -, rfl, -⟩ := exists_turn hadvance
  exact (takesTurn_perform _ entry.2).followers.trans hfollowers

theorem stage_informFollowers (e : Engine) : e.informFollowers.stage = e.stage :=
  informFollowers_of_reads (P := fun e' => e'.stage = e.stage) rfl fun _ _ hstage => hstage

theorem drivers_informFollowers (e : Engine) : e.informFollowers.drivers = e.drivers :=
  informFollowers_of_reads (P := fun e' => e'.drivers = e.drivers) rfl fun _ _ hdrivers => hdrivers

theorem informFollowers_of_nil (h : e.followers = []) : e.informFollowers = e := by
  rw [informFollowers, h]
  rfl

/-! ### Waiting -/

/-- A run that is known and whose driver has not begun it yet. -/
structure Awaits (e : Engine) (runId : String) : Prop where
  run : ∃ run, Table.find? e.runs runId = some run
  driver : Table.find? e.drivers runId = some .waiting

theorem find?_setRun (e : Engine) (run : Run) :
    Table.find? (e.setRun run).runs run.id = some run := by
  have hput : Table.find? (Table.insert e.runs run.id run) run.id = some run :=
    (Table.find?_insert _ _ _ _).trans (if_pos rfl)
  by_cases hwakes : e.Wakes run
  · rw [setRun_of_wakes hwakes]
    exact hput
  · rw [setRun_of_not_wakes hwakes]
    exact hput

theorem awaits_of_launch {run : Run} (hrun : Table.find? e.runs runId = some run)
    (hid : run.id = runId) (h : e.launch runId = (.ok (), e')) : e'.Awaits runId := by
  unfold launch at h
  rw [hrun] at h
  dsimp only at h
  split at h <;> cases h
  rename_i repository _
  have hchanged : change { e with repository } runId Run.stored =
      setRun { e with repository } run.stored := by
    rw [change, hrun]
  rw [hchanged]
  have hfound := find?_setRun { e with repository } run.stored
  rw [show run.stored.id = runId from hid] at hfound
  exact ⟨⟨_, hfound⟩, (Table.find?_insert _ _ _ _).trans (if_pos rfl)⟩

theorem awaits_of_start {order : Order} (h : e.start order = (.ok runId, e')) :
    e'.Awaits runId := by
  unfold start at h
  split at h
  · cases h
  · rename_i graph _
    dsimp only at h
    split at h
    · cases h
    · rename_i registered hregister
      obtain ⟨payload, mode, rfl⟩ := register_eq_ok hregister
      rcases hlaunch : launch _ _ with ⟨_ | _, launched⟩
      · rw [hlaunch] at h
        cases h
      · rw [hlaunch] at h
        cases h
        exact awaits_of_launch (find?_setRun _ (Run.create _ graph payload mode e.observers)) rfl
          hlaunch

/-- Whoever waits for a run goes on as soon as its driver is through, unless the time is up before
that. -/
theorem Awaits.wait (h : e.Awaits runId) (timeout : Option Float) :
    (e.wait runId timeout).2 =
      let deadline := timeout.map e.stage.timeAfter
      let worked := work (driverIsDone runId) deadline patience e
      if timeout.any (· ≤ 0.0) = false ∧ driverIsDone runId worked = true then
        worked.informFollowers
      else worked.informFollowers.setClock (deadline.getD worked.stage.now) := by
  obtain ⟨run, hrun⟩ := h.run
  have hknown : e.run? runId = .ok run := by rw [run?, hrun]
  rw [Engine.wait, hknown, h.driver]
  dsimp only
  rw [show (fun seconds => (e.stage.advance seconds).now) = e.stage.timeAfter from rfl]
  generalize timeout.map e.stage.timeAfter = deadline
  generalize work _ deadline _ e = worked
  rw [stage_informFollowers, drivers_informFollowers]
  cases timeout.any (· ≤ 0.0) with
  | true => rfl
  | false =>
      unfold driverIsDone
      generalize Table.find? worked.drivers runId = state
      rcases state with _ | (_ | _ | _ | _ | _) <;> rfl

/-- The earlier of two times: when the driver of a run is through, if all that leads there is due by
the deadline, and the deadline. Whoever has no time to wait has no eye for the driver. -/
def earlierEnd (e : Engine) (runId : String) (seconds : Float) : Float :=
  let deadline := e.stage.timeAfter seconds
  let ended := work (driverIsDone runId) none patience e
  if ¬ seconds ≤ 0.0 ∧ driverIsDone runId ended = true ∧
      ∀ entry ∈ performed (driverIsDone runId) none patience e, entry.1 ≤ deadline then
    ended.stage.now
  else deadline

@[simp]
theorem now_setClock (e : Engine) (time : Float) : (e.setClock time).stage.now = time := rfl

theorem Awaits.now_wait (h : e.Awaits runId) (seconds : Float) :
    (e.wait runId (some seconds)).2.stage.now = e.earlierEnd runId seconds := by
  have hwait : (e.wait runId (some seconds)).2 =
      let worked := work (driverIsDone runId) (some (e.stage.timeAfter seconds)) patience e
      if decide (seconds ≤ 0.0) = false ∧ driverIsDone runId worked = true then
        worked.informFollowers
      else worked.informFollowers.setClock (e.stage.timeAfter seconds) := h.wait (some seconds)
  rw [hwait, earlierEnd]
  dsimp only
  by_cases hdue : ∀ entry ∈ performed (driverIsDone runId) none patience e,
      entry.1 ≤ e.stage.timeAfter seconds
  · rw [work_of_due hdue]
    by_cases htime : seconds ≤ 0.0
    · rw [if_neg (by simp [htime]), if_neg (by simp [htime]), now_setClock]
    · by_cases hdone : driverIsDone runId (work (driverIsDone runId) none patience e) = true
      · rw [if_pos ⟨decide_eq_false htime, hdone⟩, if_pos ⟨htime, hdone, hdue⟩,
          stage_informFollowers]
      · rw [if_neg fun hall => hdone hall.2, if_neg fun hall => hdone hall.2.1, now_setClock]
  · have hopen := not_stop_of_not_due hdue
    rw [if_neg (by simp [hopen]), if_neg fun hall => hdue hall.2.2, now_setClock]

/-! ### Commands -/

/-- What a command makes of an engine: it executes an order, and then waits until nothing is left to
do. -/
def command (e : Engine) (order : Order) (timeout : Option Float) : Engine :=
  (e.execute order timeout).2.drain

/-- The tasks that are performed while a command waits for its run. -/
def waitTasks (e : Engine) (order : Order) (timeout : Option Float) : List (Float × Task) :=
  match e.start order with
  | (.error _, _) => []
  | (.ok runId, started) =>
    performed (driverIsDone runId) (timeout.map e.stage.timeAfter) patience started

/-- The tasks that are left when the wait is over. -/
def leftTasks (e : Engine) (order : Order) (timeout : Option Float) : List (Float × Task) :=
  performed (fun _ => false) none patience (e.execute order timeout).2

/-- When a command has waited long enough: as soon as its run is through, but no longer than some
seconds; and at once if there is no run. -/
def endOfWait (e : Engine) (order : Order) (seconds : Float) : Float :=
  match e.start order with
  | (.error _, started) => started.stage.now
  | (.ok runId, started) => started.earlierEnd runId seconds

/-- A command gives up waiting after some seconds. -/
structure HonoursTimeout (e : Engine) (order : Order) (seconds : Float) : Prop where
  ends : (e.command order (some seconds)).stage.now = e.endOfWait order seconds
  /-- No task is performed later. It is only tasks that dispatch steps and make calls. -/
  performs : ∀ entry ∈ e.waitTasks order (some seconds) ++ e.leftTasks order (some seconds),
    entry.1 ≤ e.stage.timeAfter seconds
  calls : e.stage.CallsWithin (· ≤ e.stage.timeAfter seconds)
    (e.command order (some seconds)).stage

/-- What is left when the wait is over is due by then, and it takes no time. -/
structure ClosesAtOnce (e : Engine) (order : Order) (seconds : Float) : Prop where
  now : (e.command order (some seconds)).stage.now = (e.execute order (some seconds)).2.stage.now
  due : ∀ entry ∈ e.leftTasks order (some seconds), entry.1 ≤ e.stage.timeAfter seconds

variable {order : Order} {seconds : Float} {timeout : Option Float} {failure : Failure}

theorem execute_of_error (h : e.start order = (.error failure, e')) (timeout : Option Float) :
    e.execute order timeout = (.error failure, e') := by
  rw [execute, h]

theorem execute_of_ok (h : e.start order = (.ok runId, e')) (timeout : Option Float) :
    (e.execute order timeout).2 = (e'.wait runId timeout).2 := by
  rw [execute, h]

/-- The wait itself is over on time. -/
theorem now_execute (e : Engine) (order : Order) (seconds : Float) :
    (e.execute order (some seconds)).2.stage.now = e.endOfWait order seconds := by
  unfold endOfWait
  rcases hstart : e.start order with ⟨failure | runId, started⟩
  · rw [execute_of_error hstart]
  · rw [execute_of_ok hstart]
    exact (awaits_of_start hstart).now_wait seconds

theorem le_of_mem_waitTasks {entry : Float × Task}
    (hmem : entry ∈ e.waitTasks order (some seconds)) : entry.1 ≤ e.stage.timeAfter seconds := by
  unfold waitTasks at hmem
  rcases hstart : e.start order with ⟨failure | runId, started⟩
  · rw [hstart] at hmem
    cases hmem
  · rw [hstart] at hmem
    exact le_of_mem_performed hmem

theorem Awaits.callsWithin_wait (h : e.Awaits runId) (timeout : Option Float) :
    e.stage.CallsWithin
      (fun time => ∃ entry ∈ performed (driverIsDone runId) (timeout.map e.stage.timeAfter)
        patience e, entry.1 = time)
      (e.wait runId timeout).2.stage := by
  have hworked := callsWithin_work (driverIsDone runId) (timeout.map e.stage.timeAfter) patience e
  rw [← stage_informFollowers (work _ _ _ _)] at hworked
  rw [h.wait]
  dsimp only
  split
  · exact hworked
  · exact ⟨hworked.external, hworked.models⟩

theorem callsWithin_execute (e : Engine) (order : Order) (timeout : Option Float) :
    e.stage.CallsWithin (fun time => ∃ entry ∈ e.waitTasks order timeout, entry.1 = time)
      (e.execute order timeout).2.stage := by
  have hstage := (e.staysQuiet_start order).stage
  unfold waitTasks
  rcases hstart : e.start order with ⟨failure | runId, started⟩
  · rw [hstart] at hstage
    rw [execute_of_error hstart, hstage]
    exact .refl e.stage
  · rw [hstart] at hstage
    rw [execute_of_ok hstart]
    dsimp only at hstage ⊢
    rw [← hstage]
    exact (awaits_of_start hstart).callsWithin_wait timeout

theorem callsWithin_command (e : Engine) (order : Order) (timeout : Option Float) :
    e.stage.CallsWithin
      (fun time => ∃ entry ∈ e.waitTasks order timeout ++ e.leftTasks order timeout,
        entry.1 = time)
      (e.command order timeout).stage := by
  have hwait := e.callsWithin_execute order timeout
  have hleft := callsWithin_work (fun _ => false) none patience (e.execute order timeout).2
  rw [command, drain, stage_informFollowers]
  refine (hwait.mono ?_).trans (hleft.mono ?_)
  · rintro time ⟨entry, hmem, htime⟩
    exact ⟨entry, List.mem_append_left _ hmem, htime⟩
  · rintro time ⟨entry, hmem, htime⟩
    exact ⟨entry, List.mem_append_right _ hmem, htime⟩

theorem honoursTimeout_iff (e : Engine) (order : Order) (seconds : Float) :
    e.HonoursTimeout order seconds ↔ e.ClosesAtOnce order seconds := by
  constructor
  · intro h
    exact ⟨h.ends.trans (e.now_execute order seconds).symm,
      fun entry hmem => h.performs entry (List.mem_append_right _ hmem)⟩
  · intro h
    have hperforms : ∀ entry ∈ e.waitTasks order (some seconds) ++
        e.leftTasks order (some seconds), entry.1 ≤ e.stage.timeAfter seconds := by
      intro entry hmem
      rcases List.mem_append.mp hmem with hwait | hleft
      · exact le_of_mem_waitTasks hwait
      · exact h.due entry hleft
    -- Every call bears the time of a task, so the calls are in time because the tasks are.
    refine ⟨h.now.trans (e.now_execute order seconds), hperforms, ?_⟩
    refine (e.callsWithin_command order (some seconds)).mono ?_
    rintro _ ⟨entry, hmem, rfl⟩
    exact hperforms entry hmem

/-! ### What is left -/

/-- Everything that is to be done is done in so many turns. -/
def RestsWithin (fuel : Nat) (e : Engine) : Prop := (work (fun _ => false) none fuel e).agenda = []

theorem work_succ_of_turn (h : e.advance? none = some next) (fuel : Nat) :
    work (fun _ => false) none (fuel + 1) e = work (fun _ => false) none fuel next ∧
      performed (fun _ => false) none (fuel + 1) e =
        e.agenda.take 1 ++ performed (fun _ => false) none fuel next := by
  simp [work, performed, h]

theorem work_of_nil (hagenda : e.agenda = []) (stop : Engine → Bool) (until? : Option Float)
    (fuel : Nat) : work stop until? fuel e = e ∧ performed stop until? fuel e = [] := by
  cases fuel with
  | zero => exact ⟨rfl, rfl⟩
  | succ fuel => simp [work, performed, advance?_of_nil hagenda]

/-- Who is at rest stays at rest. -/
theorem RestsWithin.succ (h : RestsWithin fuel e) :
    work (fun _ => false) none (fuel + 1) e = work (fun _ => false) none fuel e ∧
      performed (fun _ => false) none (fuel + 1) e = performed (fun _ => false) none fuel e := by
  induction fuel generalizing e with
  | zero => exact work_of_nil h _ _ _
  | succ fuel ih =>
      by_cases hagenda : e.agenda = []
      · obtain ⟨hwork, hperformed⟩ := work_of_nil hagenda (fun _ => false) none (fuel + 1)
        rw [hwork, hperformed]
        exact work_of_nil hagenda _ _ _
      · obtain ⟨next, hnext⟩ := exists_advance? hagenda
        obtain ⟨hwork, hperformed⟩ := work_succ_of_turn hnext fuel
        obtain ⟨hwork', hperformed'⟩ := work_succ_of_turn hnext (fuel + 1)
        have hrests : RestsWithin fuel next := by rwa [RestsWithin, ← hwork]
        rw [hwork, hwork', hperformed, hperformed', (ih hrests).1, (ih hrests).2]
        exact ⟨rfl, rfl⟩

/-- Whoever has stopped to work before everything is done can go on from there. -/
theorem RestsWithin.resume (h : RestsWithin fuel e) (stop : Engine → Bool)
    (until? : Option Float) (turns : Nat) :
    work (fun _ => false) none fuel e =
        work (fun _ => false) none fuel (work stop until? turns e) ∧
      performed (fun _ => false) none fuel e = performed stop until? turns e ++
        performed (fun _ => false) none fuel (work stop until? turns e) := by
  -- Each turn that is taken before the stop is one of those that lead to rest, so `fuel` goes down
  -- with `turns`.
  induction turns generalizing fuel e with
  | zero => exact ⟨rfl, rfl⟩
  | succ turns ih =>
      rw [work, performed]
      split
      · exact ⟨rfl, rfl⟩
      · cases hadvance : e.advance? until? with
        | none => exact ⟨rfl, rfl⟩
        | some next =>
            obtain ⟨entry, agenda, hagenda, -, -, hnext⟩ := exists_turn hadvance
            cases fuel with
            | zero =>
                have hnil : e.agenda = [] := h
                cases hagenda.symm.trans hnil
            | succ fuel =>
                obtain ⟨hwork, hperformed⟩ := work_succ_of_turn hnext fuel
                have hrests : RestsWithin fuel next := by rwa [RestsWithin, ← hwork]
                obtain ⟨hsame, hall⟩ := ih hrests
                have hlater : RestsWithin fuel (work stop until? turns next) := by
                  rwa [RestsWithin, ← hsame]
                dsimp only
                rw [hwork, hperformed, hlater.succ.1, hlater.succ.2, List.append_assoc]
                exact ⟨hsame, congrArg _ hall⟩

theorem advance?_setClock (hagenda : e.agenda ≠ []) (until? : Option Float) (time : Float) :
    (e.setClock time).advance? until? = e.advance? until? := by
  obtain ⟨entry, agenda, hagenda⟩ := List.exists_cons_of_ne_nil hagenda
  have hsame : (e.setClock time).agenda = entry :: agenda := hagenda
  rw [advance?, advance?, hagenda, hsame]
  rfl

/-- The clock is put to the time of the next task anyway. -/
theorem work_setClock (hagenda : e.agenda ≠ []) (hfuel : 0 < fuel) (time : Float) :
    work (fun _ => false) none fuel (e.setClock time) = work (fun _ => false) none fuel e ∧
      performed (fun _ => false) none fuel (e.setClock time) =
        performed (fun _ => false) none fuel e := by
  obtain ⟨fuel, rfl⟩ := Nat.exists_eq_add_of_le' hfuel
  obtain ⟨next, hnext⟩ := exists_advance? hagenda
  have hnext' : (e.setClock time).advance? none = some next :=
    (advance?_setClock hagenda none time).trans hnext
  obtain ⟨hwork, hperformed⟩ := work_succ_of_turn hnext fuel
  obtain ⟨hwork', hperformed'⟩ := work_succ_of_turn hnext' fuel
  exact ⟨hwork'.trans hwork.symm, hperformed'.trans hperformed.symm⟩

/-- As long as nobody follows a run, a wait leaves nothing behind but the work that was done and the
time on the clock. -/
theorem Awaits.exists_wait (h : e.Awaits runId) (hfollowers : e.followers = [])
    (timeout : Option Float) :
    ∃ time,
      (e.wait runId timeout).2 =
          (work (driverIsDone runId) (timeout.map e.stage.timeAfter) patience e).setClock time ∧
        (timeout = none →
          time = (work (driverIsDone runId) none patience e).stage.now) := by
  have hwait := h.wait timeout
  have hnobody := followers_work (driverIsDone runId) (timeout.map e.stage.timeAfter) patience e
  dsimp only at hwait
  rw [informFollowers_of_nil (hnobody.trans hfollowers)] at hwait
  split at hwait
  · refine ⟨_, hwait, ?_⟩
    rintro rfl
    rfl
  · refine ⟨_, hwait, ?_⟩
    rintro rfl
    rfl

/-- In the end everything has been done, with a timeout and without. -/
theorem exists_command {started : Engine} (hstart : e.start order = (.ok runId, started))
    (hfollowers : e.followers = []) (hrests : RestsWithin patience started)
    (timeout : Option Float) :
    e.waitTasks order timeout ++ e.leftTasks order timeout =
        performed (fun _ => false) none patience started ∧
      ∃ time, e.command order timeout =
          (work (fun _ => false) none patience started).setClock time ∧
        (e.leftTasks order timeout ≠ [] ∨ timeout = none →
          time = (work (fun _ => false) none patience started).stage.now) := by
  have hquiet := e.staysQuiet_start order
  rw [hstart] at hquiet
  have hnobody : started.followers = [] := hquiet.followers.trans hfollowers
  obtain ⟨time, hwait, htime⟩ := (awaits_of_start hstart).exists_wait hnobody timeout
  have hexecute := (execute_of_ok hstart timeout).trans hwait
  rw [show started.stage = e.stage from hquiet.stage] at hexecute
  have hfollowing := followers_work (driverIsDone runId) (timeout.map e.stage.timeAfter) patience
    started
  obtain ⟨hsame, htasks⟩ :=
    hrests.resume (driverIsDone runId) (timeout.map e.stage.timeAfter) patience
  have hended : timeout = none → time =
      (work (driverIsDone runId) (timeout.map e.stage.timeAfter) patience started).stage.now := by
    rintro rfl
    exact htime rfl
  rw [waitTasks, hstart, leftTasks, command, drain, hexecute]
  dsimp only
  clear hwait htime
  generalize work (driverIsDone runId) (timeout.map e.stage.timeAfter) patience started = worked
    at *
  -- Nothing corrects the clock any more if nothing is left; else the next task does.
  have hdrained : (work (fun _ => false) none patience (worked.setClock time)).followers = [] :=
    (followers_work _ _ _ _).trans (hfollowing.trans hnobody)
  rw [informFollowers_of_nil hdrained]
  by_cases hagenda : worked.agenda = []
  · obtain ⟨hwork, hnone⟩ := work_of_nil hagenda (fun _ => false) none patience
    have hagenda' : (worked.setClock time).agenda = [] := hagenda
    obtain ⟨hwork', hnone'⟩ := work_of_nil hagenda' (fun _ => false) none patience
    rw [htasks, hsame, hwork, hwork', hnone, hnone']
    refine ⟨rfl, time, rfl, ?_⟩
    rintro (hleft | rfl)
    · exact absurd rfl hleft
    · exact hended rfl
  · have hturns : 0 < patience := by decide
    obtain ⟨hwork, hperformed⟩ := work_setClock hagenda hturns time
    rw [hwork, hperformed, htasks, hsame]
    exact ⟨rfl, _, rfl, fun _ => rfl⟩

/-- **A timeout saves no work.** Whatever the steps of a run do, and whenever the wait for it is
given up: the same tasks are performed as without a timeout, and they leave the same behind. Only the
clock may show another time, if nothing was left to do when the wait was over. -/
theorem timeout_saves_no_work (hfollowers : e.followers = [])
    (hrests : RestsWithin patience (e.start order).2) (seconds : Float) :
    e.waitTasks order (some seconds) ++ e.leftTasks order (some seconds) =
        e.waitTasks order none ++ e.leftTasks order none ∧
      ∃ time, e.command order (some seconds) = (e.command order none).setClock time ∧
        (e.leftTasks order (some seconds) ≠ [] → time = (e.command order none).stage.now) := by
  rcases hstart : e.start order with ⟨failure | runId, started⟩
  · refine ⟨?_, (e.command order none).stage.now, ?_, fun _ => rfl⟩
    · rw [waitTasks, waitTasks, leftTasks, leftTasks, execute_of_error hstart,
        execute_of_error hstart, hstart]
    · rw [command, command, execute_of_error hstart, execute_of_error hstart]
      rfl
  · rw [hstart] at hrests
    obtain ⟨htasks, time, hcommand, htime⟩ :=
      exists_command hstart hfollowers hrests (some seconds)
    obtain ⟨htasks', time', hcommand', htime'⟩ := exists_command hstart hfollowers hrests none
    obtain rfl := htime' (.inr rfl)
    refine ⟨htasks.trans htasks'.symm, time, ?_, fun hleft => ?_⟩
    · rw [hcommand, hcommand']
      rfl
    · rw [htime (.inl hleft), hcommand', now_setClock]

end Engine

end Workflow
