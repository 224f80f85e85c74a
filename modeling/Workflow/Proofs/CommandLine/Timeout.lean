import Workflow.CommandLine.Session
import Workflow.Proofs.Engine.Timeout

/-!
# The timeout of a command

A command that runs a workflow may be told to give up waiting after some seconds. It does give up
then, but it does not end before the engine has nothing left to do. So its timeout is honoured just
if nothing is left when the wait is over, or what is left takes no time.
-/

namespace Workflow

namespace Session

variable {s : Session} {path : String} {options : RunOptions} {preparation : Preparation}
  {seconds : Float}

/-- The session goes on with what the command has made of its engine. -/
theorem run_of_prepare (hprepare : s.prepare path options = .ok preparation) :
    (s.run path options).2 =
      let ended := preparation.engine.command preparation.order options.timeout
      { s with
        now := ended.stage.now
        selection := preparation.selection
        contents := Table.insert s.contents preparation.handle.key ended.repository
        runCount := ended.runCount } := by
  rw [run, hprepare]
  rfl

/-- **When a timeout is honoured.** Whatever is run, whatever its capabilities do and however long
they take: the command ends at the earlier of the end of its run and the time at which it is up, and
nothing is done or called after that time, if and only if closing takes no time. -/
theorem timeout_is_honoured_iff (hprepare : s.prepare path options = .ok preparation)
    (htimeout : options.timeout = some seconds) :
    (s.run path options).2.now =
        (preparation.engine.command preparation.order (some seconds)).stage.now ∧
      ∀ stage : Stage,
        Engine.HonoursTimeout { preparation.engine with stage } preparation.order seconds ↔
          Engine.ClosesAtOnce { preparation.engine with stage } preparation.order seconds := by
  refine ⟨?_, fun stage => Engine.honoursTimeout_iff _ _ _⟩
  rw [run_of_prepare hprepare, htimeout]

/-- A workflow that waits for ten seconds. -/
def sleepy : Session where
  host :=
    { files := [("flow.json",
        "\x7b\"steps\":[\x7b\"id\":\"t\",\"kind\":\"trigger\"\x7d," ++
          "\x7b\"id\":\"w\",\"kind\":\"wait\",\"config\":\x7b\"duration\":10\x7d\x7d]," ++
          "\"edges\":[\x7b\"source\":\"t\",\"target\":\"w\"\x7d]\x7d")] }

theorem exists_prepared (prepared : Except CommandOutput Preparation) (p : Preparation → Bool)
    (h : prepared.toOption.any p = true) :
    ∃ preparation, prepared = .ok preparation ∧ p preparation = true := by
  cases prepared with
  | error output => cases h
  | ok preparation => exact ⟨preparation, rfl, h⟩

/-- Who is willing to wait for twenty seconds sees the end of the run, and nothing is left then. -/
theorem sleepy_ends_in_time : ∃ preparation,
    sleepy.prepare "flow.json" { timeout := some 20.0 } = .ok preparation ∧
      preparation.engine.HonoursTimeout preparation.order 20.0 := by
  obtain ⟨preparation, hprepare, hends⟩ := exists_prepared
    (sleepy.prepare "flow.json" { timeout := some 20.0 })
    (fun preparation =>
      decide ((preparation.engine.command preparation.order (some 20.0)).stage.now =
          (preparation.engine.execute preparation.order (some 20.0)).2.stage.now) &&
        (preparation.engine.leftTasks preparation.order (some 20.0)).isEmpty)
    (by decide +kernel)
  obtain ⟨hnow, hnothing⟩ := Bool.and_eq_true_iff.mp hends
  have hcloses : preparation.engine.ClosesAtOnce preparation.order 20.0 := by
    refine ⟨of_decide_eq_true hnow, fun entry hmem => ?_⟩
    rw [List.isEmpty_iff.mp hnothing] at hmem
    cases hmem
  exact ⟨preparation, hprepare,
    ((timeout_is_honoured_iff hprepare rfl).2 preparation.engine.stage).mpr hcloses⟩

/-- Who is willing to wait for one second waits for ten. -/
theorem sleepy_outlasts_its_timeout : ∃ preparation,
    sleepy.prepare "flow.json" { timeout := some 1.0 } = .ok preparation ∧
      (sleepy.run "flow.json" { timeout := some 1.0 }).2.now = 10.0 ∧
        ¬ preparation.engine.HonoursTimeout preparation.order 1.0 := by
  obtain ⟨preparation, hprepare, hends⟩ := exists_prepared
    (sleepy.prepare "flow.json" { timeout := some 1.0 })
    (fun preparation =>
      decide ((preparation.engine.command preparation.order (some 1.0)).stage.now = 10.0 ∧
        preparation.engine.endOfWait preparation.order 1.0 = 1.0))
    (by decide +kernel)
  obtain ⟨hnow, hdue⟩ := of_decide_eq_true hends
  refine ⟨preparation, hprepare, ?_, fun hhonours => ?_⟩
  · rw [run_of_prepare hprepare]
    exact hnow
  · have hearly : (10.0 : Float) = 1.0 := hnow.symm.trans (hhonours.ends.trans hdue)
    exact absurd hearly (by decide +kernel)

end Session

end Workflow
