import Workflow.Proofs.Course.Aftermath

/-!
# Whether the end of a run is final

A run that has been cancelled before the repository has taken it comes to life again when it is
stored. That is the only way in which a run that has ended can change its verdict: as long as no
call to cancel is granted before the run is stored, its end is final in every play, and what is
still in flight commits nothing.
-/

namespace Workflow

def Move.isGranted : Move → Bool
  | .cancel _ _ isGranted => isGranted
  | _ => false

/-- The run is over, as far as whoever waits for it can see. -/
def Phase.isEnded : Phase → Bool
  | .closing _ | .closed none => true
  | _ => false

namespace Course

variable {c c' : Course} {move : Move} {moves moves' : List Move}

/-- The end of a run is final: the verdict on a run that has ended does not change; a granted call
to cancel leaves the run cancelled, with no further step dispatched; no second call is granted; and
whoever has waited for a run finds it ended. -/
structure Absorbs (start : Course) (moves : List Move) : Prop where
  final : ∀ before later after c c', moves = before ++ later ++ after →
    start.play before = some c → c.play later = some c' → c.run.isTerminated = true →
      c'.run.status = c.run.status ∧ c'.run.error = c.run.error ∧
        c'.run.errorCode = c.run.errorCode
  cancelled : ∀ before now reason later after c c',
    moves = before ++ .cancel now reason true :: later ++ after → start.play before = some c →
      c.play (.cancel now reason true :: later) = some c' →
        c'.run.status = .cancelled ∧ ∀ id, c'.run.HasLeftIdle id → c.run.HasLeftIdle id
  once : moves.countP Move.isGranted ≤ 1
  awaited : ∀ before after c, moves = before ++ after → start.play before = some c →
    c.phase = .closed none → c.run.isTerminated = true

/-- A call to cancel is granted before the run is stored. -/
def StoredAfterCancel (moves : List Move) : Prop :=
  ∃ before now reason after, moves = before ++ .cancel now reason true :: after ∧ .store ∈ after

theorem StoredAfterCancel.append (h : StoredAfterCancel moves) (moves' : List Move) :
    StoredAfterCancel (moves ++ moves') := by
  obtain ⟨before, now, reason, after, rfl, hstore⟩ := h
  exact ⟨before, now, reason, after ++ moves', by simp, List.mem_append_left _ hstore⟩

/-- Nobody cancels a run before its first move. -/
theorem not_storedAfterCancel_cons {move : Move}
    (hfirst : ∀ now reason, move ≠ .cancel now reason true) (hstore : .store ∉ moves) :
    ¬ StoredAfterCancel (move :: moves) := by
  rintro ⟨before, now, reason, after, hsplit, hafter⟩
  cases before with
  | nil => exact hfirst now reason (List.cons.inj hsplit).1
  | cons first before =>
      refine hstore ?_
      rw [(List.cons.inj hsplit).2]
      exact List.mem_append_right _ (List.mem_cons_of_mem _ hafter)

theorem storedAfterCancel_of_countP (hgranted : 0 < moves.countP Move.isGranted) :
    StoredAfterCancel (moves ++ [.store]) := by
  obtain ⟨move, hmem, hmove⟩ := List.countP_pos_iff.mp hgranted
  obtain ⟨before, after, rfl⟩ := List.append_of_mem hmem
  cases move <;> cases hmove
  rename_i now reason
  exact ⟨before, now, reason, after ++ [.store], by simp, by simp⟩

/-- What holds of a run that has not been stored after a granted call to cancel. -/
structure Orderly (moves : List Move) (c : Course) : Prop where
  finished : c.run.isFinished = true → c.run.isTerminated = true
  unstored : c.phase = .registered → c.run.isTerminated = true → 0 < moves.countP Move.isGranted
  ended : c.phase.isEnded → c.run.isTerminated = true
  once : moves.countP Move.isGranted ≤ 1
  cancelled : 0 < moves.countP Move.isGranted → c.run.status = .cancelled

/-- Short of being stored, a run keeps its status or ends. -/
theorem Takes.verdict (h : c.Takes move c') (hstored : move ≠ .store) :
    (c'.run.status = c.run.status ∧ c'.run.isFinished = c.run.isFinished) ∨
      c'.run.isTerminated = true := by
  have hquiet {run : Run} (hquiet : c.run.Quiet run) :
      (run.status = c.run.status ∧ run.isFinished = c.run.isFinished) ∨
        run.isTerminated = true := by
    rcases hquiet.verdict with ⟨hstatus, -, -, hfinished⟩ | ⟨-, hended, -⟩
    · exact Or.inl ⟨hstatus, hfinished⟩
    · exact Or.inr hended
  have haffects := h.affects
  generalize c'.run = run at haffects ⊢
  cases haffects with
  | stored => exact absurd rfl hstored
  | quiet h => exact hquiet h
  | begun now =>
      have hintroduce := hquiet (c.run.quiet_introduce now)
      exact hintroduce
  | completed now step outcome released _ hprogress hcompletes => exact hcompletes.verdict

theorem isTerminated_abandon (run : Run) : run.abandon.isTerminated = true :=
  Run.isTerminated_finish rfl run _ _

theorem isTerminated_conclude (run : Run) (now : Moment) (hended : run.isTerminated = true) :
    (run.conclude now).isTerminated = true := by
  rw [((run.quiet_conclude now).aftermath hended fun _ _ => True).isTerminated, hended]

/-- The last words on a run are said only after it has ended. -/
theorem Takes.isTerminated_of_isEnded (h : c.Takes move c')
    (hfinished : c.run.isFinished = true → c.run.isTerminated = true)
    (hended : c.phase.isEnded → c.run.isTerminated = true) (hphase : c'.phase.isEnded) :
    c'.run.isTerminated = true ∨ c.run.isTerminated = true ∧ move ≠ .store := by
  have habandoned (now : Moment) : (c.run.abandon.conclude now).isTerminated = true :=
    isTerminated_conclude _ now (isTerminated_abandon c.run)
  cases h with
  | interruptDriver now => exact Or.inl (habandoned now)
  | stopDriver now => exact Or.inl (habandoned now)
  | beginLate now hwaiting hterminated => exact Or.inr ⟨hterminated, by simp⟩
  | conclude now hdriving hfinished' => exact Or.inr ⟨hfinished hfinished', by simp⟩
  | close failure hclosing => exact Or.inr ⟨hended (by rw [hclosing]; rfl), by simp⟩
  | _ => first
      | cases hphase
      | exact Or.inr ⟨hended hphase, by simp⟩

/-- Before it is stored, a run can end only by a granted call to cancel. -/
theorem Sound.isGranted_of_registered (h : c.Sound) (htakes : c.Takes move c')
    (hphase : c'.phase = .registered) (hopen : c.run.isTerminated = false)
    (hended : c'.run.isTerminated = true) : move.isGranted = true := by
  have hnone (id : String) : c.progress? id = none := by
    rw [progress?, (h.unbegun (by rw [htakes.registered_of_registered hphase]; rfl)).2]
    rfl
  have hsame {run : Run} (hrun : run = c.run) (hended : run.isTerminated = true) :
      move.isGranted = true := by
    rw [hrun, hopen] at hended
    cases hended
  cases htakes with
  | cancel now reason =>
      show (c.run.cancel now reason).1 = true
      rw [Run.cancel, hopen]
      rfl
  | finish now step incoming ending outcome hprogress =>
      rw [hnone] at hprogress
      cases hprogress
  | report now step outcome released run hprogress =>
      rw [hnone] at hprogress
      cases hprogress
  | breakOff id failure hprogress =>
      rw [hnone] at hprogress
      simp at hprogress
  | _ => first
      | cases hphase
      | exact hsame rfl hended

theorem Takes.quiet_of_cancel {now : Moment} {reason : String} {isGranted : Bool}
    (h : c.Takes (.cancel now reason isGranted) c') : c.run.Quiet c'.run := by
  cases h
  exact c.run.quiet_cancel now reason

theorem Takes.cancelled_of_isGranted (h : c.Takes move c') (hgranted : move.isGranted = true) :
    c.run.isTerminated = false ∧ c'.run.status = .cancelled := by
  cases h <;> try cases hgranted
  rename_i now reason
  have hopen : c.run.isTerminated = false := by
    by_contra hended
    rw [Bool.not_eq_false] at hended
    rw [Move.isGranted, Run.cancel, hended] at hgranted
    cases hgranted
  refine ⟨hopen, ?_⟩
  rw [Run.cancel, hopen]
  simp only [Bool.false_eq_true, if_false]
  rw [Run.finish_of_open]
  exact hopen

theorem Orderly.store (h : Orderly moves c) (htakes : c.Takes .store c')
    (hungranted : ¬ 0 < moves.countP Move.isGranted) : Orderly (moves ++ [.store]) c' := by
  have hcount : (moves ++ [Move.store]).countP Move.isGranted = 0 := by
    rw [List.countP_append, Nat.le_zero.mp (Nat.le_of_not_lt hungranted)]
    rfl
  cases htakes with
  | store hphase =>
      refine ⟨fun hfinished => ?_, fun hregistered _ => ?_, fun hended => ?_, ?_,
        fun hgranted => ?_⟩
      · exact absurd (h.unstored hphase (h.finished hfinished)) hungranted
      · cases hregistered
      · cases hended
      · omega
      · omega

theorem Orderly.of_ne_store (h : Orderly moves c) (hsound : c.Sound) (htakes : c.Takes move c')
    (hstore : move ≠ .store) : Orderly (moves ++ [move]) c' := by
  have hverdict := htakes.verdict hstore
  have hkept (hended : c.run.isTerminated = true) := hsound.aftermath htakes hended hstore
  have hcount : (moves ++ [move]).countP Move.isGranted =
      moves.countP Move.isGranted + if move.isGranted then 1 else 0 := by
    rw [List.countP_append, List.countP_singleton]
  have hopen (hgranted : move.isGranted = true) : moves.countP Move.isGranted = 0 := by
    by_contra hsome
    have hstatus := h.cancelled (Nat.pos_of_ne_zero hsome)
    have hended := (htakes.cancelled_of_isGranted hgranted).1
    rw [Run.isTerminated, hstatus] at hended
    cases hended
  constructor
  case finished =>
    intro hfinished
    rcases hverdict with ⟨hstatus, hsame⟩ | hended
    · rw [Run.isTerminated, hstatus]
      exact h.finished (hsame ▸ hfinished)
    · exact hended
  case unstored =>
    intro hphase hended
    rw [hcount]
    by_cases hbefore : c.run.isTerminated
    · have hpositive := h.unstored (htakes.registered_of_registered hphase) hbefore
      omega
    · rw [Bool.not_eq_true] at hbefore
      rw [hsound.isGranted_of_registered htakes hphase hbefore hended, if_pos rfl]
      omega
  case ended =>
    intro hphase
    rcases htakes.isTerminated_of_isEnded h.finished h.ended hphase with hended | ⟨hended, -⟩
    · exact hended
    · rw [(hkept hended).isTerminated, hended]
  case once =>
    rw [hcount]
    have honce := h.once
    split
    · rw [hopen ‹_›]
    · omega
  case cancelled =>
    intro hpositive
    by_cases hgranted : move.isGranted
    · exact (htakes.cancelled_of_isGranted hgranted).2
    · rw [hcount, if_neg hgranted] at hpositive
      have hstatus := h.cancelled hpositive
      rw [(hkept (by rw [Run.isTerminated, hstatus]; rfl)).status, hstatus]

theorem orderly_of_play {runId : String} {graph : Graph} {payload : Fields} {mode : FailureMode}
    {observers : List Observer}
    (hplay : (register runId graph payload mode observers).play moves = some c)
    (hrace : ¬ StoredAfterCancel moves) : Orderly moves c := by
  refine ((sound_register runId graph payload mode observers).play_induction
    (P := fun moves after => ¬ StoredAfterCancel moves → Orderly moves after) ?_ ?_ hplay).2 hrace
  · intro _
    refine ⟨fun hfinished => ?_, fun _ hended => ?_, fun hphase => ?_, Nat.zero_le _,
      fun hgranted => ?_⟩
    · cases hfinished
    · cases hended
    · cases hphase
    · cases hgranted
  · intro moves before move after _ hsound hsofar htakes hrace
    have horderly := hsofar fun hearlier => hrace (hearlier.append [move])
    by_cases hstore : move = .store
    · subst hstore
      exact horderly.store htakes (fun hgranted => hrace (storedAfterCancel_of_countP hgranted))
    · exact horderly.of_ne_store hsound htakes hstore

section Register

variable {runId : String} {graph : Graph} {payload : Fields} {mode : FailureMode}
  {observers : List Observer}

/-- As long as no run is stored after it has been cancelled, a run that has ended only has its
running steps reported. -/
theorem aftermath_of_play {before later : List Move}
    (hbefore : (register runId graph payload mode observers).play before = some c)
    (hlater : c.play later = some c') (hended : c.run.isTerminated = true)
    (hrace : ¬ StoredAfterCancel (before ++ later)) :
    c.run.Aftermath c'.run (HasEnded (before ++ later)) := by
  have hsound := ((sound_register runId graph payload mode observers).play hbefore).1
  refine (hsound.play_induction (P := fun moves after =>
    ¬ StoredAfterCancel (before ++ moves) → c.run.Aftermath after.run (HasEnded (before ++ moves)))
    (fun _ => .refl _ _) ?_ hlater).2 hrace
  intro moves earlier move after hmoves hearlier hsofar htakes hrace
  rw [← List.append_assoc] at hrace ⊢
  have hsame := hsofar fun hrace' => hrace (hrace'.append [move])
  have hended' : earlier.run.isTerminated = true := hsame.isTerminated.trans hended
  have hall : (register runId graph payload mode observers).play (before ++ moves) =
      some earlier := by
    rw [play_append, hbefore]
    exact hmoves
  -- A run that has ended before it is stored has been cancelled.
  have hnext := hearlier.aftermath htakes hended' (by
    rintro rfl
    have horderly := orderly_of_play hall fun hrace' => hrace (hrace'.append [.store])
    exact hrace (storedAfterCancel_of_countP (horderly.unstored htakes.phase_of_store hended')))
  exact (hsame.mono fun _ _ hfinish => hfinish.append [move]).trans
    (hnext.mono fun _ _ hleaving => (hasEnded_of_leaving hall hleaving).append [move])

end Register

/-- Nothing that goes on after a run has ended commits anything or dispatches a step, unless the run
was cancelled before it was stored: of all its steps only those that were running change, each to
what its own invocation has ended with. A run that fails fast has at most one failed step among
those it has processed, and ends with its code. -/
theorem nothing_committed_after_the_end (runId : String) (graph : Graph) (payload : Fields)
    (mode : FailureMode) (observers : List Observer) (before after : List Move) (c c' : Course)
    (hbefore : (register runId graph payload mode observers).play before = some c)
    (hended : c.run.isTerminated = true) (hafter : c.play after = some c')
    (hrace : ¬ StoredAfterCancel (before ++ after)) :
    (∀ id, c.run.statusOf? id = some .idle → c'.run.statusOf? id = some .idle) ∧
    (c'.run.results = c.run.results ∧ c'.run.processed = c.run.processed ∧
      c'.run.blocked = c.run.blocked) ∧
    (∀ id, c'.run.report? id = c.run.report? id ∨ ∃ report now outcome,
      c.run.report? id = some report ∧ report.status = .running ∧
        c'.run.report? id = some (report.closedBy now outcome) ∧
        HasEnded (before ++ after) id outcome) ∧
    (mode = .failFast →
      (∀ id ∈ c'.run.processed, ∀ id' ∈ c'.run.processed, c'.run.statusOf? id = some .failed →
        c'.run.statusOf? id' = some .failed → id = id') ∧
      ∀ id ∈ c'.run.processed, c'.run.statusOf? id = some .failed → c'.run.status = .failed ∧
        ∃ report, c'.run.report? id = some report ∧ c'.run.errorCode = report.errorCode) := by
  have haftermath := aftermath_of_play hbefore hafter hended hrace
  refine ⟨fun id => haftermath.statusOf?_idle, ⟨haftermath.results, haftermath.processed,
    haftermath.blocked⟩, haftermath.reports, fun hmode => ?_⟩
  have hall : (register runId graph payload mode observers).play (before ++ after) = some c' := by
    rw [play_append, hbefore]
    exact hafter
  obtain ⟨hsound, hadvances⟩ := (sound_register runId graph payload mode observers).play hall
  have hfast : c'.run.failureMode = .failFast := by
    rw [hadvances.failureMode]
    exact hmode
  exact ⟨hsound.run.single hfast, hsound.run.aborted hfast⟩

/-- The left step fails, and the right one is still at work. -/
def abortedMoves : List Move :=
  .store :: .begin .origin :: invocation "start" [] ⟨.ok .null, 1⟩ ++
    [.enter "left", .enter "right", .hand "right" []] ++
    invocation "left" [] ⟨.error (.wrongValue "no"), 3⟩

theorem isSome_play_abortedMoves :
    ((register "run" diamond [] .failFast []).play abortedMoves).isSome := by
  decide +kernel

def aborted : Course :=
  ((register "run" diamond [] .failFast []).play abortedMoves).get isSome_play_abortedMoves

/-- The right step succeeds when the run has failed. -/
def lateMoves : List Move := [.finish .origin "right" [] ⟨.ok .null, 1⟩, .report .origin "right"]

theorem isSome_play_lateMoves : (aborted.play lateMoves).isSome := by decide +kernel

theorem late_result_of_the_right_step : ∃ c : Course, aborted.play lateMoves = some c ∧
    aborted.run.isTerminated = true ∧ c.run.statusOf? "right" = some .completed ∧
    c.run.statusOf? "join" = some .idle ∧ c.run.results = aborted.run.results ∧
    ∃ report, c.run.report? "left" = some report ∧ c.run.errorCode = report.errorCode := by
  have hbefore := (Option.some_get isSome_play_abortedMoves).symm
  have hafter := (Option.some_get isSome_play_lateMoves).symm
  have hended : aborted.run.isTerminated = true := by decide +kernel
  have hrace : ¬ StoredAfterCancel (abortedMoves ++ lateMoves) := by
    rintro ⟨earlier, now, reason, later, hmoves, -⟩
    have hcancel : Move.cancel now reason true ∈ abortedMoves ++ lateMoves := by simp [hmoves]
    simp [abortedMoves, lateMoves, invocation] at hcancel
  obtain ⟨hidle, ⟨hresults, -⟩, -, hfast⟩ :=
    nothing_committed_after_the_end _ _ _ _ _ _ _ _ _ hbefore hended hafter hrace
  exact ⟨_, hafter, hended, by decide +kernel, hidle "join" (by decide +kernel), hresults,
    ((hfast rfl).2 "left" (by decide +kernel) (by decide +kernel)).2⟩

/-- The end of a run is final in exactly those plays in which no call to cancel is granted before
the run is stored. -/
theorem absorbs_iff_not_storedAfterCancel (runId : String) (graph : Graph) (payload : Fields)
    (mode : FailureMode) (observers : List Observer) (moves : List Move) (c : Course)
    (hplay : (register runId graph payload mode observers).play moves = some c) :
    Absorbs (register runId graph payload mode observers) moves ↔ ¬ StoredAfterCancel moves := by
  have hstart := sound_register runId graph payload mode observers
  constructor
  · rintro habsorbs ⟨before, now, reason, after, rfl, hstore⟩
    obtain ⟨later, rest, rfl⟩ := List.append_of_mem hstore
    obtain ⟨start, hbefore, hplay⟩ := exists_of_play_append hplay
    have hsplit : Move.cancel now reason true :: (later ++ .store :: rest) =
        (Move.cancel now reason true :: (later ++ [.store])) ++ rest := by simp
    rw [hsplit] at hplay
    obtain ⟨stored, hlater, -⟩ := exists_of_play_append hplay
    have hcancelled := (habsorbs.cancelled before now reason (later ++ [.store]) rest start stored
      (by simp) hbefore hlater).1
    rw [← List.cons_append] at hlater
    obtain ⟨unstored, hunstored, hlast⟩ := exists_of_play_append hlater
    obtain ⟨_, hstep, hrest⟩ := Option.bind_eq_some_iff.mp hlast
    obtain rfl := Option.some.inj hrest
    have hsound := ((hstart.play hbefore).1.play hunstored).1
    -- The run is running as soon as it is stored, although it had been cancelled.
    cases hsound.takes hstep
    cases hcancelled
  · intro hrace
    refine ⟨fun before later after c c' hmoves hbefore hlater hended => ?_,
      fun before now reason later after c c' hmoves hbefore hlater => ?_,
      (orderly_of_play hplay hrace).once, fun before after c hmoves hbefore hphase => ?_⟩
    · rw [hmoves] at hrace
      have haftermath := aftermath_of_play hbefore hlater hended fun hrace' =>
        hrace (hrace'.append after)
      exact ⟨haftermath.status, haftermath.error, haftermath.errorCode⟩
    · obtain ⟨cancelled, hstep, hlater⟩ := Option.bind_eq_some_iff.mp hlater
      have htakes := (hstart.play hbefore).1.takes hstep
      have hstatus := (htakes.cancelled_of_isGranted rfl).2
      have hall : (register runId graph payload mode observers).play
          (before ++ [.cancel now reason true]) = some cancelled := by
        rw [play_append, hbefore, Option.bind_some, play, hstep]
        rfl
      have haftermath := aftermath_of_play hall hlater (by rw [Run.isTerminated, hstatus]; rfl)
        (fun hrace' => hrace (by
          rw [hmoves]
          simpa using hrace'.append after))
      refine ⟨haftermath.status.trans hstatus, fun id hleft => ?_⟩
      have hleft' := haftermath.hasLeftIdle hleft
      rwa [Run.HasLeftIdle, (htakes.quiet_of_cancel).statusOf?] at hleft'
    · have horderly := orderly_of_play hbefore fun hrace' =>
        hrace (hmoves ▸ hrace'.append after)
      exact horderly.ended (by rw [hphase]; rfl)

/-- The run is cancelled while the repository is being told of it. -/
def revivedMoves : List Move :=
  [.cancel .origin "Run cancelled" true, .store, .begin .origin] ++
    invocation "start" [] ⟨.ok .null, 1⟩ ++ [.conclude .origin, .close none]

theorem isSome_play_revivedMoves :
    ((register "run" diamond [] .failFast []).play revivedMoves).isSome := by decide +kernel

theorem not_absorbs_revivedMoves : ¬ Absorbs (register "run" diamond [] .failFast []) revivedMoves ∧
    ∃ c, (register "run" diamond [] .failFast []).play revivedMoves = some c ∧
      c.phase = .closed none ∧ c.run.status = .running ∧
      c.run.statusOf? "left" = some .running := by
  have hplay := (Option.some_get isSome_play_revivedMoves).symm
  have hphase : (((register "run" diamond [] .failFast []).play revivedMoves).get
      isSome_play_revivedMoves).phase = .closed none := by decide +kernel
  have hstatus : (((register "run" diamond [] .failFast []).play revivedMoves).get
      isSome_play_revivedMoves).run.status = .running := by decide +kernel
  refine ⟨fun habsorbs => ?_, _, hplay, hphase, hstatus, by decide +kernel⟩
  have hended := habsorbs.awaited revivedMoves [] _ (by simp) hplay hphase
  rw [Run.isTerminated, hstatus] at hended
  cases hended

theorem isSome_play_store_cancel : ((register "run" diamond [] .failFast []).play
    [.store, .cancel .origin "Run cancelled" true]).isSome := by decide +kernel

theorem absorbs_store_cancel : Absorbs (register "run" diamond [] .failFast [])
    [.store, .cancel .origin "Run cancelled" true] := by
  refine (absorbs_iff_not_storedAfterCancel _ _ _ _ _ _ _
    (Option.some_get isSome_play_store_cancel).symm).mpr ?_
  rintro ⟨before, now, reason, after, hmoves, hstore⟩
  rcases before with _ | ⟨first, _ | ⟨second, rest⟩⟩ <;> simp at hmoves
  simp [hmoves.2.2] at hstore

end Course

end Workflow
