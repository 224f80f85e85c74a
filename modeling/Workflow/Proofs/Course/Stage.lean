import Workflow.Proofs.Course.Invariant

/-!
# How far each step has come

The invocation of a step is released, receives what the parents have brought, is handed to the
dispatcher, and is reported. No move takes it back, so each of these happens at most once in a play.
-/

namespace Workflow

/-- The place of an invocation in the order in which invocations go on. -/
def Progress.rank : Progress → Nat
  | .released => 1
  | .entering _ => 2
  | .working _ => 3
  | .leaving _ => 4

theorem Progress.rank_pos (progress : Progress) : 0 < progress.rank := by
  cases progress <;> simp [rank]

theorem Progress.rank_lt (progress : Progress) : progress.rank < 5 := by
  cases progress <;> simp [rank]

namespace Move

/-- A step is handed to the dispatcher. -/
def hands (id : String) : Move → Bool
  | .hand stepId _ => stepId = id
  | _ => false

theorem exists_eq_hand {id : String} {move : Move} (h : move.hands id = true) :
    ∃ incoming, move = .hand id incoming := by
  cases move with
  | hand stepId incoming =>
      obtain rfl : stepId = id := of_decide_eq_true h
      exact ⟨incoming, rfl⟩
  | _ => cases h

/-- The outcome of a step is reported to its run. -/
def reports (id : String) : Move → Bool
  | .report _ stepId => stepId = id
  | _ => false

end Move

namespace Run.Completes

variable {run run' : Run} {now : Moment} {step : Step} {outcome : Outcome} {released : List String}

/-- Nobody but the completed step commits a result. -/
theorem find?_results_of_ne (h : Completes now step outcome run released run') {other : String}
    (hne : other ≠ step.id) :
    Table.find? run'.results other = Table.find? run.results other := by
  cases h with
  | late => rfl
  | succeeded =>
      rw [succeed, (quiet_settleIfIdle _).results, dispatchAll_eq]
      exact (Table.find?_insert _ _ _ _).trans (if_neg hne)
  | aborted =>
      rw [abort, (quiet_finish rfl _ _ _).results]
      rfl
  | heldBack =>
      simp only [holdBack, (quiet_settleIfIdle _).results]
      split <;> rfl

end Run.Completes

namespace Course

variable {c c' : Course} {move : Move} {moves : List Move} {id : String}

/-- How far a step has come: nowhere while it is idle, and through when its invocation is over. -/
def stage (c : Course) (id : String) : Nat :=
  match c.progress? id with
  | some progress => progress.rank
  | none => if c.run.hasStatus .idle id then 0 else 5

theorem stage_of_progress? {progress : Progress} (hprogress : c.progress? id = some progress) :
    c.stage id = progress.rank := by
  rw [stage, hprogress]

theorem stage_of_none (hnone : c.progress? id = none) :
    c.stage id = if c.run.statusOf? id = some .idle then 0 else 5 := by
  rw [stage, hnone]
  exact if_congr Run.hasStatus_iff rfl rfl

theorem stage_le (c : Course) (id : String) : c.stage id ≤ 5 := by
  cases hprogress : c.progress? id with
  | some progress =>
      rw [stage_of_progress? hprogress]
      exact progress.rank_lt.le
  | none =>
      rw [stage_of_none hprogress]
      split <;> omega

theorem Sound.stage_eq_zero_iff (h : c.Sound) :
    c.stage id = 0 ↔ c.run.statusOf? id = some .idle := by
  cases hprogress : c.progress? id with
  | some progress =>
      rw [stage_of_progress? hprogress, h.running id progress hprogress]
      exact iff_of_false progress.rank_pos.ne' (by simp)
  | none =>
      rw [stage_of_none hprogress]
      simp

/-- A step that is not idle, known or unknown, is not idle later on. -/
theorem Sound.not_idle_of_takes (h : c.Sound) (htakes : c.Takes move c')
    (hnot : c.run.statusOf? id ≠ some .idle) : c'.run.statusOf? id ≠ some .idle := by
  have hadvances := h.advances htakes
  cases hstatus : c.run.statusOf? id with
  | none =>
      intro hidle
      have hid := Run.mem_ids_of_statusOf? (h.of_takes htakes).run.keys hidle
      rw [hadvances.graph, ← Run.statusOf?_isSome_iff h.run.keys, hstatus] at hid
      cases hid
  | some status =>
      rw [hstatus] at hnot
      exact (hadvances.leftIdle id (.of_eq hstatus fun heq => hnot (heq ▸ rfl))).not_idle

/-- An invocation has been where it is, or is new, or has gone on. -/
theorem Sound.rank_lt_of_takes (h : c.Sound) (htakes : c.Takes move c') {progress' : Progress}
    (hprogress' : c'.progress? id = some progress') :
    c.progress? id = some progress' ∨ c.run.statusOf? id = some .idle ∨
      ∃ progress, c.progress? id = some progress ∧ progress.rank < progress'.rank := by
  rcases h.progress?_of_takes htakes hprogress' with hsame | harises
  · exact Or.inl hsame
  cases harises with
  | released now stepId =>
      cases htakes with
      | report _ step outcome released run hleaving hcompletes =>
          rw [progress?, h.progress?_report hleaving hcompletes] at hprogress'
          split at hprogress'
          · have hrunning := h.running _ _ hleaving
            exact Or.inr (Or.inl (hcompletes.idle_of_mem_released hrunning ‹_›).2)
          · split at hprogress'
            · cases hprogress'
            · exact Or.inl hprogress'
  | begun now incoming htrigger =>
      cases htakes with
      | begin _ hphase =>
          have hfresh := (h.unbegun (by rw [hphase]; rfl)).1
          exact Or.inr (Or.inl (htrigger ▸ hfresh.idle _ Graph.trigger_mem_ids))
      | beginLate => exact Or.inl hprogress'
  | entered incoming =>
      cases htakes with
      | enter _ hreleased => exact Or.inr (Or.inr ⟨_, hreleased, by simp [Progress.rank]⟩)
  | handed incoming hbefore => exact Or.inr (Or.inr ⟨_, hbefore, by simp [Progress.rank]⟩)
  | finished _ incoming _ outcome hbefore =>
      exact Or.inr (Or.inr ⟨_, hbefore, by simp [Progress.rank]⟩)

/-- An invocation starts at a step that is idle. -/
theorem Sound.idle_of_starts (h : c.Sound) (htakes : c.Takes move c')
    (hnone : c.progress? id = none) (hstarted : (c'.progress? id).isSome) :
    c.run.statusOf? id = some .idle := by
  obtain ⟨progress', hprogress'⟩ := Option.isSome_iff_exists.mp hstarted
  rcases h.rank_lt_of_takes htakes hprogress' with hsame | hidle | ⟨progress, hsome, -⟩
  · rw [hnone] at hsame
    cases hsame
  · exact hidle
  · rw [hnone] at hsome
    cases hsome

/-- No move takes a step back. -/
theorem Sound.stage_le_of_takes (h : c.Sound) (htakes : c.Takes move c') (id : String) :
    c.stage id ≤ c'.stage id := by
  by_cases hidle : c.run.statusOf? id = some .idle
  · rw [h.stage_eq_zero_iff.mpr hidle]
    exact Nat.zero_le _
  cases hprogress' : c'.progress? id with
  | none =>
      rw [stage_of_none hprogress', if_neg (h.not_idle_of_takes htakes hidle)]
      exact c.stage_le id
  | some progress' =>
      rw [stage_of_progress? hprogress']
      rcases h.rank_lt_of_takes htakes hprogress' with hsame | hidle' | ⟨progress, hsome, hlt⟩
      · exact (stage_of_progress? hsame).le
      · exact absurd hidle' hidle
      · exact (stage_of_progress? hsome).trans_le hlt.le

/-- A step whose invocation is taken away is through. -/
theorem Sound.stage_of_drop (h : c.Sound) (htakes : c.Takes move c') {progress : Progress}
    (hprogress : c.progress? id = some progress) (hnone : c'.progress? id = none) :
    c'.stage id = 5 := by
  rw [stage_of_none hnone, if_neg]
  refine h.not_idle_of_takes htakes ?_
  rw [h.running id progress hprogress]
  simp

/-! ### What a move does to the step it is about -/

theorem Takes.stage_of_hands (h : c.Takes move c') (hmove : move.hands id = true) :
    c.stage id = 2 ∧ c'.stage id = 3 := by
  cases h with
  | hand stepId incoming hprogress =>
      obtain rfl : stepId = id := of_decide_eq_true hmove
      exact ⟨stage_of_progress? hprogress, stage_of_progress? (progress?_put_self _ _ _)⟩
  | _ => cases hmove

theorem Sound.stage_of_reports (h : c.Sound) (htakes : c.Takes move c')
    (hmove : move.reports id = true) : c.stage id = 4 ∧ c'.stage id = 5 := by
  have hthrough {progress : Progress} : c.progress? id = some progress →
      c'.progress? id = none → c'.stage id = 5 := h.stage_of_drop htakes
  cases htakes with
  | report now step outcome released run hprogress hcompletes =>
      obtain rfl : step.id = id := of_decide_eq_true hmove
      refine ⟨stage_of_progress? hprogress, hthrough hprogress ?_⟩
      rw [progress?, h.progress?_report hprogress hcompletes, if_neg, if_pos rfl]
      exact fun hmem => (hcompletes.idle_of_mem_released (h.running _ _ hprogress) hmem).1 rfl
  | _ => cases hmove

theorem Sound.stage_of_breakOff (h : c.Sound) {failure : Failure}
    (htakes : c.Takes (.breakOff id failure) c') : c'.stage id = 5 := by
  have hthrough {progress : Progress} : c.progress? id = some progress →
      c'.progress? id = none → c'.stage id = 5 := h.stage_of_drop htakes
  cases htakes with
  | breakOff _ _ hprogress =>
      rcases hprogress with ⟨incoming, hprogress⟩ | ⟨outcome, hprogress⟩
      · exact hthrough hprogress (h.progress?_drop_self id)
      · exact hthrough hprogress (h.progress?_drop_self id)

theorem Sound.not_running_of_reports (h : c.Sound) (htakes : c.Takes move c')
    (hmove : move.reports id = true) : c'.run.statusOf? id ≠ some .running := by
  cases htakes with
  | report now step outcome released run hprogress hcompletes =>
      obtain rfl : step.id = id := of_decide_eq_true hmove
      rw [hcompletes.statusOf? (h.running _ _ hprogress), if_pos rfl]
      exact fun heq => Outcome.status_ne_running outcome (Option.some.inj heq)
  | _ => cases hmove

/-- What takes a step past a point on its way is done at most once. -/
theorem Sound.countP_le_one (h : c.Sound) (id : String) (point : Nat) {p : Move → Bool}
    (hpast : ∀ (before : Course) (move : Move) (after : Course), before.Sound →
      before.Takes move after → p move = true → before.stage id < point ∧ point ≤ after.stage id)
    (hplay : c.play moves = some c') : moves.countP p ≤ 1 := by
  refine (h.play_induction (P := fun moves after => moves.countP p ≤ 1 ∧
    (0 < moves.countP p → point ≤ after.stage id)) ⟨Nat.zero_le _, by simp⟩ ?_ hplay).2.1
  intro moves before move after _ hsound ⟨honce, hdone⟩ htakes
  rw [List.countP_append, List.countP_singleton]
  by_cases hmove : p move = true
  · -- The step was before the point, so nothing has taken it past the point yet.
    obtain ⟨hbefore, hafter⟩ := hpast before move after hsound htakes hmove
    have hzero : moves.countP p = 0 := by
      by_contra hne
      have hpast := hdone (Nat.pos_of_ne_zero hne)
      omega
    rw [if_pos hmove, hzero]
    exact ⟨le_rfl, fun _ => hafter⟩
  · rw [if_neg hmove, Nat.add_zero]
    exact ⟨honce, fun hpos => (hdone hpos).trans (hsound.stage_le_of_takes htakes id)⟩

theorem Sound.countP_hands_le_one (h : c.Sound) (hplay : c.play moves = some c') (id : String) :
    moves.countP (Move.hands id) ≤ 1 := by
  refine h.countP_le_one id 3 (fun before move after _ htakes hmove => ?_) hplay
  obtain ⟨hbefore, hafter⟩ := htakes.stage_of_hands hmove
  omega

theorem Sound.countP_reports_le_one (h : c.Sound) (hplay : c.play moves = some c') (id : String) :
    moves.countP (Move.reports id) ≤ 1 := by
  refine h.countP_le_one id 5 (fun before move after hsound htakes hmove => ?_)
    hplay
  obtain ⟨hbefore, hafter⟩ := hsound.stage_of_reports htakes hmove
  omega

end Course

end Workflow
