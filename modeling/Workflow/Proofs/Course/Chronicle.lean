import Workflow.Proofs.Course.Conclusion

/-!
# The log follows the graph

Each event of a log is told by some move of the play. A step is announced as running when it leaves
the idle status, so once, and only after the dispatcher has told of all its parents that they have
succeeded; the dispatcher tells of the step itself later, and once. When a run has ended, no step is
announced any more; and the last word on a run that has completed is that it has finished.
-/

namespace Workflow

/-- What the dispatcher has told of a step by a move. -/
def Move.outcome? (id : String) : Move → Option Outcome
  | .finish _ stepId _ ending => if stepId = id then Outcome.ofEnding? ending else none
  | _ => none

/-- Before each element that has the one property, there is one that has the other. -/
def Preceded {α : Type} (l : List α) (p q : α → Bool) : Prop :=
  ∀ before a after, l = before ++ a :: after → p a = true → ∃ b ∈ before, q b = true

theorem Preceded.append {α : Type} {l l' : List α} {p q : α → Bool} (h : Preceded l p q)
    (hnew : ∀ a ∈ l', p a = true → ∃ b ∈ l, q b = true) : Preceded (l ++ l') p q := by
  intro before a after heq hp
  rcases List.append_eq_append_iff.mp heq with ⟨middle, rfl, hl'⟩ | ⟨middle, hl, hafter⟩
  · obtain ⟨b, hmem, hq⟩ := hnew a (hl' ▸ List.mem_append_right _ List.mem_cons_self) hp
    exact ⟨b, List.mem_append_left _ hmem, hq⟩
  · cases middle with
    | nil =>
        rw [List.nil_append] at hafter
        obtain ⟨b, hmem, hq⟩ := hnew a (hafter ▸ List.mem_cons_self) hp
        rw [hl, List.append_nil] at hmem
        exact ⟨b, hmem, hq⟩
    | cons head middle =>
        obtain ⟨rfl, -⟩ := List.cons.inj hafter
        exact h before a middle hl hp

namespace Course

variable {start c c' : Course} {move : Move} {moves moves' : List Move} {id : String}
  {messages : List Message} {entries : List (Move × Event)}

/-- The events of a play, each with the move that has told it. -/
def annals (c : Course) : List Move → List (Move × Event)
  | [] => []
  | move :: moves =>
    match c.step move with
    | some next =>
      (next.run.log.events.drop c.run.log.events.length).map (move, ·) ++ next.annals moves
    | none => []

/-- The event announces that a step is running. -/
def tellsRunning (step : Step) (entry : Move × Event) : Bool :=
  entry.2.message = step.runningMessage

/-- The event is what the dispatcher tells of the invocation of a step. -/
def tellsOutcome (id : String) (entry : Move × Event) : Bool := (entry.1.outcome? id).isSome

def tellsSuccess (id : String) (entry : Move × Event) : Bool :=
  tellsOutcome id entry && entry.2.message.level = .success

theorem annals_append (hplay : c.play moves = some c') :
    c.annals (moves ++ moves') = c.annals moves ++ c'.annals moves' := by
  induction moves generalizing c with
  | nil =>
      obtain rfl := Option.some.inj hplay
      rfl
  | cons move moves ih =>
      obtain ⟨next, hstep, hrest⟩ := Option.bind_eq_some_iff.mp hplay
      rw [List.cons_append, annals, annals, hstep]
      simp only [ih hrest, List.append_assoc]

theorem annals_singleton (hstep : c.step move = some c')
    (htells : c.run.log.Tells c'.run.log messages) : ∃ events,
    c'.run.log.events = c.run.log.events ++ events ∧ events.map (·.message) = messages ∧
      c.annals [move] = events.map (move, ·) := by
  obtain ⟨events, hevents, hmessages, -⟩ := htells
  refine ⟨events, hevents, hmessages, ?_⟩
  rw [annals, hstep]
  simp [annals, hevents]

theorem exists_mem_annals (hstep : c.step move = some c')
    (htells : c.run.log.Tells c'.run.log messages) {message : Message}
    (hmem : message ∈ messages) :
    ∃ event, (move, event) ∈ c.annals [move] ∧ event.message = message := by
  obtain ⟨events, -, rfl, hannals⟩ := annals_singleton hstep htells
  obtain ⟨event, hevent, hmessage⟩ := List.mem_map.mp hmem
  exact ⟨event, hannals ▸ List.mem_map_of_mem hevent, hmessage⟩

theorem eq_of_mem_annals (hstep : c.step move = some c') {entry : Move × Event}
    (hentry : entry ∈ c.annals [move]) : entry.1 = move := by
  simp only [annals, hstep, List.append_nil] at hentry
  obtain ⟨event, -, rfl⟩ := List.mem_map.mp hentry
  rfl

theorem countP_tellsRunning (hstep : c.step move = some c')
    (htells : c.run.log.Tells c'.run.log messages) (step : Step) :
    (c.annals [move]).countP (tellsRunning step) =
      messages.countP (· = step.runningMessage) := by
  obtain ⟨events, -, rfl, hannals⟩ := annals_singleton hstep htells
  rw [hannals, List.countP_map, List.countP_map]
  rfl

theorem countP_tellsOutcome (hstep : c.step move = some c')
    (htells : c.run.log.Tells c'.run.log messages) (id : String) :
    (c.annals [move]).countP (tellsOutcome id) =
      if (move.outcome? id).isSome then messages.length else 0 := by
  obtain ⟨events, -, rfl, hannals⟩ := annals_singleton hstep htells
  rw [hannals, List.countP_map, List.length_map]
  split
  · exact List.countP_eq_length.mpr fun _ _ => ‹_›
  · exact List.countP_eq_zero.mpr fun _ _ => ‹_›

/-! ### What each move tells -/

/-- A move tells how an invocation has ended, or which steps a completion releases, or nothing about
any step. -/
inductive Speaks (c c' : Course) : Move → List Message → Prop
  | general {move : Move} {messages : List Message} (hmove : ∀ id, move.outcome? id = none)
    (hreports : ∀ id, move.reports id = false)
    (hmessages : ∀ message ∈ messages, message.stepId = none) : Speaks c c' move messages
  | outcome (now : Moment) (step : Step) (incoming : Fields) (ending : Retry.Ending Value)
    (outcome : Outcome) (hprogress : c.progress? step.id = some (.working incoming))
    (houtcome : Outcome.ofEnding? ending = some outcome) :
    Speaks c c' (.finish now step.id incoming ending) [outcome.message step]
  | report (now : Moment) (step : Step) (outcome : Outcome) (released : List String)
    (remarks : List Message) (hprogress : c.progress? step.id = some (.leaving outcome))
    (hcompletes : Run.Completes now step outcome c.run released c'.run)
    (hremarks : ∀ message ∈ remarks, message.stepId = some step.id ∧
      ∀ other : Step, message ≠ other.runningMessage) :
    Speaks c c' (.report now step.id)
      ((released.filterMap c.run.graph.step?).map Step.runningMessage ++ remarks)

theorem outcome?_finish_of_none {now : Moment} {incoming : Fields} {ending : Retry.Ending Value}
    (houtcome : Outcome.ofEnding? ending = none) (id other : String) :
    (Move.finish now id incoming ending).outcome? other = none := by
  rw [Move.outcome?, houtcome, ite_self]

theorem tells_stopDriving (c : Course) (now : Moment) :
    c.run.log.Tells (c.stopDriving now).run.log c.run.abandon.closingMessages := by
  have htells := c.run.abandon.tells_conclude now
  rw [show c.run.abandon.log = c.run.log from Run.log_finish _ _ _ _] at htells
  exact htells

theorem Takes.speaks (h : c.Takes move c') :
    ∃ messages, c.run.log.Tells c'.run.log messages ∧ c.Speaks c' move messages := by
  have hsilent (hevents : c'.run.log.events = c.run.log.events)
      (hmove : ∀ id, move.outcome? id = none) (hreports : ∀ id, move.reports id = false) :
      ∃ messages, c.run.log.Tells c'.run.log messages ∧ c.Speaks c' move messages :=
    ⟨[], .of_events_eq hevents, .general hmove hreports (by simp)⟩
  have hclosing {run : Run} :
      ∀ message ∈ run.closingMessages, message.stepId = none :=
    fun message => run.stepId_of_mem_closingMessages
  cases h with
  | cancel now reason =>
      obtain ⟨messages, htells, hmessages, -⟩ := c.run.tells_cancel now reason
      exact ⟨messages, htells, .general (fun _ => rfl) (fun _ => rfl) fun message hmessage =>
        (hmessages message hmessage).2⟩
  | begin now =>
      obtain ⟨messages, htells, hmessages⟩ := c.run.tells_introduce now
      exact ⟨messages, htells, .general (fun _ => rfl) (fun _ => rfl) fun message hmessage =>
        (hmessages message hmessage).2⟩
  | beginLate now =>
      exact ⟨_, c.run.tells_conclude now, .general (fun _ => rfl) (fun _ => rfl) hclosing⟩
  | conclude now =>
      exact ⟨_, c.run.tells_conclude now, .general (fun _ => rfl) (fun _ => rfl) hclosing⟩
  | interruptDriver now incoming ending hprogress houtcome =>
      exact ⟨_, c.tells_stopDriving now,
        .general (outcome?_finish_of_none houtcome _) (fun _ => rfl) hclosing⟩
  | stopDriver now =>
      exact ⟨_, c.tells_stopDriving now, .general (fun _ => rfl) (fun _ => rfl) hclosing⟩
  | finish now step incoming ending outcome hprogress hstep houtcome =>
      exact ⟨_, c.run.log.tells_emit now _,
        .outcome now step incoming ending outcome hprogress houtcome⟩
  | report now step outcome released run hprogress hcompletes =>
      obtain ⟨remarks, htells, hremarks⟩ := hcompletes.tells
      exact ⟨_, htells, .report now step outcome released remarks hprogress hcompletes hremarks⟩
  | interrupt now id incoming ending hprogress houtcome =>
      exact hsilent rfl (outcome?_finish_of_none houtcome _) fun _ => rfl
  | breakOff id failure =>
      refine hsilent ?_ (fun _ => rfl) fun _ => rfl
      exact congrArg EventLog.events (Run.log_finish _ _ _ _)
  | close => exact hsilent c.run.log.events_close (fun _ => rfl) fun _ => rfl
  | _ => exact hsilent rfl (fun _ => rfl) fun _ => rfl

/-- A move that ends an invocation tells its outcome and nothing else. -/
theorem Speaks.eq_message_of_outcome? (h : c.Speaks c' move messages) {outcome : Outcome}
    (houtcome : move.outcome? id = some outcome) : ∃ step, messages = [outcome.message step] := by
  cases h with
  | general hmove =>
      rw [hmove] at houtcome
      cases houtcome
  | outcome now step incoming ending outcome' _ houtcome' =>
      rw [Move.outcome?, houtcome'] at houtcome
      obtain rfl := Option.some.inj (Option.ite_none_right_eq_some.mp houtcome).2
      exact ⟨step, rfl⟩
  | report => cases houtcome

/-- The dispatcher tells only of steps that run. -/
theorem Speaks.running_of_outcome? (h : c.Speaks c' move messages) (hsound : c.Sound)
    (houtcome : (move.outcome? id).isSome) : c.run.statusOf? id = some .running := by
  cases h with
  | general hmove =>
      rw [hmove] at houtcome
      cases houtcome
  | outcome now step incoming ending outcome hprogress =>
      by_cases heq : step.id = id
      · exact heq ▸ hsound.running _ _ hprogress
      · rw [Move.outcome?, if_neg heq] at houtcome
        cases houtcome
  | report => cases houtcome

/-! ### Which steps are announced -/

/-- How often a step has to be announced as running: once, when it has left the idle status. -/
def announced (c : Course) (id : String) : Nat :=
  if id ≠ c.triggerId ∧ c.run.statusOf? id ≠ some .idle then 1 else 0

theorem announced_congr (htrigger : c'.triggerId = c.triggerId)
    (hidle : id ≠ c.triggerId →
      (c'.run.statusOf? id = some .idle ↔ c.run.statusOf? id = some .idle)) :
    c'.announced id = c.announced id := by
  rw [announced, announced, htrigger]
  exact if_congr (and_congr_right fun hne => not_congr (hidle hne)) rfl rfl

/-- Among the steps that are released, each is announced once. -/
theorem countP_released {graph : Graph} {released : List String} (hnodup : released.Nodup)
    (hids : ∀ id ∈ released, id ∈ graph.ids) {step : Step}
    (hstep : graph.step? step.id = some step) :
    ((released.filterMap graph.step?).map Step.runningMessage).countP (· = step.runningMessage) =
      if step.id ∈ released then 1 else 0 := by
  have hsame : ∀ other ∈ released.filterMap graph.step?,
      other.runningMessage = step.runningMessage ↔ other.id = step.id := by
    intro other hother
    refine ⟨Step.runningMessage_inj, fun heq => ?_⟩
    obtain ⟨id, -, hfound⟩ := List.mem_filterMap.mp hother
    rw [← step_id_of_step? hfound, heq, hstep] at hfound
    rw [Option.some.inj hfound]
  have hcount := calc
    ((released.filterMap graph.step?).map Step.runningMessage).countP (· = step.runningMessage) =
        (released.filterMap graph.step?).countP (·.id == step.id) := by
      rw [List.countP_map]
      refine List.countP_congr fun other hother => ?_
      simpa using hsame other hother
    _ = ((released.filterMap graph.step?).map (·.id)).count step.id := by
      rw [List.count, List.countP_map]
      rfl
    _ = released.count step.id := by rw [Run.map_id_filterMap_step? hids]
  rw [hcount]
  split
  · exact List.count_eq_one_of_mem hnodup ‹_›
  · exact List.count_eq_zero.mpr ‹_›

theorem Speaks.countP_eq_zero (h : c.Speaks c' move messages)
    (hmove : ∀ id, move.reports id = false) (step : Step) :
    messages.countP (· = step.runningMessage) = 0 := by
  refine List.countP_eq_zero.mpr fun message hmessage => ?_
  rw [decide_eq_true_iff]
  cases h with
  | general _ _ hmessages =>
      exact Step.ne_runningMessage_of_stepId (hmessages message hmessage) step
  | outcome now other incoming ending outcome =>
      rw [List.mem_singleton.mp hmessage]
      exact outcome.message_ne_runningMessage other step
  | report now other => exact absurd (hmove other.id) (by simp [Move.reports])

theorem Sound.announced_of_takes (h : c.Sound) (htakes : c.Takes move c')
    (hspeaks : c.Speaks c' move messages) {step : Step}
    (hstep : c.run.graph.step? step.id = some step) :
    c'.announced step.id = c.announced step.id + messages.countP (· = step.runningMessage) := by
  have htrigger : c'.triggerId = c.triggerId :=
    congrArg (·.trigger.id) (h.advances htakes).graph
  by_cases hmove : ∀ id, move.reports id = false
  · rw [hspeaks.countP_eq_zero hmove, Nat.add_zero]
    refine announced_congr htrigger fun hne => ?_
    rw [h.statusOf?_of_takes htakes hmove fun heq => absurd heq hne]
  have hsound' := h.of_takes htakes
  cases hspeaks with
  | report now other outcome released remarks hprogress hcompletes hremarks =>
      have hrunning := h.running _ _ hprogress
      have hidle {id : String} (hid : id ∈ released) :=
        hcompletes.idle_of_mem_released hrunning hid
      have hnone : remarks.countP (· = step.runningMessage) = 0 := by
        refine List.countP_eq_zero.mpr fun message hmessage => ?_
        simpa using (hremarks message hmessage).2 step
      rw [List.countP_append, hnone, Nat.add_zero, countP_released hcompletes.nodup
        (fun id hid => Run.mem_ids_of_statusOf? h.run.keys (hidle hid).2) hstep]
      by_cases hmem : step.id ∈ released
      · obtain ⟨hne, hbefore⟩ := hidle hmem
        have hafter : c'.run.statusOf? step.id = some .running := by
          rw [hcompletes.statusOf? hrunning, if_neg hne, if_pos hmem]
        have hother : step.id ≠ c.triggerId := by
          rw [← htrigger]
          refine (hsound'.run.inFlight step.id ?_).1
          rw [hcompletes.inFlight]
          exact List.mem_append_right _ hmem
        rw [announced, announced, htrigger, hbefore, hafter, if_pos hmem,
          if_pos ⟨hother, by decide⟩, if_neg (by simp)]
      · rw [if_neg hmem, Nat.add_zero]
        have hafter := hcompletes.statusOf? hrunning step.id
        rw [if_neg hmem] at hafter
        by_cases heq : step.id = other.id
        · rw [if_pos heq] at hafter
          have hidle' := Outcome.status_ne_idle outcome
          rw [announced, announced, htrigger, hafter, heq, hrunning]
          simp [hidle']
        · rw [if_neg heq] at hafter
          exact announced_congr htrigger fun _ => by rw [hafter]
  | general _ hreports => exact (hmove hreports).elim
  | outcome => exact (hmove fun _ => rfl).elim

/-! ### What has been told -/

/-- The dispatcher has told that a step has come to a status. -/
def ToldAs (entries : List (Move × Event)) (id : String) (status : StepStatus) : Prop :=
  ∃ entry ∈ entries, tellsOutcome id entry = true ∧
    (entry.2.message.level = .success ↔ status = .completed)

theorem ToldAs.append {status : StepStatus}
    (h : ToldAs entries id status) (entries' : List (Move × Event)) :
    ToldAs (entries ++ entries') id status := by
  obtain ⟨entry, hmem, htold⟩ := h
  exact ⟨entry, List.mem_append_left _ hmem, htold⟩

structure Chronicled (moves : List Move) (entries : List (Move × Event)) (c : Course) : Prop where
  events : entries.map (·.2) = c.run.log.events
  numbered : c.run.log.IsNumbered
  running : ∀ step, c.run.graph.step? step.id = some step →
    entries.countP (tellsRunning step) = c.announced step.id
  outcome : ∀ id, entries.countP (tellsOutcome id) =
    moves.countP fun move => (move.outcome? id).isSome
  leaving : ∀ id outcome, c.progress? id = some (.leaving outcome) →
    ToldAs entries id outcome.status
  reported : ∀ id status, c.run.statusOf? id = some status → status.isTerminal = true →
    ToldAs entries id status
  order : ∀ step, c.run.graph.step? step.id = some step → step.id ≠ c.triggerId →
    Preceded entries (tellsOutcome step.id) (tellsRunning step)
  fed : ∀ step, c.run.graph.step? step.id = some step →
    ∀ parent ∈ c.run.graph.parents step.id,
      Preceded entries (tellsRunning step) (tellsSuccess parent)

/-- A step that has come to an end has done so before, or has just been reported. -/
theorem Sound.reported_of_takes (h : c.Sound) (htakes : c.Takes move c') {status : StepStatus}
    (hstatus : c'.run.statusOf? id = some status) (hterminal : status.isTerminal = true) :
    c.run.statusOf? id = some status ∨
      ∃ outcome, c.progress? id = some (.leaving outcome) ∧ outcome.status = status := by
  have haffects := htakes.affects
  generalize c'.run = run at haffects hstatus
  cases haffects with
  | stored => exact Or.inl hstatus
  | quiet hquiet => exact Or.inl ((hquiet.statusOf? id).symm.trans hstatus)
  | begun now hphase =>
      have hbefore := (h.statusOf?_begun hphase now id).symm.trans hstatus
      split at hbefore
      · rw [← Option.some.inj hbefore] at hterminal
        cases hterminal
      · exact Or.inl hbefore
  | completed now step outcome released _ hprogress hcompletes =>
      rw [hcompletes.statusOf? (h.running _ _ hprogress)] at hstatus
      split at hstatus
      · rename_i heq
        exact Or.inr ⟨outcome, heq ▸ hprogress, Option.some.inj hstatus⟩
      · split at hstatus
        · rw [← Option.some.inj hstatus] at hterminal
          cases hterminal
        · exact Or.inl hstatus

theorem Chronicled.toldAs_of_takes (h : Chronicled moves entries c) (hsound : c.Sound)
    (htakes : c.Takes move c') {status : StepStatus}
    (hstatus : c'.run.statusOf? id = some status) (hterminal : status.isTerminal = true) :
    ToldAs entries id status := by
  rcases hsound.reported_of_takes htakes hstatus hterminal with hbefore | ⟨outcome, hleaving, rfl⟩
  · exact h.reported id status hbefore hterminal
  · exact h.leaving id outcome hleaving

/-- A step is announced when it leaves the idle status, so its parents have been told of. -/
theorem Chronicled.toldAs_of_running (h : Chronicled moves entries c) (hsound : c.Sound)
    (hstep : c.step move = some c') {step : Step} (hfound : c.run.graph.step? step.id = some step)
    {entry : Move × Event} (hentry : entry ∈ c.annals [move])
    (hrunning : tellsRunning step entry = true) {parent : String}
    (hparent : parent ∈ c.run.graph.parents step.id) : ToldAs entries parent .completed := by
  have htakes := hsound.takes hstep
  obtain ⟨messages, htells, hspeaks⟩ := htakes.speaks
  have hcount := hsound.announced_of_takes htakes hspeaks hfound
  have hpos : 0 < (c.annals [move]).countP (tellsRunning step) :=
    List.countP_pos_iff.mpr ⟨entry, hentry, hrunning⟩
  rw [countP_tellsRunning hstep htells] at hpos
  have hafter : c'.announced step.id ≠ 0 := by omega
  obtain ⟨htrigger, hidle⟩ := (ite_ne_right_iff.mp hafter).1
  have hgraph := (hsound.advances htakes).graph
  have hsound' := (hsound.of_takes htakes).run
  obtain ⟨status, hstatus⟩ := Option.isSome_iff_exists.mp
    ((Run.statusOf?_isSome_iff hsound'.keys).mpr
      (hgraph ▸ Graph.mem_ids_of_parents_ne_nil (List.ne_nil_of_mem hparent)))
  have hfed := (hsound'.fed step.id htrigger
    (.of_eq hstatus fun heq => hidle (heq ▸ hstatus))).2 parent (hgraph ▸ hparent)
  exact h.toldAs_of_takes hsound htakes hfed.2 rfl

theorem Chronicled.of_takes (h : Chronicled moves entries c) (hsound : c.Sound)
    (hstep : c.step move = some c') :
    Chronicled (moves ++ [move]) (entries ++ c.annals [move]) c' := by
  have htakes := hsound.takes hstep
  have hgraph := (hsound.advances htakes).graph
  have htrigger : c'.triggerId = c.triggerId := congrArg (·.trigger.id) hgraph
  obtain ⟨messages, htells, hspeaks⟩ := htakes.speaks
  have hsucceeded {parent : String} (htold : ToldAs entries parent .completed) :
      ∃ entry ∈ entries, tellsSuccess parent entry = true := by
    obtain ⟨entry, hmem, houtcome, hlevel⟩ := htold
    exact ⟨entry, hmem, by simp [tellsSuccess, houtcome, hlevel.mpr rfl]⟩
  have hmentioned {id : String} {outcome : Outcome} (houtcome : move.outcome? id = some outcome) :
      ∃ event, (move, event) ∈ c.annals [move] ∧ ∃ step, event.message = outcome.message step := by
    obtain ⟨step, rfl⟩ := hspeaks.eq_message_of_outcome? houtcome
    obtain ⟨event, hevent, hmessage⟩ :=
      exists_mem_annals hstep htells (List.mem_singleton_self (outcome.message step))
    exact ⟨event, hevent, step, hmessage⟩
  constructor
  case events =>
    obtain ⟨events, hevents, -, hannals⟩ := annals_singleton hstep htells
    rw [List.map_append, h.events, hevents, hannals, List.map_map]
    simp
  case numbered => exact htells.isNumbered h.numbered
  case running =>
    intro step hfound
    rw [hgraph] at hfound
    rw [List.countP_append, h.running step hfound, countP_tellsRunning hstep htells,
      hsound.announced_of_takes htakes hspeaks hfound]
  case outcome =>
    intro id
    rw [List.countP_append, List.countP_append, h.outcome id, countP_tellsOutcome hstep htells,
      List.countP_singleton]
    cases hspeaks with
    | outcome => rfl
    | general hmove => rw [hmove]; rfl
    | report => rfl
  case leaving =>
    intro id outcome hleaving
    rcases hsound.progress?_of_takes htakes hleaving with hbefore | harises
    · exact (h.leaving id outcome hbefore).append _
    · cases harises with
      | finished now incoming ending _ hprogress houtcome =>
          have houtcome' : (Move.finish now id incoming ending).outcome? id = some outcome :=
            (if_pos rfl).trans houtcome
          obtain ⟨event, hmem, hmessage⟩ := hmentioned houtcome'
          refine ⟨_, List.mem_append_right _ hmem, by simp [tellsOutcome, houtcome'], ?_⟩
          obtain ⟨step, hmessage⟩ := hmessage
          rw [hmessage, Outcome.level_message, Outcome.status]
          split <;> decide
  case reported =>
    intro id status hstatus hterminal
    exact (h.toldAs_of_takes hsound htakes hstatus hterminal).append _
  case order =>
    intro step hfound hne
    rw [hgraph] at hfound
    rw [htrigger] at hne
    refine (h.order step hfound hne).append fun entry hentry houtcome => ?_
    -- What the dispatcher tells of is a step that runs, so the step has been announced.
    rw [tellsOutcome, eq_of_mem_annals hstep hentry] at houtcome
    have hrunning := hspeaks.running_of_outcome? hsound houtcome
    have hcount : entries.countP (tellsRunning step) = 1 := by
      rw [h.running step hfound, announced, hrunning, if_pos ⟨hne, by decide⟩]
    exact List.countP_pos_iff.mp (by omega)
  case fed =>
    intro step hfound parent hparent
    rw [hgraph] at hfound hparent
    exact (h.fed step hfound parent hparent).append fun entry hentry hrunning =>
      hsucceeded (h.toldAs_of_running hsound hstep hfound hentry hrunning hparent)

theorem chronicled_register (runId : String) (graph : Graph) (payload : Fields)
    (mode : FailureMode) (observers : List Observer) :
    Chronicled [] [] (register runId graph payload mode observers) where
  events := rfl
  numbered := rfl
  running := by
    intro step hstep
    have hidle := (Run.fresh_create runId graph payload mode observers).idle step.id
      (Graph.mem_ids_of_step? hstep)
    exact (if_neg fun hannounced => hannounced.2 hidle).symm
  outcome := fun _ => rfl
  leaving := by
    intro id outcome hnone
    cases hnone
  reported := by
    intro id status hstatus hterminal
    have hfresh := Run.fresh_create runId graph payload mode observers
    rw [hfresh.isTerminal_eq_false hstatus] at hterminal
    cases hterminal
  order := by
    intro step _ _ before a after hnil
    exact absurd hnil.symm (List.append_ne_nil_of_right_ne_nil before (List.cons_ne_nil a after))
  fed := by
    intro step _ parent _ before a after hnil
    exact absurd hnil.symm (List.append_ne_nil_of_right_ne_nil before (List.cons_ne_nil a after))

theorem chronicled_of_play {runId : String} {graph : Graph} {payload : Fields} {mode : FailureMode}
    {observers : List Observer}
    (hplay : (register runId graph payload mode observers).play moves = some c) :
    Chronicled moves ((register runId graph payload mode observers).annals moves) c := by
  refine ((sound_register runId graph payload mode observers).play_induction
    (P := fun moves after => (register runId graph payload mode observers).play moves = some after →
      Chronicled moves ((register runId graph payload mode observers).annals moves) after)
    (fun _ => chronicled_register runId graph payload mode observers) ?_ hplay).2 hplay
  intro moves before move after hmoves hsound hsofar _ hplay
  rw [annals_append hmoves]
  exact (hsofar hmoves).of_takes hsound (step_of_play_append hmoves hplay)

/-- The dispatcher is through with a step at most once. -/
theorem Sound.countP_outcome?_le_one (h : c.Sound) (hplay : c.play moves = some c') (id : String) :
    moves.countP (fun move => (move.outcome? id).isSome) ≤ 1 := by
  refine h.countP_le_one id 4 (fun before move after _ htakes hmove => ?_) hplay
  cases htakes with
  | finish now step incoming ending outcome hprogress =>
      by_cases heq : step.id = id
      · subst heq
        have hafter (run : Run) : ({ before.put step.id (.leaving outcome) with run }).progress?
            step.id = some (.leaving outcome) := progress?_put_self _ _ _
        rw [stage_of_progress? hprogress, stage_of_progress? (hafter _)]
        exact ⟨Nat.lt_succ_self 3, le_rfl⟩
      · rw [Move.outcome?, if_neg heq] at hmove
        cases hmove
  | interrupt _ _ _ _ _ houtcome =>
      rw [outcome?_finish_of_none houtcome] at hmove
      cases hmove
  | interruptDriver _ _ _ _ houtcome =>
      rw [outcome?_finish_of_none houtcome] at hmove
      cases hmove
  | _ => cases hmove

/-! ### The order of the log -/

/-- The log of a play tells of the steps in the order of the graph. -/
structure FollowsGraph (start : Course) (moves : List Move) (c : Course) : Prop where
  events : (start.annals moves).map (·.2) = c.run.log.events
  numbered : c.run.log.IsNumbered
  running : ∀ step, c.run.graph.step? step.id = some step → step.id ≠ c.triggerId →
    c.run.HasLeftIdle step.id → (start.annals moves).countP (tellsRunning step) = 1
  outcome : ∀ id, (start.annals moves).countP (tellsOutcome id) ≤ 1
  reported : ∀ id, c.run.statusOf? id = some .completed ∨ c.run.statusOf? id = some .failed →
    (start.annals moves).countP (tellsOutcome id) = 1
  order : ∀ step, c.run.graph.step? step.id = some step → step.id ≠ c.triggerId →
    Preceded (start.annals moves) (tellsOutcome step.id) (tellsRunning step)
  fed : ∀ step, c.run.graph.step? step.id = some step →
    ∀ parent ∈ c.run.graph.parents step.id,
      Preceded (start.annals moves) (tellsRunning step) (tellsSuccess parent)
  /-- After the end of the run, no step is announced. -/
  ended : ∀ before later middle, moves = before ++ later → start.play before = some middle →
    middle.run.isTerminated = true → ∀ step, c.run.graph.step? step.id = some step →
      (middle.annals later).countP (tellsRunning step) = 0
  /-- The last word on a completed run is said, or is the next thing that the driver does. -/
  finished : c.run.status = .completed →
    (c.phase = .driving ∧ ∀ now, (c.step (.conclude now)).isSome) ∨
      ∃ events last, c.run.log.events = events ++ [last] ∧ last.message = .finished ∧
        ∀ event ∈ events, event.message ≠ .finished

/-- In every play of a run that is not cancelled before it is stored, with its invocations and calls
to cancel in whatever order, the log follows the graph. -/
theorem log_follows_graph (runId : String) (graph : Graph) (payload : Fields)
    (mode : FailureMode) (observers : List Observer) (moves : List Move) (c : Course)
    (hplay : (register runId graph payload mode observers).play moves = some c)
    (hrace : ¬ StoredAfterCancel moves) :
    FollowsGraph (register runId graph payload mode observers) moves c := by
  have hstart := sound_register runId graph payload mode observers
  have hchronicled := chronicled_of_play hplay
  have honce (id : String) : ((register runId graph payload mode observers).annals moves).countP
      (tellsOutcome id) ≤ 1 := by
    rw [hchronicled.outcome id]
    exact hstart.countP_outcome?_le_one hplay id
  constructor
  case events => exact hchronicled.events
  case numbered => exact hchronicled.numbered
  case running =>
    intro step hstep htrigger hleft
    rw [hchronicled.running step hstep, announced, if_pos ⟨htrigger, hleft.not_idle⟩]
  case outcome => exact honce
  case reported =>
    intro id hreported
    have htold : ∃ status, ToldAs ((register runId graph payload mode observers).annals moves) id
        status := by
      rcases hreported with hstatus | hstatus
      · exact ⟨_, hchronicled.reported id _ hstatus rfl⟩
      · exact ⟨_, hchronicled.reported id _ hstatus rfl⟩
    obtain ⟨status, entry, hmem, houtcome, -⟩ := htold
    exact (honce id).antisymm (List.countP_pos_iff.mpr ⟨entry, hmem, houtcome⟩)
  case order => exact hchronicled.order
  case fed => exact hchronicled.fed
  case ended =>
    intro before later middle hmoves hbefore hended step hstep
    subst hmoves
    have hgraph : middle.run.graph = c.run.graph :=
      (graph_of_play hbefore).trans (graph_of_play hplay).symm
    obtain ⟨_, hbefore', hlater⟩ := exists_of_play_append hplay
    rw [hbefore] at hbefore'
    obtain rfl := Option.some.inj hbefore'
    have hsound := (hstart.play hbefore).1
    have haftermath := aftermath_of_play hbefore hlater hended hrace
    have hsame : c.announced step.id = middle.announced step.id :=
      announced_congr (congrArg (·.trigger.id) hgraph.symm) fun _ =>
        haftermath.statusOf?_idle_iff step.id
    have hcount := hchronicled.running step hstep
    rw [annals_append hbefore, List.countP_append,
      (chronicled_of_play hbefore).running step (hgraph ▸ hstep), hsame] at hcount
    omega
  case finished =>
    intro hcompleted
    have hthrough := through_of_play hplay hcompleted
    by_cases hover : c.phase.isOver = true
    · exact Or.inr ((lastWord_of_play hplay hrace).said hover hcompleted)
    · have hdriving : c.phase = .driving := by
        have hbegun := hthrough.begun
        cases hphase : c.phase <;> simp_all [Phase.isOver, Phase.isUnbegun]
      refine Or.inl ⟨hdriving, fun now => ?_⟩
      rw [step, hdriving]
      simp [hthrough.finished, hthrough.progress]

/-- The right step ends before the left one, and somebody asks for the end of the run when its last
words are said. -/
def toldMoves : List Move :=
  .store :: .begin .origin :: invocation "start" [] ⟨.ok .null, 1⟩ ++
    [.enter "left", .enter "right"] ++ invocation "right" [] ⟨.ok .null, 1⟩ ++
    invocation "left" [] ⟨.ok .null, 2⟩ ++ .enter "join" ::
    invocation "join" [] ⟨.ok .null, 1⟩ ++
    [.conclude .origin, .cancel .origin "Run cancelled" false]

theorem isSome_play_toldMoves :
    ((register "run" diamond [] .failFast []).play toldMoves).isSome := by decide +kernel

def told : Course :=
  ((register "run" diamond [] .failFast []).play toldMoves).get isSome_play_toldMoves

theorem told_of_the_diamond :
    ∃ join left, told.run.graph.step? "join" = some join ∧ told.run.graph.step? "left" = some left ∧
      ((register "run" diamond [] .failFast []).annals toldMoves).countP (tellsRunning join) = 1 ∧
      Preceded ((register "run" diamond [] .failFast []).annals toldMoves)
        (tellsRunning join) (tellsSuccess "left") ∧
      Preceded ((register "run" diamond [] .failFast []).annals toldMoves)
        (tellsOutcome "left") (tellsRunning left) ∧
      told.run.log.events.getLast?.map (·.message) = some .finished := by
  have hplay : (register "run" diamond [] .failFast []).play toldMoves = some told :=
    (Option.some_get _).symm
  have hrace : ¬ StoredAfterCancel toldMoves := by
    rintro ⟨earlier, now, reason, later, hmoves, -⟩
    have hcancel : Move.cancel now reason true ∈ toldMoves := by simp [hmoves]
    simp [toldMoves, invocation] at hcancel
  have hfollows := log_follows_graph "run" diamond [] .failFast [] toldMoves told hplay hrace
  have hgraph : told.run.graph = diamond := graph_of_play hplay
  have htrigger : told.triggerId = "start" := congrArg (·.trigger.id) hgraph
  have hclosing : told.phase = .closing none := by decide +kernel
  have hjoin : told.run.HasLeftIdle "join" := ⟨.completed, by decide +kernel, by decide⟩
  let join : Step := ⟨"join", none, none, .wait none⟩
  let left : Step := ⟨"left", none, none, .wait none⟩
  have hfoundJoin : told.run.graph.step? join.id = some join := hgraph ▸ rfl
  have hfoundLeft : told.run.graph.step? left.id = some left := hgraph ▸ rfl
  have hparent : "left" ∈ told.run.graph.parents join.id := by
    rw [hgraph]
    decide
  have hrunning := hfollows.running join hfoundJoin (by rw [htrigger]; decide) hjoin
  have horder := hfollows.order left hfoundLeft (by rw [htrigger]; decide)
  refine ⟨join, left, hfoundJoin, hfoundLeft, hrunning,
    hfollows.fed join hfoundJoin "left" hparent, horder, ?_⟩
  rcases hfollows.finished (by decide +kernel) with
    ⟨hdriving, -⟩ | ⟨events, last, hevents, hlast, -⟩
  · rw [hclosing] at hdriving
    cases hdriving
  · rw [hevents, List.getLast?_concat, Option.map_some, hlast]

end Course

end Workflow
