import Workflow.Proofs.Course.Calm
import Mathlib.Order.Bounds.Defs

/-!
# The order of completions does not matter

A calm play that is played out has invoked exactly the steps it had to invoke, each with what its
parents have come to, whatever order the invocations have ended in. So what becomes of a run depends
on its graph and on what its steps come to, and on nothing else.
-/

namespace Workflow

namespace Course

variable {behave : Conduct} {start c c' : Course} {moves moves' : List Move} {id : String}

/-- The run has begun, and no invocation goes on. -/
def NothingLeft (c : Course) : Prop :=
  c.phase ≠ .registered ∧ c.phase ≠ .waiting ∧ c.invocations = []

/-- A calm play after which nothing is left to run. No step fails in it if the run fails fast. -/
structure RunsOut (start : Course) (behave : Conduct) (moves : List Move) (c : Course) : Prop where
  play : start.play moves = some c
  calm : ∀ move ∈ moves, move.IsCalm behave
  unfailing : start.run.failureMode = .proceed ∨
    ∀ id incoming, .hand id incoming ∈ moves → ∃ value, behave id incoming = .ok value
  nothingLeft : c.NothingLeft

def invoked (moves : List Move) : Set String := { id | ∃ incoming, .hand id incoming ∈ moves }

/-- The invocation of a step comes to a result. -/
def Yields (behave : Conduct) (moves : List Move) (id : String)
    (result : Except Failure Value) : Prop :=
  ∃ incoming, .hand id incoming ∈ moves ∧ behave id incoming = result

/-- The trigger is among some steps, and so is every step that waits for steps among them only, if
these have succeeded. -/
def IsClosed (graph : Graph) (Succeeds : String → Prop) (steps : Set String) : Prop :=
  graph.trigger.id ∈ steps ∧ ∀ id, id ≠ graph.trigger.id → graph.parents id ≠ [] →
    (∀ parent ∈ graph.parents id, parent ∈ steps ∧ Succeeds parent) → id ∈ steps

/-- How a course stands when a calm play of it is played out. -/
structure Final (behave : Conduct) (moves : List Move) (c : Course) : Prop where
  sound : c.Sound
  calm : Calm behave moves c
  begun : c.phase.isUnbegun = false
  through : c.invocations = []
  handed : ∀ id incoming, .hand id incoming ∈ moves → c.run.incoming id = incoming
  unaborted : ¬ c.run.IsAborted

theorem RunsOut.final {runId : String} {graph : Graph} {payload : Fields} {mode : FailureMode}
    {observers : List Observer}
    (h : RunsOut (register runId graph payload mode observers) behave moves c) :
    Final behave moves c := by
  have hstart := sound_register runId graph payload mode observers
  obtain ⟨hsound, hadvances⟩ := hstart.play h.play
  have hcalm := calm_of_play h.play h.calm h.unfailing
  obtain ⟨hregistered, hwaiting, hthrough⟩ := h.nothingLeft
  have hhanded (id : String) (incoming : Fields) (hhand : .hand id incoming ∈ moves) :
      c.run.incoming id = incoming := (hstart.incoming_of_hand h.play hhand).2
  refine ⟨hsound, hcalm, ?_, hthrough, hhanded, ?_⟩
  · have htaken := hcalm.taken
    cases hphase : c.phase <;> simp_all [Phase.isUnbegun]
  · rintro ⟨hfast, id, -, hfailed⟩
    rw [hadvances.failureMode] at hfast
    have hunfailing := h.unfailing.resolve_left (by rw [hfast]; simp)
    obtain ⟨report, hreport, hstatus⟩ := Run.statusOf?_eq_some_iff.mp hfailed
    obtain ⟨failure, hfailure, -⟩ := hcalm.run.failed id report hreport hstatus
    obtain ⟨incoming, hhand⟩ := (hcalm.handed id).mpr ⟨.of_eq hfailed (by decide), by
      rw [progress?, hthrough]
      simp [Table.find?]⟩
    obtain ⟨value, hvalue⟩ := hunfailing id incoming hhand
    rw [hhanded id incoming hhand, hvalue] at hfailure
    cases hfailure

namespace Final

theorem progress?_eq_none (h : Final behave moves c) (id : String) : c.progress? id = none := by
  rw [progress?, h.through]
  rfl

theorem mem_invoked_iff (h : Final behave moves c) : id ∈ invoked moves ↔ c.run.HasLeftIdle id := by
  refine (h.calm.handed id).trans (and_iff_left ?_)
  rw [h.progress?_eq_none]
  simp

theorem yields_iff (h : Final behave moves c) {result : Except Failure Value} :
    Yields behave moves id result ↔
      c.run.HasLeftIdle id ∧ behave id (c.run.incoming id) = result := by
  rw [← h.mem_invoked_iff]
  constructor
  · rintro ⟨incoming, hhand, hresult⟩
    exact ⟨⟨incoming, hhand⟩, (h.handed id incoming hhand).symm ▸ hresult⟩
  · rintro ⟨⟨incoming, hhand⟩, hresult⟩
    exact ⟨incoming, hhand, h.handed id incoming hhand ▸ hresult⟩

/-- A step that has left the idle status has been reported as it was bound to be. -/
theorem report?_of_hasLeftIdle (h : Final behave moves c) (hleft : c.run.HasLeftIdle id) :
    ∃ report, c.run.report? id = some report ∧ id ∈ c.run.processed ∧
      (report.status = .completed ∧ behave id (c.run.incoming id) = .ok report.result ∨
        report.status = .failed ∧ ∃ failure, behave id (c.run.incoming id) = .error failure ∧
          report.errorCode = some failure.code) := by
  obtain ⟨status, hstatus, hidle⟩ := hleft
  obtain ⟨report, hreport, heq⟩ := Run.statusOf?_eq_some_iff.mp hstatus
  have hprocessed (hterminal : status.isTerminal = true) : id ∈ c.run.processed :=
    h.calm.run.processed id status hstatus hterminal
  subst heq
  cases hcase : report.status with
  | idle => exact absurd hcase hidle
  | running =>
      -- A step that runs is being invoked, and no invocation is left.
      obtain ⟨progress, hprogress⟩ := h.calm.invoked id (hcase ▸ hstatus)
      rw [h.progress?_eq_none] at hprogress
      cases hprogress
  | completed =>
      exact ⟨report, hreport, hprocessed (by rw [hcase]; rfl),
        Or.inl ⟨hcase, h.calm.run.completed id report hreport hcase⟩⟩
  | failed =>
      exact ⟨report, hreport, hprocessed (by rw [hcase]; rfl),
        Or.inr ⟨hcase, h.calm.run.failed id report hreport hcase⟩⟩

theorem statusOf?_ne_running (h : Final behave moves c) (id : String) :
    c.run.statusOf? id ≠ some .running := by
  intro hrunning
  obtain ⟨progress, hprogress⟩ := h.calm.invoked id hrunning
  rw [h.progress?_eq_none] at hprogress
  cases hprogress

theorem statusOf?_completed_iff (h : Final behave moves c) :
    c.run.statusOf? id = some .completed ↔
      c.run.HasLeftIdle id ∧ ∃ value, behave id (c.run.incoming id) = .ok value := by
  constructor
  · intro hcompleted
    obtain ⟨report, hreport, hstatus⟩ := Run.statusOf?_eq_some_iff.mp hcompleted
    exact ⟨.of_eq hcompleted (by decide), report.result,
      h.calm.run.completed id report hreport hstatus⟩
  · rintro ⟨hleft, value, hvalue⟩
    obtain ⟨report, hreport, -, ⟨hstatus, -⟩ | ⟨-, failure, hfailure, -⟩⟩ :=
      h.report?_of_hasLeftIdle hleft
    · exact Run.statusOf?_eq_some_iff.mpr ⟨report, hreport, hstatus⟩
    · rw [hvalue] at hfailure
      cases hfailure

theorem statusOf?_failed_iff (h : Final behave moves c) :
    c.run.statusOf? id = some .failed ↔
      c.run.HasLeftIdle id ∧ ∃ failure, behave id (c.run.incoming id) = .error failure := by
  constructor
  · intro hfailed
    obtain ⟨report, hreport, hstatus⟩ := Run.statusOf?_eq_some_iff.mp hfailed
    obtain ⟨failure, hfailure, -⟩ := h.calm.run.failed id report hreport hstatus
    exact ⟨.of_eq hfailed (by decide), failure, hfailure⟩
  · rintro ⟨hleft, failure, hfailure⟩
    obtain ⟨report, hreport, -, ⟨-, hvalue⟩ | ⟨hstatus, -⟩⟩ := h.report?_of_hasLeftIdle hleft
    · rw [hfailure] at hvalue
      cases hvalue
    · exact Run.statusOf?_eq_some_iff.mpr ⟨report, hreport, hstatus⟩

theorem statusOf?_idle_iff (h : Final behave moves c) :
    c.run.statusOf? id = some .idle ↔ id ∈ c.run.graph.ids ∧ ¬ c.run.HasLeftIdle id := by
  rw [← Run.statusOf?_isSome_iff h.sound.run.keys]
  constructor
  · intro hidle
    exact ⟨by rw [hidle]; rfl, fun hleft => hleft.not_idle hidle⟩
  · rintro ⟨hsome, hnot⟩
    obtain ⟨status, hstatus⟩ := Option.isSome_iff_exists.mp hsome
    by_contra hne
    exact hnot (.of_eq hstatus fun heq => hne (heq ▸ hstatus))

theorem find?_results_iff (h : Final behave moves c) {value : Value} :
    Table.find? c.run.results id = some value ↔
      c.run.HasLeftIdle id ∧ behave id (c.run.incoming id) = .ok value := by
  rw [h.sound.run.committed]
  constructor
  · rintro ⟨-, report, hreport, hstatus, rfl⟩
    exact ⟨.of_eq (Run.statusOf?_eq_some_iff.mpr ⟨report, hreport, hstatus⟩) (by decide),
      h.calm.run.completed id report hreport hstatus⟩
  · rintro ⟨hleft, hvalue⟩
    obtain ⟨report, hreport, hprocessed, ⟨hstatus, hresult⟩ | ⟨-, failure, hfailure, -⟩⟩ :=
      h.report?_of_hasLeftIdle hleft
    · rw [hvalue] at hresult
      exact ⟨hprocessed, report, hreport, hstatus, (Except.ok.inj hresult).symm⟩
    · rw [hvalue] at hfailure
      cases hfailure

/-- No step is held back whose parents have all completed. -/
theorem not_mem_blocked (h : Final behave moves c)
    (hparents : ∀ parent ∈ c.run.graph.parents id, c.run.statusOf? parent = some .completed) :
    id ∉ c.run.blocked := by
  intro hblocked
  obtain ⟨-, failed, -, hfailed, hpath⟩ := (h.sound.run.heldBack id).mp hblocked
  have hcompleted : c.run.statusOf? failed = some .completed := by
    cases hpath with
    | single hleads => exact hparents failed (Graph.leads_iff_mem_parents.mp hleads)
    | tail hpath hleads =>
        have hparent := hparents _ (Graph.leads_iff_mem_parents.mp hleads)
        exact h.sound.run.completed_of_leadsTo hpath (.of_eq hfailed (by decide))
          (.of_eq hparent (by decide))
  rw [hfailed] at hcompleted
  cases hcompleted

/-- Exactly the trigger has been invoked and, of the other steps, those that have parents and whose
parents have all completed. -/
theorem hasLeftIdle_iff (h : Final behave moves c) :
    c.run.HasLeftIdle id ↔ id = c.run.graph.trigger.id ∨
      id ≠ c.run.graph.trigger.id ∧ c.run.graph.parents id ≠ [] ∧
        ∀ parent ∈ c.run.graph.parents id, c.run.statusOf? parent = some .completed := by
  constructor
  · intro hleft
    by_cases htrigger : id = c.run.graph.trigger.id
    · exact Or.inl htrigger
    · obtain ⟨hparents, hfed⟩ := h.sound.run.fed id htrigger hleft
      exact Or.inr ⟨htrigger, hparents, fun parent hparent => (hfed parent hparent).2⟩
  · rintro (rfl | ⟨-, hparents, hcompleted⟩)
    · exact h.calm.begun h.begun
    · by_contra hnot
      have hidle := h.statusOf?_idle_iff.mpr ⟨Graph.mem_ids_of_parents_ne_nil hparents, hnot⟩
      refine h.sound.run.exhausted.resolve_left h.unaborted id (Run.isReady_iff.mpr
        ⟨fun hmem => ?_, h.not_mem_blocked hcompleted, hidle, hparents, fun parent hparent => ?_⟩)
      · rcases h.sound.run.ended id hmem with hstatus | hstatus <;>
          exact hnot (.of_eq hstatus (by decide))
      · exact h.calm.run.processed parent _ (hcompleted parent hparent) rfl

theorem isTerminated (h : Final behave moves c) : c.run.isTerminated = true := by
  by_contra hopen
  rw [Bool.not_eq_true] at hopen
  obtain ⟨id, hrunning⟩ := h.calm.lively h.begun hopen
  exact h.statusOf?_ne_running id hrunning

theorem isLeast_invoked (h : Final behave moves c) :
    IsLeast { steps | IsClosed c.run.graph (fun id => ∃ value, Yields behave moves id (.ok value))
      steps } (invoked moves) := by
  refine ⟨⟨h.mem_invoked_iff.mpr (h.calm.begun h.begun), fun id htrigger hparents hall => ?_⟩,
    fun steps hclosed id => ?_⟩
  · refine h.mem_invoked_iff.mpr (h.hasLeftIdle_iff.mpr (Or.inr ⟨htrigger, hparents, ?_⟩))
    intro parent hparent
    obtain ⟨value, hyields⟩ := (hall parent hparent).2
    obtain ⟨hleft, hvalue⟩ := h.yields_iff.mp hyields
    exact h.statusOf?_completed_iff.mpr ⟨hleft, value, hvalue⟩
  · -- Any closed set holds an invoked step once it holds the parents of the step.
    rw [h.mem_invoked_iff]
    induction id using Graph.parents_induction (g := c.run.graph) with
    | hstep id ih =>
        intro hleft
        rcases h.hasLeftIdle_iff.mp hleft with rfl | ⟨htrigger, hparents, hcompleted⟩
        · exact hclosed.1
        · refine hclosed.2 id htrigger hparents fun parent hparent => ?_
          obtain ⟨hleft', value, hvalue⟩ :=
            h.statusOf?_completed_iff.mp (hcompleted parent hparent)
          exact ⟨ih parent hparent hleft', value, h.yields_iff.mpr ⟨hleft', hvalue⟩⟩

/-- The verdict on a run names the failed steps in the order of their declaration. -/
theorem verdict (h : Final behave moves c) :
    match c.run.graph.ids.filter (c.run.hasStatus .failed) with
    | [] => c.run.status = .completed ∧ c.run.error = none ∧ c.run.errorCode = none
    | first :: rest => c.run.status = .failed ∧
      c.run.error =
        some (toString (rest.length + 1) ++ " step(s) failed: " ++ Run.noted (first :: rest)) ∧
      ∃ failure, Yields behave moves first (.error failure) ∧
        c.run.errorCode = some failure.code := by
  have hsettled := (h.calm.run.settled h.isTerminated).2
  have hfailures := h.sound.run.committedFailures_eq fun id hfailed =>
    h.calm.run.processed id _ hfailed rfl
  rw [Run.IsSettled, hfailures] at hsettled
  cases hlist : c.run.graph.ids.filter (c.run.hasStatus .failed) with
  | nil =>
      rw [hlist] at hsettled
      exact hsettled
  | cons first rest =>
      rw [hlist] at hsettled
      obtain ⟨hstatus, herror, hcode⟩ := hsettled
      refine ⟨hstatus, herror, ?_⟩
      have hmem : first ∈ c.run.graph.ids.filter (c.run.hasStatus .failed) := by
        rw [hlist]
        exact List.mem_cons_self
      have hfailed := Run.hasStatus_iff.mp (List.mem_filter.mp hmem).2
      obtain ⟨report, hreport, hfailed'⟩ := Run.statusOf?_eq_some_iff.mp hfailed
      obtain ⟨failure, hfailure, hcode'⟩ := h.calm.run.failed first report hreport hfailed'
      refine ⟨failure, h.yields_iff.mpr ⟨.of_eq hfailed (by decide), hfailure⟩, ?_⟩
      rw [hcode, hreport]
      exact hcode'

theorem agree (h : Final behave moves c) (h' : Final behave moves' c')
    (hgraph : c'.run.graph = c.run.graph) (id : String) :
    (c'.run.HasLeftIdle id ↔ c.run.HasLeftIdle id) ∧
      c'.run.incoming id = c.run.incoming id ∧
      c'.run.statusOf? id = c.run.statusOf? id ∧
      Table.find? c'.run.results id = Table.find? c.run.results id := by
  -- How the parents stand decides whether a step is invoked and with what, and so how it ends.
  induction id using Graph.parents_induction (g := c.run.graph) with
  | hstep id ih =>
      have hleft : c'.run.HasLeftIdle id ↔ c.run.HasLeftIdle id := by
        rw [h.hasLeftIdle_iff, h'.hasLeftIdle_iff, hgraph]
        refine or_congr_right (and_congr_right fun _ => and_congr_right fun _ =>
          forall_congr' fun parent => imp_congr_right fun hparent => ?_)
        rw [(ih parent hparent).2.2.1]
      have hincoming : c'.run.incoming id = c.run.incoming id := by
        by_cases htrigger : id = c.run.graph.trigger.id
        · have htrigger' : id = c'.run.graph.trigger.id := hgraph ▸ htrigger
          rw [htrigger, h.sound.run.incoming_trigger, ← htrigger, htrigger',
            h'.sound.run.incoming_trigger]
        · rw [Run.incoming, Run.incoming, Run.parentResults, Run.parentResults, hgraph]
          refine congrArg _ (List.map_congr_left fun parent hparent => ?_)
          rw [(ih parent hparent).2.2.2]
      refine ⟨hleft, hincoming, Option.ext fun status => ?_, Option.ext fun value => ?_⟩
      · cases status with
        | idle => rw [h.statusOf?_idle_iff, h'.statusOf?_idle_iff, hleft, hgraph]
        | running =>
            exact iff_of_false (h'.statusOf?_ne_running id) (h.statusOf?_ne_running id)
        | completed =>
            rw [h.statusOf?_completed_iff, h'.statusOf?_completed_iff, hleft, hincoming]
        | failed => rw [h.statusOf?_failed_iff, h'.statusOf?_failed_iff, hleft, hincoming]
      · rw [h.find?_results_iff, h'.find?_results_iff, hleft, hincoming]

theorem verdict_agree (h : Final behave moves c) (h' : Final behave moves' c')
    (hgraph : c'.run.graph = c.run.graph) :
    c'.run.status = c.run.status ∧ c'.run.error = c.run.error ∧
      c'.run.errorCode = c.run.errorCode := by
  have hfailed : c'.run.graph.ids.filter (c'.run.hasStatus .failed) =
      c.run.graph.ids.filter (c.run.hasStatus .failed) := by
    rw [hgraph]
    refine List.filter_congr fun id _ => Bool.eq_iff_iff.mpr ?_
    rw [Run.hasStatus_iff, Run.hasStatus_iff, (h.agree h' hgraph id).2.2.1]
  have hverdict := h.verdict
  have hverdict' := h'.verdict
  rw [hfailed] at hverdict'
  cases hlist : c.run.graph.ids.filter (c.run.hasStatus .failed) with
  | nil =>
      rw [hlist] at hverdict hverdict'
      obtain ⟨hstatus, herror, hcode⟩ := hverdict
      obtain ⟨hstatus', herror', hcode'⟩ := hverdict'
      exact ⟨hstatus'.trans hstatus.symm, herror'.trans herror.symm, hcode'.trans hcode.symm⟩
  | cons first rest =>
      rw [hlist] at hverdict hverdict'
      obtain ⟨hstatus, herror, failure, hyields, hcode⟩ := hverdict
      obtain ⟨hstatus', herror', failure', hyields', hcode'⟩ := hverdict'
      have hfailure := (h.yields_iff.mp hyields).2
      have hfailure' := (h'.yields_iff.mp hyields').2
      rw [(h.agree h' hgraph first).2.1, hfailure] at hfailure'
      obtain rfl := Except.error.inj hfailure'
      exact ⟨hstatus'.trans hstatus.symm, herror'.trans herror.symm, hcode'.trans hcode.symm⟩

end Final

/-- Whatever the order in which invocations end, a run that is neither cancelled nor disturbed by
the repository ends, and what it has come to by then is determined by its graph and by what its
steps come to. -/
theorem schedule_independent (runId : String) (graph : Graph) (payload : Fields)
    (mode : FailureMode) (observers : List Observer) (behave : Conduct) (moves : List Move)
    (c : Course) (h : RunsOut (register runId graph payload mode observers) behave moves c) :
    c.run.isTerminated = true ∧
    IsLeast { steps | IsClosed graph (fun id => ∃ value, Yields behave moves id (.ok value)) steps }
      (invoked moves) ∧
    ((∀ id value, Yields behave moves id (.ok value) → c.run.statusOf? id = some .completed) ∧
      (∀ id failure, Yields behave moves id (.error failure) → c.run.statusOf? id = some .failed) ∧
      ∀ id ∈ graph.ids, id ∉ invoked moves → c.run.statusOf? id = some .idle) ∧
    (∀ id value, Table.find? c.run.results id = some value ↔ Yields behave moves id (.ok value)) ∧
    (match graph.ids.filter (c.run.hasStatus .failed) with
      | [] => c.run.status = .completed ∧ c.run.error = none ∧ c.run.errorCode = none
      | first :: rest => c.run.status = .failed ∧
        c.run.error =
          some (toString (rest.length + 1) ++ " step(s) failed: " ++ Run.noted (first :: rest)) ∧
        ∃ failure, Yields behave moves first (.error failure) ∧
          c.run.errorCode = some failure.code) ∧
    ∀ moves' c', RunsOut (register runId graph payload mode observers) behave moves' c' →
      invoked moves' = invoked moves ∧
      (c'.run.status = c.run.status ∧ c'.run.error = c.run.error ∧
        c'.run.errorCode = c.run.errorCode) ∧
      ∀ id, c'.run.statusOf? id = c.run.statusOf? id ∧
        Table.find? c'.run.results id = Table.find? c.run.results id := by
  have hfinal := h.final
  obtain rfl := graph_of_play h.play
  refine ⟨hfinal.isTerminated, hfinal.isLeast_invoked, ⟨fun id value hyields => ?_,
    fun id failure hyields => ?_, fun id hid hnot => ?_⟩, fun id value => ?_, hfinal.verdict,
    fun moves' c' h' => ?_⟩
  · obtain ⟨hleft, hvalue⟩ := hfinal.yields_iff.mp hyields
    exact hfinal.statusOf?_completed_iff.mpr ⟨hleft, value, hvalue⟩
  · obtain ⟨hleft, hfailure⟩ := hfinal.yields_iff.mp hyields
    exact hfinal.statusOf?_failed_iff.mpr ⟨hleft, failure, hfailure⟩
  · rw [hfinal.mem_invoked_iff] at hnot
    exact hfinal.statusOf?_idle_iff.mpr ⟨hid, hnot⟩
  · rw [hfinal.find?_results_iff, hfinal.yields_iff]
  · have hgraph : c'.run.graph = c.run.graph := graph_of_play h'.play
    have hagree := hfinal.agree h'.final hgraph
    refine ⟨Set.ext fun id => ?_, hfinal.verdict_agree h'.final hgraph, fun id =>
      (hagree id).2.2⟩
    rw [h'.final.mem_invoked_iff, hfinal.mem_invoked_iff]
    exact (hagree id).1

/-- Every step brings its name. -/
def naming : Conduct := fun id _ => .ok (.record [("by", .str id)])

/-- The two steps in the middle end one after the other. -/
def inOrder (first second : String) : List Move :=
  let named (id : String) : Fields := Fields.named [("by", .str id)]
  .store :: .begin .origin :: invocation "start" [] ⟨naming "start" [], 1⟩ ++
    [.enter first, .enter second] ++
    invocation first (named "start") ⟨naming first (named "start"), 1⟩ ++
    invocation second (named "start") ⟨naming second (named "start"), 2⟩ ++
    .enter "join" :: invocation "join" (named "left") ⟨naming "join" (named "left"), 1⟩

theorem isSome_play_leftFirst :
    ((register "run" diamond [] .failFast []).play (inOrder "left" "right")).isSome := by
  decide +kernel

theorem isSome_play_rightFirst :
    ((register "run" diamond [] .failFast []).play (inOrder "right" "left")).isSome := by
  decide +kernel

theorem diamond_in_either_order : ∃ c c',
    RunsOut (register "run" diamond [] .failFast []) naming (inOrder "left" "right") c ∧
    RunsOut (register "run" diamond [] .failFast []) naming (inOrder "right" "left") c' ∧
    c.run.isTerminated = true ∧ c.run.status = .completed ∧ c'.run.status = c.run.status ∧
    Table.find? c'.run.results "join" = Table.find? c.run.results "join" := by
  have hleft : RunsOut (register "run" diamond [] .failFast []) naming (inOrder "left" "right")
      (((register "run" diamond [] .failFast []).play (inOrder "left" "right")).get
        isSome_play_leftFirst) :=
    ⟨(Option.some_get _).symm, by simp [inOrder, invocation, Move.IsCalm, naming],
      Or.inr fun _ _ _ => ⟨_, rfl⟩, by decide +kernel, by decide +kernel,
      List.isEmpty_iff.mp (by decide +kernel)⟩
  have hright : RunsOut (register "run" diamond [] .failFast []) naming (inOrder "right" "left")
      (((register "run" diamond [] .failFast []).play (inOrder "right" "left")).get
        isSome_play_rightFirst) :=
    ⟨(Option.some_get _).symm, by simp [inOrder, invocation, Move.IsCalm, naming],
      Or.inr fun _ _ _ => ⟨_, rfl⟩, by decide +kernel, by decide +kernel,
      List.isEmpty_iff.mp (by decide +kernel)⟩
  obtain ⟨hended, -, -, -, -, hsame⟩ := schedule_independent _ _ _ _ _ _ _ _ hleft
  obtain ⟨-, ⟨hstatus, -⟩, hsteps⟩ := hsame _ _ hright
  exact ⟨_, _, hleft, hright, hended, by decide +kernel, hstatus, (hsteps "join").2⟩

end Course

end Workflow
