import Workflow.Proofs.Course.Invariant

/-!
# What a step waits for and what it receives

A step is dispatched after its parents have completed, and is handed what they have committed. What
is committed once never changes, so it does not matter when the step is handed it.
-/

namespace Workflow

namespace Incoming

/-- What a result holds under a key, if it is a mapping. -/
def held? (key : Scalar) (result : Value) : Option Value :=
  Table.find? (Table.ofEntries (entries result)) key

/-- Under each key stands what the last result that holds the key holds. -/
theorem find?_merge (results : List Value) (key : Scalar) :
    Table.find? (merge results) key = results.reverse.findSome? (held? key) := by
  induction results using List.reverseRecOn with
  | nil => rfl
  | append_singleton results result ih =>
      have hmerge : merge (results ++ [result]) = (merge results).insertAll (entries result) := by
        simp [merge]
      rw [hmerge, Table.find?_insertAll, ih, List.reverse_append, List.reverse_singleton,
        List.singleton_append, List.findSome?_cons, held?]
      cases Table.find? (Table.ofEntries (entries result)) key <;> rfl

end Incoming

namespace Course

variable {c c' : Course} {moves : List Move}

/-- What a step has been handed is what its run holds for it. -/
theorem Sound.incoming_of_hand (h : c.Sound) (hplay : c.play moves = some c') {id : String}
    {incoming : Fields} (hhand : .hand id incoming ∈ moves) :
    c'.run.HasLeftIdle id ∧ c'.run.incoming id = incoming := by
  refine (h.play_induction (P := fun moves after => ∀ id incoming, .hand id incoming ∈ moves →
    after.run.HasLeftIdle id ∧ after.run.incoming id = incoming) (by simp) ?_ hplay).2 id incoming
      hhand
  intro moves before move after _ hsound hsofar htakes id incoming hhand
  rcases List.mem_append.mp hhand with hbefore | hlast
  · obtain ⟨hleft, hincoming⟩ := hsofar id incoming hbefore
    have hadvances := hsound.advances htakes
    exact ⟨hadvances.leftIdle id hleft, (hadvances.incoming hsound.run.toCoherent
      (hsound.of_takes htakes).run.toCoherent hleft).trans hincoming⟩
  · obtain rfl := List.mem_singleton.mp hlast
    cases htakes with
    | hand id incoming hprogress =>
        exact ⟨.of_eq (hsound.running id _ hprogress) (by decide),
          (hsound.fits id (.entering incoming) hprogress).symm⟩

theorem graph_of_play {runId : String} {graph : Graph} {payload : Fields} {mode : FailureMode}
    {observers : List Observer}
    (hplay : (register runId graph payload mode observers).play moves = some c) :
    c.run.graph = graph :=
  ((sound_register runId graph payload mode observers).play hplay).2.graph

/-- Wherever a run stands, a step that has been dispatched has parents, all of them have completed
with the results that the run holds, and nothing that leads to it has failed. What a step has been
handed is merged from the results of its parents, in the order of its incoming edges, so a later
parent wins on a key that several of them hold. -/
theorem dispatched_after_parents_and_handed_their_results (runId : String) (graph : Graph)
    (payload : Fields) (mode : FailureMode) (observers : List Observer) (moves : List Move)
    (c : Course) (hplay : (register runId graph payload mode observers).play moves = some c) :
    (∀ id, id ≠ graph.trigger.id → c.run.HasLeftIdle id →
      graph.parents id ≠ [] ∧
        (∀ parent ∈ graph.parents id, ∃ report, c.run.report? parent = some report ∧
          report.status = .completed ∧ Table.find? c.run.results parent = some report.result) ∧
        ∀ ancestor, graph.LeadsTo ancestor id → c.run.statusOf? ancestor ≠ some .failed) ∧
    ∀ id incoming, id ≠ graph.trigger.id → .hand id incoming ∈ moves →
      (∀ parent ∈ graph.parents id, ∃ result, Table.find? c.run.results parent = some result) ∧
        incoming = Incoming.merge ((graph.parents id).map fun parent =>
          (Table.find? c.run.results parent).getD .null) ∧
        ∀ key, Table.find? incoming key = (graph.parents id).reverse.findSome? fun parent =>
          (Table.find? c.run.results parent).bind (Incoming.held? key) := by
  have hstart := sound_register runId graph payload mode observers
  have hsound := (hstart.play hplay).1.run.toCoherent
  obtain rfl := graph_of_play hplay
  have hfed (id : String) (htrigger : id ≠ c.run.graph.trigger.id) (hleft : c.run.HasLeftIdle id)
      (parent : String) (hparent : parent ∈ c.run.graph.parents id) :
      ∃ report, c.run.report? parent = some report ∧ report.status = .completed ∧
        Table.find? c.run.results parent = some report.result := by
    obtain ⟨hprocessed, hcompleted⟩ := (hsound.fed id htrigger hleft).2 parent hparent
    obtain ⟨report, hreport, hstatus⟩ := Run.statusOf?_eq_some_iff.mp hcompleted
    exact ⟨report, hreport, hstatus,
      (hsound.committed parent _).mpr ⟨hprocessed, report, hreport, hstatus, rfl⟩⟩
  refine ⟨fun id htrigger hleft => ⟨(hsound.fed id htrigger hleft).1, hfed id htrigger hleft, ?_⟩,
    fun id incoming htrigger hhand => ?_⟩
  · intro ancestor hpath hfailed
    have hcompleted := hsound.completed_of_leadsTo hpath (.of_eq hfailed (by decide)) hleft
    rw [hfailed] at hcompleted
    cases hcompleted
  · obtain ⟨hleft, rfl⟩ := hstart.incoming_of_hand hplay hhand
    refine ⟨fun parent hparent => ?_, rfl, fun key => ?_⟩
    · obtain ⟨report, -, -, hresult⟩ := hfed id htrigger hleft parent hparent
      exact ⟨report.result, hresult⟩
    · rw [Run.incoming, Incoming.find?_merge, Run.parentResults, ← List.map_reverse,
        List.findSome?_map]
      refine congrArg (List.findSome? · _) (funext fun parent => ?_)
      cases hresult : Table.find? c.run.results parent with
      | none =>
          simp [hresult, Incoming.held?, Incoming.entries, Table.ofEntries, Table.insertAll]
          rfl
      | some result => simp [hresult]

/-- The right step ends first, and the run is cancelled once the last step has been handed what the
other two have brought. -/
def diamondMoves : List Move :=
  .store :: .begin .origin :: invocation "start" [] ⟨.ok .null, 1⟩ ++
    [.enter "left", .enter "right"] ++
    invocation "right" [] ⟨.ok (.record [("key", .int 2), ("right", .null)]), 1⟩ ++
    invocation "left" [] ⟨.ok (.record [("key", .int 1)]), 1⟩ ++
    [.enter "join", .hand "join" (Fields.named [("key", .int 1), ("right", .null)]),
      .cancel .origin "Run cancelled" true]

theorem isSome_play_diamondMoves :
    ((register "run" diamond [] .proceed []).play diamondMoves).isSome := by decide +kernel

theorem handed_at_the_join : ∃ c,
    (register "run" diamond [] .proceed []).play diamondMoves = some c ∧
    c.run.statusOf? "join" = some .running ∧
    Table.find? c.run.results "left" = some (.record [("key", .int 1)]) ∧
    ∀ key, Table.find? (Fields.named [("key", .int 1), ("right", .null)]) key =
      ["left", "right"].findSome? fun parent =>
        (Table.find? c.run.results parent).bind (Incoming.held? key) := by
  have hplay := (Option.some_get isSome_play_diamondMoves).symm
  have hhand : .hand "join" (Fields.named [("key", .int 1), ("right", .null)]) ∈ diamondMoves := by
    simp [diamondMoves, invocation]
  exact ⟨_, hplay, by decide +kernel, by decide +kernel,
    ((dispatched_after_parents_and_handed_their_results _ _ _ _ _ _ _ hplay).2 "join" _ (by decide)
      hhand).2.2⟩

end Course

end Workflow
