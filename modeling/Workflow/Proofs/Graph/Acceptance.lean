import Workflow.Proofs.Graph.Visiting

/-!
# Which definitions are graphs

A definition is refused for what is wrong with its ids and edges before its triggers are counted,
and it is accepted when neither is the case. Then its steps can be put in an order in which every
edge goes forwards.
-/

namespace Workflow

open Relation

namespace Definition

variable {d : Definition}

/-- What may be wrong with the ids and edges of a definition. -/
inductive IsFaulty (d : Definition) : Prop
  | repeatedId (i j : Fin d.steps.length) (hne : i ≠ j)
    (hsame : (d.steps.get i).id = (d.steps.get j).id)
  | unknownStep (e : Edge) (hmem : e ∈ d.edges)
    (hunknown : e.source ∉ d.stepIds ∨ e.target ∉ d.stepIds)
  | selfEdge (e : Edge) (hmem : e ∈ d.edges) (hself : e.source = e.target)
  /-- A path of at least one edge leads from a step to itself. -/
  | cycle (id : String) (hcycle : TransGen d.Joins id id)

theorem nodup_stepIds_iff :
    d.stepIds.Nodup ↔
      ∀ i j : Fin d.steps.length, i ≠ j → (d.steps.get i).id ≠ (d.steps.get j).id := by
  rw [stepIds, List.Nodup, List.pairwise_map, List.pairwise_iff_getElem]
  constructor
  · intro hlt i j hne heq
    rcases Nat.lt_or_gt_of_ne (Fin.val_ne_of_ne hne) with hij | hji
    · exact hlt i j i.isLt j.isLt hij heq
    · exact hlt j i j.isLt i.isLt hji heq.symm
  · intro hne i j hi hj hij
    exact hne ⟨i, hi⟩ ⟨j, hj⟩ (by simpa using hij.ne)

/-- The three tests that a definition has to pass find every fault. -/
theorem not_isFaulty_iff :
    ¬ d.IsFaulty ↔ d.stepIds.Nodup ∧ (∀ e ∈ d.edges, d.IsSound e) ∧ d.IsAcyclic := by
  constructor
  · intro hfit
    have hnodup : d.stepIds.Nodup := nodup_stepIds_iff.mpr fun i j hne hsame =>
      hfit (.repeatedId i j hne hsame)
    have hsound : ∀ e ∈ d.edges, d.IsSound e := by
      intro e hmem
      refine ⟨?_, ?_, fun hself => hfit (.selfEdge e hmem hself)⟩
      · by_contra hunknown
        exact hfit (.unknownStep e hmem (Or.inl hunknown))
      · by_contra hunknown
        exact hfit (.unknownStep e hmem (Or.inr hunknown))
    exact ⟨hnodup, hsound, (isAcyclic_iff hnodup (isClosed_of_isSound hsound)).mpr fun id hcycle =>
      hfit (.cycle id hcycle)⟩
  · rintro ⟨hnodup, hsound, hacyclic⟩ hfaulty
    cases hfaulty with
    | repeatedId i j hne hsame => exact nodup_stepIds_iff.mp hnodup i j hne hsame
    | unknownStep e hmem hunknown =>
        rcases hunknown with hsource | htarget
        · exact hsource (hsound e hmem).1
        · exact htarget (hsound e hmem).2.1
    | selfEdge e hmem hself => exact (hsound e hmem).2.2 hself
    | cycle id hcycle =>
        exact (isAcyclic_iff hnodup (isClosed_of_isSound hsound)).mp hacyclic id hcycle

end Definition

namespace Graph

variable {d : Definition}

theorem kind_edgeError (e : Edge) : (d.edgeError e).kind = .invalidGraph := by
  unfold Definition.edgeError
  split
  · rfl
  · split <;> rfl

theorem ofDefinition_of_isFaulty (hfaulty : d.IsFaulty) :
    ∃ e, ofDefinition d = .error e ∧ e.kind = .invalidGraph := by
  unfold ofDefinition
  split
  · rename_i hnodup
    split
    · rename_i hsound
      split
      · rename_i hacyclic
        exact absurd hfaulty (Definition.not_isFaulty_iff.mpr ⟨hnodup, hsound, hacyclic⟩)
      · exact ⟨_, rfl, rfl⟩
    · split
      · exact ⟨_, rfl, kind_edgeError _⟩
      · exact ⟨_, rfl, rfl⟩
  · exact ⟨_, rfl, rfl⟩

theorem ofDefinition_of_length_ne (hfit : ¬ d.IsFaulty) (hlength : d.triggers.length ≠ 1) :
    ofDefinition d = .error (.triggerCount d.triggers.length) := by
  obtain ⟨hnodup, hsound, hacyclic⟩ := Definition.not_isFaulty_iff.mp hfit
  rw [ofDefinition, dif_pos hnodup, dif_pos hsound, dif_pos hacyclic]
  split
  · rename_i trigger htriggers
    simp [htriggers] at hlength
  · rfl

theorem ofDefinition_of_length_eq (hfit : ¬ d.IsFaulty) (hlength : d.triggers.length = 1) :
    ∃ g order, ofDefinition d = .ok g ∧ g.definition = d ∧ d.triggers = [g.trigger] ∧
      d.IsTopological order := by
  obtain ⟨hnodup, hsound, hacyclic⟩ := Definition.not_isFaulty_iff.mp hfit
  obtain ⟨order, horder⟩ :=
    hacyclic.exists_isTopological hnodup (Definition.isClosed_of_isSound hsound)
  obtain ⟨trigger, htriggers⟩ := List.length_eq_one_iff.mp hlength
  rw [ofDefinition, dif_pos hnodup, dif_pos hsound, dif_pos hacyclic]
  split
  · rename_i found hfound
    exact ⟨_, order, rfl, rfl, hfound, horder⟩
  · rename_i hother
    exact absurd htriggers (hother trigger)

/-- A definition is refused for what is wrong with its ids and edges; otherwise for the number of
its triggers, unless there is exactly one; otherwise it is accepted, and there is an order in which
all its edges go forwards. -/
theorem acceptance (d : Definition) :
    ((∃ e, ofDefinition d = .error e ∧ e.kind = .invalidGraph) ↔ d.IsFaulty) ∧
    ((∃ e, ofDefinition d = .error e ∧ e.kind = .missingTrigger) ↔
      ¬ d.IsFaulty ∧ d.triggers.length ≠ 1) ∧
    ((∃ g order, ofDefinition d = .ok g ∧ g.definition = d ∧ d.triggers = [g.trigger] ∧
        d.IsTopological order) ↔
      ¬ d.IsFaulty ∧ d.triggers.length = 1) := by
  by_cases hfaulty : d.IsFaulty
  · obtain ⟨e, herror, hkind⟩ := ofDefinition_of_isFaulty hfaulty
    simp [hfaulty, herror, hkind]
  · by_cases hlength : d.triggers.length = 1
    · obtain ⟨g, order, hok, haccepted⟩ := ofDefinition_of_length_eq hfaulty hlength
      refine ⟨by simp [hfaulty, hok], by simp [hlength, hok], ?_⟩
      exact ⟨fun _ => ⟨hfaulty, hlength⟩, fun _ => ⟨g, order, hok, haccepted⟩⟩
    · have herror := ofDefinition_of_length_ne hfaulty hlength
      simp [hfaulty, hlength, herror, GraphError.kind]

/-- An edge may be repeated. -/
example :
    (ofDefinition
      { steps := [⟨"start", none, none, .trigger⟩, ⟨"next", none, none, .wait none⟩]
        edges := [⟨"start", "next"⟩, ⟨"start", "next"⟩] }).toOption.isSome := by
  decide +kernel

end Graph

end Workflow
