import Workflow.Graph.Reachability
import Workflow.Proofs.Graph.Visiting

/-!
# Paths of a graph

A step leads to its children, and along them to its descendants. All steps of a graph can be visited
after their parents, so properties may be proved from the parents of a step to the step, and no step
leads to itself.
-/

namespace Workflow

namespace Graph

variable (g : Graph)

def Leads (source target : String) : Prop := target ∈ g.children source

/-- A path of at least one edge goes from one step to another. -/
def LeadsTo : String → String → Prop := Relation.TransGen g.Leads

variable {g}

theorem mem_parents_iff {source target : String} :
    source ∈ g.parents target ↔
      ∃ e ∈ g.definition.edges, e.source = source ∧ e.target = target :=
  Definition.mem_parents_iff

theorem leads_iff {source target : String} :
    g.Leads source target ↔
      ∃ e ∈ g.definition.edges, e.source = source ∧ e.target = target :=
  Definition.mem_children_iff

theorem leads_iff_mem_parents {source target : String} :
    g.Leads source target ↔ source ∈ g.parents target := by
  rw [leads_iff, mem_parents_iff]

theorem nodup_children (id : String) : (g.children id).Nodup := nodup_distinct _

theorem mem_ids_of_leads {source target : String} (hleads : g.Leads source target) :
    source ∈ g.ids ∧ target ∈ g.ids := g.mem_ids_of_mem_children hleads

theorem mem_ids_of_leadsTo {source target : String} (hpath : g.LeadsTo source target) :
    target ∈ g.ids := by
  cases hpath with
  | single hleads => exact (mem_ids_of_leads hleads).2
  | tail _ hleads => exact (mem_ids_of_leads hleads).2

theorem mem_ids_of_parents_ne_nil {id : String} (hparents : g.parents id ≠ []) : id ∈ g.ids := by
  obtain ⟨parent, hparent⟩ := List.exists_mem_of_ne_nil _ hparents
  exact (mem_ids_of_leads (leads_iff_mem_parents.mpr hparent)).2

theorem step?_eq_some_of_mem {id : String} (hid : id ∈ g.ids) :
    ∃ step, g.step? id = some step ∧ step.id = id := by
  obtain ⟨step, hmem, hstep⟩ := List.mem_map.mp hid
  have hsome : (g.step? id).isSome :=
    List.find?_isSome.mpr ⟨step, hmem, by simpa using hstep⟩
  obtain ⟨found, hfound⟩ := Option.isSome_iff_exists.mp hsome
  exact ⟨found, hfound, by simpa using List.find?_some hfound⟩

theorem trigger_mem_ids : g.trigger.id ∈ g.ids := by
  have hmem : g.trigger ∈ g.definition.triggers := by simp [g.triggers_eq]
  exact List.mem_map_of_mem (List.mem_filter.mp hmem).1

theorem mem_ids_of_step? {id : String} {step : Step} (hstep : g.step? id = some step) :
    id ∈ g.ids := by
  have hid : step.id = id := by simpa using List.find?_some hstep
  exact hid ▸ List.mem_map_of_mem (List.mem_of_find?_eq_some hstep)

theorem step?_trigger : g.step? g.trigger.id = some g.trigger := by
  have hmem : g.trigger ∈ g.definition.triggers := by simp [g.triggers_eq]
  obtain ⟨found, hfound, hid⟩ := step?_eq_some_of_mem (g := g) trigger_mem_ids
  have hsame := List.inj_on_of_nodup_map g.nodup (List.mem_of_find?_eq_some hfound)
    (List.mem_filter.mp hmem).1 hid
  rw [hfound, hsame]

theorem work_trigger : g.trigger.work = .trigger := by
  have hmem : g.trigger ∈ g.definition.triggers := by simp [g.triggers_eq]
  have hkind : g.trigger.kind = .trigger := by simpa using (List.mem_filter.mp hmem).2
  rw [Step.kind] at hkind
  cases hwork : g.trigger.work <;> rw [hwork] at hkind <;> first
    | rfl
    | cases hkind

/-! ### From parents to steps -/

theorem isClosed : g.definition.IsClosed := Definition.isClosed_of_isSound g.sound

/-- What holds of a step whenever it holds of its parents holds of every step. -/
theorem parents_induction {P : String → Prop}
    (hstep : ∀ id, (∀ parent ∈ g.parents id, P parent) → P id) (id : String) : P id := by
  obtain ⟨order, horder⟩ := g.acyclic.exists_isTopological g.nodup isClosed
  induction hposition : order.idxOf id using Nat.strong_induction_on generalizing id with
  | _ position ih =>
      refine hstep id fun parent hparent => ih (order.idxOf parent) ?_ parent rfl
      rw [← hposition]
      exact horder.forwards parent id (mem_parents_iff.mp hparent)

theorem wellFounded_leads : WellFounded g.Leads :=
  ⟨parents_induction fun id ih =>
    Acc.intro id fun parent hleads => ih parent (leads_iff_mem_parents.mp hleads)⟩

theorem not_leadsTo_self (id : String) : ¬ g.LeadsTo id id :=
  fun hself => (wellFounded_leads (g := g)).transGen.irrefl.irrefl id hself

end Graph

end Workflow
