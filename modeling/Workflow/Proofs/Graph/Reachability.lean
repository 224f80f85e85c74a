import Workflow.Proofs.Graph.Path

/-!
# What the searches find

One search marks a step when it leaves the queue: the children of marked steps are marked or in
the queue. The other marks it when it enters the queue: a marked step is in the queue, or its
children are marked. When the queue is empty, both say that the marked steps are closed under
children.
-/

namespace Workflow

namespace Graph

open Relation

variable {g : Graph} {P : String → Prop} {queue found seen : List String} {id target : String}

theorem leadsTo_iff : g.LeadsTo id target ↔ TransGen g.definition.Joins id target := by
  have hleads : g.Leads = g.definition.Joins := by
    ext source target
    exact leads_iff
  rw [LeadsTo, hleads]

/-! ### Steps marked when they leave the queue -/

theorem descendantsFrom_nil (found : List String) : g.descendantsFrom [] found = found := by
  rw [descendantsFrom]

theorem descendantsFrom_old (hold : id ∈ found) (queue : List String) :
    g.descendantsFrom (id :: queue) found = g.descendantsFrom queue found := by
  rw [descendantsFrom, if_pos hold]

theorem descendantsFrom_new (hnew : id ∉ found) (queue : List String) :
    g.descendantsFrom (id :: queue) found =
      g.descendantsFrom (queue ++ g.children id) (found ++ [id]) := by
  rw [descendantsFrom, if_neg hnew]

/-- The search goes on until the queue is empty, whether or not the next step is marked already. -/
theorem descendants_induction (g : Graph) {motive : List String → List String → Prop}
    (nil : ∀ found, motive [] found)
    (old : ∀ found id queue, id ∈ found → motive queue found → motive (id :: queue) found)
    (new : ∀ found id queue, id ∉ found → motive (queue ++ g.children id) (found ++ [id]) →
      motive (id :: queue) found)
    (queue found : List String) : motive queue found :=
  Graph.descendantsFrom.induct g motive nil old new queue found

theorem of_mem_descendantsFrom (hclosed : ∀ id child, P id → g.Leads id child → P child)
    (hqueue : ∀ id ∈ queue, P id) (hfound : ∀ id ∈ found, P id) :
    ∀ id ∈ g.descendantsFrom queue found, P id := by
  induction queue, found using descendants_induction g with
  | nil found =>
      rw [descendantsFrom_nil]
      exact hfound
  | old found id queue hold ih =>
      rw [descendantsFrom_old hold]
      exact ih (fun other hother => hqueue other (List.mem_cons_of_mem id hother)) hfound
  | new found id queue hnew ih =>
      rw [descendantsFrom_new hnew]
      have hid := hqueue id List.mem_cons_self
      apply ih
      · intro child hchild
        rcases List.mem_append.mp hchild with hlater | hleads
        · exact hqueue child (List.mem_cons_of_mem id hlater)
        · exact hclosed id child hid hleads
      · intro other hother
        rcases List.mem_append.mp hother with hearlier | hself
        · exact hfound other hearlier
        · exact List.mem_singleton.mp hself ▸ hid

theorem nodup_descendantsFrom (hnodup : found.Nodup) : (g.descendantsFrom queue found).Nodup := by
  induction queue, found using descendants_induction g with
  | nil found =>
      rw [descendantsFrom_nil]
      exact hnodup
  | old found id queue hold ih =>
      rw [descendantsFrom_old hold]
      exact ih hnodup
  | new found id queue hnew ih =>
      rw [descendantsFrom_new hnew]
      apply ih
      rw [List.nodup_append]
      refine ⟨hnodup, List.nodup_singleton id, ?_⟩
      rintro other hother _ hself rfl
      exact hnew (List.mem_singleton.mp hself ▸ hother)

/-- What is marked or in the queue is found. -/
theorem mem_descendantsFrom (hid : id ∈ found ∨ id ∈ queue) :
    id ∈ g.descendantsFrom queue found := by
  induction queue, found using descendants_induction g with
  | nil found =>
      rw [descendantsFrom_nil]
      exact hid.resolve_right List.not_mem_nil
  | old found first queue hold ih =>
      rw [descendantsFrom_old hold]
      apply ih
      rcases hid with hfound | hqueue
      · exact Or.inl hfound
      · rcases List.mem_cons.mp hqueue with rfl | hlater
        · exact Or.inl hold
        · exact Or.inr hlater
  | new found first queue hnew ih =>
      rw [descendantsFrom_new hnew]
      apply ih
      simp only [List.mem_append, List.mem_cons, List.not_mem_nil] at hid ⊢
      tauto

theorem descendantsFrom_closed
    (hfound : ∀ id ∈ found, ∀ child, g.Leads id child → child ∈ found ∨ child ∈ queue) :
    ∀ id ∈ g.descendantsFrom queue found, ∀ child, g.Leads id child →
      child ∈ g.descendantsFrom queue found := by
  induction queue, found using descendants_induction g with
  | nil found =>
      rw [descendantsFrom_nil]
      intro id hid child hleads
      exact (hfound id hid child hleads).resolve_right List.not_mem_nil
  | old found first queue hold ih =>
      rw [descendantsFrom_old hold]
      apply ih
      intro id hid child hleads
      rcases hfound id hid child hleads with hmarked | hqueue
      · exact Or.inl hmarked
      · rcases List.mem_cons.mp hqueue with rfl | hlater
        · exact Or.inl hold
        · exact Or.inr hlater
  | new found first queue hnew ih =>
      rw [descendantsFrom_new hnew]
      apply ih
      intro id hid child hleads
      rcases List.mem_append.mp hid with hearlier | hself
      · have hchild := hfound id hearlier child hleads
        simp only [List.mem_cons, List.mem_append] at hchild ⊢
        tauto
      · obtain rfl := List.mem_singleton.mp hself
        exact Or.inr (List.mem_append_right queue hleads)

/-- The descendants of a step are the steps that a path leads to. -/
theorem mem_descendants_iff : target ∈ g.descendants id ↔ g.LeadsTo id target := by
  constructor
  · intro htarget
    refine of_mem_descendantsFrom (P := g.LeadsTo id) ?_ ?_ ?_ target htarget
    · exact fun _ _ hpath hleads => hpath.tail hleads
    · exact fun _ hchild => .single hchild
    · exact fun _ hnone => absurd hnone List.not_mem_nil
  · intro hpath
    induction hpath with
    | single hleads => exact mem_descendantsFrom (Or.inr hleads)
    | tail _ hleads ih =>
        exact descendantsFrom_closed (fun _ hnone => absurd hnone List.not_mem_nil) _ ih _ hleads

/-! ### Steps marked when they enter the queue -/

/-- The children of a step that have not been seen. -/
def fresh (g : Graph) (id : String) (seen : List String) : List String :=
  (g.children id).filter (· ∉ seen)

theorem reachableFrom_nil (seen : List String) : g.reachableFrom [] seen = seen := by
  rw [reachableFrom]

theorem reachableFrom_cons (id : String) (queue seen : List String) :
    g.reachableFrom (id :: queue) seen =
      g.reachableFrom (queue ++ g.fresh id seen) (seen ++ g.fresh id seen) := by
  rw [reachableFrom]
  rfl

theorem reachable_induction (g : Graph) {motive : List String → List String → Prop}
    (nil : ∀ seen, motive [] seen)
    (cons : ∀ seen id queue, motive (queue ++ g.fresh id seen) (seen ++ g.fresh id seen) →
      motive (id :: queue) seen)
    (queue seen : List String) : motive queue seen :=
  Graph.reachableFrom.induct g motive nil cons queue seen

theorem of_mem_reachableFrom (hclosed : ∀ id child, P id → g.Leads id child → P child)
    (hqueue : ∀ id ∈ queue, P id) (hseen : ∀ id ∈ seen, P id) :
    ∀ id ∈ g.reachableFrom queue seen, P id := by
  induction queue, seen using reachable_induction g with
  | nil seen =>
      rw [reachableFrom_nil]
      exact hseen
  | cons seen id queue ih =>
      rw [reachableFrom_cons]
      have hfresh : ∀ child ∈ g.fresh id seen, P child := by
        intro child hchild
        exact hclosed id child (hqueue id List.mem_cons_self) (List.mem_filter.mp hchild).1
      apply ih
      · intro other hother
        rcases List.mem_append.mp hother with hlater | hchild
        · exact hqueue other (List.mem_cons_of_mem id hlater)
        · exact hfresh other hchild
      · intro other hother
        rcases List.mem_append.mp hother with hearlier | hchild
        · exact hseen other hearlier
        · exact hfresh other hchild

theorem nodup_reachableFrom (hnodup : seen.Nodup) : (g.reachableFrom queue seen).Nodup := by
  induction queue, seen using reachable_induction g with
  | nil seen =>
      rw [reachableFrom_nil]
      exact hnodup
  | cons seen id queue ih =>
      rw [reachableFrom_cons]
      apply ih
      rw [List.nodup_append]
      refine ⟨hnodup, (nodup_children id).filter _, ?_⟩
      rintro other hother _ hchild rfl
      exact of_decide_eq_true (List.mem_filter.mp hchild).2 hother

theorem mem_reachableFrom (hid : id ∈ seen) : id ∈ g.reachableFrom queue seen := by
  induction queue, seen using reachable_induction g with
  | nil seen =>
      rw [reachableFrom_nil]
      exact hid
  | cons seen first queue ih =>
      rw [reachableFrom_cons]
      exact ih (List.mem_append_left _ hid)

theorem reachableFrom_closed
    (hseen : ∀ id ∈ seen, id ∈ queue ∨ ∀ child, g.Leads id child → child ∈ seen) :
    ∀ id ∈ g.reachableFrom queue seen, ∀ child, g.Leads id child →
      child ∈ g.reachableFrom queue seen := by
  induction queue, seen using reachable_induction g with
  | nil seen =>
      rw [reachableFrom_nil]
      intro id hid
      exact (hseen id hid).resolve_left List.not_mem_nil
  | cons seen first queue ih =>
      rw [reachableFrom_cons]
      apply ih
      intro id hid
      rcases List.mem_append.mp hid with hearlier | hchild
      · rcases hseen id hearlier with hqueue | hmarked
        · rcases List.mem_cons.mp hqueue with rfl | hlater
          · refine Or.inr fun child hleads => ?_
            by_cases hold : child ∈ seen
            · exact List.mem_append_left _ hold
            · exact List.mem_append_right seen
                (List.mem_filter.mpr ⟨hleads, decide_eq_true hold⟩)
          · exact Or.inl (List.mem_append_left _ hlater)
        · exact Or.inr fun child hleads => List.mem_append_left _ (hmarked child hleads)
      · exact Or.inl (List.mem_append_right queue hchild)

theorem mem_reachableFromTrigger_iff :
    target ∈ g.reachableFromTrigger ↔ target = g.trigger.id ∨ g.LeadsTo g.trigger.id target := by
  constructor
  · intro htarget
    refine of_mem_reachableFrom
      (P := fun id => id = g.trigger.id ∨ g.LeadsTo g.trigger.id id) ?_ ?_ ?_ target htarget
    · rintro id child (rfl | hpath) hleads
      · exact Or.inr (.single hleads)
      · exact Or.inr (hpath.tail hleads)
    · exact fun id hid => Or.inl (List.mem_singleton.mp hid)
    · exact fun id hid => Or.inl (List.mem_singleton.mp hid)
  · have htrigger : g.trigger.id ∈ g.reachableFromTrigger :=
      mem_reachableFrom List.mem_cons_self
    have hclosed : ∀ id ∈ g.reachableFromTrigger, ∀ child, g.Leads id child →
        child ∈ g.reachableFromTrigger := reachableFrom_closed fun _ hid => Or.inl hid
    rintro (rfl | hpath)
    · exact htrigger
    · induction hpath with
      | single hleads => exact hclosed _ htrigger _ hleads
      | tail _ hleads ih => exact hclosed _ ih _ hleads

/-- **Both searches find what paths lead to.** The descendants of a step are the steps at the end
of a non-empty path from it, each once. The step is none of them, and they are closed under
descendants. What can be reached from the trigger is the trigger and its descendants. -/
theorem searches_find_paths (g : Graph) (id : String) :
    (g.descendants id).Nodup ∧
      (∀ target, target ∈ g.descendants id ↔ TransGen g.definition.Joins id target) ∧
      id ∉ g.descendants id ∧
      (∀ other ∈ g.descendants id, g.descendants other ⊆ g.descendants id) ∧
      g.reachableFromTrigger.Nodup ∧
      ∀ target, target ∈ g.reachableFromTrigger ↔
        target = g.trigger.id ∨ target ∈ g.descendants g.trigger.id := by
  refine ⟨nodup_descendantsFrom List.nodup_nil, ?_, ?_, ?_,
    nodup_reachableFrom (List.nodup_singleton _), ?_⟩
  · intro target
    rw [mem_descendants_iff, leadsTo_iff]
  · rw [mem_descendants_iff]
    exact not_leadsTo_self id
  · intro other hother target htarget
    rw [mem_descendants_iff] at hother htarget ⊢
    exact hother.trans htarget
  · intro target
    rw [mem_reachableFromTrigger_iff, mem_descendants_iff]

end Graph

end Workflow
