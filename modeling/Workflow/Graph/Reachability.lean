import Workflow.Graph

/-!
Which steps a step leads to. Both traversals below end because every round either visits a step
for the first time or shortens the queue of steps still to look at.
-/

namespace Workflow

theorem length_filter_le_of_imp {α : Type} {p q : α → Bool} (l : List α)
    (h : ∀ a ∈ l, q a → p a) : (l.filter q).length ≤ (l.filter p).length := by
  rw [← List.countP_eq_length_filter, ← List.countP_eq_length_filter]
  exact List.countP_mono_left h

theorem length_filter_lt_of_imp {α : Type} {p q : α → Bool} {l : List α} {a : α}
    (h : ∀ b ∈ l, q b → p b) (ha : a ∈ l) (hp : p a) (hq : ¬ q a) :
    (l.filter q).length < (l.filter p).length := by
  obtain ⟨before, after, rfl⟩ := List.append_of_mem ha
  have hbefore := length_filter_le_of_imp before fun b hb => h b (List.mem_append_left _ hb)
  have hafter := length_filter_le_of_imp after fun b hb =>
    h b (List.mem_append_right _ (List.mem_cons_of_mem a hb))
  rw [List.filter_append, List.filter_append, List.filter_cons_of_neg hq,
    List.filter_cons_of_pos hp, List.length_append, List.length_append, List.length_cons]
  omega

namespace Graph

variable (g : Graph)

/-- The steps not among `seen`. -/
def unseen (seen : List String) : List String := g.ids.filter fun id => !seen.contains id

theorem unseen_append_lt {seen new : List String} {id : String} (hid : id ∈ g.ids)
    (hnew : id ∈ new) (hseen : id ∉ seen) :
    (g.unseen (seen ++ new)).length < (g.unseen seen).length := by
  apply length_filter_lt_of_imp (a := id)
  · simp_all
  · exact hid
  · simp_all
  · simp_all

theorem unseen_append_le (seen new : List String) :
    (g.unseen (seen ++ new)).length ≤ (g.unseen seen).length :=
  length_filter_le_of_imp g.ids fun id _ => by simp_all

theorem mem_ids_of_mem_children {id child : String} (hchild : child ∈ g.children id) :
    id ∈ g.ids ∧ child ∈ g.ids := by
  rw [children, Definition.children, mem_distinct, List.mem_map] at hchild
  obtain ⟨e, hmem, rfl⟩ := hchild
  obtain ⟨hedge, hsource⟩ := List.mem_filter.mp hmem
  obtain rfl := of_decide_eq_true hsource
  exact ⟨(g.sound e hedge).1, (g.sound e hedge).2.1⟩

theorem children_eq_nil {id : String} (hid : id ∉ g.ids) : g.children id = [] :=
  List.eq_nil_iff_forall_not_mem.mpr fun _ hchild => hid (g.mem_ids_of_mem_children hchild).1

/-- Takes steps off the front of `queue`, and puts the children of those that were not found
before at its end. A step may be queued many times, but is found once. -/
def descendantsFrom (queue found : List String) : List String :=
  match queue with
  | [] => found
  | id :: queue =>
    if id ∈ found then descendantsFrom queue found
    else descendantsFrom (queue ++ g.children id) (found ++ [id])
termination_by ((g.unseen found).length, queue.length)
decreasing_by
  · exact Prod.Lex.right _ (Nat.lt_succ_self _)
  · rename_i hnew
    by_cases hid : id ∈ g.ids
    · exact Prod.Lex.left _ _ (g.unseen_append_lt hid List.mem_cons_self hnew)
    · rw [g.children_eq_nil hid, List.append_nil, Prod.lex_def]
      have hle := g.unseen_append_le found [id]
      simp only [List.length_cons]
      omega

/-- The steps that a non-empty path leads to from a step. -/
def descendants (id : String) : List String := g.descendantsFrom (g.children id) []

/-- Takes steps off the front of `queue`, and puts those of their children at its end that have
not been seen; all that were ever queued are in `seen`. -/
def reachableFrom (queue seen : List String) : List String :=
  match queue with
  | [] => seen
  | id :: queue =>
    let fresh := (g.children id).filter (· ∉ seen)
    reachableFrom (queue ++ fresh) (seen ++ fresh)
termination_by ((g.unseen seen).length, queue.length)
decreasing_by
  cases hfresh : (g.children id).filter (· ∉ seen) with
  | nil =>
      simp only [List.append_nil]
      exact Prod.Lex.right _ (Nat.lt_succ_self _)
  | cons child rest =>
      have hchild : child ∈ (g.children id).filter (· ∉ seen) := hfresh ▸ List.mem_cons_self
      obtain ⟨hmem, hnew⟩ := List.mem_filter.mp hchild
      exact Prod.Lex.left _ _ (g.unseen_append_lt (g.mem_ids_of_mem_children hmem).2
        List.mem_cons_self (of_decide_eq_true hnew))

def reachableFromTrigger : List String := g.reachableFrom [g.trigger.id] [g.trigger.id]

end Graph

end Workflow
