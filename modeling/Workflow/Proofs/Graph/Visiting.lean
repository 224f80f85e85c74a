import Workflow.Graph
import Workflow.Proofs.Table
import Mathlib.Data.List.Nodup
import Mathlib.Data.List.Perm.Subperm
import Mathlib.Data.Finset.Dedup
import Mathlib.Data.Fintype.EquivFin
import Mathlib.Logic.Relation
import Mathlib.Order.WellFounded

/-!
# Visiting steps after their parents

The visit takes a step when all its parents have been taken. What it takes is therefore in an order
that every edge goes along with, and it leaves steps behind exactly when edges run in a circle:
among the steps that are left, each waits for another of them.
-/

namespace Workflow

open Relation

/-! ### Releasing steps -/

variable {waits : Table String Nat} {ids : List String}

theorem find?_release (hnodup : ids.Nodup) (id : String) :
    Table.find? (release waits ids).1 id =
      if id ∈ ids then (Table.find? waits id).map (· - 1) else Table.find? waits id := by
  induction ids generalizing waits with
  | nil => simp [release]
  | cons other ids ih =>
      obtain ⟨hnew, hnodup⟩ := List.nodup_cons.mp hnodup
      have hrest (waits : Table String Nat) := @ih waits hnodup
      rw [release]
      by_cases heq : id = other
      · subst heq
        rw [if_pos List.mem_cons_self]
        split
        · rename_i count hcount
          rw [hrest, if_neg hnew, Table.find?_insert, if_pos rfl, hcount]
          rfl
        · rename_i hcount
          rw [hrest, if_neg hnew]
          cases hfind : Table.find? waits id with
          | none => rfl
          | some count =>
              cases count with
              | zero => rfl
              | succ count => exact absurd hfind (hcount count)
      · have hmem : id ∈ other :: ids ↔ id ∈ ids := by simp [heq]
        simp only [hmem]
        split
        · dsimp only
          rw [hrest, Table.find?_insert, if_neg heq]
        · exact hrest waits

theorem mem_release_iff (hnodup : ids.Nodup) (id : String) :
    id ∈ (release waits ids).2 ↔ id ∈ ids ∧ Table.find? waits id = some 1 := by
  induction ids generalizing waits with
  | nil => simp [release]
  | cons other ids ih =>
      obtain ⟨hnew, hnodup⟩ := List.nodup_cons.mp hnodup
      have hrest (waits : Table String Nat) := @ih waits hnodup
      rw [release]
      split
      · rename_i count hcount
        have hlater : id ∈ (release (Table.insert waits other count) ids).2 ↔
            id ∈ ids ∧ Table.find? waits id = some 1 := by
          rw [hrest, Table.find?_insert]
          refine and_congr_right fun hmem => ?_
          rw [if_neg (ne_of_mem_of_not_mem hmem hnew)]
        by_cases hzero : count = 0
        · simp only [hzero, if_true, List.mem_cons] at hcount hlater ⊢
          rw [hlater]
          constructor
          · rintro (rfl | hmem)
            · exact ⟨Or.inl rfl, hcount⟩
            · exact ⟨Or.inr hmem.1, hmem.2⟩
          · rintro ⟨rfl | hmem, hone⟩
            · exact Or.inl rfl
            · exact Or.inr ⟨hmem, hone⟩
        · simp only [hzero, if_false, List.mem_cons, hlater]
          constructor
          · exact fun hmem => ⟨Or.inr hmem.1, hmem.2⟩
          · rintro ⟨rfl | hmem, hone⟩
            · rw [hcount, Option.some.injEq] at hone
              omega
            · exact ⟨hmem, hone⟩
      · rename_i hcount
        rw [hrest, List.mem_cons]
        refine ⟨fun hmem => ⟨Or.inr hmem.1, hmem.2⟩, ?_⟩
        rintro ⟨rfl | hmem, hone⟩
        · exact absurd hone (hcount 0)
        · exact ⟨hmem, hone⟩

theorem nodup_release (hnodup : ids.Nodup) : (release waits ids).2.Nodup := by
  induction ids generalizing waits with
  | nil => exact List.nodup_nil
  | cons id ids ih =>
      obtain ⟨hnew, hnodup⟩ := List.nodup_cons.mp hnodup
      rw [release]
      split
      · dsimp only
        split
        · exact List.nodup_cons.mpr
            ⟨fun hmem => hnew ((mem_release_iff hnodup id).mp hmem).1, ih hnodup⟩
        · exact ih hnodup
      · exact ih hnodup

namespace Definition

variable {d : Definition} {source target id : String} {visited queue : List String}

/-- An edge goes from one step to the other. -/
def Joins (d : Definition) (source target : String) : Prop :=
  ∃ e ∈ d.edges, e.source = source ∧ e.target = target

theorem mem_parents_iff : source ∈ d.parents target ↔ d.Joins source target := by
  simp only [parents, incomingEdges, mem_distinct, List.mem_map, List.mem_filter,
    decide_eq_true_eq]
  constructor
  · rintro ⟨e, ⟨hmem, htarget⟩, hsource⟩
    exact ⟨e, hmem, hsource, htarget⟩
  · rintro ⟨e, hmem, hsource, htarget⟩
    exact ⟨e, ⟨hmem, htarget⟩, hsource⟩

theorem mem_children_iff : target ∈ d.children source ↔ d.Joins source target := by
  simp only [children, outgoingEdges, mem_distinct, List.mem_map, List.mem_filter,
    decide_eq_true_eq]
  constructor
  · rintro ⟨e, ⟨hmem, hsource⟩, htarget⟩
    exact ⟨e, hmem, hsource, htarget⟩
  · rintro ⟨e, hmem, hsource, htarget⟩
    exact ⟨e, ⟨hmem, hsource⟩, htarget⟩

/-- Every edge joins two steps. -/
def IsClosed (d : Definition) : Prop :=
  ∀ e ∈ d.edges, e.source ∈ d.stepIds ∧ e.target ∈ d.stepIds

theorem isClosed_of_isSound (hsound : ∀ e ∈ d.edges, d.IsSound e) : d.IsClosed :=
  fun e hmem => ⟨(hsound e hmem).1, (hsound e hmem).2.1⟩

theorem IsClosed.mem_of_joins (h : d.IsClosed) (hjoins : d.Joins source target) :
    source ∈ d.stepIds ∧ target ∈ d.stepIds := by
  obtain ⟨e, hmem, rfl, rfl⟩ := hjoins
  exact h e hmem

/-- All steps in an order in which every edge goes forwards. -/
structure IsTopological (d : Definition) (order : List String) : Prop where
  perm : order.Perm d.stepIds
  forwards : ∀ source target, d.Joins source target → order.idxOf source < order.idxOf target

theorem IsTopological.idxOf_lt {order : List String} (h : d.IsTopological order)
    (hpath : TransGen d.Joins source target) : order.idxOf source < order.idxOf target := by
  induction hpath with
  | single hjoins => exact h.forwards _ _ hjoins
  | tail _ hjoins ih => exact ih.trans (h.forwards _ _ hjoins)

theorem IsTopological.not_cyclic {order : List String} (h : d.IsTopological order)
    (id : String) : ¬ TransGen d.Joins id id :=
  fun hcycle => Nat.lt_irrefl _ (h.idxOf_lt hcycle)

/-! ### The visit -/

/-- Some steps have been taken, and those in the queue are the next to be taken. -/
structure Visiting (d : Definition) (visited queue : List String) (waits : Table String Nat) :
    Prop where
  nodup : (visited ++ queue).Nodup
  subset : ∀ id ∈ visited ++ queue, id ∈ d.stepIds
  /-- What a step waits for is those of its parents that have not been taken. -/
  counts : ∀ id ∈ d.stepIds,
    Table.find? waits id = some ((d.parents id).countP (· ∉ visited))
  due : ∀ id ∈ d.stepIds, id ∈ visited ++ queue ↔ ∀ parent ∈ d.parents id, parent ∈ visited
  forwards : ∀ id ∈ visited, ∀ parent ∈ d.parents id, visited.idxOf parent < visited.idxOf id

theorem countP_notMem_concat {ids : List String} (hnodup : ids.Nodup) (hid : id ∉ visited) :
    ids.countP (· ∉ visited ++ [id]) =
      ids.countP (· ∉ visited) - if id ∈ ids then 1 else 0 := by
  induction ids with
  | nil => rfl
  | cons other ids ih =>
      obtain ⟨hnew, hnodup⟩ := List.nodup_cons.mp hnodup
      have hrest := ih hnodup
      by_cases heq : other = id
      · subst heq
        rw [if_neg hnew] at hrest
        simp only [List.countP_cons, hrest]
        simp [hid]
      · have hmem : id ∈ other :: ids ↔ id ∈ ids := by simp [Ne.symm heq]
        have hother : other ∈ visited ++ [id] ↔ other ∈ visited := by simp [heq]
        have hpos : id ∈ ids → 0 < ids.countP (· ∉ visited) := fun hmem =>
          List.countP_pos_iff.mpr ⟨id, hmem, by simpa using hid⟩
        simp only [List.countP_cons, hrest, hmem, hother]
        split
        · have := hpos ‹_›
          omega
        · omega

theorem countP_parents_concat (hid : id ∉ visited) (target : String) :
    (d.parents target).countP (· ∉ visited ++ [id]) =
      (d.parents target).countP (· ∉ visited) - if target ∈ d.children id then 1 else 0 := by
  have hjoins : target ∈ d.children id ↔ id ∈ d.parents target :=
    mem_children_iff.trans mem_parents_iff.symm
  have hnodup : (d.parents target).Nodup := nodup_distinct _
  simp only [countP_notMem_concat hnodup hid, hjoins]

theorem countP_parents_eq_zero_iff :
    (d.parents id).countP (· ∉ visited) = 0 ↔ ∀ parent ∈ d.parents id, parent ∈ visited := by
  simp [List.countP_eq_zero]

theorem Visiting.next (h : d.Visiting visited (id :: queue) waits) (hclosed : d.IsClosed) :
    d.Visiting (visited ++ [id]) (queue ++ (release waits (d.children id)).2)
      (release waits (d.children id)).1 := by
  have hchildren : (d.children id).Nodup := nodup_distinct _
  have hid : id ∈ d.stepIds := h.subset id (by simp)
  have hnew : id ∉ visited := fun hmem =>
    (List.nodup_append.mp h.nodup).2.2 id hmem id List.mem_cons_self rfl
  have hreleased (child : String) : child ∈ (release waits (d.children id)).2 ↔
      child ∈ d.children id ∧ (d.parents child).countP (· ∉ visited) = 1 := by
    rw [mem_release_iff hchildren]
    refine and_congr_right fun hchild => ?_
    rw [h.counts child (hclosed.mem_of_joins (mem_children_iff.mp hchild)).2, Option.some.injEq]
  have hwaited {child : String} (hchild : child ∈ d.children id) :
      child ∉ visited ++ id :: queue := by
    intro hmem
    have hjoins := mem_children_iff.mp hchild
    have hall := (h.due child (hclosed.mem_of_joins hjoins).2).mp hmem
    exact hnew (hall id (mem_parents_iff.mpr hjoins))
  have hsplit : (visited ++ [id]) ++ (queue ++ (release waits (d.children id)).2) =
      (visited ++ id :: queue) ++ (release waits (d.children id)).2 := by simp
  constructor
  case nodup =>
    rw [hsplit, List.nodup_append]
    refine ⟨h.nodup, nodup_release hchildren, ?_⟩
    rintro other hold _ hother rfl
    exact hwaited ((hreleased other).mp hother).1 hold
  case subset =>
    intro other hmem
    rw [hsplit, List.mem_append] at hmem
    rcases hmem with hold | hother
    · exact h.subset other hold
    · exact (hclosed.mem_of_joins (mem_children_iff.mp ((hreleased other).mp hother).1)).2
  case counts =>
    intro other hother
    rw [find?_release hchildren, h.counts other hother, countP_parents_concat hnew]
    split <;> rfl
  case due =>
    intro other hother
    rw [hsplit, List.mem_append, hreleased, h.due other hother, ← countP_parents_eq_zero_iff,
      ← countP_parents_eq_zero_iff, countP_parents_concat hnew]
    by_cases hchild : other ∈ d.children id
    · have hpos : 0 < (d.parents other).countP (· ∉ visited) :=
        List.countP_pos_iff.mpr
          ⟨id, mem_parents_iff.mpr (mem_children_iff.mp hchild), by simpa using hnew⟩
      rw [if_pos hchild]
      constructor
      · rintro (hzero | ⟨-, hone⟩) <;> omega
      · exact fun hzero => Or.inr ⟨hchild, by omega⟩
    · simp [hchild]
  case forwards =>
    intro other hmem parent hparent
    rcases List.mem_append.mp hmem with hold | hself
    · have hlt := h.forwards other hold parent hparent
      have hmem' : parent ∈ visited :=
        List.idxOf_lt_length_iff.mp (hlt.trans (List.idxOf_lt_length_iff.mpr hold))
      rwa [List.idxOf_append_of_mem hold, List.idxOf_append_of_mem hmem']
    · obtain rfl := List.mem_singleton.mp hself
      have hmem' := (h.due other hid).mp (by simp) parent hparent
      rw [List.idxOf_append_of_mem hmem', List.idxOf_append_of_notMem hnew]
      exact (List.idxOf_lt_length_iff.mpr hmem').trans_le (Nat.le_add_right _ _)

/-- The visit goes on until the queue is empty. -/
theorem Visiting.visit (h : d.Visiting visited queue waits) (hclosed : d.IsClosed) :
    ∃ all, d.Visiting all [] (d.visit queue waits visited.length).1 ∧
      (d.visit queue waits visited.length).2 = all.length := by
  generalize hcount : visited.length = count
  induction queue, waits, count using Definition.visit.induct d generalizing visited with
  | case1 waits count =>
      subst hcount
      rw [Definition.visit]
      exact ⟨visited, h, rfl⟩
  | case2 waits count id queue ih =>
      rw [Definition.visit]
      exact ih (h.next hclosed) (by simp [hcount])

theorem find?_parentCounts (hid : id ∈ d.stepIds) :
    Table.find? d.parentCounts id = some (d.parents id).length := by
  rw [parentCounts]
  generalize d.stepIds = ids at hid
  induction ids with
  | nil => exact absurd hid List.not_mem_nil
  | cons other ids ih =>
      by_cases heq : other = id
      · simp [Table.find?, heq]
      · have hrest := ih ((List.mem_cons.mp hid).resolve_left (Ne.symm heq))
        rwa [List.map_cons, Table.find?, if_neg heq]

theorem roots_eq : (d.parentCounts.filter (·.2 = 0)).map (·.1) =
    d.stepIds.filter fun id => (d.parents id).isEmpty := by
  rw [parentCounts, List.filter_map, List.map_map]
  refine (List.map_id'' (fun _ => rfl) _).trans (List.filter_congr fun id _ => ?_)
  rw [Function.comp_apply, Bool.eq_iff_iff, decide_eq_true_iff, List.length_eq_zero_iff,
    List.isEmpty_iff]

theorem visiting_roots (hnodup : d.stepIds.Nodup) :
    d.Visiting [] ((d.parentCounts.filter (·.2 = 0)).map (·.1)) d.parentCounts := by
  rw [roots_eq]
  constructor
  case nodup => exact hnodup.filter _
  case subset => exact fun id hmem => (List.mem_filter.mp hmem).1
  case counts =>
    intro id hid
    simp [find?_parentCounts hid]
  case due =>
    intro id hid
    simp [hid, List.eq_nil_iff_forall_not_mem]
  case forwards => exact fun id hmem => (List.not_mem_nil hmem).elim

theorem exists_visiting (hnodup : d.stepIds.Nodup) (hclosed : d.IsClosed) :
    ∃ visited, d.Visiting visited [] d.visitAll.1 ∧ d.visitAll.2 = visited.length :=
  (visiting_roots hnodup).visit hclosed

theorem Visiting.isTopological (h : d.Visiting visited [] waits) (hclosed : d.IsClosed)
    (hlength : visited.length = d.stepIds.length) :
    d.IsTopological visited := by
  have hvisited : visited.Nodup := by simpa using h.nodup
  have hperm : visited.Perm d.stepIds :=
    (List.subperm_of_subset hvisited
      fun id hid => h.subset id (by simpa using hid)).perm_of_length_le hlength.ge
  refine ⟨hperm, fun source target hjoins => ?_⟩
  exact h.forwards target (hperm.mem_iff.mpr (hclosed.mem_of_joins hjoins).2) source
    (mem_parents_iff.mpr hjoins)

/-- Every step that is left behind waits for another one, so a cycle leads to it. -/
theorem Visiting.exists_cycle (h : d.Visiting visited [] waits) (hclosed : d.IsClosed)
    (hid : id ∈ d.stepIds) (hleft : id ∉ visited) :
    ∃ other, TransGen d.Joins other other ∧ ReflTransGen d.Joins other id := by
  by_contra hacyclic
  let before (a b : { id // id ∈ d.stepIds.toFinset }) : Prop :=
    TransGen d.Joins a.val b.val ∧ ReflTransGen d.Joins b.val id
  have htrans : IsTrans _ before := ⟨fun _ _ _ hab hbc => ⟨hab.1.trans hbc.1, hbc.2⟩⟩
  have hirrefl : Std.Irrefl before := ⟨fun a hcycle => hacyclic ⟨a.val, hcycle⟩⟩
  have hwf : WellFounded before := Finite.wellFounded_of_trans_of_irrefl before
  -- A first one among those that are left and lead to the step has only parents that were taken.
  obtain ⟨⟨first, hfirst⟩, ⟨hnew, hpath⟩, hmin⟩ :=
    hwf.has_min { a | a.val ∉ visited ∧ ReflTransGen d.Joins a.val id }
      ⟨⟨id, List.mem_toFinset.mpr hid⟩, hleft, .refl⟩
  apply hnew
  have hdue := (h.due first (List.mem_toFinset.mp hfirst)).mpr fun parent hparent => ?_
  · simpa using hdue
  · have hjoins := mem_parents_iff.mp hparent
    by_contra hnot
    exact hmin ⟨parent, List.mem_toFinset.mpr (hclosed.mem_of_joins hjoins).1⟩
      ⟨hnot, .head hjoins hpath⟩ ⟨.single hjoins, hpath⟩

/-- All steps are taken exactly when edges do not run in a circle, and then there is an order for
all edges. -/
theorem isAcyclic_iff (hnodup : d.stepIds.Nodup) (hclosed : d.IsClosed) :
    d.IsAcyclic ↔ ∀ id, ¬ TransGen d.Joins id id := by
  obtain ⟨visited, hvisiting, hcount⟩ := exists_visiting hnodup hclosed
  rw [IsAcyclic, hcount]
  constructor
  · exact fun hlength => (hvisiting.isTopological hclosed hlength).not_cyclic
  · intro hacyclic
    have hall : d.stepIds ⊆ visited := fun id hid => by
      by_contra hleft
      obtain ⟨other, hcycle, -⟩ := hvisiting.exists_cycle hclosed hid hleft
      exact hacyclic other hcycle
    have hvisited : visited.Nodup := by simpa using hvisiting.nodup
    apply le_antisymm
    · exact (List.subperm_of_subset hvisited fun id hid =>
        hvisiting.subset id (by simpa using hid)).length_le
    · exact (List.subperm_of_subset hnodup hall).length_le

theorem IsAcyclic.exists_isTopological (h : d.IsAcyclic) (hnodup : d.stepIds.Nodup)
    (hclosed : d.IsClosed) : ∃ order, d.IsTopological order := by
  obtain ⟨visited, hvisiting, hcount⟩ := exists_visiting hnodup hclosed
  exact ⟨visited, hvisiting.isTopological hclosed (hcount.symm.trans h)⟩

end Definition

end Workflow
