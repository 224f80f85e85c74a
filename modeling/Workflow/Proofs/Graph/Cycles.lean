import Workflow.Proofs.Graph.Visiting
import Mathlib.Data.String.Basic

/-!
# Which steps a cycle holds back

A step that waits on a cycle is never taken, and neither is a step behind it. What is left with
something to wait for when the visit ends is therefore all that a cycle leads to, and this is what a
refused definition names.
-/

namespace Workflow

open Relation

variable {waits : Table String Nat} {texts : List String}

/-! ### Texts in order -/

theorem sorted_perm (texts : List String) : (sorted texts).Perm texts :=
  List.mergeSort_perm texts _

theorem pairwise_le_sorted (texts : List String) : (sorted texts).Pairwise (· ≤ ·) := by
  have hpairwise : (sorted texts).Pairwise fun a b => decide (a ≤ b) = true := by
    apply List.pairwise_mergeSort
    · intro a b c hab hbc
      rw [decide_eq_true_eq] at hab hbc ⊢
      exact le_trans hab hbc
    · intro a b
      rw [Bool.or_eq_true, decide_eq_true_eq, decide_eq_true_eq]
      exact le_total a b
  exact hpairwise.imp fun hle => of_decide_eq_true hle

theorem pairwise_lt_sorted (hnodup : texts.Nodup) : (sorted texts).Pairwise (· < ·) := by
  have hne : (sorted texts).Nodup := (sorted_perm texts).nodup_iff.mpr hnodup
  exact ((pairwise_le_sorted texts).and hne).imp fun h => lt_of_le_of_ne h.1 h.2

/-! ### The steps that wait -/

theorem keys_release (ids : List String) :
    Table.keys (release waits ids).1 = Table.keys waits := by
  induction ids generalizing waits with
  | nil => rfl
  | cons id ids ih =>
      rw [release]
      split
      · rename_i count hcount
        have hmem : id ∈ Table.keys waits := Table.find?_isSome_iff.mp (by rw [hcount]; rfl)
        calc Table.keys (release (Table.insert waits id count) ids).1
            = Table.keys (Table.insert waits id count) := ih
          _ = Table.keys waits := Table.keys_insert_of_mem count hmem
      · exact ih

namespace Definition

variable {d : Definition} {visited : List String} {id source target : String}

theorem keys_visit (queue : List String) (count : Nat) :
    Table.keys (d.visit queue waits count).1 = Table.keys waits := by
  induction queue, waits, count using Definition.visit.induct d with
  | case1 waits count => rw [visit]
  | case2 waits count id queue ih =>
      rw [visit, ih]
      exact keys_release _

theorem keys_visitAll : Table.keys d.visitAll.1 = d.stepIds := by
  rw [visitAll, keys_visit, Table.keys, parentCounts, List.map_map]
  exact List.map_id _

theorem nodup_cyclicSteps (hnodup : d.stepIds.Nodup) : d.cyclicSteps.Nodup := by
  have hsub : d.cyclicSteps.Sublist (Table.keys d.visitAll.1) := List.filter_sublist.map _
  rw [keys_visitAll] at hsub
  exact hsub.nodup hnodup

/-- The steps that are left with something to wait for are those that were not taken. -/
theorem mem_cyclicSteps_iff (h : d.Visiting visited [] d.visitAll.1) (hnodup : d.stepIds.Nodup) :
    id ∈ d.cyclicSteps ↔ id ∈ d.stepIds ∧ id ∉ visited := by
  have hwaits (hid : id ∈ d.stepIds) :
      0 < (d.parents id).countP (· ∉ visited) ↔ id ∉ visited := by
    have hdue := h.due id hid
    rw [List.append_nil] at hdue
    rw [Nat.pos_iff_ne_zero, not_iff_not, hdue]
    exact countP_parents_eq_zero_iff
  constructor
  · intro hmem
    obtain ⟨⟨_, count⟩, hentry, rfl⟩ := List.mem_map.mp hmem
    obtain ⟨hentry, hpos⟩ := List.mem_filter.mp hentry
    have hid := keys_visitAll (d := d) ▸ Table.mem_keys_of_mem hentry
    have hfind := Table.find?_eq_some_of_mem (keys_visitAll (d := d) ▸ hnodup) hentry
    rw [h.counts _ hid, Option.some.injEq] at hfind
    refine ⟨hid, (hwaits hid).mp ?_⟩
    rw [hfind]
    exact of_decide_eq_true hpos
  · rintro ⟨hid, hleft⟩
    have hentry := Table.mem_of_find?_eq_some (h.counts id hid)
    exact List.mem_map.mpr ⟨_, List.mem_filter.mpr ⟨hentry, decide_eq_true ((hwaits hid).mpr hleft)⟩,
      rfl⟩

/-! ### The steps that cycles lead to -/

theorem Visiting.mem_visited_of_joins (h : d.Visiting visited [] waits) (hclosed : d.IsClosed)
    (hjoins : d.Joins source target) (htarget : target ∈ visited) : source ∈ visited := by
  have hdue := h.due target (hclosed.mem_of_joins hjoins).2
  rw [List.append_nil] at hdue
  exact hdue.mp htarget source (mem_parents_iff.mpr hjoins)

theorem Visiting.mem_visited_of_path (h : d.Visiting visited [] waits) (hclosed : d.IsClosed)
    (hpath : ReflTransGen d.Joins source target) (htarget : target ∈ visited) :
    source ∈ visited := by
  induction hpath using ReflTransGen.head_induction_on with
  | refl => exact htarget
  | head hjoins _ ih => exact h.mem_visited_of_joins hclosed hjoins ih

/-- What has been taken was taken after all that leads to it, so no cycle leads to it. -/
theorem Visiting.idxOf_lt_of_path (h : d.Visiting visited [] waits) (hclosed : d.IsClosed)
    (hpath : TransGen d.Joins source target) (htarget : target ∈ visited) :
    visited.idxOf source < visited.idxOf target := by
  induction hpath using TransGen.head_induction_on with
  | single hjoins => exact h.forwards target htarget _ (mem_parents_iff.mpr hjoins)
  | @head source middle hjoins hpath ih =>
      have hmiddle := h.mem_visited_of_path hclosed hpath.to_reflTransGen htarget
      exact (h.forwards middle hmiddle source (mem_parents_iff.mpr hjoins)).trans ih

theorem Visiting.notMem_visited_iff (h : d.Visiting visited [] waits) (hclosed : d.IsClosed)
    (hid : id ∈ d.stepIds) :
    id ∉ visited ↔ ∃ other, TransGen d.Joins other other ∧ ReflTransGen d.Joins other id := by
  constructor
  · exact h.exists_cycle hclosed hid
  · rintro ⟨other, hcycle, hpath⟩ hvisited
    have hother := h.mem_visited_of_path hclosed hpath hvisited
    exact Nat.lt_irrefl _ (h.idxOf_lt_of_path hclosed hcycle hother)

theorem IsClosed.mem_of_cycle (hclosed : d.IsClosed) (hcycle : TransGen d.Joins source source)
    (hpath : ReflTransGen d.Joins source target) : target ∈ d.stepIds := by
  obtain ⟨middle, -, hjoins⟩ := TransGen.tail'_iff.mp (hcycle.trans_left hpath)
  exact (hclosed.mem_of_joins hjoins).2

end Definition

namespace Graph

variable {d : Definition}

theorem ofDefinition_eq_cycle_iff (hnodup : d.stepIds.Nodup) (hsound : ∀ e ∈ d.edges, d.IsSound e)
    {ids : List String} :
    ofDefinition d = .error (.cycle ids) ↔ ¬ d.IsAcyclic ∧ ids = sorted d.cyclicSteps := by
  rw [ofDefinition, dif_pos hnodup, dif_pos hsound]
  by_cases hacyclic : d.IsAcyclic
  · rw [dif_pos hacyclic]
    split <;> simp [hacyclic]
  · simp [hacyclic, eq_comm]

/-- **A refused definition names what its cycles lead to.** If its steps have different ids and its
edges join different steps, a definition is refused for a cycle exactly when there is one. Then it
names the steps on cycles and behind them, in order and each once, and no others. -/
theorem cycle_report (d : Definition) (hnodup : d.stepIds.Nodup)
    (hsound : ∀ e ∈ d.edges, d.IsSound e) :
    ((∃ ids, ofDefinition d = .error (.cycle ids)) ↔ ∃ id, TransGen d.Joins id id) ∧
      ∀ ids, ofDefinition d = .error (.cycle ids) →
        ids.Pairwise (· < ·) ∧
          ∀ id, id ∈ ids ↔
            ∃ other, TransGen d.Joins other other ∧ ReflTransGen d.Joins other id := by
  have hclosed := Definition.isClosed_of_isSound hsound
  obtain ⟨visited, hvisiting, -⟩ := Definition.exists_visiting hnodup hclosed
  simp only [ofDefinition_eq_cycle_iff hnodup hsound]
  constructor
  · rw [exists_and_left, Definition.isAcyclic_iff hnodup hclosed]
    simp
  · rintro ids ⟨-, rfl⟩
    refine ⟨pairwise_lt_sorted (Definition.nodup_cyclicSteps hnodup), fun id => ?_⟩
    rw [(sorted_perm _).mem_iff, Definition.mem_cyclicSteps_iff hvisiting hnodup]
    constructor
    · rintro ⟨hid, hleft⟩
      exact (hvisiting.notMem_visited_iff hclosed hid).mp hleft
    · rintro ⟨other, hcycle, hpath⟩
      have hid := hclosed.mem_of_cycle hcycle hpath
      exact ⟨hid, (hvisiting.notMem_visited_iff hclosed hid).mpr ⟨other, hcycle, hpath⟩⟩

/-- Two steps wait for each other and a third one for them; "apart" waits for none of them. -/
def entangled : Definition where
  steps := [⟨"start", none, none, .trigger⟩, ⟨"late", none, none, .wait none⟩,
    ⟨"second", none, none, .wait none⟩, ⟨"apart", none, none, .wait none⟩,
    ⟨"first", none, none, .wait none⟩]
  edges := [⟨"start", "first"⟩, ⟨"first", "second"⟩, ⟨"second", "first"⟩, ⟨"second", "late"⟩,
    ⟨"start", "apart"⟩]

theorem entangled_report :
    entangled.stepIds.Nodup ∧ (∀ e ∈ entangled.edges, entangled.IsSound e) ∧
      ofDefinition entangled = .error (.cycle ["first", "late", "second"]) ∧
      ∃ other, TransGen entangled.Joins other other ∧ ReflTransGen entangled.Joins other "late" := by
  have hnodup : entangled.stepIds.Nodup := by decide +kernel
  have hsound : ∀ e ∈ entangled.edges, entangled.IsSound e := by decide +kernel
  have hcyclic : entangled.cyclicSteps = ["late", "second", "first"] := by decide +kernel
  have hsorted : sorted ["late", "second", "first"] = ["first", "late", "second"] := by
    simp [sorted, List.mergeSort, List.MergeSort.Internal.splitInTwo]
  have herror : ofDefinition entangled = .error (.cycle ["first", "late", "second"]) :=
    (ofDefinition_eq_cycle_iff hnodup hsound).mpr ⟨by decide +kernel, by rw [hcyclic, hsorted]⟩
  obtain ⟨-, hreport⟩ := cycle_report entangled hnodup hsound
  exact ⟨hnodup, hsound, herror, ((hreport _ herror).2 "late").mp (by decide)⟩

end Graph

end Workflow
