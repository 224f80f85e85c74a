import Workflow.Table
import Mathlib.Data.List.Basic

/-!
# Reading tables

What a table answers after it has been changed, and which keys it has.
-/

namespace Workflow

section Distinct

variable {α : Type} [DecidableEq α]

theorem nodup_distinct (as : List α) : (distinct as).Nodup := by
  induction as with
  | nil => exact List.nodup_nil
  | cons a as ih =>
      rw [distinct, List.nodup_cons]
      exact ⟨by simp, ih.filter _⟩

theorem distinct_of_nodup {as : List α} (hnodup : as.Nodup) : distinct as = as := by
  induction as with
  | nil => rfl
  | cons a as ih =>
      obtain ⟨hnew, hnodup⟩ := List.nodup_cons.mp hnodup
      rw [distinct, ih hnodup, List.filter_eq_self.mpr]
      rintro b hmem
      simpa using ne_of_mem_of_not_mem hmem hnew

theorem distinct_append (as bs : List α) :
    distinct (as ++ bs) = distinct as ++ (distinct bs).filter (· ∉ as) := by
  induction as with
  | nil => simp [distinct]
  | cons a as ih =>
      rw [List.cons_append, distinct, ih, List.filter_append, List.filter_filter, distinct,
        List.cons_append]
      congr 3
      funext b
      simp

/-- An order holds every element of a list once; of two elements, the one that occurs first in the
list stands first. -/
structure IsOrderOf (order as : List α) : Prop where
  mem_iff : ∀ a, a ∈ order ↔ a ∈ as
  pairwise : order.Pairwise fun a b => as.idxOf a < as.idxOf b

theorem isOrderOf_distinct (as : List α) : IsOrderOf (distinct as) as := by
  refine ⟨fun _ => mem_distinct, ?_⟩
  induction as with
  | nil => exact List.Pairwise.nil
  | cons a as ih =>
      have hlater (b : α) (hb : b ≠ a) : (a :: as).idxOf b = as.idxOf b + 1 :=
        List.idxOf_cons_ne as hb.symm
      rw [distinct, List.pairwise_cons]
      refine ⟨fun b hmem => ?_, (ih.filter _).imp_of_mem fun hb hc hlt => ?_⟩
      · have hne : b ≠ a := by simpa using (List.mem_filter.mp hmem).2
        rw [hlater b hne, List.idxOf_cons_self]
        omega
      · rw [hlater _ (by simpa using (List.mem_filter.mp hb).2),
          hlater _ (by simpa using (List.mem_filter.mp hc).2)]
        omega

/-- A list has no other order. -/
theorem IsOrderOf.eq_distinct {order as : List α} (h : IsOrderOf order as) :
    order = distinct as := by
  have hdistinct := isOrderOf_distinct as
  have hnodup : order.Nodup := h.pairwise.imp fun hlt heq => by simp [heq] at hlt
  have hperm : order.Perm (distinct as) :=
    (List.perm_ext_iff_of_nodup hnodup (nodup_distinct as)).mpr fun a =>
      (h.mem_iff a).trans (hdistinct.mem_iff a).symm
  exact hperm.eq_of_pairwise (fun _ _ _ _ hlt hgt => absurd hlt (Nat.lt_asymm hgt)) h.pairwise
    hdistinct.pairwise

end Distinct

namespace Table

variable {κ α : Type}

theorem mem_keys_of_mem {t : Table κ α} {k : κ} {a : α} (hmem : (k, a) ∈ t) : k ∈ keys t :=
  List.mem_map_of_mem hmem

variable [DecidableEq κ]

theorem find?_isSome_iff {t : Table κ α} {k : κ} : (find? t k).isSome ↔ k ∈ keys t := by
  induction t with
  | nil => simp [find?, keys]
  | cons entry rest ih =>
      by_cases heq : entry.1 = k
      · simp [find?, keys, heq]
      · simp only [keys, List.map_cons, List.mem_cons] at ih ⊢
        simp [find?, heq, ih, Ne.symm heq]

theorem find?_eq_none_iff {t : Table κ α} {k : κ} : find? t k = none ↔ k ∉ keys t := by
  rw [← find?_isSome_iff, Option.not_isSome_iff_eq_none]

theorem mem_of_find?_eq_some {t : Table κ α} {k : κ} {a : α} (hfind : find? t k = some a) :
    (k, a) ∈ t := by
  induction t with
  | nil => simp [find?] at hfind
  | cons entry rest ih =>
      by_cases heq : entry.1 = k
      · rw [find?, if_pos heq] at hfind
        obtain rfl := Option.some.inj hfind
        rw [← heq]
        exact List.mem_cons_self
      · rw [find?, if_neg heq] at hfind
        exact List.mem_cons_of_mem entry (ih hfind)

theorem find?_eq_some_of_mem {t : Table κ α} {k : κ} {a : α} (hnodup : (keys t).Nodup)
    (hmem : (k, a) ∈ t) : find? t k = some a := by
  induction t with
  | nil => simp at hmem
  | cons entry rest ih =>
      rw [keys, List.map_cons, List.nodup_cons] at hnodup
      rcases List.mem_cons.mp hmem with rfl | hrest
      · simp [find?]
      · have hne : entry.1 ≠ k := by
          rintro rfl
          exact hnodup.1 (mem_keys_of_mem hrest)
        rw [find?, if_neg hne]
        exact ih hnodup.2 hrest

/-- Tables are the same if they have the same keys in the same order and the same values. -/
theorem ext_of_nodup {t t' : Table κ α} (hnodup : (keys t).Nodup) (hkeys : keys t = keys t')
    (hfind : ∀ k, find? t k = find? t' k) : t = t' := by
  induction t generalizing t' with
  | nil =>
      cases t' with
      | nil => rfl
      | cons entry t' => cases hkeys
  | cons entry t ih =>
      cases t' with
      | nil => cases hkeys
      | cons entry' t' =>
          obtain ⟨k, a⟩ := entry
          obtain ⟨k', a'⟩ := entry'
          simp only [keys, List.map_cons, List.cons.injEq] at hkeys hnodup
          obtain ⟨rfl, hrest⟩ := hkeys
          obtain ⟨hnew, hnodup⟩ := List.nodup_cons.mp hnodup
          have hfirst := hfind k
          simp only [find?, if_pos, Option.some.injEq] at hfirst
          subst hfirst
          refine congrArg _ (ih hnodup hrest fun other => ?_)
          by_cases heq : k = other
          · subst heq
            rw [find?_eq_none_iff.mpr hnew, find?_eq_none_iff.mpr fun hmem => hnew (hrest ▸ hmem)]
          · simpa [find?, heq] using hfind other

theorem find?_insert (t : Table κ α) (k k' : κ) (a : α) :
    find? (insert t k a) k' = if k' = k then some a else find? t k' := by
  induction t with
  | nil => simp [insert, find?, eq_comm]
  | cons entry rest ih =>
      by_cases hentry : entry.1 = k
      · by_cases heq : k' = k
        · simp [insert, find?, hentry, heq]
        · simp [insert, find?, hentry, heq, Ne.symm heq]
      · by_cases heq : entry.1 = k'
        · have hne : k' ≠ k := heq ▸ hentry
          simp [insert, find?, heq, hne]
        · simp [insert, find?, hentry, heq, ih]

theorem find?_insertAll (t new : Table κ α) (k : κ) :
    find? (insertAll t new) k = (find? (ofEntries new) k).or (find? t k) := by
  induction new generalizing t with
  | nil => simp [insertAll, ofEntries, find?]
  | cons entry new ih =>
      have hcons (t : Table κ α) : insertAll t (entry :: new) =
          insertAll (insert t entry.1 entry.2) new := rfl
      rw [ofEntries, hcons, hcons, ih, ih (insert [] entry.1 entry.2), find?_insert, find?_insert]
      by_cases heq : k = entry.1 <;> simp [heq, find?]

theorem find?_adjust (t : Table κ α) (k k' : κ) (f : α → α) :
    find? (adjust t k f) k' = if k' = k then (find? t k').map f else find? t k' := by
  induction t with
  | nil => simp [adjust, find?]
  | cons entry rest ih =>
      simp only [adjust, List.map_cons] at ih ⊢
      by_cases hentry : entry.1 = k
      · by_cases heq : k' = k
        · simp [find?, hentry, heq]
        · simp [find?, hentry, heq, Ne.symm heq, ih]
      · by_cases heq : entry.1 = k'
        · have hne : k' ≠ k := heq ▸ hentry
          simp [find?, heq, hne]
        · simp [find?, hentry, heq, ih]

@[simp]
theorem keys_adjust (t : Table κ α) (k : κ) (f : α → α) : keys (adjust t k f) = keys t := by
  rw [keys, keys, adjust, List.map_map]
  refine List.map_congr_left fun entry _ => ?_
  by_cases heq : entry.1 = k <;> simp [heq]

theorem adjust_eq_self {t : Table κ α} {k : κ} {f : α → α} (hsame : ∀ a, (k, a) ∈ t → f a = a) :
    adjust t k f = t := by
  refine (List.map_congr_left fun entry hmem => ?_).trans (List.map_id t)
  obtain ⟨k', a⟩ := entry
  dsimp only
  split
  · rename_i heq
    rw [hsame a (heq ▸ hmem)]
    rfl
  · rfl

theorem keys_insert_of_mem {t : Table κ α} {k : κ} (a : α) (hmem : k ∈ keys t) :
    keys (insert t k a) = keys t := by
  induction t with
  | nil => cases hmem
  | cons entry rest ih =>
      by_cases heq : entry.1 = k
      · simp [insert, keys, heq]
      · simp only [keys, List.map_cons, List.mem_cons, Ne.symm heq, false_or] at ih hmem ⊢
        simp [insert, heq, ih hmem]

theorem find?_eraseP {t : Table κ α} (hnodup : (keys t).Nodup) (k k' : κ) :
    find? (t.eraseP (·.1 = k)) k' = if k' = k then none else find? t k' := by
  induction t with
  | nil => simp [find?]
  | cons entry rest ih =>
      rw [keys, List.map_cons, List.nodup_cons] at hnodup
      by_cases hentry : entry.1 = k
      · have hrest : find? rest k = none := find?_eq_none_iff.mpr (hentry ▸ hnodup.1)
        by_cases heq : k' = k
        · simp [hentry, heq, hrest]
        · simp [find?, hentry, heq, Ne.symm heq]
      · by_cases heq : entry.1 = k'
        · have hne : k' ≠ k := heq ▸ hentry
          simp [find?, heq, hne]
        · simp [find?, hentry, heq, ih hnodup.2]

theorem keys_eraseP_sublist (t : Table κ α) (k : κ) :
    (keys (t.eraseP (·.1 = k))).Sublist (keys t) :=
  List.eraseP_sublist.map _

theorem find?_append (t t' : Table κ α) (k : κ) :
    find? (t ++ t') k = (find? t k).or (find? t' k) := by
  induction t with
  | nil => simp [find?]
  | cons entry rest ih =>
      by_cases heq : entry.1 = k
      · simp [find?, heq]
      · simp [find?, heq, ih]

theorem mem_keys_insert {t : Table κ α} {k k' : κ} {a : α} :
    k' ∈ keys (insert t k a) ↔ k' = k ∨ k' ∈ keys t := by
  rw [← find?_isSome_iff, ← find?_isSome_iff, find?_insert]
  by_cases heq : k' = k <;> simp [heq]

theorem mem_keys_insertAll {t new : Table κ α} {k : κ} :
    k ∈ keys (insertAll t new) ↔ k ∈ keys t ∨ k ∈ keys new := by
  induction new generalizing t with
  | nil => simp [insertAll, keys]
  | cons entry new ih =>
      have hstep : insertAll t (entry :: new) = insertAll (insert t entry.1 entry.2) new := rfl
      have hkeys : k ∈ keys (entry :: new) ↔ k = entry.1 ∨ k ∈ keys new := List.mem_cons
      rw [hstep, ih, mem_keys_insert, hkeys]
      tauto

theorem insert_of_notMem {t : Table κ α} {k : κ} (a : α) (hnew : k ∉ keys t) :
    insert t k a = t ++ [(k, a)] := by
  induction t with
  | nil => rfl
  | cons entry rest ih =>
      simp only [keys, List.map_cons, List.mem_cons, not_or] at hnew ih
      rw [insert, if_neg (Ne.symm hnew.1), ih hnew.2, List.cons_append]

theorem insertAll_of_nodup {t new : Table κ α} (hnodup : (keys (t ++ new)).Nodup) :
    insertAll t new = t ++ new := by
  induction new generalizing t with
  | nil => simp [insertAll]
  | cons entry new ih =>
      have hnew : entry.1 ∉ keys t := by
        intro hmem
        simp only [keys, List.map_append, List.map_cons] at hnodup hmem
        exact (List.nodup_append.mp hnodup).2.2 _ hmem _ List.mem_cons_self rfl
      have hstep : insertAll t (entry :: new) = insertAll (t ++ [entry]) new := by
        rw [insertAll, List.foldl_cons, insert_of_notMem entry.2 hnew]
        rfl
      rw [hstep, ih (by simpa using hnodup), List.append_assoc, List.singleton_append]

theorem keys_insertAll {t new : Table κ α} (hnodup : (keys t).Nodup) :
    keys (insertAll t new) = distinct (keys t ++ keys new) := by
  induction new generalizing t with
  | nil => simpa [insertAll, keys] using (distinct_of_nodup hnodup).symm
  | cons entry new ih =>
      have hstep : insertAll t (entry :: new) = insertAll (insert t entry.1 entry.2) new := rfl
      rw [hstep]
      have hcons : keys (entry :: new) = entry.1 :: keys new := rfl
      by_cases hmem : entry.1 ∈ keys t
      · have hkeys := keys_insert_of_mem entry.2 hmem
        rw [ih (hkeys ▸ hnodup), hkeys, hcons, distinct_append, distinct_append, distinct,
          List.filter_cons_of_neg (by simpa using hmem), List.filter_filter]
        refine congrArg _ (List.filter_congr fun k _ => ?_)
        have hne : k ∉ keys t → k ≠ entry.1 := fun hnew heq => hnew (heq ▸ hmem)
        by_cases hk : k ∈ keys t
        · simp [hk]
        · simp [hk, hne hk]
      · have hkeys : keys (insert t entry.1 entry.2) = keys t ++ [entry.1] := by
          simp [insert_of_notMem entry.2 hmem, keys]
        have hnodup' : (keys t ++ [entry.1]).Nodup := by
          refine List.nodup_append.mpr ⟨hnodup, List.nodup_cons.mpr ⟨by simp, List.nodup_nil⟩, ?_⟩
          rintro k hk _ hlast rfl
          exact hmem (List.mem_singleton.mp hlast ▸ hk)
        rw [ih (hkeys ▸ hnodup'), hkeys, hcons, List.append_assoc, List.singleton_append]

theorem keys_ofEntries (entries : List (κ × α)) :
    keys (ofEntries entries) = distinct (keys entries) :=
  keys_insertAll List.nodup_nil

/-- Entries with different keys make a table as they are. -/
theorem ofEntries_of_nodup {entries : List (κ × α)} (hnodup : (keys entries).Nodup) :
    ofEntries entries = entries :=
  insertAll_of_nodup hnodup

end Table

end Workflow
