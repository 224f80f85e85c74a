import Mathlib.Data.List.Basic

/-!
# What may fail

A computation of several parts succeeds just if each of its parts does, and otherwise it fails with
the first part that fails. So what is known to have succeeded, or to have failed, is taken apart from
left to right.
-/

namespace Workflow

variable {α β γ ε : Type}

theorem bind_eq_ok_iff {x : Except ε α} {f : α → Except ε β} {b : β} :
    (x >>= f) = .ok b ↔ ∃ a, x = .ok a ∧ f a = .ok b := by
  cases x with
  | error e => simp [bind, Except.bind]
  | ok a => simp [bind, Except.bind]

theorem bind_eq_error_iff {x : Except ε α} {f : α → Except ε β} {e : ε} :
    (x >>= f) = .error e ↔ x = .error e ∨ ∃ a, x = .ok a ∧ f a = .error e := by
  cases x with
  | error e => simp [bind, Except.bind]
  | ok a => simp [bind, Except.bind]

theorem exists_of_map_eq_ok {f : α → β} {x : Except ε α} {b : β} (h : x.map f = .ok b) :
    ∃ a, x = .ok a ∧ f a = b := by
  cases x with
  | error e => cases h
  | ok a => exact ⟨a, rfl, by cases h; rfl⟩

section Lists

variable {f : α → Except ε β} {a : α} {as : List α} {bs : List β}

theorem mapM_cons_eq_ok_iff :
    (a :: as).mapM f = .ok bs ↔ ∃ b rest, f a = .ok b ∧ as.mapM f = .ok rest ∧ b :: rest = bs := by
  rw [List.mapM_cons, bind_eq_ok_iff]
  simp only [bind_eq_ok_iff, pure, Except.pure, Except.ok.injEq]
  constructor
  · rintro ⟨b, hb, rest, hrest, rfl⟩
    exact ⟨b, rest, hb, hrest, rfl⟩
  · rintro ⟨b, rest, hb, hrest, rfl⟩
    exact ⟨b, hb, rest, hrest, rfl⟩

theorem exists_mapM_of_forall (h : ∀ a ∈ as, ∃ b, f a = .ok b) : ∃ bs, as.mapM f = .ok bs := by
  induction as with
  | nil => exact ⟨[], rfl⟩
  | cons a as ih =>
      obtain ⟨b, hb⟩ := h a List.mem_cons_self
      obtain ⟨bs, hbs⟩ := ih fun a hmem => h a (List.mem_cons_of_mem _ hmem)
      exact ⟨b :: bs, mapM_cons_eq_ok_iff.mpr ⟨b, bs, hb, hbs, rfl⟩⟩

theorem mapM_eq_filterMap {g : α → Option β} (h : ∀ a ∈ as, ∃ b, g a = some b ∧ f a = .ok b) :
    as.mapM f = .ok (as.filterMap g) := by
  induction as with
  | nil => rfl
  | cons a as ih =>
      obtain ⟨b, hg, hf⟩ := h a List.mem_cons_self
      have hrest := ih fun a hmem => h a (List.mem_cons_of_mem _ hmem)
      exact mapM_cons_eq_ok_iff.mpr ⟨b, _, hf, hrest, (List.filterMap_cons_some hg).symm⟩

theorem map_eq_of_mapM {g : β → γ} {g' : α → γ} (hcomm : ∀ a b, f a = .ok b → g b = g' a)
    (hok : as.mapM f = .ok bs) : bs.map g = as.map g' := by
  induction as generalizing bs with
  | nil =>
      cases hok
      rfl
  | cons a as ih =>
      obtain ⟨b, rest, hhead, htail, rfl⟩ := mapM_cons_eq_ok_iff.mp hok
      rw [List.map_cons, List.map_cons, hcomm a b hhead, ih htail]

theorem mapM_map_eq_ok {g : α → α} {g' : β → β}
    (hcomm : ∀ a ∈ as, ∀ b, f a = .ok b → f (g a) = .ok (g' b)) (hok : as.mapM f = .ok bs) :
    (as.map g).mapM f = .ok (bs.map g') := by
  induction as generalizing bs with
  | nil =>
      cases hok
      rfl
  | cons a as ih =>
      obtain ⟨b, rest, hhead, htail, rfl⟩ := mapM_cons_eq_ok_iff.mp hok
      have hrest := ih (fun a hmem => hcomm a (List.mem_cons_of_mem _ hmem)) htail
      exact mapM_cons_eq_ok_iff.mpr ⟨_, _, hcomm a List.mem_cons_self b hhead, hrest, rfl⟩

end Lists

end Workflow
