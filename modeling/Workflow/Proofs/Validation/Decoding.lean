import Workflow.Proofs.Json.RoundTrip
import Workflow.Proofs.Table
import Workflow.Validation.Record

/-!
# What decoders accept

A decoder reads the fields of a record one by one. Where each field holds what some datum was
written as, the datum is read again; and where a record is accepted, each of its fields was accepted
or was missing.
-/

namespace Workflow

namespace Checked

variable {α β : Type}

@[simp]
theorem map_valid (f : α → β) (a : α) : f <$> (valid a : Checked α) = .valid (f a) := rfl

@[simp]
theorem seq_valid (f : α → β) (a : α) :
    (valid f : Checked (α → β)) <*> (valid a : Checked α) = .valid (f a) := rfl

@[simp]
theorem within_valid (place : Place) (a : α) : (valid a).within place = .valid a := rfl

@[simp]
theorem andThen_valid (f : α → Checked β) (a : α) : (valid a).andThen f = f a := rfl

theorem map_eq_valid_iff {f : α → β} {c : Checked α} {b : β} :
    f <$> c = .valid b ↔ ∃ a, c = .valid a ∧ f a = b := by
  cases c with
  | valid a => simp
  | invalid first rest => simp [Functor.map, Checked.map]

theorem seq_eq_valid_iff {cf : Checked (α → β)} {c : Checked α} {b : β} :
    cf <*> c = .valid b ↔ ∃ f, cf = .valid f ∧ ∃ a, c = .valid a ∧ f a = b := by
  cases cf <;> cases c <;> simp [Seq.seq, Checked.apply]

@[simp]
theorem within_eq_valid_iff {place : Place} {c : Checked α} {a : α} :
    c.within place = .valid a ↔ c = .valid a := by
  cases c <;> simp [within]

/-- Whether data, if it is valid, has a property. -/
def Yields (P : α → Prop) (c : Checked α) : Prop := ∀ a, c = .valid a → P a

theorem yields_map {P : β → Prop} {f : α → β} (h : ∀ a, P (f a)) (c : Checked α) :
    (f <$> c).Yields P := by
  intro b hb
  obtain ⟨a, -, rfl⟩ := map_eq_valid_iff.mp hb
  exact h a

/-- What all functions on the left have in common does not depend on what is on the right. -/
theorem Yields.seq {P : β → Prop} {cf : Checked (α → β)} (h : cf.Yields fun f => ∀ a, P (f a))
    (c : Checked α) : (cf <*> c).Yields P := by
  intro b hb
  obtain ⟨f, hf, a, -, rfl⟩ := seq_eq_valid_iff.mp hb
  exact h f hf a

theorem toExcept_eq_ok_iff {model : String} {c : Checked α} {a : α} :
    c.toExcept model = .ok a ↔ c = .valid a := by
  cases c <;> simp [toExcept]

end Checked

/-! ### Mappings -/

namespace Decode

theorem eq_of_mapping_eq_valid {v : Value} {fields : Fields} (h : mapping v = .valid fields) :
    v = .map fields := by
  cases v with
  | map entries =>
      obtain ⟨-, -, rfl⟩ := Checked.map_eq_valid_iff.mp h
      rfl
  | scalar s => cases h
  | list items => cases h

theorem mapping_of_texts {entries : Fields} (h : ∀ entry ∈ entries, ∃ s, entry.1 = Scalar.str s) :
    mapping (.map entries) = .valid entries := by
  have hcollect : ∃ keys,
      Checked.collect (entries.map fun entry => textKey entry.1) = .valid keys := by
    induction entries with
    | nil => exact ⟨[], rfl⟩
    | cons entry entries ih =>
        obtain ⟨s, hs⟩ := h entry List.mem_cons_self
        obtain ⟨keys, hkeys⟩ := ih fun entry hmem => h entry (List.mem_cons_of_mem _ hmem)
        refine ⟨.str s :: keys, ?_⟩
        rw [List.map_cons, Checked.collect, hkeys, hs]
        rfl
  obtain ⟨keys, hkeys⟩ := hcollect
  unfold mapping
  dsimp only
  rw [hkeys]
  rfl

end Decode

namespace Json

theorem exists_text_of_mem_keys {entries : Fields} {key : Scalar}
    (hmem : key ∈ Table.keys (readBackEntries entries)) : ∃ s, key = .str s := by
  induction entries with
  | nil => cases hmem
  | cons entry rest ih =>
      rcases List.mem_cons.mp hmem with rfl | hrest
      · exact ⟨keyName entry.1, rfl⟩
      · exact ih hrest

/-- What is read back of a mapping is a mapping from texts. -/
theorem mapping_readBack (entries : Fields) :
    Decode.mapping (readBack (.map entries)) =
      .valid (Table.ofEntries (readBackEntries entries)) := by
  refine Decode.mapping_of_texts fun entry hmem => ?_
  have hkey := Table.mem_keys_insertAll.mp (Table.mem_keys_of_mem hmem)
  exact exists_text_of_mem_keys (hkey.resolve_left List.not_mem_nil)

theorem mapping_of_isNative {entries : Fields} (h : isNative (.map entries) = true) :
    Decode.mapping (.map entries) = .valid entries := by
  have hself := readBack_of_isNative _ h
  have hmapping := mapping_readBack entries
  rw [hself] at hmapping
  rw [hmapping, Value.map.inj hself]

end Json

/-! ### Data that was written -/

namespace Decode

variable {α : Type}

section Data

variable {decode : Decoder α} {encode : α → Value}

theorem collect_itemsFrom {as : List α} (h : ∀ a ∈ as, decode (encode a) = .valid a)
    (index : Nat) : Checked.collect (itemsFrom decode index (as.map encode)) = .valid as := by
  induction as generalizing index with
  | nil => rfl
  | cons a as ih =>
      rw [List.map_cons, itemsFrom, h a List.mem_cons_self, Checked.collect,
        ih (fun b hb => h b (List.mem_cons_of_mem a hb))]
      rfl

theorem list_encoded {as : List α} (h : ∀ a ∈ as, decode (encode a) = .valid a) :
    list decode (.list (as.map encode)) = .valid as :=
  collect_itemsFrom h 0

theorem nullable_ofOption {o : Option α}
    (h : ∀ a ∈ o, encode a ≠ .null ∧ decode (encode a) = .valid a) :
    nullable decode (.ofOption encode o) = .valid o := by
  cases o with
  | none => rfl
  | some a =>
      obtain ⟨hne, hread⟩ := h a rfl
      rw [Value.ofOption, nullable, hread]
      · rfl
      · exact hne

end Data

@[simp]
theorem text_str (s : String) : text (.str s) = .valid s := rfl

@[simp]
theorem number_float (x : Float) : number (.float x) = .valid x := rfl

@[simp]
theorem integerAtLeast_int (bound : Nat) (n : { n : Nat // bound ≤ n }) :
    integerAtLeast bound (.int n.val) = .valid n := by
  simp [integerAtLeast, integer, n.2]

@[simp]
theorem positiveNumber_float (x : { x : Float // 0.0 < x }) :
    positiveNumber (.float x.val) = .valid x := by
  simp [positiveNumber, x.2]

@[simp]
theorem numberAtLeastZero_float (x : { x : Float // 0.0 ≤ x }) :
    numberAtLeastZero (.float x.val) = .valid x := by
  simp [numberAtLeastZero, x.2]

section Field

variable {fields : Fields} {name : String} {names : List String} {v : Value} {decode : Decoder α}
  {a : α}

theorem present?_cons_of_get? (hget : fields.get? name = some v) :
    present? fields (name :: names) = some (name, v) := by
  simp only [present?, hget]

theorem required_of_get? (hget : fields.get? name = some v) (h : decode v = .valid a) :
    required fields (name :: names) decode = .valid a := by
  simp only [required, present?_cons_of_get? hget, h, Checked.within_valid]

theorem optional_of_get? (hget : fields.get? name = some v) (h : decode v = .valid a)
    (default : α) : optional fields (name :: names) default decode = .valid a := by
  simp only [optional, present?_cons_of_get? hget, h, Checked.within_valid]

end Field

/-! ### Data that was accepted -/

section Accepted

variable {decode : Decoder α} {a : α}

theorem get?_of_present? {fields : Fields} {names : List String} {name : String} {v : Value}
    (h : present? fields names = some (name, v)) : fields.get? name = some v := by
  induction names with
  | nil => cases h
  | cons first names ih =>
      rw [present?] at h
      cases hget : fields.get? first with
      | none =>
          rw [hget] at h
          exact ih h
      | some value =>
          rw [hget] at h
          cases h
          exact hget

theorem exists_get?_of_required {fields : Fields} {names : List String}
    (h : required fields names decode = .valid a) :
    ∃ name v, fields.get? name = some v ∧ decode v = .valid a := by
  unfold required at h
  split at h
  · rename_i name v hpresent
    exact ⟨name, v, get?_of_present? hpresent, Checked.within_eq_valid_iff.mp h⟩
  · cases h

theorem exists_get?_of_optional {fields : Fields} {names : List String} {default : α}
    (h : optional fields names default decode = .valid a) :
    a = default ∨ ∃ name v, fields.get? name = some v ∧ decode v = .valid a := by
  unfold optional at h
  split at h
  · rename_i name v hpresent
    exact .inr ⟨name, v, get?_of_present? hpresent, Checked.within_eq_valid_iff.mp h⟩
  · cases h
    exact .inl rfl

theorem exists_item_of_collect {items : List Value} {index : Nat} {as : List α}
    (h : Checked.collect (itemsFrom decode index items) = .valid as) :
    ∀ a ∈ as, ∃ item ∈ items, decode item = .valid a := by
  induction items generalizing index as with
  | nil =>
      cases h
      exact nofun
  | cons item items ih =>
      obtain ⟨cons, hhead, rest, hrest, rfl⟩ := Checked.seq_eq_valid_iff.mp h
      obtain ⟨a, ha, rfl⟩ := Checked.map_eq_valid_iff.mp hhead
      intro b hb
      rcases List.mem_cons.mp hb with rfl | hb
      · exact ⟨item, List.mem_cons_self, Checked.within_eq_valid_iff.mp ha⟩
      · obtain ⟨item', hmem, hread⟩ := ih hrest b hb
        exact ⟨item', List.mem_cons_of_mem item hmem, hread⟩

/-- Every member of a list that was read stood in the list as a value. -/
theorem exists_item_of_list {v : Value} {as : List α} (h : list decode v = .valid as) :
    ∃ items, v = .list items ∧ ∀ a ∈ as, ∃ item ∈ items, decode item = .valid a := by
  cases v with
  | list items => exact ⟨items, rfl, exists_item_of_collect h⟩
  | scalar s => cases h
  | map entries => cases h

theorem yields_optional {P : α → Prop} {default : α} (hdefault : P default)
    (h : ∀ v, (decode v).Yields P) (fields : Fields) (names : List String) :
    (optional fields names default decode).Yields P := by
  intro a ha
  rcases exists_get?_of_optional ha with rfl | ⟨name, v, -, hread⟩
  · exact hdefault
  · exact h v a hread

theorem yields_required {P : α → Prop} (h : ∀ v, (decode v).Yields P) (fields : Fields)
    (names : List String) : (required fields names decode).Yields P := by
  intro a ha
  obtain ⟨name, v, -, hread⟩ := exists_get?_of_required ha
  exact h v a hread

theorem exists_fields_of_record {model : String} {decode : Fields → Checked α} {v : Value}
    (h : record model decode v = .valid a) :
    ∃ fields, v = .map fields ∧ decode fields = .valid a := by
  cases v with
  | map fields => exact ⟨fields, rfl, h⟩
  | scalar s => cases h
  | list items => cases h

theorem yields_record {P : α → Prop} {model : String} {decode : Fields → Checked α}
    (h : ∀ fields, (decode fields).Yields P) (v : Value) : (record model decode v).Yields P := by
  intro a ha
  obtain ⟨fields, -, hread⟩ := exists_fields_of_record ha
  exact h fields a hread

end Accepted

end Workflow.Decode
