import Workflow.Proofs.Course.DataFlow

/-!
# Merging what parents have brought

The entries of all results, inserted one after the other. The last result that holds a key decides
its value and the first one its place, so a merge can be cut anywhere, and there is one mapping that
an agent without a prompt of its own can be shown.
-/

namespace Workflow

namespace Incoming

/-- The keys of a result, if it is a mapping. -/
def heldKeys (result : Value) : List Scalar := Table.keys (entries result)

/-- Each key stands where it first occurs in the results, and under it stands what the last result
that holds it holds. -/
structure IsMergeOf (fields : Fields) (results : List Value) : Prop where
  keys : IsOrderOf (Table.keys fields) (results.flatMap heldKeys)
  values : ∀ key value, Table.find? fields key = some value ↔ ∃ before result after,
    results = before ++ result :: after ∧ held? key result = some value ∧
      ∀ later ∈ after, held? key later = none

variable {results : List Value}

theorem merge_eq_ofEntries (results : List Value) :
    merge results = Table.ofEntries (results.flatMap entries) := by
  have hfrom (fields : Fields) : results.foldl (fun merged result =>
      merged.insertAll (entries result)) fields = fields.insertAll (results.flatMap entries) := by
    induction results generalizing fields with
    | nil => rfl
    | cons result results ih =>
        rw [List.foldl_cons, ih, List.flatMap_cons, Table.insertAll, Table.insertAll,
          Table.insertAll, List.foldl_append]
  exact hfrom []

theorem keys_merge (results : List Value) :
    Table.keys (merge results) = distinct (results.flatMap heldKeys) := by
  have hkeys : Table.keys (results.flatMap entries) = results.flatMap heldKeys :=
    List.map_flatMap
  rw [merge_eq_ofEntries, Table.keys_ofEntries, hkeys]

theorem nodup_keys_merge (results : List Value) : (Table.keys (merge results)).Nodup :=
  keys_merge results ▸ nodup_distinct _

theorem held?_merge (results : List Value) (key : Scalar) :
    held? key (.map (merge results)) = results.reverse.findSome? (held? key) := by
  rw [held?, entries, Table.ofEntries_of_nodup (nodup_keys_merge results), find?_merge]

theorem isMergeOf_merge (results : List Value) : IsMergeOf (merge results) results := by
  refine ⟨keys_merge results ▸ isOrderOf_distinct _, fun key value => ?_⟩
  rw [find?_merge, List.findSome?_eq_some_iff]
  constructor
  · rintro ⟨after, result, before, hsplit, hheld, hlater⟩
    refine ⟨before.reverse, result, after.reverse, ?_, hheld, by simpa using hlater⟩
    simpa using congrArg List.reverse hsplit
  · rintro ⟨before, result, after, rfl, hheld, hlater⟩
    exact ⟨after.reverse, result, before.reverse, by simp, hheld, by simpa using hlater⟩

theorem isMergeOf_iff {fields : Fields} : IsMergeOf fields results ↔ fields = merge results := by
  constructor
  · intro h
    have hmerge := isMergeOf_merge results
    have hkeys : Table.keys fields = distinct (results.flatMap heldKeys) := h.keys.eq_distinct
    refine Table.ext_of_nodup (hkeys ▸ nodup_distinct _) (hkeys.trans (keys_merge results).symm) ?_
    exact fun key => Option.ext fun value =>
      (h.values key value).trans (hmerge.values key value).symm
  · rintro rfl
    exact isMergeOf_merge results

/-- A merge can be cut in two: each part is merged on its own, and then the two. -/
theorem merge_append (earlier later : List Value) :
    merge (earlier ++ later) = merge [.map (merge earlier), .map (merge later)] := by
  refine Table.ext_of_nodup (nodup_keys_merge _) ?_ fun key => ?_
  · have hparts : [Value.map (merge earlier), .map (merge later)].flatMap heldKeys =
        distinct (earlier.flatMap heldKeys) ++ distinct (later.flatMap heldKeys) := by
      simp [heldKeys, entries, keys_merge]
    rw [keys_merge, keys_merge, hparts, List.flatMap_append, distinct_append, distinct_append,
      distinct_of_nodup (nodup_distinct _), distinct_of_nodup (nodup_distinct _)]
    simp only [mem_distinct]
  · rw [find?_merge, find?_merge, List.reverse_append, List.findSome?_append, ← held?_merge,
      ← held?_merge]
    simp [List.findSome?]
    cases held? key (.map (merge later)) <;> cases held? key (.map (merge earlier)) <;> rfl

/-- What is no mapping brings nothing. -/
theorem merge_remove {result : Value} (hother : ∀ fields, result ≠ .map fields)
    (before after : List Value) : merge (before ++ result :: after) = merge (before ++ after) := by
  have hnothing : entries result = [] := by
    cases result with
    | map fields => exact absurd rfl (hother fields)
    | scalar _ => rfl
    | list _ => rfl
  rw [merge_eq_ofEntries, merge_eq_ofEntries, List.flatMap_append, List.flatMap_cons, hnothing,
    List.nil_append, List.flatMap_append]

end Incoming

namespace Json

theorem writeEntries_eq_map (layout : Layout) (level : Nat) (fields : Fields) :
    writeEntries layout level fields =
      fields.map fun entry => keyText entry.1 ++ ": " ++ write layout level entry.2 := by
  induction fields with
  | nil => rfl
  | cons entry fields ih => rw [writeEntries, ih, List.map_cons]

theorem encode_compact_map (fields : Fields) :
    encode compact (.map fields) =
      match badKeyOf? fields with
      | some key => .error key
      | none => .ok ("\x7b" ++ Text.join ", " (fields.map fun entry =>
          keyText entry.1 ++ ": " ++ write compact 1 entry.2) ++ "\x7d") := by
  have henclose (parts : List String) :
      compact.enclose 0 "\x7b" "\x7d" parts = "\x7b" ++ Text.join ", " parts ++ "\x7d" := by
    cases parts with
    | nil => rfl
    | cons part parts => simp [Layout.enclose, Layout.newline, compact]
  cases hkey : badKeyOf? fields with
  | some key => simp only [encode, badKey?, hkey]
  | none => simp only [encode, badKey?, hkey, write, henclose, writeEntries_eq_map, Nat.zero_add]

end Json

/-- What the text of merged results is: their entries, in the order of their keys. -/
theorem Dispatcher.promptFor_of_noPrompt {agent : AiAgent} (hprompt : agent.userPrompt.getD "" = "")
    (fields : Fields) :
    Dispatcher.promptFor agent fields =
      match Json.badKeyOf? fields with
      | some key => .error (.unwritableKey key)
      | none => .ok ("\x7b" ++ Text.join ", " (fields.map fun entry =>
          Json.keyText entry.1 ++ ": " ++ Json.write Json.compact 1 entry.2) ++ "\x7d") := by
  have hnone : agent.userPrompt.filter (· ≠ "") = none := by
    cases hown : agent.userPrompt with
    | none => rfl
    | some prompt => simpa [hown] using hprompt
  rw [Dispatcher.promptFor, hnone, Json.encode_compact_map]
  cases Json.badKeyOf? fields <;> rfl

/-- **Merging is determined.** Results can be merged in parts, and what is no mapping can be left
out anywhere. There is one mapping in which each key stands where it first occurs and has the value
of the last result that holds it, and the merge is this mapping. So there is one text that an agent
without a prompt of its own can be shown. The results that are merged for a step are those of its
distinct parents, in the order of its incoming edges. -/
theorem Incoming.merging_is_determined :
    (∀ earlier later, merge (earlier ++ later) =
      merge [.map (merge earlier), .map (merge later)]) ∧
    (∀ before result after, (∀ fields, result ≠ .map fields) →
      merge (before ++ result :: after) = merge (before ++ after)) ∧
    (∀ fields results, IsMergeOf fields results ↔ fields = merge results) ∧
    (∀ (agent : AiAgent) fields results, agent.userPrompt.getD "" = "" →
      IsMergeOf fields results → Dispatcher.promptFor agent (merge results) =
        match Json.badKeyOf? fields with
        | some key => .error (.unwritableKey key)
        | none => .ok ("\x7b" ++ Text.join ", " (fields.map fun entry =>
            Json.keyText entry.1 ++ ": " ++ Json.write Json.compact 1 entry.2) ++ "\x7d")) ∧
    ∀ (run : Run) id,
      IsOrderOf (run.graph.parents id) ((run.graph.incomingEdges id).map (·.source)) ∧
        run.incoming id = merge ((run.graph.parents id).map fun parent =>
          (Table.find? run.results parent).getD .null) := by
  refine ⟨merge_append, fun before result after hother => merge_remove hother before after,
    fun fields results => isMergeOf_iff, fun agent fields results hprompt hmerge => ?_,
    fun run id => ⟨isOrderOf_distinct _, rfl⟩⟩
  rw [← isMergeOf_iff.mp hmerge, Dispatcher.promptFor_of_noPrompt hprompt]

/-- A key keeps its first place, and has its last value. -/
example : Incoming.merge [.record [("a", .int 1), ("b", .int 2)], .str "no mapping",
    .record [("c", .int 3), ("a", .int 4)]] =
      [(.str "a", .int 4), (.str "b", .int 2), (.str "c", .int 3)] := by
  decide

end Workflow
