import Workflow.Proofs.Fallible
import Workflow.Proofs.Store.Timestamp
import Workflow.Proofs.Validation.Decoding
import Workflow.Store.Database
import Workflow.Store.Memory

/-!
# What writing does to the record of a run

In memory and in a database, every operation changes the record of the run it is about in the same
way.
-/

namespace Workflow

section Rows

variable {α : Type} {p : α → Bool} {f : α → α}

theorem filter_map_of_keeps (hkeeps : ∀ a, p (f a) = p a) (as : List α) :
    (as.map f).filter p = (as.filter p).map f := by
  rw [List.filter_map]
  exact congrArg (List.map f) (List.filter_congr fun a _ => hkeeps a)

theorem find?_map_of_keeps (hkeeps : ∀ a, p (f a) = p a) (as : List α) :
    List.find? p (as.map f) = (List.find? p as).map f := by
  rw [List.find?_map, show p ∘ f = p from funext hkeeps]

theorem filter_map_of_spares (hkeeps : ∀ a, p (f a) = p a) (hspares : ∀ a, p a = true → f a = a)
    (as : List α) : (as.map f).filter p = as.filter p := by
  rw [filter_map_of_keeps hkeeps]
  conv_rhs => rw [← List.map_id (as.filter p)]
  exact List.map_congr_left fun a hmem => hspares a (List.mem_filter.mp hmem).2

theorem find?_map_of_spares (hkeeps : ∀ a, p (f a) = p a) (hspares : ∀ a, p a = true → f a = a)
    (as : List α) : List.find? p (as.map f) = List.find? p as := by
  rw [find?_map_of_keeps hkeeps]
  cases hfind : List.find? p as with
  | none => rfl
  | some a => exact congrArg some (hspares a (List.find?_some hfind))

end Rows

/-! ### Records -/

/-- The record of a step once it is closed. -/
def StepRecord.close (now : Moment) (closing : StepClosing) (output : Value) (step : StepRecord) :
    StepRecord :=
  { step with
    completedAt := some now, status := closing.status, output := some output
    error := closing.error }

namespace RunRecord

def addStep (step : StepRecord) (record : RunRecord) : RunRecord :=
  { record with steps := record.steps ++ [step] }

/-- Closes the records of one step. -/
def closeStep (now : Moment) (stepId : String) (closing : StepClosing) (output : Value)
    (record : RunRecord) : RunRecord :=
  { record with
    steps := record.steps.map fun step =>
      if step.stepId = stepId then step.close now closing output else step }

variable {runId status : String} {definition payload : Value} {error : Option String}
  {steps : List StepRecord} {record : RunRecord}

theorem ofParts_eq_ok_iff : ofParts runId definition payload status error steps = .ok record ↔
    ∃ ds ps, Decode.mapping definition = .valid ds ∧ Decode.mapping payload = .valid ps ∧
      { runId, definition := ds, payload := ps, status := some status, error, steps } = record := by
  unfold ofParts
  cases hdefinition : Decode.mapping definition with
  | invalid first rest => 
      cases hpayload : Decode.mapping payload <;>
        simp [Checked.within, Functor.map, Seq.seq, Checked.map, Checked.apply, Checked.toExcept,
          Except.mapError]
  | valid ds =>
      cases hpayload : Decode.mapping payload with
      | invalid first rest => 
        simp [Checked.within, Functor.map, Seq.seq, Checked.map, Checked.apply, Checked.toExcept,
          Except.mapError]
      | valid ps => 
        simp [Checked.within, Functor.map, Seq.seq, Checked.map, Checked.apply, Checked.toExcept,
          Except.mapError]

theorem nodup_addStep_iff {step : StepRecord} (hnodup : (record.steps.map (·.stepId)).Nodup) :
    ((record.addStep step).steps.map (·.stepId)).Nodup ↔
      step.stepId ∉ record.steps.map (·.stepId) := by
  rw [addStep, List.map_append, List.map_singleton, ← List.concat_eq_append, List.nodup_concat]
  exact and_iff_left hnodup

theorem stepIds_closeStep (record : RunRecord) (now : Moment) (stepId : String)
    (closing : StepClosing) (output : Value) :
    (record.closeStep now stepId closing output).steps.map (·.stepId) =
      record.steps.map (·.stepId) := by
  rw [closeStep, List.map_map]
  refine List.map_congr_left fun step _ => ?_
  dsimp only [Function.comp]
  split <;> rfl

end RunRecord

/-! ### A database -/

namespace Database

variable {db db' : Database} {runId stepId text : String} {record : RunRecord} {now : Moment}
  {row : RunRow} {steps : List StepRecord} {v : Value} {ds ps os : Fields}

theorem valueOf_of_textOf (h : textOf v = .ok text) : valueOf text = Json.readBack v := by
  unfold textOf at h
  cases hencode : Json.encode Json.compact v with
  | error key =>
      rw [hencode] at h
      cases h
  | ok written =>
      rw [hencode] at h
      cases h
      rw [valueOf, Json.parse?_of_encode hencode]
      rfl

theorem exists_textOf (h : Json.isNative v = true) : ∃ text, textOf v = .ok text := by
  obtain ⟨text, hencode, -⟩ := Json.encode_of_isNative h
  exact ⟨text, by rw [textOf, hencode]; rfl⟩

theorem run?_eq_some_iff : db.run? runId = .ok (some record) ↔
    ∃ row steps, List.find? (·.runId = runId) db.runs = some row ∧
      (db.steps.filter (·.runId = runId)).mapM stepOf = .ok steps ∧
      recordOf row steps = .ok record := by
  unfold run?
  cases hrow : List.find? (·.runId = runId) db.runs with
  | none => simp
  | some row => simp [bind_eq_ok_iff, pure, Except.pure]

/-- What is answered about a run depends on its own rows only. -/
theorem run?_congr
    (hruns : List.find? (·.runId = runId) db'.runs = List.find? (·.runId = runId) db.runs)
    (hsteps : db'.steps.filter (·.runId = runId) = db.steps.filter (·.runId = runId)) :
    db'.run? runId = db.run? runId := by
  rw [run?, run?, hruns, hsteps]

theorem recordOf_eq_ok_iff : recordOf row steps = .ok record ↔
    ∃ ds ps, Decode.mapping (valueOf row.definition) = .valid ds ∧
      Decode.mapping (valueOf row.payload) = .valid ps ∧
      { runId := row.runId, definition := ds, payload := ps, status := some row.status,
        error := row.error, steps } = record :=
  RunRecord.ofParts_eq_ok_iff

theorem recordOf_withSteps (h : recordOf row steps = .ok record) (steps' : List StepRecord) :
    recordOf row steps' = .ok { record with steps := steps' } := by
  obtain ⟨ds, ps, hds, hps, rfl⟩ := recordOf_eq_ok_iff.mp h
  exact recordOf_eq_ok_iff.mpr ⟨ds, ps, hds, hps, rfl⟩

theorem recordOf_withStatus (h : recordOf row steps = .ok record) (status : String)
    (error : Option String) :
    recordOf { row with status, error } steps = .ok { record with status, error } := by
  obtain ⟨ds, ps, hds, hps, rfl⟩ := recordOf_eq_ok_iff.mp h
  exact recordOf_eq_ok_iff.mpr ⟨ds, ps, hds, hps, rfl⟩

theorem steps_of_recordOf (h : recordOf row steps = .ok record) : record.steps = steps := by
  obtain ⟨ds, ps, -, -, rfl⟩ := recordOf_eq_ok_iff.mp h
  rfl

/-! #### Creating a run -/

theorem createRun_eq_ok {definition payload : Value}
    (h : db.createRun runId definition payload = .ok db') :
    ∃ definitionText payloadText, textOf definition = .ok definitionText ∧
      textOf (keptPayload payload) = .ok payloadText ∧ runId ∉ db.runs.map (·.runId) ∧
      db' = { db with
        runs := db.runs ++ [⟨runId, definitionText, payloadText, "running", none⟩] } := by
  unfold createRun at h
  obtain ⟨definitionText, hdefinition, hrest⟩ := bind_eq_ok_iff.mp h
  obtain ⟨payloadText, hpayload, hlast⟩ := bind_eq_ok_iff.mp hrest
  split at hlast
  · cases hlast
  · rename_i hany
    exact ⟨definitionText, payloadText, hdefinition, hpayload, by simpa using hany,
      (Except.ok.inj hlast).symm⟩

theorem exists_createRun {definition payload : Value} (hnew : runId ∉ db.runs.map (·.runId))
    (hdefinition : Json.isNative definition = true)
    (hpayload : Json.isNative (keptPayload payload) = true) :
    ∃ db', db.createRun runId definition payload = .ok db' := by
  obtain ⟨definitionText, hdefinitionText⟩ := exists_textOf hdefinition
  obtain ⟨payloadText, hpayloadText⟩ := exists_textOf hpayload
  have hany : db.runs.any (·.runId = runId) = false := by simpa using hnew
  simp [createRun, hdefinitionText, hpayloadText, hany, bind, Except.bind, pure, Except.pure]

theorem run?_createRun {payload : Value} (hpayload : keptPayload payload = .map ps)
    (hsteps : runId ∉ db.steps.map (·.runId))
    (h : db.createRun runId (.map ds) payload = .ok db') :
    db'.run? runId = .ok (some
      { runId, definition := Table.ofEntries (Json.readBackEntries ds)
        payload := Table.ofEntries (Json.readBackEntries ps) }) := by
  obtain ⟨definitionText, payloadText, hdefinition, htext, hnew, rfl⟩ := createRun_eq_ok h
  have hnone : List.find? (·.runId = runId) db.runs = none := by
    simpa using hnew
  have hfilter : db.steps.filter (·.runId = runId) = [] := by
    simpa using hsteps
  refine run?_eq_some_iff.mpr
    ⟨⟨runId, definitionText, payloadText, "running", none⟩, [], ?_, ?_, ?_⟩
  · rw [List.find?_append, hnone]
    simp
  · rw [hfilter]
    rfl
  · refine recordOf_eq_ok_iff.mpr ⟨_, _, ?_, ?_, rfl⟩
    · rw [valueOf_of_textOf hdefinition, Json.mapping_readBack]
    · rw [valueOf_of_textOf htext, hpayload, Json.mapping_readBack]

/-! #### Steps -/

theorem stepOf_new (hnow : now.IsValid) (id : Nat) (runId stepId : String) :
    stepOf { id, runId, stepId, startedAt := now.iso } =
      .ok { id, runId, stepId, startedAt := some now } := by
  simp [stepOf, Moment.ofIso?_iso hnow, Checked.toExcept, Except.mapError, bind, Except.bind, pure,
    Except.pure]

theorem run?_startStep (hnow : now.IsValid) (h : db.run? runId = .ok (some record)) :
    (db.startStep now runId stepId).run? runId = .ok (some
      (record.addStep { id := db.steps.length + 1, runId, stepId, startedAt := some now })) := by
  obtain ⟨row, steps, hrow, hsteps, hrecord⟩ := run?_eq_some_iff.mp h
  refine run?_eq_some_iff.mpr ⟨row, _, hrow, ?_, recordOf_withSteps hrecord _⟩
  rw [startStep, List.filter_append, List.mapM_append, hsteps, steps_of_recordOf hrecord]
  simp [stepOf_new hnow, bind, Except.bind, pure, Except.pure]

theorem closeStep_eq_ok {closing : StepClosing}
    (h : db.closeStep now runId stepId closing = .ok db') :
    ∃ text, textOf closing.kept = .ok text ∧
      db' = { db with steps := db.steps.map fun row =>
        if row.runId = runId ∧ row.stepId = stepId then
          { row with
            completedAt := some now.iso, status := closing.status, output := some text
            error := closing.error }
        else row } := by
  obtain ⟨text, htext, hclosed⟩ := bind_eq_ok_iff.mp h
  exact ⟨text, htext, (Except.ok.inj hclosed).symm⟩

theorem exists_closeStep {closing : StepClosing} (h : Json.isNative closing.kept = true) :
    ∃ db', db.closeStep now runId stepId closing = .ok db' := by
  obtain ⟨text, htext⟩ := exists_textOf h
  simp [closeStep, htext, bind, Except.bind, pure, Except.pure]

theorem stepOf_eq_ok {row : StepRow} {step : StepRecord} (h : stepOf row = .ok step) :
    ∃ output, step =
      { id := row.id, runId := row.runId, stepId := row.stepId
        startedAt := Moment.ofIso? row.startedAt
        completedAt := row.completedAt.bind Moment.ofIso?
        status := row.status, output, error := row.error } := by
  obtain ⟨output, -, hstep⟩ := bind_eq_ok_iff.mp h
  exact ⟨_, (Except.ok.inj hstep).symm⟩

theorem stepOf_closed {row : StepRow} {step : StepRecord} {closing : StepClosing}
    (hnow : now.IsValid) (hkept : closing.kept = .map os) (htext : textOf closing.kept = .ok text)
    (hstep : stepOf row = .ok step) :
    stepOf { row with
        completedAt := some now.iso, status := closing.status, output := some text
        error := closing.error } =
      .ok (step.close now closing (.map (Table.ofEntries (Json.readBackEntries os)))) := by
  obtain ⟨output, rfl⟩ := stepOf_eq_ok hstep
  have hmapping : Decode.mapping (valueOf text) =
      .valid (Table.ofEntries (Json.readBackEntries os)) := by
    rw [valueOf_of_textOf htext, hkept, Json.mapping_readBack]
  simp [stepOf, StepRecord.close, hmapping, Moment.ofIso?_iso hnow, Checked.within, Checked.map,
    Checked.toExcept, Except.mapError, bind, Except.bind, pure, Except.pure]

theorem run?_closeStep {closing : StepClosing} (hnow : now.IsValid)
    (hkept : closing.kept = .map os) (hrun : db.run? runId = .ok (some record))
    (h : db.closeStep now runId stepId closing = .ok db') :
    db'.run? runId = .ok (some (record.closeStep now stepId closing
      (.map (Table.ofEntries (Json.readBackEntries os))))) := by
  obtain ⟨text, htext, rfl⟩ := closeStep_eq_ok h
  obtain ⟨row, steps, hrow, hsteps, hrecord⟩ := run?_eq_some_iff.mp hrun
  refine run?_eq_some_iff.mpr ⟨row, _, hrow, ?_, recordOf_withSteps hrecord _⟩
  rw [steps_of_recordOf hrecord, filter_map_of_keeps]
  case hkeeps =>
    intro row
    split <;> rfl
  refine mapM_map_eq_ok (fun row hmem step hstep => ?_) hsteps
  have hrunId : row.runId = runId := by simpa using (List.mem_filter.mp hmem).2
  have hstepId : step.stepId = row.stepId := by
    obtain ⟨output, rfl⟩ := stepOf_eq_ok hstep
    rfl
  by_cases heq : row.stepId = stepId
  · rw [if_pos ⟨hrunId, heq⟩, if_pos (hstepId.trans heq)]
    exact stepOf_closed hnow hkept htext hstep
  · rw [if_neg fun hboth => heq hboth.2, if_neg (hstepId ▸ heq)]
    exact hstep

/-! #### The end of a run -/

theorem run?_closeRun {status : String} {error : Option String}
    (hrun : db.run? runId = .ok (some record))
    (h : db.closeRun runId (some status) error = .ok db') :
    db'.run? runId = .ok (some { record with status, error }) := by
  cases h
  obtain ⟨row, steps, hrow, hsteps, hrecord⟩ := run?_eq_some_iff.mp hrun
  refine run?_eq_some_iff.mpr ⟨{ row with status, error }, steps, ?_, hsteps,
    recordOf_withStatus hrecord status error⟩
  have hrunId : row.runId = runId := by simpa using List.find?_some hrow
  rw [find?_map_of_keeps, hrow, Option.map_some]
  case hkeeps =>
    intro row
    dsimp only
    split <;> rfl
  exact congrArg some (if_pos hrunId)

end Database

/-! ### Memory -/

namespace MemoryStore

variable {store store' : MemoryStore} {runId stepId : String} {record : RunRecord} {now : Moment}
  {ds ps : Fields}

theorem exists_createRun_eq {definition payload : Value}
    (h : store.createRun runId definition payload = .ok store') :
    ∃ record, RunRecord.ofParts runId definition (keptPayload payload) "running" none [] =
        .ok record ∧
      store' = { store with runs := Table.insert store.runs runId record } := by
  obtain ⟨record, hrecord, hcreated⟩ := bind_eq_ok_iff.mp h
  exact ⟨record, hrecord, (Except.ok.inj hcreated).symm⟩

theorem exists_createRun {payload : Value} (hds : Json.isNative (.map ds) = true)
    (hpayload : keptPayload payload = .map ps) (hps : Json.isNative (.map ps) = true) :
    ∃ store', store.createRun runId (.map ds) payload = .ok store' := by
  have hrecord : RunRecord.ofParts runId (.map ds) (.map ps) "running" none [] =
      .ok { runId, definition := ds, payload := ps } :=
    RunRecord.ofParts_eq_ok_iff.mpr
      ⟨ds, ps, Json.mapping_of_isNative hds, Json.mapping_of_isNative hps, rfl⟩
  simp [createRun, hpayload, hrecord, bind, Except.bind, pure, Except.pure]

theorem createRun_eq_ok {payload : Value} (hpayload : keptPayload payload = .map ps)
    (h : store.createRun runId (.map ds) payload = .ok store') :
    store' = { store with
      runs := Table.insert store.runs runId { runId, definition := ds, payload := ps } } := by
  obtain ⟨record, hrecord, rfl⟩ := exists_createRun_eq h
  obtain ⟨definition, fields, hdefinition, hfields, rfl⟩ := RunRecord.ofParts_eq_ok_iff.mp hrecord
  have hds := Decode.eq_of_mapping_eq_valid hdefinition
  have hps := hpayload.symm.trans (Decode.eq_of_mapping_eq_valid hfields)
  cases hds
  cases hps
  rfl

theorem run?_createRun {payload : Value} (hpayload : keptPayload payload = .map ps)
    (h : store.createRun runId (.map ds) payload = .ok store') :
    store'.run? runId = some { runId, definition := ds, payload := ps } := by
  rw [createRun_eq_ok hpayload h, run?, Table.find?_insert, if_pos rfl]

theorem startStep_eq (hrun : store.run? runId = some record)
    (hnew : ∀ step ∈ record.steps, step.stepId ≠ stepId) :
    store.startStep now runId stepId =
      { runs := Table.insert store.runs runId
          (record.addStep { id := store.stepCount + 1, runId, stepId, startedAt := some now })
        stepCount := store.stepCount + 1 } := by
  have hnone : record.steps.any (·.stepId = stepId) = false := by simpa using hnew
  simp only [run?] at hrun
  simp [startStep, hrun, hnone, RunRecord.addStep]

theorem run?_startStep (hrun : store.run? runId = some record)
    (hnew : ∀ step ∈ record.steps, step.stepId ≠ stepId) :
    (store.startStep now runId stepId).run? runId = some
      (record.addStep { id := store.stepCount + 1, runId, stepId, startedAt := some now }) := by
  rw [startStep_eq hrun hnew, run?, Table.find?_insert, if_pos rfl]

/-- Where a step has one record, which is open, closing the first open one closes all there are. -/
theorem adjustFirst_eq_map {stepId : String} {f : StepRecord → StepRecord} {steps : List StepRecord}
    (hnodup : (steps.map (·.stepId)).Nodup)
    (hopen : ∀ step ∈ steps, step.stepId = stepId → step.completedAt = none) :
    adjustFirst (fun step => step.stepId = stepId && step.completedAt.isNone) f steps =
      steps.map fun step => if step.stepId = stepId then f step else step := by
  induction steps with
  | nil => rfl
  | cons step rest ih =>
      rw [List.map_cons, List.nodup_cons] at hnodup
      by_cases heq : step.stepId = stepId
      · have hrest :
            rest.map (fun step => if step.stepId = stepId then f step else step) = rest := by
          conv_rhs => rw [← List.map_id rest]
          refine List.map_congr_left fun other hmem => if_neg fun hother => hnodup.1 ?_
          exact List.mem_map.mpr ⟨other, hmem, hother.trans heq.symm⟩
        simp [adjustFirst, heq, hopen step List.mem_cons_self heq, hrest]
      · have htail := ih hnodup.2 fun other hmem => hopen other (List.mem_cons_of_mem _ hmem)
        simp [adjustFirst, heq, htail]

theorem run?_closeStep {closing : StepClosing} (hrun : store.run? runId = some record)
    (hnodup : (record.steps.map (·.stepId)).Nodup)
    (hopen : ∀ step ∈ record.steps, step.stepId = stepId → step.completedAt = none) :
    (store.closeStep now runId stepId closing).run? runId =
      some (record.closeStep now stepId closing closing.kept) := by
  simp only [run?] at hrun
  rw [run?, closeStep, Table.find?_adjust, if_pos rfl, hrun, Option.map_some,
    adjustFirst_eq_map hnodup hopen]
  rfl

theorem run?_closeRun {status error : Option String} (hrun : store.run? runId = some record) :
    (store.closeRun runId status error).run? runId = some { record with status, error } := by
  simp only [run?] at hrun
  rw [run?, closeRun, Table.find?_adjust, if_pos rfl, hrun, Option.map_some]

end MemoryStore

end Workflow
