import Workflow.Proofs.Store.Journal

/-!
# When history is rewritten

A repository may be told anything in any order: runs may be created again, steps started and closed
again, and what is refused leaves everything as it is. The answers given before then go on to hold,
but for a few writes that rewrite them: memory starts a run anew when it is created again, and a
database adds a second record when a step is started again and overwrites a closed record when the
step is closed again.
-/

namespace Workflow

/-! ### What is kept -/

/-- The record of a step is still there; if it was closed, it is unchanged. -/
structure StepRecord.IsKeptAs (step step' : StepRecord) : Prop where
  id : step'.id = step.id
  runId : step'.runId = step.runId
  stepId : step'.stepId = step.stepId
  startedAt : step'.startedAt = step.startedAt
  closed : step.completedAt ≠ none → step' = step

/-- All step records are still there, each in its old place. -/
def RunRecord.IsKeptAs (record record' : RunRecord) : Prop :=
  ∀ (i : Nat) (step : StepRecord), record.steps[i]? = some step →
    ∃ step', record'.steps[i]? = some step' ∧ step.IsKeptAs step'

namespace StepRecord.IsKeptAs

variable {step step' step'' : StepRecord}

theorem refl (step : StepRecord) : step.IsKeptAs step := ⟨rfl, rfl, rfl, rfl, fun _ => rfl⟩

theorem trans (h : step.IsKeptAs step') (h' : step'.IsKeptAs step'') : step.IsKeptAs step'' where
  id := h'.id.trans h.id
  runId := h'.runId.trans h.runId
  stepId := h'.stepId.trans h.stepId
  startedAt := h'.startedAt.trans h.startedAt
  closed hclosed := by
    obtain rfl := h.closed hclosed
    exact h'.closed hclosed

/-- To close an open record is to keep it. -/
theorem close_of_open (hopen : step.completedAt = none) (now : Moment) (closing : StepClosing)
    (output : Value) : step.IsKeptAs (step.close now closing output) :=
  ⟨rfl, rfl, rfl, rfl, fun hclosed => absurd hopen hclosed⟩

end StepRecord.IsKeptAs

namespace RunRecord

variable {record record' record'' : RunRecord}

theorem isKeptAs_of_steps_eq (h : record'.steps = record.steps) : record.IsKeptAs record' :=
  fun _ step hstep => ⟨step, h ▸ hstep, .refl step⟩

theorem IsKeptAs.trans (h : record.IsKeptAs record') (h' : record'.IsKeptAs record'') :
    record.IsKeptAs record'' := by
  intro i step hstep
  obtain ⟨step', hstep', hkept⟩ := h i step hstep
  obtain ⟨step'', hstep'', hkept'⟩ := h' i step' hstep'
  exact ⟨step'', hstep'', hkept.trans hkept'⟩

/-- Only what has no step records is kept by a run that has none. -/
theorem isKeptAs_iff_of_steps_eq_nil (h : record'.steps = []) :
    record.IsKeptAs record' ↔ record.steps = [] := by
  refine ⟨fun hkept => List.eq_nil_iff_forall_not_mem.mpr fun step hmem => ?_, fun hnil => ?_⟩
  · obtain ⟨i, hstep⟩ := List.getElem?_of_mem hmem
    obtain ⟨step', hstep', -⟩ := hkept i step hstep
    rw [h] at hstep'
    cases hstep'
  · exact isKeptAs_of_steps_eq (h.trans hnil.symm)

theorem isKeptAs_addStep (record : RunRecord) (step : StepRecord) :
    record.IsKeptAs (record.addStep step) := by
  intro i step' hstep'
  refine ⟨step', ?_, .refl step'⟩
  rw [addStep, List.getElem?_append_left (List.getElem?_eq_some_iff.mp hstep').1, hstep']

/-- Closing the records of a step keeps them unless one of them is closed otherwise already. -/
theorem isKeptAs_closeStep_iff {now : Moment} {stepId : String} {closing : StepClosing}
    {output : Value} : record.IsKeptAs (record.closeStep now stepId closing output) ↔
      ∀ step ∈ record.steps, step.stepId = stepId → step.completedAt ≠ none →
        step.close now closing output = step := by
  have hget (i : Nat) : (record.closeStep now stepId closing output).steps[i]? =
      (record.steps[i]?).map fun step =>
        if step.stepId = stepId then step.close now closing output else step :=
    List.getElem?_map
  refine ⟨fun h step hmem hid hclosed => ?_, fun h i step hstep => ?_⟩
  · obtain ⟨i, hstep⟩ := List.getElem?_of_mem hmem
    obtain ⟨step', hstep', hkept⟩ := h i step hstep
    rw [hget, hstep, Option.map_some, if_pos hid] at hstep'
    rw [Option.some.inj hstep']
    exact hkept.closed hclosed
  · refine ⟨_, by rw [hget, hstep, Option.map_some], ?_⟩
    split
    · rename_i hid
      by_cases hopen : step.completedAt = none
      · exact .close_of_open hopen now closing output
      · rw [h step (List.mem_of_getElem? hstep) hid hopen]
        exact .refl step
    · exact .refl step

end RunRecord

namespace MemoryStore

theorem startStep_of_mem {store : MemoryStore} {runId stepId : String} {record : RunRecord}
    (hrun : store.run? runId = some record) (hmem : stepId ∈ record.steps.map (·.stepId))
    (now : Moment) : store.startStep now runId stepId = store := by
  have hany : record.steps.any (·.stepId = stepId) = true := by simpa using hmem
  simp only [run?] at hrun
  simp [startStep, hrun, hany]

theorem run?_closeStep_eq {store : MemoryStore} {runId : String} {record : RunRecord}
    (hrun : store.run? runId = some record) (now : Moment) (stepId : String)
    (closing : StepClosing) :
    (store.closeStep now runId stepId closing).run? runId = some { record with
      steps := adjustFirst (fun step => step.stepId = stepId && step.completedAt.isNone)
        (StepRecord.close now closing closing.kept) record.steps } := by
  simp only [run?] at hrun
  rw [run?, closeStep, Table.find?_adjust, if_pos rfl, hrun, Option.map_some]
  rfl

variable {p : StepRecord → Bool} {f : StepRecord → StepRecord}

theorem stepIds_adjustFirst (hid : ∀ step, (f step).stepId = step.stepId)
    (steps : List StepRecord) :
    (adjustFirst p f steps).map (·.stepId) = steps.map (·.stepId) := by
  induction steps with
  | nil => rfl
  | cons step rest ih =>
      rw [adjustFirst]
      split
      · rw [List.map_cons, List.map_cons, hid]
      · rw [List.map_cons, List.map_cons, ih]

theorem getElem?_adjustFirst (hkept : ∀ step, p step = true → step.IsKeptAs (f step))
    {steps : List StepRecord} {i : Nat} {step : StepRecord} (hstep : steps[i]? = some step) :
    ∃ step', (adjustFirst p f steps)[i]? = some step' ∧ step.IsKeptAs step' := by
  induction steps generalizing i with
  | nil => cases hstep
  | cons first rest ih =>
      rw [adjustFirst]
      split
      · rename_i hfirst
        cases i with
        | zero =>
            cases hstep
            exact ⟨f step, rfl, hkept step hfirst⟩
        | succ i => exact ⟨step, hstep, .refl step⟩
      · cases i with
        | zero => exact ⟨step, hstep, .refl step⟩
        | succ i => exact ih hstep

end MemoryStore

/-! ### Telling a repository -/

namespace Repository

variable {repository repository' repository'' : Repository} {runId stepId : String}
  {record : RunRecord} {now : Moment} {entry : Entry}

/-- What is refused leaves the repository as it is. -/
def tell (repository : Repository) (write : Moment × Entry) : Repository :=
  match repository.write write.1 write.2 with
  | .ok repository => repository
  | .error _ => repository

/-- The repository that has been told all of a journal. -/
def told (repository : Repository) : Journal → Repository
  | [] => repository
  | write :: past => (repository.told past).tell write

/-- Every run that is answered for goes on being answered for, with all its step records; those that
were closed are unchanged. -/
def KeepsHistory (repository repository' : Repository) : Prop :=
  ∀ runId record, repository.run? runId = .ok (some record) →
    ∃ record', repository'.run? runId = .ok (some record') ∧ record.IsKeptAs record'

/-- No answer has two records of one step. -/
def IsSingle (repository : Repository) : Prop :=
  ∀ runId record, repository.run? runId = .ok (some record) →
    (record.steps.map (·.stepId)).Nodup

/-- Whether a write changes history. In memory a run is created again although it has step records;
in a database a step is started again, or closed again in another way, or a run is created whose
steps have been started twice before. -/
def Rewrites (now : Moment) : Entry → Repository → Prop
  | .createRun runId definition payload, .memory store =>
    (∃ store', store.createRun runId definition payload = .ok store') ∧
      ∃ record, store.run? runId = some record ∧ record.steps ≠ []
  | .createRun runId definition payload, .database db =>
    (∃ db', db.createRun runId definition payload = .ok db') ∧
      ¬ ((db.steps.filter (·.runId = runId)).map (·.stepId)).Nodup
  | .startStep runId stepId, .database db =>
    ∃ record, db.run? runId = .ok (some record) ∧ stepId ∈ record.steps.map (·.stepId)
  | .closeStep runId stepId closing, .database db =>
    (∃ db', db.closeStep now runId stepId closing = .ok db') ∧
      ∃ record, db.run? runId = .ok (some record) ∧
        ∃ step ∈ record.steps, step.stepId = stepId ∧ step.completedAt ≠ none ∧
          step.close now closing (Json.readBack closing.kept) ≠ step
  | _, _ => False

theorem KeepsHistory.refl (repository : Repository) : repository.KeepsHistory repository :=
  fun _ record hrun => ⟨record, hrun, RunRecord.isKeptAs_of_steps_eq rfl⟩

theorem KeepsHistory.trans (h : repository.KeepsHistory repository')
    (h' : repository'.KeepsHistory repository'') : repository.KeepsHistory repository'' := by
  intro runId record hrun
  obtain ⟨record', hrun', hkept⟩ := h runId record hrun
  obtain ⟨record'', hrun'', hkept'⟩ := h' runId record' hrun'
  exact ⟨record'', hrun'', hkept.trans hkept'⟩

end Repository

/-! ### Answers -/

namespace Database

variable {db db' : Database} {runId stepId : String} {record : RunRecord}

theorem stepId_of_stepOf {row : StepRow} {step : StepRecord} (h : stepOf row = .ok step) :
    step.stepId = row.stepId := by
  obtain ⟨output, rfl⟩ := stepOf_eq_ok h
  rfl

/-- Whatever is kept can be read. -/
structure IsReadable (db : Database) : Prop where
  runs : ∀ row ∈ db.runs, ∃ record, recordOf row [] = .ok record
  steps : ∀ row ∈ db.steps, ∃ step, stepOf row = .ok step

theorem IsReadable.exists_run? (h : db.IsReadable) {row : RunRow}
    (hrow : List.find? (·.runId = runId) db.runs = some row) :
    ∃ record, db.run? runId = .ok (some record) ∧
      record.steps.map (·.stepId) = (db.steps.filter (·.runId = runId)).map (·.stepId) := by
  obtain ⟨empty, hempty⟩ := h.runs row (List.mem_of_find?_eq_some hrow)
  have hrows : ∀ row ∈ db.steps.filter (·.runId = runId), ∃ step, stepOf row = .ok step :=
    fun row hmem => h.steps row (List.mem_filter.mp hmem).1
  obtain ⟨steps, hsteps⟩ := exists_mapM_of_forall hrows
  have hrecord := recordOf_withSteps hempty steps
  refine ⟨_, run?_eq_some_iff.mpr ⟨row, steps, hrow, hsteps, hrecord⟩, ?_⟩
  exact map_eq_of_mapM (fun _ _ => stepId_of_stepOf) hsteps

variable {now : Moment} {ds ps os : Fields}

theorem IsReadable.createRun (h : db.IsReadable) {payload : Value}
    (hpayload : keptPayload payload = .map ps)
    (hcreate : db.createRun runId (.map ds) payload = .ok db') : db'.IsReadable := by
  obtain ⟨definitionText, payloadText, hdefinition, htext, -, rfl⟩ := createRun_eq_ok hcreate
  refine ⟨fun row hmem => ?_, h.steps⟩
  rcases List.mem_append.mp hmem with hmem | hmem
  · exact h.runs row hmem
  · have hds := Json.mapping_readBack ds
    have hps := Json.mapping_readBack ps
    rw [← valueOf_of_textOf hdefinition] at hds
    rw [← hpayload, ← valueOf_of_textOf htext] at hps
    rw [List.mem_singleton.mp hmem]
    exact ⟨_, recordOf_eq_ok_iff.mpr ⟨_, _, hds, hps, rfl⟩⟩

theorem IsReadable.startStep (h : db.IsReadable) : (db.startStep now runId stepId).IsReadable := by
  refine ⟨h.runs, fun row hmem => ?_⟩
  rcases List.mem_append.mp hmem with hmem | hmem
  · exact h.steps row hmem
  · rw [List.mem_singleton.mp hmem]
    exact ⟨_, rfl⟩

theorem IsReadable.closeStep (h : db.IsReadable) {closing : StepClosing} (hnow : now.IsValid)
    (hkept : closing.kept = .map os)
    (hclose : db.closeStep now runId stepId closing = .ok db') : db'.IsReadable := by
  obtain ⟨text, htext, rfl⟩ := closeStep_eq_ok hclose
  refine ⟨h.runs, fun row hmem => ?_⟩
  obtain ⟨before, hbefore, rfl⟩ := List.mem_map.mp hmem
  obtain ⟨step, hstep⟩ := h.steps before hbefore
  split
  · exact ⟨_, stepOf_closed hnow hkept htext hstep⟩
  · exact ⟨step, hstep⟩

theorem IsReadable.closeRun (h : db.IsReadable) {status : String} {error : Option String}
    (hclose : db.closeRun runId (some status) error = .ok db') : db'.IsReadable := by
  cases hclose
  refine ⟨fun row hmem => ?_, h.steps⟩
  obtain ⟨before, hbefore, rfl⟩ := List.mem_map.mp hmem
  obtain ⟨record, hrecord⟩ := h.runs before hbefore
  dsimp only
  split
  · exact ⟨_, recordOf_withStatus hrecord status error⟩
  · exact ⟨record, hrecord⟩

end Database

namespace Repository

variable {repository repository' : Repository} {runId stepId : String} {record : RunRecord}
  {now : Moment} {entry : Entry}

def IsReadable : Repository → Prop
  | .memory _ => True
  | .database db => db.IsReadable

theorem run?_of_not_mem (h : runId ∉ repository.runIds) : repository.run? runId = .ok none := by
  cases repository with
  | memory store => exact congrArg Except.ok (Table.find?_eq_none_iff.mpr h)
  | database db =>
      have hnone : List.find? (·.runId = runId) db.runs = none := by simpa [runIds] using h
      simp [Repository.run?, Database.run?, hnone]

theorem exists_run?_of_mem (hreadable : repository.IsReadable) (h : runId ∈ repository.runIds) :
    ∃ record, repository.run? runId = .ok (some record) := by
  cases repository with
  | memory store =>
      obtain ⟨record, hrecord⟩ := Option.isSome_iff_exists.mp (Table.find?_isSome_iff.mpr h)
      exact ⟨record, congrArg Except.ok hrecord⟩
  | database db =>
      obtain ⟨row, hrow⟩ : ∃ row, List.find? (·.runId = runId) db.runs = some row := by
        obtain ⟨row, hmem, hid⟩ := List.mem_map.mp h
        exact Option.isSome_iff_exists.mp (List.find?_isSome.mpr ⟨row, hmem, by simpa using hid⟩)
      obtain ⟨record, hrun, -⟩ := hreadable.exists_run? hrow
      exact ⟨record, hrun⟩

/-! ### One write -/

theorem keepsHistory_iff_of_write (h : repository.write now entry = .ok repository') :
    repository.KeepsHistory repository' ↔
      ∀ record, repository.run? entry.runId = .ok (some record) →
        ∃ record', repository'.run? entry.runId = .ok (some record') ∧
          record.IsKeptAs record' := by
  refine ⟨fun hkeeps => hkeeps entry.runId, fun hrun runId record hrecord => ?_⟩
  by_cases heq : entry.runId = runId
  · subst heq
    exact hrun record hrecord
  · refine ⟨record, ?_, RunRecord.isKeptAs_of_steps_eq rfl⟩
    rw [(spares_write h heq).run?, hrecord]

theorem isSingle_iff_of_write (hsingle : repository.IsSingle)
    (h : repository.write now entry = .ok repository') :
    repository'.IsSingle ↔
      ∀ record, repository'.run? entry.runId = .ok (some record) →
        (record.steps.map (·.stepId)).Nodup := by
  refine ⟨fun hsingle' => hsingle' entry.runId, fun hrun runId record hrecord => ?_⟩
  by_cases heq : entry.runId = runId
  · subst heq
    exact hrun record hrecord
  · rw [(spares_write h heq).run?] at hrecord
    exact hsingle runId record hrecord

/-- The law for a write about a run that stays unknown. -/
theorem lawful_of_unknown (hsingle : repository.IsSingle)
    (h : repository.write now entry = .ok repository')
    (hids : repository'.runIds = repository.runIds)
    (hunknown : entry.runId ∉ repository.runIds) :
    repository.KeepsHistory repository' ∧ repository'.IsSingle := by
  have hnone := run?_of_not_mem hunknown
  have hnone' := run?_of_not_mem (hids ▸ hunknown)
  rw [keepsHistory_iff_of_write h, isSingle_iff_of_write hsingle h, hnone, hnone']
  exact ⟨nofun, nofun⟩

/-- The law for a write about a run that is known before and after. -/
theorem lawful_iff_of_known (hsingle : repository.IsSingle)
    (h : repository.write now entry = .ok repository') {record record' : RunRecord}
    (hrun : repository.run? entry.runId = .ok (some record))
    (hrun' : repository'.run? entry.runId = .ok (some record')) :
    repository.KeepsHistory repository' ∧ repository'.IsSingle ↔
      record.IsKeptAs record' ∧ (record'.steps.map (·.stepId)).Nodup := by
  rw [keepsHistory_iff_of_write h, isSingle_iff_of_write hsingle h, hrun, hrun']
  simp

/-- A run that is not known has no history to be changed, unless it is created. -/
theorem not_rewrites_of_unknown (hentry : ∀ runId definition payload,
      entry ≠ .createRun runId definition payload)
    (hunknown : entry.runId ∉ repository.runIds) : ¬ Rewrites now entry repository := by
  have hnone := run?_of_not_mem hunknown
  intro hrewrites
  cases repository with
  | memory store =>
      cases entry with
      | createRun runId definition payload => exact hentry _ _ _ rfl
      | startStep | closeStep | closeRun => exact hrewrites
  | database db =>
      cases entry with
      | createRun runId definition payload => exact hentry _ _ _ rfl
      | startStep runId stepId =>
          obtain ⟨record, hrun, -⟩ := hrewrites
          cases hnone.symm.trans hrun
      | closeStep runId stepId closing =>
          obtain ⟨-, record, hrun, -⟩ := hrewrites
          cases hnone.symm.trans hrun
      | closeRun => exact hrewrites

theorem lawful_createRun_iff {definition payload : Value} (hreadable : repository.IsReadable)
    (hsingle : repository.IsSingle) (hdefinition : ∃ ds, definition = .map ds)
    (hpayload : ∃ ps, keptPayload payload = .map ps)
    (h : repository.write now (.createRun runId definition payload) = .ok repository') :
    repository.KeepsHistory repository' ∧ repository'.IsSingle ↔
      ¬ Rewrites now (.createRun runId definition payload) repository := by
  rw [keepsHistory_iff_of_write h, isSingle_iff_of_write hsingle h]
  cases repository with
  | memory store =>
      -- The run starts anew, so nothing may have been recorded of its steps.
      obtain ⟨store', hcreate, rfl⟩ := exists_of_map_eq_ok h
      obtain ⟨record', hrun', hnil⟩ : ∃ record', store'.run? runId = some record' ∧
          record'.steps = [] := by
        obtain ⟨record', hrecord', rfl⟩ := MemoryStore.exists_createRun_eq hcreate
        obtain ⟨ds, ps, -, -, rfl⟩ := RunRecord.ofParts_eq_ok_iff.mp hrecord'
        exact ⟨_, (Table.find?_insert _ _ _ _).trans (if_pos rfl), rfl⟩
      simp only [Repository.run?, Except.ok.injEq, Entry.runId, hrun']
      refine ⟨?_, fun hnot => ⟨fun record hrun => ?_, ?_⟩⟩
      · rintro ⟨hkeeps, -⟩ ⟨-, record, hrun, hne⟩
        obtain ⟨_, hsame, hkept⟩ := hkeeps record hrun
        cases hsame
        exact hne ((RunRecord.isKeptAs_iff_of_steps_eq_nil hnil).mp hkept)
      · refine ⟨record', rfl, (RunRecord.isKeptAs_iff_of_steps_eq_nil hnil).mpr ?_⟩
        by_contra hne
        exact hnot ⟨⟨store', hcreate⟩, record, hrun, hne⟩
      · rintro record ⟨⟩
        simp [hnil]
  | database db =>
      -- The run is new, but its steps may have been started before and show only now.
      obtain ⟨db', hcreate, rfl⟩ := exists_of_map_eq_ok h
      obtain ⟨ds, rfl⟩ := hdefinition
      obtain ⟨ps, hps⟩ := hpayload
      have hreadable' := Database.IsReadable.createRun hreadable hps hcreate
      obtain ⟨definitionText, payloadText, -, -, hnew, hdb⟩ := Database.createRun_eq_ok hcreate
      have hrow : List.find? (·.runId = runId) db'.runs =
          some ⟨runId, definitionText, payloadText, "running", none⟩ := by
        have hnone : List.find? (·.runId = runId) db.runs = none := by simpa using hnew
        rw [hdb, List.find?_append, hnone]
        simp
      obtain ⟨record', hrun', hids⟩ := hreadable'.exists_run? hrow
      have hsteps : db'.steps = db.steps := by rw [hdb]
      rw [hdb] at hids
      have hunknown : Repository.run? runId (.database db) = .ok none := run?_of_not_mem hnew
      have hknown : Repository.run? runId (.database db') = .ok (some record') := hrun'
      simp only [Entry.runId, hunknown, hknown]
      refine ⟨?_, fun hnot => ⟨fun record hrun => (by cases hrun), ?_⟩⟩
      · rintro ⟨-, hnodup⟩ ⟨-, hdouble⟩
        exact hdouble (hids ▸ hnodup record' rfl)
      · rintro record ⟨⟩
        rw [hids]
        by_contra hdouble
        exact hnot ⟨⟨db', hcreate⟩, hdouble⟩

theorem lawful_startStep_iff (hreadable : repository.IsReadable) (hsingle : repository.IsSingle)
    (hnow : now.IsValid)
    (h : repository.write now (.startStep runId stepId) = .ok repository') :
    repository.KeepsHistory repository' ∧ repository'.IsSingle ↔
      ¬ Rewrites now (.startStep runId stepId) repository := by
  have hids : repository'.runIds = repository.runIds := by
    cases h
    exact runIds_startStep
  by_cases hmem : runId ∈ repository.runIds
  · obtain ⟨record, hrun⟩ := exists_run?_of_mem hreadable hmem
    have hnodup := hsingle runId record hrun
    cases repository with
    | memory store =>
        refine iff_of_true ?_ id
        obtain rfl := Except.ok.inj h
        by_cases hmem : stepId ∈ record.steps.map (·.stepId)
        · rw [startStep, MemoryStore.startStep_of_mem (Except.ok.inj hrun) hmem]
          exact ⟨.refl _, hsingle⟩
        · have hnew : ∀ step ∈ record.steps, step.stepId ≠ stepId :=
            fun step hstep heq => hmem (heq ▸ List.mem_map_of_mem hstep)
          rw [lawful_iff_of_known hsingle h hrun (run?_startStep hnow hrun hnew)]
          exact ⟨record.isKeptAs_addStep _, (RunRecord.nodup_addStep_iff hnodup).mpr hmem⟩
    | database db =>
        obtain rfl := Except.ok.inj h
        rw [lawful_iff_of_known hsingle h hrun (Database.run?_startStep hnow hrun),
          RunRecord.nodup_addStep_iff hnodup]
        refine ⟨?_, fun hnot => ⟨record.isKeptAs_addStep _, fun hmem => hnot ⟨record, hrun, hmem⟩⟩⟩
        rintro ⟨-, hnew⟩ ⟨_, hsame, hmem⟩
        cases hrun.symm.trans hsame
        exact hnew hmem
  · exact iff_of_true (lawful_of_unknown hsingle h hids hmem)
      (not_rewrites_of_unknown (by simp) hmem)

theorem lawful_closeStep_iff {closing : StepClosing} (hreadable : repository.IsReadable)
    (hsingle : repository.IsSingle) (hnow : now.IsValid) (hkept : ∃ os, closing.kept = .map os)
    (h : repository.write now (.closeStep runId stepId closing) = .ok repository') :
    repository.KeepsHistory repository' ∧ repository'.IsSingle ↔
      ¬ Rewrites now (.closeStep runId stepId closing) repository := by
  have hids : repository'.runIds = repository.runIds := runIds_closeStep h
  by_cases hmem : runId ∈ repository.runIds
  · obtain ⟨record, hrun⟩ := exists_run?_of_mem hreadable hmem
    have hnodup := hsingle runId record hrun
    cases repository with
    | memory store =>
        -- Only a record that is still open is closed.
        refine iff_of_true ?_ id
        obtain rfl := Except.ok.inj h
        have hrun' := MemoryStore.run?_closeStep_eq (Except.ok.inj hrun) now stepId closing
        rw [lawful_iff_of_known hsingle h hrun (congrArg Except.ok hrun')]
        refine ⟨fun i step hstep => ?_, ?_⟩
        · refine MemoryStore.getElem?_adjustFirst (fun step hopen => ?_) hstep
          rw [Bool.and_eq_true, Option.isNone_iff_eq_none] at hopen
          exact .close_of_open hopen.2 now closing closing.kept
        · dsimp only
          rw [MemoryStore.stepIds_adjustFirst]
          · exact hnodup
          · exact fun _ => rfl
    | database db =>
        -- All records of the step are closed, whether or not they were closed before.
        obtain ⟨db', hclose, rfl⟩ := exists_of_map_eq_ok h
        obtain ⟨os, hos⟩ := hkept
        have hrun' := Database.run?_closeStep hnow hos hrun hclose
        rw [lawful_iff_of_known hsingle h hrun hrun', RunRecord.isKeptAs_closeStep_iff,
          RunRecord.stepIds_closeStep]
        have hshelved : Value.map (Table.ofEntries (Json.readBackEntries os)) =
            Json.readBack closing.kept := by
          rw [hos]
          rfl
        rw [hshelved]
        refine ⟨?_, fun hnot => ⟨fun step hstep hid hclosed => ?_, hnodup⟩⟩
        · rintro ⟨hsame, -⟩ ⟨-, _, hrun', step, hstep, hid, hclosed, hne⟩
          cases hrun.symm.trans hrun'
          exact hne (hsame step hstep hid hclosed)
        · by_contra hne
          exact hnot ⟨⟨db', hclose⟩, record, hrun, step, hstep, hid, hclosed, hne⟩
  · exact iff_of_true (lawful_of_unknown hsingle h hids hmem)
      (not_rewrites_of_unknown (by simp) hmem)

theorem lawful_closeRun {status : String} {error : Option String}
    (hreadable : repository.IsReadable) (hsingle : repository.IsSingle)
    (h : repository.write now (.closeRun runId status error) = .ok repository') :
    repository.KeepsHistory repository' ∧ repository'.IsSingle := by
  by_cases hmem : runId ∈ repository.runIds
  · obtain ⟨record, hrun⟩ := exists_run?_of_mem hreadable hmem
    rw [lawful_iff_of_known hsingle h hrun (run?_closeRun hrun h)]
    exact ⟨RunRecord.isKeptAs_of_steps_eq rfl, hsingle runId record hrun⟩
  · exact lawful_of_unknown hsingle h (runIds_closeRun h) hmem

end Repository

/-! ### Whole journals -/

/-- Definitions, payloads and outputs are mappings, as far as they count as anything. -/
def Entry.IsTyped : Entry → Prop
  | .createRun _ definition payload =>
    (∃ ds, definition = .map ds) ∧ ∃ ps, keptPayload payload = .map ps
  | .closeStep _ _ closing => ∃ os, closing.kept = .map os
  | .startStep .. | .closeRun .. => True

def Journal.IsTyped (journal : Journal) : Prop :=
  ∀ write ∈ journal, write.1.IsValid ∧ write.2.IsTyped

namespace Repository

variable {repository start : Repository} {journal : Journal} {now : Moment} {entry : Entry}

theorem IsReadable.tell (h : repository.IsReadable) (hnow : now.IsValid) (htyped : entry.IsTyped) :
    (repository.tell (now, entry)).IsReadable := by
  unfold Repository.tell
  cases hwrite : repository.write now entry with
  | error failure => exact h
  | ok repository' =>
      cases repository with
      | memory store =>
          obtain ⟨store', rfl⟩ : ∃ store', repository' = .memory store' := by
            cases entry with
            | createRun runId definition payload =>
                obtain ⟨store', -, rfl⟩ := exists_of_map_eq_ok hwrite
                exact ⟨store', rfl⟩
            | startStep | closeStep | closeRun => exact ⟨_, (Except.ok.inj hwrite).symm⟩
          trivial
      | database db =>
          cases entry with
          | createRun runId definition payload =>
              obtain ⟨⟨ds, rfl⟩, ps, hps⟩ := htyped
              obtain ⟨db', hcreate, rfl⟩ := exists_of_map_eq_ok hwrite
              exact Database.IsReadable.createRun h hps hcreate
          | startStep runId stepId =>
              obtain rfl := Except.ok.inj hwrite
              exact Database.IsReadable.startStep h
          | closeStep runId stepId closing =>
              obtain ⟨os, hos⟩ := htyped
              obtain ⟨db', hclose, rfl⟩ := exists_of_map_eq_ok hwrite
              exact Database.IsReadable.closeStep h hnow hos hclose
          | closeRun runId status error =>
              obtain rfl := Except.ok.inj hwrite
              exact Database.IsReadable.closeRun h rfl

/-- What is refused rewrites nothing. -/
theorem exists_write_of_rewrites (h : Rewrites now entry repository) :
    ∃ repository', repository.write now entry = .ok repository' := by
  cases repository with
  | memory store =>
      cases entry with
      | createRun runId definition payload => exact exists_of_map h.1
      | startStep | closeStep | closeRun => exact ⟨_, rfl⟩
  | database db =>
      cases entry with
      | createRun runId definition payload => exact exists_of_map h.1
      | closeStep runId stepId closing => exact exists_of_map h.1
      | startStep | closeRun => exact ⟨_, rfl⟩

theorem lawful_tell_iff (hreadable : repository.IsReadable) (hsingle : repository.IsSingle)
    (hnow : now.IsValid) (htyped : entry.IsTyped) :
    repository.KeepsHistory (repository.tell (now, entry)) ∧
        (repository.tell (now, entry)).IsSingle ↔ ¬ Rewrites now entry repository := by
  unfold Repository.tell
  cases hwrite : repository.write now entry with
  | error failure =>
      refine iff_of_true ⟨.refl repository, hsingle⟩ fun hrewrites => ?_
      obtain ⟨repository', hok⟩ := exists_write_of_rewrites hrewrites
      cases hwrite.symm.trans hok
  | ok repository' =>
      cases entry with
      | createRun runId definition payload =>
          exact lawful_createRun_iff hreadable hsingle htyped.1 htyped.2 hwrite
      | startStep runId stepId => exact lawful_startStep_iff hreadable hsingle hnow hwrite
      | closeStep runId stepId closing =>
          exact lawful_closeStep_iff hreadable hsingle hnow htyped hwrite
      | closeRun runId status error =>
          refine iff_of_true (lawful_closeRun hreadable hsingle hwrite) ?_
          cases repository <;> exact id

/-- As long as a repository is told a journal, no answer has two records of one step, and what was
answered at any time goes on to hold. -/
structure HoldsHistory (start : Repository) (journal : Journal) : Prop where
  single : ∀ past, past <:+ journal → (start.told past).IsSingle
  kept : ∀ past past', past <:+ past' → past' <:+ journal →
    (start.told past).KeepsHistory (start.told past')

/-- A repository has no runs and no records. -/
inductive IsEmpty : Repository → Prop
  | memory : IsEmpty (.memory {})
  | database : IsEmpty (.database {})

theorem IsEmpty.isReadable (h : start.IsEmpty) : start.IsReadable := by
  cases h with
  | memory => trivial
  | database => exact ⟨nofun, nofun⟩

theorem IsEmpty.isSingle (h : start.IsEmpty) : start.IsSingle := by
  intro runId record hrun
  cases h <;> cases hrun

theorem isReadable_told (hstart : start.IsEmpty) (htyped : journal.IsTyped) :
    (start.told journal).IsReadable := by
  induction journal with
  | nil => exact hstart.isReadable
  | cons write past ih =>
      obtain ⟨hnow, hentry⟩ := htyped write List.mem_cons_self
      exact (ih fun write hmem => htyped write (List.mem_cons_of_mem _ hmem)).tell hnow hentry

/-- The law for one more thing to be told. -/
theorem lawful_told_iff {past : Journal} (hstart : start.IsEmpty)
    (htyped : Journal.IsTyped ((now, entry) :: past)) (hsingle : (start.told past).IsSingle) :
    (start.told past).KeepsHistory (start.told ((now, entry) :: past)) ∧
        (start.told ((now, entry) :: past)).IsSingle ↔ ¬ Rewrites now entry (start.told past) := by
  obtain ⟨hnow, hentry⟩ := htyped (now, entry) List.mem_cons_self
  have hpast : past.IsTyped := fun write hmem => htyped write (List.mem_cons_of_mem _ hmem)
  exact lawful_tell_iff (isReadable_told hstart hpast) hsingle hnow hentry

theorem holdsHistory_of_not_rewrites (hstart : start.IsEmpty) (htyped : journal.IsTyped)
    (hnot : ∀ past now entry, (now, entry) :: past <:+ journal →
      ¬ Rewrites now entry (start.told past)) : start.HoldsHistory journal := by
  induction journal with
  | nil =>
      refine ⟨fun past hpast => ?_, fun past past' hpast hpast' => ?_⟩
      · rw [List.suffix_nil.mp hpast]
        exact hstart.isSingle
      · obtain rfl := List.suffix_nil.mp hpast'
        rw [List.suffix_nil.mp hpast]
        exact .refl _
  | cons write journal ih =>
      obtain ⟨now, entry⟩ := write
      have hbefore := ih (fun write hmem => htyped write (List.mem_cons_of_mem _ hmem))
        fun past now entry hpast => hnot past now entry (hpast.trans (List.suffix_cons _ _))
      have hsingle := hbefore.single journal (List.suffix_refl journal)
      obtain ⟨hkept, hsingle'⟩ := (lawful_told_iff hstart htyped hsingle).mpr
        (hnot journal now entry (List.suffix_refl _))
      refine ⟨fun past hpast => ?_, fun past past' hpast hpast' => ?_⟩
      · rcases List.suffix_cons_iff.mp hpast with rfl | hpast
        · exact hsingle'
        · exact hbefore.single past hpast
      · rcases List.suffix_cons_iff.mp hpast' with rfl | hpast'
        · rcases List.suffix_cons_iff.mp hpast with rfl | hpast
          · exact .refl _
          · exact (hbefore.kept past journal hpast (List.suffix_refl journal)).trans hkept
        · exact hbefore.kept past past' hpast hpast'

/-- Completed history is never rewritten but by the writes that are known to do so, in memory and in
a database, whatever the repository is told. -/
theorem holdsHistory_iff_no_write_rewrites (hstart : start.IsEmpty) (htyped : journal.IsTyped) :
    start.HoldsHistory journal ↔
      ∀ past now entry, (now, entry) :: past <:+ journal →
        ¬ Rewrites now entry (start.told past) := by
  refine ⟨fun h past now entry hsuffix => ?_, holdsHistory_of_not_rewrites hstart htyped⟩
  have hpast : past <:+ (now, entry) :: past := List.suffix_cons _ _
  have htold := lawful_told_iff hstart (fun write hmem => htyped write (hsuffix.subset hmem))
    (h.single past (hpast.trans hsuffix))
  exact htold.mp ⟨h.kept past _ hpast hsuffix, h.single _ hsuffix⟩

def morning : Moment := ⟨⟨2024, 1, 1⟩, 9, 0, 0, 0, some 0⟩

def noon : Moment := ⟨⟨2024, 1, 1⟩, 12, 0, 0, 0, some 0⟩

/-- A step is started and closed. -/
def finished : Journal :=
  [(morning, .closeStep "run" "a" { status := some "completed" }),
    (morning, .startStep "run" "a"),
    (morning, .createRun "run" (.map []) .null)]

def finishedStep : StepRecord where
  id := 1
  runId := "run"
  stepId := "a"
  startedAt := some morning
  completedAt := some morning
  status := some "completed"
  output := some (.map [])

theorem run?_finished_memory : (told (.memory {}) finished).run? "run" =
    .ok (some { runId := "run", definition := [], payload := [], steps := [finishedStep] }) := by
  decide +kernel

theorem run?_finished_database : (told (.database {}) finished).run? "run" =
    .ok (some { runId := "run", definition := [], payload := [], steps := [finishedStep] }) := by
  decide +kernel

/-- What memory ignores is too much for a database. -/
theorem repetition_is_harmless_in_memory :
    Journal.IsTyped ((noon, .startStep "run" "a") :: finished) ∧
      (memory {}).HoldsHistory ((noon, .startStep "run" "a") :: finished) ∧
      ¬ (database {}).HoldsHistory ((noon, .startStep "run" "a") :: finished) := by
  have htyped : Journal.IsTyped ((noon, .startStep "run" "a") :: finished) := by
    intro write hmem
    simp only [finished, List.mem_cons, List.not_mem_nil, or_false] at hmem
    rcases hmem with rfl | rfl | rfl | rfl
    · exact ⟨by decide, trivial⟩
    · exact ⟨by decide, [], rfl⟩
    · exact ⟨by decide, trivial⟩
    · exact ⟨by decide, ⟨[], rfl⟩, [], rfl⟩
  refine ⟨htyped, (holdsHistory_iff_no_write_rewrites .memory htyped).mpr ?_, fun hholds => ?_⟩
  · intro past now entry hsuffix
    simp only [finished, List.suffix_cons_iff, List.cons.injEq, Prod.mk.injEq, List.suffix_nil,
      reduceCtorEq, or_false] at hsuffix
    rcases hsuffix with ⟨⟨-, rfl⟩, rfl⟩ | ⟨⟨-, rfl⟩, rfl⟩ | ⟨⟨-, rfl⟩, rfl⟩ | ⟨⟨-, rfl⟩, rfl⟩
    · exact id
    · exact id
    · exact id
    · rintro ⟨-, record, hrun, -⟩
      cases hrun
  · refine (holdsHistory_iff_no_write_rewrites .database htyped).mp hholds finished noon
      (.startStep "run" "a") (List.suffix_refl _) ?_
    exact ⟨_, run?_finished_database, by decide⟩

/-- A database has two records of a step that is started twice and changes a closed record when it
is closed again; memory drops the records of a run that is created again. -/
theorem history_is_rewritten :
    ¬ (told (database {}) ((noon, .startStep "run" "a") :: finished)).IsSingle ∧
      ¬ (told (database {}) finished).KeepsHistory
        (told (database {})
          ((noon, .closeStep "run" "a" { status := some "failed" }) :: finished)) ∧
      ¬ (told (memory {}) finished).KeepsHistory
        (told (memory {}) ((noon, .createRun "run" (.map []) .null) :: finished)) := by
  refine ⟨fun hsingle => ?_, fun hkeeps => ?_, fun hkeeps => ?_⟩
  · have hrun : (told (database {}) ((noon, .startStep "run" "a") :: finished)).run? "run" =
        .ok (some
          { runId := "run", definition := [], payload := []
            steps := [finishedStep,
              { id := 2, runId := "run", stepId := "a", startedAt := some noon }] }) := by
      decide +kernel
    exact absurd (hsingle "run" _ hrun) (by decide)
  · obtain ⟨record, hrun, hkept⟩ := hkeeps "run" _ run?_finished_database
    obtain ⟨step, hstep, hkept⟩ := hkept 0 finishedStep rfl
    have hclosed : (told (database {}) ((noon, .closeStep "run" "a" { status := some "failed" }) ::
        finished)).run? "run" = .ok (some
          { runId := "run", definition := [], payload := []
            steps := [{ finishedStep with
              completedAt := some noon, status := some "failed" }] }) := by
      decide +kernel
    cases hrun.symm.trans hclosed
    cases hstep
    exact absurd (hkept.closed (by decide)) (by decide)
  · obtain ⟨record, hrun, hkept⟩ := hkeeps "run" _ run?_finished_memory
    obtain ⟨step, hstep, -⟩ := hkept 0 finishedStep rfl
    have hfresh : (told (memory {}) ((noon, .createRun "run" (.map []) .null) ::
        finished)).run? "run" = .ok (some { runId := "run", definition := [], payload := [] }) := by
      decide +kernel
    cases hrun.symm.trans hfresh
    cases hstep

end Repository

end Workflow
