import Workflow.Proofs.Store.Effects
import Workflow.Store.Repository

/-!
# Writes

Every write is about one run. It changes the record of that run in the same way wherever the runs
are kept, and it leaves all other runs alone.
-/

namespace Workflow

/-- The run a write is about. -/
def Entry.runId : Entry → String
  | .createRun runId .. | .startStep runId .. | .closeStep runId .. | .closeRun runId .. => runId

namespace Repository

variable {repository repository' : Repository} {runId stepId : String} {record : RunRecord}
  {now : Moment} {ds ps os : Fields} {entry : Entry}

/-- Nothing has been written about the run. -/
def IsUnknown (runId : String) : Repository → Prop
  | .memory store => runId ∉ Table.keys store.runs
  | .database db => runId ∉ db.runs.map (·.runId) ∧ runId ∉ db.steps.map (·.runId)

/-- The number of the next step record. -/
def nextId : Repository → Nat
  | .memory store => store.stepCount + 1
  | .database db => db.steps.length + 1

/-- The runs in the order in which they were created. -/
def runIds : Repository → List String
  | .memory store => Table.keys store.runs
  | .database db => db.runs.map (·.runId)

/-- The entries of a mapping as they come back from a repository. -/
def shelved (entries : Fields) : Repository → Fields
  | .memory _ => entries
  | .database _ => Table.ofEntries (Json.readBackEntries entries)

theorem shelved_of_isNative {entries : Fields} (h : Json.isNative (.map entries) = true)
    (repository : Repository) : repository.shelved entries = entries := by
  cases repository with
  | memory store => rfl
  | database db => exact Value.map.inj (Json.readBack_of_isNative _ h)

/-! ### The run a write is about -/

theorem run?_createRun {payload : Value} (hunknown : repository.IsUnknown runId)
    (hpayload : keptPayload payload = .map ps)
    (h : repository.createRun runId (.map ds) payload = .ok repository') :
    repository'.run? runId = .ok (some
      { runId, definition := repository.shelved ds, payload := repository.shelved ps }) := by
  cases repository with
  | memory store =>
      obtain ⟨store', hcreate, rfl⟩ := exists_of_map_eq_ok h
      exact congrArg Except.ok (MemoryStore.run?_createRun hpayload hcreate)
  | database db =>
      obtain ⟨db', hcreate, rfl⟩ := exists_of_map_eq_ok h
      exact Database.run?_createRun hpayload hunknown.2 hcreate

theorem run?_startStep (hnow : now.IsValid) (hrun : repository.run? runId = .ok (some record))
    (hnew : ∀ step ∈ record.steps, step.stepId ≠ stepId) :
    (repository.startStep now runId stepId).run? runId = .ok (some
      (record.addStep { id := repository.nextId, runId, stepId, startedAt := some now })) := by
  cases repository with
  | memory store =>
      exact congrArg Except.ok (MemoryStore.run?_startStep (Except.ok.inj hrun) hnew)
  | database db => exact Database.run?_startStep hnow hrun

theorem run?_closeStep {closing : StepClosing} (hnow : now.IsValid)
    (hkept : closing.kept = .map os) (hrun : repository.run? runId = .ok (some record))
    (hnodup : (record.steps.map (·.stepId)).Nodup)
    (hopen : ∀ step ∈ record.steps, step.stepId = stepId → step.completedAt = none)
    (h : repository.closeStep now runId stepId closing = .ok repository') :
    repository'.run? runId =
      .ok (some (record.closeStep now stepId closing (.map (repository.shelved os)))) := by
  cases repository with
  | memory store =>
      cases h
      have hclosed : (store.closeStep now runId stepId closing).run? runId =
          some (record.closeStep now stepId closing closing.kept) :=
        MemoryStore.run?_closeStep (Except.ok.inj hrun) hnodup hopen
      rw [hkept] at hclosed
      exact congrArg Except.ok hclosed
  | database db =>
      obtain ⟨db', hclose, rfl⟩ := exists_of_map_eq_ok h
      exact Database.run?_closeStep hnow hkept hrun hclose

theorem run?_closeRun {status : String} {error : Option String}
    (hrun : repository.run? runId = .ok (some record))
    (h : repository.closeRun runId (some status) error = .ok repository') :
    repository'.run? runId = .ok (some { record with status, error }) := by
  cases repository with
  | memory store =>
      cases h
      exact congrArg Except.ok (MemoryStore.run?_closeRun (Except.ok.inj hrun))
  | database db =>
      cases h
      exact Database.run?_closeRun hrun rfl

/-! ### All other runs -/

/-- What is kept about the run is the same in both. -/
def Spares (runId : String) : Repository → Repository → Prop
  | .memory store, .memory store' => store'.run? runId = store.run? runId
  | .database db, .database db' =>
      List.find? (·.runId = runId) db'.runs = List.find? (·.runId = runId) db.runs ∧
        db'.steps.filter (·.runId = runId) = db.steps.filter (·.runId = runId)
  | _, _ => False

theorem Spares.run? (h : Spares runId repository repository') :
    repository'.run? runId = repository.run? runId := by
  cases repository with
  | memory store =>
      cases repository' with
      | memory store' => exact congrArg Except.ok h
      | database db' => exact h.elim
  | database db =>
      cases repository' with
      | memory store' => exact h.elim
      | database db' => exact Database.run?_congr h.1 h.2

theorem Spares.isUnknown (h : Spares runId repository repository')
    (hunknown : repository.IsUnknown runId) : repository'.IsUnknown runId := by
  cases repository with
  | memory store =>
      cases repository' with
      | memory store' =>
          refine Table.find?_eq_none_iff.mp ?_
          exact Eq.trans h (Table.find?_eq_none_iff.mpr hunknown)
      | database db' => exact h.elim
  | database db =>
      cases repository' with
      | memory store' => exact h.elim
      | database db' =>
          obtain ⟨hruns, hsteps⟩ := hunknown
          refine ⟨?_, ?_⟩
          · have hnone : List.find? (·.runId = runId) db'.runs = none := by
              rw [h.1]
              simpa using hruns
            simpa using hnone
          · have hnil : db'.steps.filter (·.runId = runId) = [] := by
              rw [h.2]
              simpa using hsteps
            simpa using hnil

theorem spares_createRun {other : String} {definition payload : Value} (hne : other ≠ runId)
    (h : repository.createRun other definition payload = .ok repository') :
    Spares runId repository repository' := by
  cases repository with
  | memory store =>
      obtain ⟨store', hcreate, rfl⟩ := exists_of_map_eq_ok h
      obtain ⟨record, -, rfl⟩ := MemoryStore.exists_createRun_eq hcreate
      exact (Table.find?_insert _ _ _ _).trans (if_neg hne.symm)
  | database db =>
      obtain ⟨db', hcreate, rfl⟩ := exists_of_map_eq_ok h
      obtain ⟨definitionText, payloadText, -, -, -, rfl⟩ := Database.createRun_eq_ok hcreate
      exact ⟨by simp [List.find?_append, hne], rfl⟩

theorem spares_startStep {other : String} (hne : other ≠ runId) :
    Spares runId repository (repository.startStep now other stepId) := by
  cases repository with
  | memory store =>
      show Table.find? (store.startStep now other stepId).runs runId = Table.find? store.runs runId
      unfold MemoryStore.startStep
      split
      · rfl
      · split
        · rfl
        · rw [Table.find?_insert, if_neg hne.symm]
  | database db => exact ⟨rfl, by simp [Database.startStep, hne]⟩

theorem spares_closeStep {other : String} {closing : StepClosing} (hne : other ≠ runId)
    (h : repository.closeStep now other stepId closing = .ok repository') :
    Spares runId repository repository' := by
  cases repository with
  | memory store =>
      cases h
      show (store.closeStep now other stepId closing).run? runId = store.run? runId
      rw [MemoryStore.run?, MemoryStore.closeStep, Table.find?_adjust, if_neg hne.symm]
      rfl
  | database db =>
      obtain ⟨db', hclose, rfl⟩ := exists_of_map_eq_ok h
      obtain ⟨text, -, rfl⟩ := Database.closeStep_eq_ok hclose
      refine ⟨rfl, filter_map_of_spares (fun row => ?_) (fun row hrow => if_neg fun hother => ?_) _⟩
      · split <;> rfl
      · exact hne (hother.1.symm.trans (of_decide_eq_true hrow))

theorem spares_closeRun {other status : String} {error : Option String} (hne : other ≠ runId)
    (h : repository.closeRun other (some status) error = .ok repository') :
    Spares runId repository repository' := by
  cases repository with
  | memory store =>
      cases h
      show (store.closeRun other (some status) error).run? runId = store.run? runId
      rw [MemoryStore.run?, MemoryStore.closeRun, Table.find?_adjust, if_neg hne.symm]
      rfl
  | database db =>
      cases h
      refine ⟨find?_map_of_spares (fun row => ?_) (fun row hrow => if_neg fun hother => ?_) _, rfl⟩
      · split <;> rfl
      · exact hne (hother.symm.trans (of_decide_eq_true hrow))

theorem spares_write (h : repository.write now entry = .ok repository')
    (hne : entry.runId ≠ runId) : Spares runId repository repository' := by
  cases entry with
  | createRun other definition payload => exact spares_createRun hne h
  | startStep other stepId =>
      cases h
      exact spares_startStep hne
  | closeStep other stepId closing => exact spares_closeStep hne h
  | closeRun other status error => exact spares_closeRun hne h

/-! ### The list of runs -/

theorem runIds_createRun {definition payload : Value} (hunknown : repository.IsUnknown runId)
    (h : repository.createRun runId definition payload = .ok repository') :
    repository'.runIds = repository.runIds ++ [runId] := by
  cases repository with
  | memory store =>
      obtain ⟨store', hcreate, rfl⟩ := exists_of_map_eq_ok h
      obtain ⟨record, -, rfl⟩ := MemoryStore.exists_createRun_eq hcreate
      simp only [runIds]
      rw [Table.insert_of_notMem record hunknown]
      simp [Table.keys]
  | database db =>
      obtain ⟨db', hcreate, rfl⟩ := exists_of_map_eq_ok h
      obtain ⟨definitionText, payloadText, -, -, -, rfl⟩ := Database.createRun_eq_ok hcreate
      simp [runIds]

theorem runIds_startStep : (repository.startStep now runId stepId).runIds = repository.runIds := by
  cases repository with
  | memory store =>
      simp only [runIds, startStep, MemoryStore.startStep]
      split
      · rfl
      · rename_i record hrecord
        split
        · rfl
        · exact Table.keys_insert_of_mem _ (Table.find?_isSome_iff.mp (by simp [hrecord]))
  | database db => rfl

theorem runIds_closeStep {closing : StepClosing}
    (h : repository.closeStep now runId stepId closing = .ok repository') :
    repository'.runIds = repository.runIds := by
  cases repository with
  | memory store =>
      cases h
      simp only [runIds, MemoryStore.closeStep, Table.keys_adjust]
  | database db =>
      obtain ⟨db', hclose, rfl⟩ := exists_of_map_eq_ok h
      obtain ⟨text, -, rfl⟩ := Database.closeStep_eq_ok hclose
      rfl

theorem runIds_closeRun {status : String} {error : Option String}
    (h : repository.closeRun runId (some status) error = .ok repository') :
    repository'.runIds = repository.runIds := by
  cases repository with
  | memory store =>
      cases h
      simp only [runIds, MemoryStore.closeRun, Table.keys_adjust]
  | database db =>
      cases h
      simp only [runIds]
      rw [List.map_map]
      refine List.map_congr_left fun row _ => ?_
      dsimp only [Function.comp]
      split <;> rfl

theorem nextId_createRun {definition payload : Value}
    (h : repository.createRun runId definition payload = .ok repository') :
    repository'.nextId = repository.nextId := by
  cases repository with
  | memory store =>
      obtain ⟨store', hcreate, rfl⟩ := exists_of_map_eq_ok h
      obtain ⟨record, -, rfl⟩ := MemoryStore.exists_createRun_eq hcreate
      rfl
  | database db =>
      obtain ⟨db', hcreate, rfl⟩ := exists_of_map_eq_ok h
      obtain ⟨definitionText, payloadText, -, -, -, rfl⟩ := Database.createRun_eq_ok hcreate
      rfl

theorem nextId_startStep (hrun : repository.run? runId = .ok (some record))
    (hnew : ∀ step ∈ record.steps, step.stepId ≠ stepId) :
    (repository.startStep now runId stepId).nextId = repository.nextId + 1 := by
  cases repository with
  | memory store =>
      rw [startStep, MemoryStore.startStep_eq (Except.ok.inj hrun) hnew]
      rfl
  | database db => simp [nextId, startStep, Database.startStep]

theorem nextId_closeStep {closing : StepClosing}
    (h : repository.closeStep now runId stepId closing = .ok repository') :
    repository'.nextId = repository.nextId := by
  cases repository with
  | memory store =>
      cases h
      rfl
  | database db =>
      obtain ⟨db', hclose, rfl⟩ := exists_of_map_eq_ok h
      obtain ⟨text, -, rfl⟩ := Database.closeStep_eq_ok hclose
      simp [nextId]

theorem nextId_closeRun {status : String} {error : Option String}
    (h : repository.closeRun runId (some status) error = .ok repository') :
    repository'.nextId = repository.nextId := by
  cases repository with
  | memory store =>
      cases h
      rfl
  | database db =>
      cases h
      rfl

/-! ### Native data is accepted -/

theorem exists_of_map {α β ε : Type} {f : α → β} {x : Except ε α} (h : ∃ a, x = .ok a) :
    ∃ b, x.map f = .ok b := by
  obtain ⟨a, rfl⟩ := h
  exact ⟨f a, rfl⟩

theorem exists_createRun {payload : Value} (hunknown : repository.IsUnknown runId)
    (hds : Json.isNative (.map ds) = true) (hpayload : keptPayload payload = .map ps)
    (hps : Json.isNative (.map ps) = true) :
    ∃ repository', repository.createRun runId (.map ds) payload = .ok repository' := by
  cases repository with
  | memory store => exact exists_of_map (MemoryStore.exists_createRun hds hpayload hps)
  | database db => exact exists_of_map (Database.exists_createRun hunknown.1 hds (hpayload ▸ hps))

theorem exists_closeStep {closing : StepClosing} (hkept : closing.kept = .map os)
    (hos : Json.isNative (.map os) = true) :
    ∃ repository', repository.closeStep now runId stepId closing = .ok repository' := by
  cases repository with
  | memory store => exact ⟨_, rfl⟩
  | database db => exact exists_of_map (Database.exists_closeStep (hkept ▸ hos))

theorem exists_closeRun (status : String) (error : Option String) :
    ∃ repository', repository.closeRun runId (some status) error = .ok repository' := by
  cases repository with
  | memory store => exact ⟨_, rfl⟩
  | database db => exact ⟨_, rfl⟩

end Repository

end Workflow
