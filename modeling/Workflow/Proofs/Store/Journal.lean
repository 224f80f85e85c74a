import Workflow.Proofs.Store.Writes

/-!
# Memory and database are interchangeable

What is written to a repository is kept in a journal. By the journal alone every run has a record,
and a repository to which a lawful journal has been written answers with these records, whether it
keeps its runs in memory or in a database.
-/

namespace Workflow

/-! ### Parts of a record -/

namespace Value

/-- The entries of a mapping; there are none in anything else. -/
def entries : Value → Fields
  | .map entries => entries
  | _ => []

/-- A mapping made of what JSON has. -/
def IsNativeMapping : Value → Prop
  | .map entries => Json.isNative (.map entries) = true
  | _ => False

instance : DecidablePred IsNativeMapping
  | .map entries => inferInstanceAs (Decidable (Json.isNative (.map entries) = true))
  | .scalar _ | .list _ => inferInstanceAs (Decidable False)

/-- A mapping made of what JSON has, or nothing. -/
def IsNativePart : Value → Prop
  | .null => True
  | v => v.IsNativeMapping

instance : DecidablePred IsNativePart
  | .null => inferInstanceAs (Decidable True)
  | .map entries => inferInstanceAs (Decidable (IsNativeMapping (.map entries)))
  | .list _ => inferInstanceAs (Decidable False)
  | .scalar (.bool _) | .scalar (.int _) | .scalar (.float _) | .scalar (.str _)
  | .scalar (.date _) | .scalar (.moment _) => inferInstanceAs (Decidable False)

theorem IsNativeMapping.eq_map {v : Value} (h : v.IsNativeMapping) :
    v = .map v.entries ∧ Json.isNative (.map v.entries) = true := by
  cases v with
  | map entries => exact ⟨rfl, h⟩
  | scalar s => exact h.elim
  | list items => exact h.elim

theorem IsNativePart.kept_eq {v : Value} (h : v.IsNativePart) :
    (if v.isTruthy then v else .map []) = .map v.entries ∧
      Json.isNative (.map v.entries) = true := by
  cases v with
  | map entries =>
      refine ⟨?_, h⟩
      cases entries <;> rfl
  | scalar s =>
      cases s with
      | null => exact ⟨rfl, rfl⟩
      | _ => exact h.elim
  | list items => exact h.elim

end Value

/-! ### The journal -/

/-- What has been written, the latest first. -/
abbrev Journal := List (Moment × Entry)

namespace Journal

/-- The runs that were created, in that order. -/
def created : Journal → List String
  | [] => []
  | (_, .createRun runId _ _) :: past => created past ++ [runId]
  | _ :: past => created past

/-- The steps that were started, each with its run. -/
def started : Journal → List (String × String)
  | [] => []
  | (_, .startStep runId stepId) :: past => (runId, stepId) :: started past
  | _ :: past => started past

/-- The steps that were closed, each with its run. -/
def closed : Journal → List (String × String)
  | [] => []
  | (_, .closeStep runId stepId _) :: past => (runId, stepId) :: closed past
  | _ :: past => closed past

/-- The record a run has by what was written about it. Step records are numbered over all runs. -/
def record? (runId : String) : Journal → Option RunRecord
  | [] => none
  | (now, entry) :: past =>
    if entry.runId ≠ runId then record? runId past
    else match entry with
      | .createRun _ definition payload =>
        some { runId, definition := definition.entries, payload := payload.entries }
      | .startStep _ stepId =>
        (record? runId past).map
          (·.addStep { id := (started past).length + 1, runId, stepId, startedAt := some now })
      | .closeStep _ stepId closing =>
        (record? runId past).map (·.closeStep now stepId closing (.map closing.output.entries))
      | .closeRun _ status error => (record? runId past).map ({ · with status, error })

end Journal

/-- What may be written after what was written before. -/
def Entry.IsAllowed (past : Journal) : Entry → Prop
  | .createRun runId definition payload =>
    runId ∉ past.created ∧ definition.IsNativeMapping ∧ payload.IsNativePart
  | .startStep runId stepId => runId ∈ past.created ∧ (runId, stepId) ∉ past.started
  | .closeStep runId stepId closing =>
    (runId, stepId) ∈ past.started ∧ (runId, stepId) ∉ past.closed ∧ closing.output.IsNativePart
  | .closeRun runId _ _ => runId ∈ past.created

instance (past : Journal) : DecidablePred (Entry.IsAllowed past)
  | .createRun .. | .startStep .. | .closeStep .. | .closeRun .. => by
    unfold Entry.IsAllowed
    infer_instance

namespace Journal

/-- Every write is allowed when it is made. -/
def IsLawful : Journal → Prop
  | [] => True
  | (now, entry) :: past => IsLawful past ∧ now.IsValid ∧ entry.IsAllowed past

instance : DecidablePred IsLawful
  | [] => inferInstanceAs (Decidable True)
  | (now, entry) :: past =>
    have : Decidable (IsLawful past) := instDecidablePredIsLawful past
    inferInstanceAs (Decidable (IsLawful past ∧ now.IsValid ∧ entry.IsAllowed past))

/-! ### What a lawful journal says -/

variable {journal past : Journal} {runId stepId : String} {record : RunRecord}

theorem record?_of_ne {now : Moment} {entry : Entry} (hne : entry.runId ≠ runId) :
    record? runId ((now, entry) :: past) = record? runId past :=
  if_pos hne

@[simp]
theorem record?_createRun {now : Moment} {definition payload : Value} :
    record? runId ((now, .createRun runId definition payload) :: past) =
      some { runId, definition := definition.entries, payload := payload.entries } :=
  if_neg (not_not.mpr rfl)

@[simp]
theorem record?_startStep {now : Moment} :
    record? runId ((now, .startStep runId stepId) :: past) = (record? runId past).map
      (·.addStep { id := (started past).length + 1, runId, stepId, startedAt := some now }) :=
  if_neg (not_not.mpr rfl)

@[simp]
theorem record?_closeStep {now : Moment} {closing : StepClosing} :
    record? runId ((now, .closeStep runId stepId closing) :: past) = (record? runId past).map
      (·.closeStep now stepId closing (.map closing.output.entries)) :=
  if_neg (not_not.mpr rfl)

@[simp]
theorem record?_closeRun {now : Moment} {status : String} {error : Option String} :
    record? runId ((now, .closeRun runId status error) :: past) =
      (record? runId past).map ({ · with status, error }) :=
  if_neg (not_not.mpr rfl)

theorem mem_created_of_ne {now : Moment} {entry : Entry} (hne : entry.runId ≠ runId) :
    runId ∈ created ((now, entry) :: past) ↔ runId ∈ created past := by
  cases entry with
  | createRun other definition payload =>
      rw [created, List.mem_append, List.mem_singleton]
      exact or_iff_left hne.symm
  | startStep other stepId => rfl
  | closeStep other stepId closing => rfl
  | closeRun other status error => rfl

theorem mem_started_of_ne {now : Moment} {entry : Entry} (hne : entry.runId ≠ runId) :
    (runId, stepId) ∈ started ((now, entry) :: past) ↔ (runId, stepId) ∈ started past := by
  cases entry with
  | startStep other otherStep =>
      rw [started, List.mem_cons, Prod.mk.injEq]
      exact or_iff_right fun hsame => hne hsame.1.symm
  | createRun other definition payload => rfl
  | closeStep other stepId closing => rfl
  | closeRun other status error => rfl

theorem mem_closed_of_ne {now : Moment} {entry : Entry} (hne : entry.runId ≠ runId) :
    (runId, stepId) ∈ closed ((now, entry) :: past) ↔ (runId, stepId) ∈ closed past := by
  cases entry with
  | closeStep other otherStep closing =>
      rw [closed, List.mem_cons, Prod.mk.injEq]
      exact or_iff_right fun hsame => hne hsame.1.symm
  | createRun other definition payload => rfl
  | startStep other stepId => rfl
  | closeRun other status error => rfl

theorem isSome_record? : (journal.record? runId).isSome ↔ runId ∈ journal.created := by
  induction journal with
  | nil => simp [record?, created]
  | cons write past ih =>
      obtain ⟨now, entry⟩ := write
      by_cases hrun : entry.runId = runId
      · subst hrun
        cases entry with
        | createRun runId definition payload => simp [Entry.runId, created]
        | startStep runId stepId => simpa [Entry.runId, created] using ih
        | closeStep runId stepId closing => simpa [Entry.runId, created] using ih
        | closeRun runId status error => simpa [Entry.runId, created] using ih
      · rw [record?_of_ne hrun, mem_created_of_ne hrun]
        exact ih

theorem mem_created_of_mem_started (h : journal.IsLawful)
    (hstarted : (runId, stepId) ∈ journal.started) : runId ∈ journal.created := by
  induction journal with
  | nil => cases hstarted
  | cons write past ih =>
      obtain ⟨now, entry⟩ := write
      obtain ⟨hpast, -, hallowed⟩ := h
      cases entry with
      | createRun other definition payload =>
          exact List.mem_append_left _ (ih hpast hstarted)
      | startStep other otherStep =>
          rcases List.mem_cons.mp hstarted with hsame | hbefore
          · cases hsame
            exact hallowed.1
          · exact ih hpast hbefore
      | closeStep other otherStep closing => exact ih hpast hstarted
      | closeRun other status error => exact ih hpast hstarted

theorem nodup_created (h : journal.IsLawful) : journal.created.Nodup := by
  induction journal with
  | nil => exact List.nodup_nil
  | cons write past ih =>
      obtain ⟨now, entry⟩ := write
      obtain ⟨hpast, -, hallowed⟩ := h
      cases entry with
      | createRun runId definition payload =>
          rw [created, ← List.concat_eq_append]
          exact (List.nodup_concat _ _).mpr ⟨hallowed.1, ih hpast⟩
      | startStep other otherStep => exact ih hpast
      | closeStep other otherStep closing => exact ih hpast
      | closeRun other status error => exact ih hpast

/-- Each step that was started has one record, which is open until the step is closed. -/
structure Mirrors (journal : Journal) (record : RunRecord) (runId : String) : Prop where
  nodup : (record.steps.map (·.stepId)).Nodup
  mem_stepIds_iff : ∀ stepId,
    stepId ∈ record.steps.map (·.stepId) ↔ (runId, stepId) ∈ journal.started
  isOpen : ∀ step ∈ record.steps, (runId, step.stepId) ∉ journal.closed → step.completedAt = none

theorem Mirrors.addStep {now : Moment} {step : StepRecord} (h : Mirrors past record runId)
    (hstep : step.stepId = stepId) (hopen : step.completedAt = none)
    (hnew : (runId, stepId) ∉ started past) :
    Mirrors ((now, .startStep runId stepId) :: past) (record.addStep step) runId := by
  subst hstep
  have hids : (record.addStep step).steps.map (·.stepId) =
      record.steps.map (·.stepId) ++ [step.stepId] := by simp [RunRecord.addStep]
  refine ⟨?_, fun stepId => ?_, fun other hmem hclosed => ?_⟩
  · exact (RunRecord.nodup_addStep_iff h.nodup).mpr fun hmem => hnew ((h.mem_stepIds_iff _).mp hmem)
  · rw [hids, List.mem_append, h.mem_stepIds_iff stepId, List.mem_singleton, started, List.mem_cons,
      Prod.mk.injEq]
    tauto
  · rcases List.mem_append.mp hmem with hbefore | hnew
    · exact h.isOpen other hbefore hclosed
    · rw [List.mem_singleton.mp hnew]
      exact hopen

theorem Mirrors.closeStep {now now' : Moment} {closing closing' : StepClosing} {output : Value}
    (h : Mirrors past record runId) :
    Mirrors ((now, .closeStep runId stepId closing) :: past)
      (record.closeStep now' stepId closing' output) runId := by
  have hids := record.stepIds_closeStep now' stepId closing' output
  refine ⟨hids ▸ h.nodup, fun stepId => hids ▸ h.mem_stepIds_iff stepId,
    fun step hmem hclosed => ?_⟩
  obtain ⟨before, hbefore, rfl⟩ := List.mem_map.mp hmem
  by_cases hstep : before.stepId = stepId
  · rw [if_pos hstep] at hclosed
    exact absurd (List.mem_cons.mpr (.inl (by rw [← hstep]; rfl))) hclosed
  · rw [if_neg hstep] at hclosed ⊢
    exact h.isOpen before hbefore fun hmem => hclosed (List.mem_cons_of_mem _ hmem)

theorem mirrors_of_record? (h : journal.IsLawful) (hrecord : journal.record? runId = some record) :
    journal.Mirrors record runId := by
  induction journal generalizing record with
  | nil => cases hrecord
  | cons write past ih =>
      obtain ⟨now, entry⟩ := write
      obtain ⟨hpast, -, hallowed⟩ := h
      by_cases hrun : entry.runId = runId
      · subst hrun
        cases entry with
        | createRun runId definition payload =>
            obtain rfl := Option.some.inj (record?_createRun.symm.trans hrecord)
            refine ⟨List.nodup_nil, fun stepId => ?_, fun step hmem => nomatch hmem⟩
            refine iff_of_false List.not_mem_nil fun hstarted => hallowed.1 ?_
            exact mem_created_of_mem_started hpast hstarted
        | startStep runId stepId =>
            obtain ⟨before, hbefore, rfl⟩ :=
              Option.map_eq_some_iff.mp (record?_startStep.symm.trans hrecord)
            exact (ih hpast hbefore).addStep rfl rfl hallowed.2
        | closeStep runId stepId closing =>
            obtain ⟨before, hbefore, rfl⟩ :=
              Option.map_eq_some_iff.mp (record?_closeStep.symm.trans hrecord)
            exact (ih hpast hbefore).closeStep
        | closeRun runId status error =>
            obtain ⟨before, hbefore, rfl⟩ :=
              Option.map_eq_some_iff.mp (record?_closeRun.symm.trans hrecord)
            have hmirrors := ih hpast hbefore
            exact ⟨hmirrors.nodup, hmirrors.mem_stepIds_iff, hmirrors.isOpen⟩
      · rw [record?_of_ne hrun] at hrecord
        have hmirrors := ih hpast hrecord
        refine ⟨hmirrors.nodup, fun stepId => ?_, fun step hmem hclosed => ?_⟩
        · rw [mem_started_of_ne hrun]
          exact hmirrors.mem_stepIds_iff stepId
        · rw [mem_closed_of_ne hrun] at hclosed
          exact hmirrors.isOpen step hmem hclosed

end Journal

/-! ### Repositories -/

namespace Repository

variable {repository repository' : Repository} {journal past : Journal} {runId stepId : String}
  {now : Moment} {entry : Entry}

/-- What a repository is once the journal has been written to it. -/
def after (repository : Repository) : Journal → Except Failure Repository
  | [] => .ok repository
  | (now, entry) :: past => do
    let before ← repository.after past
    before.write now entry

/-- What a repository answers is what the journal says. -/
structure Reflects (journal : Journal) (repository : Repository) : Prop where
  run : ∀ runId, repository.run? runId = .ok (journal.record? runId)
  unknown : ∀ runId ∉ journal.created, repository.IsUnknown runId
  runIds : repository.runIds = journal.created
  nextId : repository.nextId = journal.started.length + 1

theorem reflects_memory : (Repository.memory {}).Reflects [] where
  run _ := rfl
  unknown _ _ := List.not_mem_nil
  runIds := rfl
  nextId := rfl

theorem reflects_database : (Repository.database {}).Reflects [] where
  run _ := rfl
  unknown _ _ := ⟨List.not_mem_nil, List.not_mem_nil⟩
  runIds := rfl
  nextId := rfl

theorem Reflects.run_of_ne (h : repository.Reflects past)
    (hwrite : repository.write now entry = .ok repository') (hne : entry.runId ≠ runId) :
    repository'.run? runId = .ok (Journal.record? runId ((now, entry) :: past)) := by
  rw [(spares_write hwrite hne).run?, Journal.record?_of_ne hne]
  exact h.run runId

theorem Reflects.unknown_of_ne (h : repository.Reflects past)
    (hwrite : repository.write now entry = .ok repository') (hne : entry.runId ≠ runId)
    (hnew : runId ∉ Journal.created ((now, entry) :: past)) : repository'.IsUnknown runId := by
  rw [Journal.mem_created_of_ne hne] at hnew
  exact (spares_write hwrite hne).isUnknown (h.unknown runId hnew)

theorem Reflects.createRun {definition payload : Value} (h : repository.Reflects past)
    (hallowed : (Entry.createRun runId definition payload).IsAllowed past) :
    ∃ repository', repository.write now (.createRun runId definition payload) = .ok repository' ∧
      repository'.Reflects ((now, .createRun runId definition payload) :: past) := by
  obtain ⟨hnew, hdefinition, hpayload⟩ := hallowed
  obtain ⟨hmapping, hnative⟩ := hdefinition.eq_map
  obtain ⟨hkept, hpayloadNative⟩ := hpayload.kept_eq
  have hunknown := h.unknown runId hnew
  obtain ⟨repository', hcreate⟩ := exists_createRun hunknown hnative hkept hpayloadNative
  have hwrite : repository.write now (.createRun runId definition payload) = .ok repository' := by
    rw [hmapping]
    exact hcreate
  refine ⟨repository', hwrite, ⟨fun other => ?_, fun other hother => ?_, ?_, ?_⟩⟩
  · by_cases hrun : runId = other
    · subst hrun
      rw [run?_createRun hunknown hkept hcreate, shelved_of_isNative hnative,
        shelved_of_isNative hpayloadNative, Journal.record?_createRun]
    · exact h.run_of_ne hwrite hrun
  · refine h.unknown_of_ne hwrite (fun hrun => hother ?_) hother
    exact List.mem_append_right _ (List.mem_singleton.mpr hrun.symm)
  · rw [runIds_createRun hunknown hcreate, h.runIds]
    rfl
  · rw [nextId_createRun hcreate, h.nextId]
    rfl

theorem Reflects.startStep (h : repository.Reflects past) (hlawful : past.IsLawful)
    (hnow : now.IsValid) (hallowed : (Entry.startStep runId stepId).IsAllowed past) :
    ∃ repository', repository.write now (.startStep runId stepId) = .ok repository' ∧
      repository'.Reflects ((now, .startStep runId stepId) :: past) := by
  obtain ⟨hcreated, hnew⟩ := hallowed
  obtain ⟨record, hrecord⟩ := Option.isSome_iff_exists.mp (Journal.isSome_record?.mpr hcreated)
  have hmirrors := Journal.mirrors_of_record? hlawful hrecord
  have hrun : repository.run? runId = .ok (some record) := hrecord ▸ h.run runId
  have hfresh : ∀ step ∈ record.steps, step.stepId ≠ stepId := by
    rintro step hmem rfl
    exact hnew ((hmirrors.mem_stepIds_iff _).mp (List.mem_map_of_mem hmem))
  have hwrite : repository.write now (.startStep runId stepId) =
      .ok (repository.startStep now runId stepId) := rfl
  refine ⟨_, hwrite, ⟨fun other => ?_, fun other hother => ?_, ?_, ?_⟩⟩
  · by_cases hother : runId = other
    · subst hother
      rw [run?_startStep hnow hrun hfresh, Journal.record?_startStep, hrecord, h.nextId]
      rfl
    · exact h.run_of_ne hwrite hother
  · refine h.unknown_of_ne hwrite ?_ hother
    rintro rfl
    exact hother hcreated
  · rw [runIds_startStep, h.runIds]
    rfl
  · rw [nextId_startStep hrun hfresh, h.nextId]
    rfl

theorem Reflects.closeStep {closing : StepClosing} (h : repository.Reflects past)
    (hlawful : past.IsLawful) (hnow : now.IsValid)
    (hallowed : (Entry.closeStep runId stepId closing).IsAllowed past) :
    ∃ repository', repository.write now (.closeStep runId stepId closing) = .ok repository' ∧
      repository'.Reflects ((now, .closeStep runId stepId closing) :: past) := by
  obtain ⟨hstarted, hopen, hpart⟩ := hallowed
  obtain ⟨hkept, hnative⟩ := hpart.kept_eq
  have hcreated := Journal.mem_created_of_mem_started hlawful hstarted
  obtain ⟨record, hrecord⟩ := Option.isSome_iff_exists.mp (Journal.isSome_record?.mpr hcreated)
  have hmirrors := Journal.mirrors_of_record? hlawful hrecord
  have hrun : repository.run? runId = .ok (some record) := hrecord ▸ h.run runId
  have hisOpen : ∀ step ∈ record.steps, step.stepId = stepId → step.completedAt = none := by
    rintro step hmem rfl
    exact hmirrors.isOpen step hmem hopen
  obtain ⟨repository', hclose⟩ :
      ∃ repository', repository.closeStep now runId stepId closing = .ok repository' :=
    exists_closeStep hkept hnative
  have hwrite : repository.write now (.closeStep runId stepId closing) = .ok repository' := hclose
  refine ⟨_, hwrite, ⟨fun other => ?_, fun other hother => ?_, ?_, ?_⟩⟩
  · by_cases hother : runId = other
    · subst hother
      rw [run?_closeStep hnow hkept hrun hmirrors.nodup hisOpen hclose, Journal.record?_closeStep,
        hrecord, shelved_of_isNative hnative]
      rfl
    · exact h.run_of_ne hwrite hother
  · refine h.unknown_of_ne hwrite ?_ hother
    rintro rfl
    exact hother hcreated
  · rw [runIds_closeStep hclose, h.runIds]
    rfl
  · rw [nextId_closeStep hclose, h.nextId]
    rfl

theorem Reflects.closeRun {status : String} {error : Option String} (h : repository.Reflects past)
    (hallowed : (Entry.closeRun runId status error).IsAllowed past) :
    ∃ repository', repository.write now (.closeRun runId status error) = .ok repository' ∧
      repository'.Reflects ((now, .closeRun runId status error) :: past) := by
  obtain ⟨record, hrecord⟩ := Option.isSome_iff_exists.mp (Journal.isSome_record?.mpr hallowed)
  have hrun : repository.run? runId = .ok (some record) := hrecord ▸ h.run runId
  obtain ⟨repository', hclose⟩ :
      ∃ repository', repository.closeRun runId (some status) error = .ok repository' :=
    exists_closeRun status error
  have hwrite : repository.write now (.closeRun runId status error) = .ok repository' := hclose
  refine ⟨_, hwrite, ⟨fun other => ?_, fun other hother => ?_, ?_, ?_⟩⟩
  · by_cases hother : runId = other
    · subst hother
      rw [run?_closeRun hrun hclose, Journal.record?_closeRun, hrecord]
      rfl
    · exact h.run_of_ne hwrite hother
  · refine h.unknown_of_ne hwrite ?_ hother
    rintro rfl
    exact hother hallowed
  · rw [runIds_closeRun hclose, h.runIds]
    rfl
  · rw [nextId_closeRun hclose, h.nextId]
    rfl

/-- A repository takes every write that is allowed, and goes on reflecting the journal. -/
theorem Reflects.write (h : repository.Reflects past)
    (hlawful : Journal.IsLawful ((now, entry) :: past)) :
    ∃ repository', repository.write now entry = .ok repository' ∧
      repository'.Reflects ((now, entry) :: past) := by
  obtain ⟨hpast, hnow, hallowed⟩ := hlawful
  cases entry with
  | createRun runId definition payload => exact h.createRun hallowed
  | startStep runId stepId => exact h.startStep hpast hnow hallowed
  | closeStep runId stepId closing => exact h.closeStep hpast hnow hallowed
  | closeRun runId status error => exact h.closeRun hallowed

theorem exists_after (h : repository.Reflects []) (hlawful : journal.IsLawful) :
    ∃ repository', repository.after journal = .ok repository' ∧ repository'.Reflects journal := by
  induction journal with
  | nil => exact ⟨repository, rfl, h⟩
  | cons write past ih =>
      obtain ⟨before, hbefore, hreflects⟩ := ih hlawful.1
      obtain ⟨repository', hwrite, hreflects'⟩ := hreflects.write hlawful
      refine ⟨repository', ?_, hreflects'⟩
      rw [after, hbefore]
      exact hwrite

/-! ### Both at once -/

def isMemory : Repository → Bool
  | .memory _ => true
  | .database _ => false

theorem isMemory_write (h : repository.write now entry = .ok repository') :
    repository'.isMemory = repository.isMemory := by
  cases repository with
  | memory store =>
      cases entry with
      | createRun runId definition payload =>
          obtain ⟨store', -, rfl⟩ := exists_of_map_eq_ok h
          rfl
      | startStep runId stepId | closeStep runId stepId closing | closeRun runId status error =>
          cases h
          rfl
  | database db =>
      cases entry with
      | createRun runId definition payload | closeStep runId stepId closing =>
          obtain ⟨db', -, rfl⟩ := exists_of_map_eq_ok h
          rfl
      | startStep runId stepId | closeRun runId status error =>
          cases h
          rfl

theorem isMemory_after (h : repository.after journal = .ok repository') :
    repository'.isMemory = repository.isMemory := by
  induction journal generalizing repository' with
  | nil =>
      cases h
      rfl
  | cons write past ih =>
      obtain ⟨now, entry⟩ := write
      obtain ⟨before, hbefore, hwrite⟩ := bind_eq_ok_iff.mp h
      exact (isMemory_write hwrite).trans (ih hbefore)

theorem Reflects.allRuns_memory {store : MemoryStore}
    (h : (Repository.memory store).Reflects journal) (hlawful : journal.IsLawful) :
    store.allRuns = journal.created.filterMap journal.record? := by
  have hids : Table.keys store.runs = journal.created := h.runIds
  have hnodup := Journal.nodup_created hlawful
  rw [← hids] at hnodup ⊢
  rw [MemoryStore.allRuns, ← List.filterMap_eq_map, Table.keys, List.filterMap_map]
  refine List.filterMap_congr fun entry hmem => ?_
  have hrun := Except.ok.inj (h.run entry.1)
  exact (Table.find?_eq_some_of_mem hnodup hmem).symm.trans hrun

theorem Reflects.allRuns_database {db : Database} (h : (Repository.database db).Reflects journal)
    (hlawful : journal.IsLawful) :
    db.allRuns =
      .ok ((journal.created.filterMap journal.record?).map ({ · with steps := [] })) := by
  have hids : db.runs.map (·.runId) = journal.created := h.runIds
  have hnodup := Journal.nodup_created hlawful
  rw [List.map_filterMap, ← hids, List.filterMap_map]
  refine mapM_eq_filterMap fun row hmem => ?_
  have hcreated : row.runId ∈ journal.created := hids ▸ List.mem_map_of_mem hmem
  obtain ⟨record, hrecord⟩ := Option.isSome_iff_exists.mp (Journal.isSome_record?.mpr hcreated)
  have hrun : db.run? row.runId = .ok (some record) := hrecord ▸ h.run row.runId
  obtain ⟨row', steps, hrow, -, hrecordOf⟩ := Database.run?_eq_some_iff.mp hrun
  have hsame : row' = row := by
    rw [← hids] at hnodup
    exact List.inj_on_of_nodup_map hnodup (List.mem_of_find?_eq_some hrow) hmem
      (by simpa using List.find?_some hrow)
  refine ⟨{ record with steps := [] }, by simp [hrecord], ?_⟩
  rw [← hsame]
  exact Database.recordOf_withSteps hrecordOf []

/-- Where runs are kept cannot be told from what is answered: after the same lawful writes at the
same times, memory and a database have the same record of each run, the one the journal tells of,
and they list the same runs in the same order. The list from a database is without steps. -/
theorem interchangeable {journal : Journal} (hlawful : journal.IsLawful) :
    ∃ store db, (Repository.memory {}).after journal = .ok (.memory store) ∧
      (Repository.database {}).after journal = .ok (.database db) ∧
      (∀ runId, store.run? runId = journal.record? runId ∧
        db.run? runId = .ok (store.run? runId)) ∧
      db.allRuns = .ok (store.allRuns.map ({ · with steps := [] })) := by
  obtain ⟨memory, hmemory, hreflects⟩ := exists_after reflects_memory hlawful
  obtain ⟨database, hdatabase, hreflects'⟩ := exists_after reflects_database hlawful
  have hkind := isMemory_after hmemory
  have hkind' := isMemory_after hdatabase
  cases memory with
  | database db => cases hkind
  | memory store =>
      cases database with
      | memory store' => cases hkind'
      | database db =>
          refine ⟨store, db, hmemory, hdatabase, fun runId => ?_, ?_⟩
          · have hrun : store.run? runId = journal.record? runId :=
              Except.ok.inj (hreflects.run runId)
            exact ⟨hrun, hrun ▸ hreflects'.run runId⟩
          · rw [hreflects'.allRuns_database hlawful, hreflects.allRuns_memory hlawful]

/-- Two runs of one workflow, written side by side. -/
def sideBySide : Journal :=
  let definition : Value := .record [("steps", .list [.record [("id", .str "t")]])]
  let payload : Value := .record [("rate", .float 2.5), ("tags", .list [.null, .bool true])]
  [ (.ofMicros 8000001, .closeRun "b" "failed" (some "Step t failed: boom")),
    (.ofMicros 7000000, .closeStep "a" "t"
      { status := some "completed", output := .record [("result", payload)] }),
    (.ofMicros 5250000, .closeStep "b" "t" { status := some "failed", error := some "boom" }),
    (.ofMicros 4000000, .startStep "a" "t"),
    (.ofMicros 3000000, .startStep "b" "t"),
    (.ofMicros 2000000, .createRun "b" definition .null),
    (.ofMicros 1000000, .createRun "a" definition payload) ]

theorem sideBySide_interchangeable : sideBySide.IsLawful ∧
    (∃ store db, (Repository.memory {}).after sideBySide = .ok (.memory store) ∧
      (Repository.database {}).after sideBySide = .ok (.database db) ∧
      (∀ runId, store.run? runId = sideBySide.record? runId ∧
        db.run? runId = .ok (store.run? runId)) ∧
      db.allRuns = .ok (store.allRuns.map ({ · with steps := [] }))) ∧
    (sideBySide.record? "b").map (·.steps) = some
      [{ id := 1, runId := "b", stepId := "t"
         startedAt := some (.ofMicros 3000000), completedAt := some (.ofMicros 5250000)
         status := some "failed", output := some (.map []), error := some "boom" }] := by
  have hlawful : sideBySide.IsLawful := by decide
  exact ⟨hlawful, interchangeable hlawful, rfl⟩

end Repository

end Workflow
