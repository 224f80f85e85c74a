import Workflow.Engine
import Workflow.Proofs.Validation.Decoding

/-!
# Reading back the dump of a definition

A definition is dumped with the names of its fields in underscores, to be stored, or in camel case,
to be edited. Each decoder is paired with the dump of what it reads. The parameters of an action are
the only part that is dumped as free data, so they alone have to be such that JSON can hold them.
-/

namespace Workflow

/-! ### Free data -/

namespace Value

mutual

/-- What JSON has, JSON can hold as it is. -/
theorem plain_of_isNative (v : Value) (hnative : Json.isNative v = true)
    (hfinite : Json.isFinite v = true) : v.plain = v := by
  match v with
  | .scalar (.float x) => exact if_pos hfinite
  | .scalar (.date _) | .scalar (.moment _) => cases hnative
  | .scalar .null | .scalar (.bool _) | .scalar (.int _) | .scalar (.str _) => rfl
  | .list items => rw [plain, plainItems_of_areNative items hnative hfinite]
  | .map entries =>
      rw [Json.isNative, Bool.and_eq_true, decide_eq_true_iff] at hnative
      rw [plain, plainEntries_of_haveNative entries hnative.1 hfinite,
        Table.ofEntries_of_nodup hnative.2]

theorem plainItems_of_areNative (items : List Value) (hnative : Json.areNative items = true)
    (hfinite : Json.areFinite items = true) : plainItems items = items := by
  match items with
  | [] => rfl
  | item :: rest =>
      rw [Json.areNative, Bool.and_eq_true] at hnative
      rw [Json.areFinite, Bool.and_eq_true] at hfinite
      rw [plainItems, plain_of_isNative item hnative.1 hfinite.1,
        plainItems_of_areNative rest hnative.2 hfinite.2]

theorem plainEntries_of_haveNative (entries : List (Scalar × Value))
    (hnative : Json.haveNative entries = true) (hfinite : Json.haveFinite entries = true) :
    plainEntries entries = entries := by
  match entries with
  | [] => rfl
  | (.str name, value) :: rest =>
      rw [Json.haveNative, Bool.and_eq_true] at hnative
      rw [Json.haveFinite, Bool.and_eq_true] at hfinite
      rw [plainEntries, plain_of_isNative value hnative.1 hfinite.1,
        plainEntries_of_haveNative rest hnative.2 hfinite.2]
      rfl

end

end Value

/-- The free data of a step: the parameters of its action, if it has one. -/
def Work.parameters : Work → Fields
  | .externalAction action => action.parameters
  | _ => []

/-- Whether JSON has everything that occurs in the parameters of the actions. -/
def Definition.HasNativeParameters (d : Definition) : Prop :=
  ∀ step ∈ d.steps, Json.isNative (.map step.work.parameters) = true

instance : DecidablePred Definition.HasNativeParameters := fun d =>
  inferInstanceAs (Decidable (∀ step ∈ d.steps, Json.isNative (.map step.work.parameters) = true))

/-- Whether JSON keeps the parameters of the actions as they are. -/
def Work.IsPlain (work : Work) : Prop :=
  Json.isNative (.map work.parameters) = true ∧ Json.isFinite (.map work.parameters) = true

/-! ### Reading what was dumped -/

section Dump

variable (naming : Naming)

theorem RetryPolicy.decode_encode (policy : RetryPolicy) :
    RetryPolicy.decode (policy.encode naming) = .valid policy := by
  cases naming <;>
    simp [decode, encode, Value.record, Fields.named, Fields.get?, Table.find?, Decode.record,
      Decode.optional, Decode.present?, Naming.pick]

theorem WaitTime.decode_encode (time : WaitTime) :
    Work.decodeWaitTime time.encode = .valid time := by
  cases time <;> rfl

namespace Work

theorem decode_trigger :
    decodeTriggerConfig (encode naming .trigger) = .valid .trigger := rfl

theorem decode_externalAction {action : ExternalAction} (h : (externalAction action).IsPlain) :
    decodeExternalActionConfig (encode naming (.externalAction action)) =
      .valid (.externalAction action) := by
  have hparameters : Decode.mapping (Value.map action.parameters).plain =
      .valid action.parameters := by
    rw [Value.plain_of_isNative (.map action.parameters) h.1 h.2]
    exact Json.mapping_of_isNative h.1
  cases naming <;>
    simp [decodeExternalActionConfig, encode, Value.record, Fields.named, Fields.get?, Table.find?,
      Decode.record, Decode.required, Decode.optional, Decode.present?, Naming.pick,
      Decode.nullable_ofOption, hparameters]

theorem decode_aiAgent (agent : AiAgent) :
    decodeAiAgentConfig (encode naming (.aiAgent agent)) = .valid (.aiAgent agent) := by
  have htools : Decode.list Decode.text (Value.strs agent.tools) = .valid agent.tools :=
    Decode.list_encoded fun tool _ => Decode.text_str tool
  cases naming <;>
    simp [decodeAiAgentConfig, encode, Value.record, Fields.named, Fields.get?, Table.find?,
      Decode.record, Decode.required, Decode.optional, Decode.present?, Naming.pick,
      Decode.nullable_ofOption, htools]

theorem decode_wait (time : Option WaitTime) :
    decodeWaitConfig (encode naming (.wait time)) = .valid (.wait time) := by
  have htime : Decode.nullable decodeWaitTime (.ofOption WaitTime.encode time) = .valid time :=
    Decode.nullable_ofOption fun written _ => ⟨by cases written <;> nofun, written.decode_encode⟩
  simp [decodeWaitConfig, encode, Value.record, Fields.named, Fields.get?, Table.find?,
    Decode.record, Decode.optional, Decode.present?, htime]

/-- Whether or not a kind requires a configuration, one that is there is read. -/
theorem decode_encode {work : Work} {fields : Fields} (h : work.IsPlain)
    (hconfig : fields.get? "config" = some (work.encode naming)) :
    decode work.kind fields = .valid work := by
  cases work with
  | trigger => exact Decode.optional_of_get? hconfig (decode_trigger naming) _
  | externalAction action =>
      exact Decode.required_of_get? hconfig (decode_externalAction naming h)
  | aiAgent agent => exact Decode.required_of_get? hconfig (decode_aiAgent naming agent)
  | wait time => exact Decode.optional_of_get? hconfig (decode_wait naming time) _

end Work

theorem StepKind.ofName?_name (kind : StepKind) : ofName? kind.name = some kind := by
  cases kind <;> decide

theorem Step.decode_encode {step : Step} (h : step.work.IsPlain) :
    Step.decode (step.encode naming) = .valid step := by
  have hretry : Decode.nullable RetryPolicy.decode
      (.ofOption (RetryPolicy.encode naming) step.retry) = .valid step.retry :=
    Decode.nullable_ofOption fun policy _ => ⟨nofun, policy.decode_encode naming⟩
  simp [decode, encode, decodeAs, Step.kind, Value.record, Fields.named, Fields.get?, Table.find?,
    Decode.required, Decode.optional, Decode.present?, StepKind.ofName?_name,
    Decode.nullable_ofOption, hretry, Work.decode_encode naming h]

theorem Edge.decode_encode (edge : Edge) : Edge.decode edge.encode = .valid edge := rfl

theorem Definition.decode_encode {d : Definition} (h : ∀ step ∈ d.steps, step.work.IsPlain) :
    Definition.decode (d.encode naming) = .valid d := by
  have hsteps : Decode.list Step.decode (.list (d.steps.map (Step.encode naming))) =
      .valid d.steps :=
    Decode.list_encoded fun step hmem => step.decode_encode naming (h step hmem)
  have hedges : Decode.list Edge.decode (.list (d.edges.map Edge.encode)) = .valid d.edges :=
    Decode.list_encoded fun edge _ => edge.decode_encode
  simp [decode, encode, Value.record, Fields.named, Fields.get?, Table.find?, Decode.record,
    Decode.optional, Decode.present?, Decode.nullable_ofOption, hsteps, hedges]

/-! ### Writing a dump as JSON -/

theorem Json.areNative_map {α : Type} {encode : α → Value} {as : List α}
    (h : ∀ a ∈ as, Json.isNative (encode a) = true) : Json.areNative (as.map encode) = true := by
  induction as with
  | nil => rfl
  | cons a as ih =>
      rw [List.map_cons, Json.areNative, h a List.mem_cons_self,
        ih fun b hb => h b (List.mem_cons_of_mem a hb)]
      rfl

theorem Json.isNative_ofOption {α : Type} {encode : α → Value}
    (h : ∀ a, Json.isNative (encode a) = true) (o : Option α) :
    Json.isNative (.ofOption encode o) = true := by
  cases o with
  | none => rfl
  | some a => exact h a

theorem RetryPolicy.isNative_encode (policy : RetryPolicy) :
    Json.isNative (policy.encode naming) = true := by
  cases naming <;> rfl

theorem Work.isNative_encode {work : Work} (h : work.IsPlain) :
    Json.isNative (work.encode naming) = true := by
  cases work with
  | trigger => rfl
  | externalAction action =>
      have hparameters : Json.isNative (Value.map action.parameters).plain = true := by
        rw [Value.plain_of_isNative (.map action.parameters) h.1 h.2]
        exact h.1
      have hcredential : Json.isNative (.ofOption .str action.credentialId) = true :=
        Json.isNative_ofOption (fun _ => rfl) _
      cases naming <;>
        simp [encode, Value.record, Fields.named, Json.isNative, Json.haveNative, Table.keys,
          Naming.pick, hcredential, hparameters]
  | aiAgent agent =>
      have htools : Json.isNative (.strs agent.tools) = true :=
        Json.areNative_map fun _ _ => rfl
      have htext (o : Option String) : Json.isNative (.ofOption .str o) = true :=
        Json.isNative_ofOption (fun _ => rfl) o
      have htemperature : Json.isNative (.ofOption .float agent.temperature) = true :=
        Json.isNative_ofOption (fun _ => rfl) _
      have hiterations :
          Json.isNative (.ofOption (fun n => .int n.val) agent.maxIterations) = true :=
        Json.isNative_ofOption (fun _ => rfl) _
      cases naming <;>
        simp [encode, Value.record, Fields.named, Json.isNative, Json.haveNative, Table.keys,
          Naming.pick, htools, htext, htemperature, hiterations]
  | wait time =>
      have htime : Json.isNative (.ofOption WaitTime.encode time) = true :=
        Json.isNative_ofOption (fun written => by cases written <;> rfl) time
      simp [encode, Value.record, Fields.named, Json.isNative, Json.haveNative, Table.keys, htime]

theorem Step.isNative_encode {step : Step} (h : step.work.IsPlain) :
    Json.isNative (step.encode naming) = true := by
  have hlabel : Json.isNative (.ofOption .str step.label) = true :=
    Json.isNative_ofOption (fun _ => rfl) _
  have hretry : Json.isNative (.ofOption (RetryPolicy.encode naming) step.retry) = true :=
    Json.isNative_ofOption (RetryPolicy.isNative_encode naming) _
  simp [encode, Value.record, Fields.named, Json.isNative, Json.haveNative, Table.keys, hlabel,
    hretry, Work.isNative_encode naming h]

theorem Definition.isNative_encode {d : Definition} (h : ∀ step ∈ d.steps, step.work.IsPlain) :
    Json.isNative (d.encode naming) = true := by
  have hname : Json.isNative (.ofOption .str d.name) = true :=
    Json.isNative_ofOption (fun _ => rfl) _
  have hsteps : Json.areNative (d.steps.map (Step.encode naming)) = true :=
    Json.areNative_map fun step hmem => step.isNative_encode naming (h step hmem)
  have hedges : Json.areNative (d.edges.map Edge.encode) = true := Json.areNative_map fun _ _ => rfl
  simp [encode, Value.record, Fields.named, Json.isNative, Json.haveNative, Table.keys,
    hname, hsteps, hedges]

end Dump

/-! ### Parameters are taken over as they stand -/

namespace Json

theorem isFinite_of_mem {items : List Value} {item : Value} (h : areFinite items = true)
    (hmem : item ∈ items) : isFinite item = true := by
  induction items with
  | nil => cases hmem
  | cons first items ih =>
      rw [areFinite, Bool.and_eq_true] at h
      rcases List.mem_cons.mp hmem with rfl | hmem
      · exact h.1
      · exact ih h.2 hmem

theorem isFinite_of_mem_entries {entries : Fields} {key : Scalar} {v : Value}
    (h : haveFinite entries = true) (hmem : (key, v) ∈ entries) : isFinite v = true := by
  induction entries with
  | nil => cases hmem
  | cons entry entries ih =>
      rw [haveFinite, Bool.and_eq_true] at h
      rcases List.mem_cons.mp hmem with rfl | hmem
      · exact h.1
      · exact ih h.2 hmem

theorem isFinite_of_get? {fields : Fields} {name : String} {v : Value}
    (h : haveFinite fields = true) (hget : fields.get? name = some v) : isFinite v = true :=
  isFinite_of_mem_entries h (Table.mem_of_find?_eq_some hget)

end Json

theorem ExternalAction.isFinite_of_decode {v : Value} {work : Work}
    (hfinite : Json.isFinite v = true)
    (h : Work.decodeExternalActionConfig v = .valid work) :
    Json.isFinite (.map work.parameters) = true := by
  obtain ⟨fields, rfl, hdecode⟩ := Decode.exists_fields_of_record h
  obtain ⟨make, hmake, parameters, hparameters, rfl⟩ := Checked.seq_eq_valid_iff.mp hdecode
  obtain ⟨make', hmake', credentialId, -, rfl⟩ := Checked.seq_eq_valid_iff.mp hmake
  obtain ⟨make'', hmake'', actionId, -, rfl⟩ := Checked.seq_eq_valid_iff.mp hmake'
  obtain ⟨serviceId, -, rfl⟩ := Checked.map_eq_valid_iff.mp hmake''
  rcases Decode.exists_get?_of_optional hparameters with rfl | ⟨name, v, hget, hmapping⟩
  · rfl
  · rw [Work.parameters, ← Decode.eq_of_mapping_eq_valid hmapping]
    exact Json.isFinite_of_get? hfinite hget

/-- Work that was read is of the kind it was read as. -/
theorem Work.kind_of_decode (kind : StepKind) (fields : Fields) :
    (decode kind fields).Yields fun work => work.kind = kind := by
  cases kind with
  | trigger =>
      refine Decode.yields_optional ?_ (Decode.yields_record fun config => ?_) fields _
      · rfl
      · rintro work ⟨⟩
        rfl
  | externalAction =>
      refine Decode.yields_required (Decode.yields_record fun config => ?_) fields _
      iterate 3 refine Checked.Yields.seq ?_ _
      exact Checked.yields_map (fun _ _ _ _ => rfl) _
  | aiAgent =>
      refine Decode.yields_required (Decode.yields_record fun config => ?_) fields _
      iterate 7 refine Checked.Yields.seq ?_ _
      exact Checked.yields_map (fun _ _ _ _ _ _ _ _ => rfl) _
  | wait =>
      refine Decode.yields_optional ?_ (Decode.yields_record fun config => ?_) fields _
      · rfl
      · refine Checked.yields_map (fun _ => ?_) _
        rfl

theorem Work.isFinite_of_decode {kind : StepKind} {fields : Fields} {work : Work}
    (hfinite : Json.isFinite (.map fields) = true) (h : decode kind fields = .valid work) :
    Json.isFinite (.map work.parameters) = true := by
  have hkind := kind_of_decode kind fields work h
  cases work with
  | externalAction action =>
      obtain rfl : StepKind.externalAction = kind := hkind
      obtain ⟨name, v, hget, hread⟩ := Decode.exists_get?_of_required h
      exact ExternalAction.isFinite_of_decode (Json.isFinite_of_get? hfinite hget) hread
  | trigger | aiAgent _ | wait _ => rfl

theorem Step.isFinite_of_decode {v : Value} {step : Step} (hfinite : Json.isFinite v = true)
    (h : Step.decode v = .valid step) : Json.isFinite (.map step.work.parameters) = true := by
  unfold Step.decode at h
  split at h
  · split at h
    · cases h
    · dsimp only at h
      split at h
      · obtain ⟨make, hmake, work, hwork, rfl⟩ :=
          Checked.seq_eq_valid_iff.mp (Checked.within_eq_valid_iff.mp h)
        obtain ⟨make', hmake', retry, -, rfl⟩ := Checked.seq_eq_valid_iff.mp hmake
        obtain ⟨make'', hmake'', label, -, rfl⟩ := Checked.seq_eq_valid_iff.mp hmake'
        obtain ⟨id, -, rfl⟩ := Checked.map_eq_valid_iff.mp hmake''
        exact Work.isFinite_of_decode hfinite hwork
      · cases h
  · cases h

theorem Definition.isFinite_of_ofValue {v : Value} {d : Definition}
    (hfinite : Json.isFinite v = true) (h : Definition.ofValue v = .ok d) :
    ∀ step ∈ d.steps, Json.isFinite (.map step.work.parameters) = true := by
  obtain ⟨fields, rfl, hdecode⟩ :=
    Decode.exists_fields_of_record (Checked.toExcept_eq_ok_iff.mp h)
  obtain ⟨make, hmake, edges, -, rfl⟩ := Checked.seq_eq_valid_iff.mp hdecode
  obtain ⟨make', hmake', steps, hsteps, rfl⟩ := Checked.seq_eq_valid_iff.mp hmake
  obtain ⟨name, -, rfl⟩ := Checked.map_eq_valid_iff.mp hmake'
  rcases Decode.exists_get?_of_optional hsteps with rfl | ⟨key, v, hget, hlist⟩
  · exact nofun
  · obtain ⟨items, rfl, hitems⟩ := Decode.exists_item_of_list hlist
    intro step hmem
    obtain ⟨item, hitem, hread⟩ := hitems step hmem
    have hitems : Json.areFinite items = true := Json.isFinite_of_get? hfinite hget
    exact Step.isFinite_of_decode (Json.isFinite_of_mem hitems hitem) hread

/-! ### Dumping and reloading -/

/-- A definition that was read survives being dumped: the dump is read as the same definition, under
either naming, and so is what comes back after the dump was written as a JSON text. -/
theorem Definition.survives_dump {v : Value} {d : Definition} (hread : Definition.ofValue v = .ok d)
    (hfinite : Json.isFinite v = true) (hnative : d.HasNativeParameters) (naming : Naming) :
    Definition.ofValue (d.encode naming) = .ok d ∧
      (Engine.Blueprint.data (d.encode naming)).build = (Engine.Blueprint.data v).build ∧
      ∃ text dump, Json.encode Json.compact (d.encode naming) = .ok text ∧
        Json.parse? text = some dump ∧ Definition.ofValue dump = .ok d := by
  have hplain : ∀ step ∈ d.steps, step.work.IsPlain := fun step hmem =>
    ⟨hnative step hmem, isFinite_of_ofValue hfinite hread step hmem⟩
  have hreload : Definition.ofValue (d.encode naming) = .ok d :=
    Checked.toExcept_eq_ok_iff.mpr (decode_encode naming hplain)
  obtain ⟨text, hwrite, hparse⟩ := Json.encode_of_isNative (isNative_encode naming hplain)
  refine ⟨hreload, ?_, text, d.encode naming, hwrite, hparse, hreload⟩
  rw [Engine.Blueprint.build, Engine.Blueprint.build, hreload, hread]

/-- Steps of all kinds, with fields under either name, numbers given as texts, and a credential
under the last of its names. -/
def Definition.draft : Value :=
  .record
    [("name", .str "draft"),
      ("steps", .list
        [.record [("id", .str "start"), ("kind", .str "trigger")],
          .record
            [("id", .str "fetch"), ("label", .str ""), ("kind", .str "external_action"),
              ("retry", .record [("maxAttempts", .str "2"), ("backoff_base", .int 0)]),
              ("config", .record
                [("serviceId", .str "mail"), ("action_id", .str "list"),
                  ("credentialsId", .str "box"),
                  ("parameters", .record [("limit", .int 5), ("tags", .list [.null])])])],
          .record
            [("id", .str "sort"), ("kind", .str "ai_agent"),
              ("config", .record
                [("provider", .str "anthropic"), ("model", .str "m"), ("temperature", .str "0.5"),
                  ("maxIterations", .bool true), ("tools", .list [.str "fetch"])])],
          .record
            [("id", .str "pause"), ("kind", .str "wait"),
              ("config", .record [("duration", .str "5")])]]),
      ("edges", .list [.record [("source", .str "start"), ("target", .str "fetch")]])]

def Definition.drafted : Definition where
  name := some "draft"
  steps :=
    [{ id := "start", work := .trigger },
      { id := "fetch", label := some ""
        retry := some { maxAttempts := ⟨2, by decide⟩, backoffBase := ⟨0.0, by decide⟩ }
        work := .externalAction
          { serviceId := "mail", actionId := "list", credentialId := some "box"
            parameters := [(.str "limit", .int 5), (.str "tags", .list [.null])] } },
      { id := "sort"
        work := .aiAgent
          { provider := "anthropic", model := "m", temperature := some 0.5
            maxIterations := some ⟨1, by decide⟩, tools := ["fetch"] } },
      { id := "pause", work := .wait (some (.written "5")) }]
  edges := [{ source := "start", target := "fetch" }]

theorem Definition.ofValue_draft : ofValue draft = .ok drafted := by decide +kernel

theorem Definition.draft_survives_dump :
    ofValue draft = .ok drafted ∧ Json.isFinite draft = true ∧
      drafted.HasNativeParameters ∧
      ofValue (drafted.encode .camelCase) = .ok drafted ∧
      (Engine.Blueprint.data (drafted.encode .camelCase)).build =
        (Engine.Blueprint.data draft).build ∧
      ∃ text dump, Json.encode Json.compact (drafted.encode .camelCase) = .ok text ∧
        Json.parse? text = some dump ∧ ofValue dump = .ok drafted :=
  ⟨ofValue_draft, by decide, by decide,
    survives_dump ofValue_draft (by decide) (by decide) .camelCase⟩

end Workflow
