import Workflow.Proofs.Agent.Ending
import Workflow.Proofs.Table
import Workflow.Tool.Catalog

/-!
# Isolation of tools

A model may ask for any tool, with any arguments. What is run is, in the order of the requests, what
it asks for among the tools that were both chosen and known; requests for others run nothing and
count for nothing.
-/

namespace Workflow

namespace Catalog

/-- The built-in tools and some more. -/
def extended (added : List Tool) : Catalog := added.foldl add builtIn

/-- Every tool is kept under its own name. -/
def IsNamed (catalog : Catalog) : Prop :=
  ∀ name tool, Table.find? catalog name = some tool → tool.name = name

variable {catalog : Catalog}

theorem IsNamed.add (h : catalog.IsNamed) (tool : Tool) : (catalog.add tool).IsNamed := by
  intro name found hfind
  rw [Catalog.add, Table.find?_insert] at hfind
  by_cases heq : name = tool.name
  · rw [if_pos heq] at hfind
    exact Option.some.inj hfind ▸ heq.symm
  · rw [if_neg heq] at hfind
    exact h name found hfind

theorem isNamed_extended (added : List Tool) : (extended added).IsNamed := by
  have hfold (catalog : Catalog) (h : catalog.IsNamed) : (added.foldl add catalog).IsNamed := by
    induction added generalizing catalog with
    | nil => exact h
    | cons tool added ih => exact ih _ (h.add tool)
  have hempty : IsNamed [] := fun _ _ hfind => by simp [Table.find?] at hfind
  exact hfold builtIn ((hempty.add _).add _)

/-- The selected specs are those of the chosen tools that are known. -/
theorem any_select (h : catalog.IsNamed) (names : List String) (name : String) :
    (catalog.select names).any (·.name == name) =
      (decide (name ∈ names) && Table.contains catalog name) := by
  rw [Bool.eq_iff_iff, List.any_eq_true, Bool.and_eq_true, decide_eq_true_iff]
  constructor
  · rintro ⟨spec, hmem, hname⟩
    obtain ⟨chosen, hchosen, hspec⟩ := List.mem_filterMap.mp hmem
    obtain ⟨tool, hfind, rfl⟩ := Option.map_eq_some_iff.mp hspec
    have heq : chosen = name := (h chosen tool hfind).symm.trans (beq_iff_eq.mp hname)
    subst heq
    exact ⟨hchosen, Option.isSome_of_eq_some hfind⟩
  · rintro ⟨hchosen, hknown⟩
    obtain ⟨tool, hfind⟩ := Option.isSome_iff_exists.mp hknown
    refine ⟨tool.spec, List.mem_filterMap.mpr ⟨name, hchosen, by rw [hfind]; rfl⟩, ?_⟩
    exact beq_iff_eq.mpr (h name tool hfind)

/-- A known tool may refuse its arguments, but it is not called unknown. -/
theorem request_ne_unknown {name : String} (hknown : Table.contains catalog name)
    (arguments : Value) :
    catalog.request name arguments ≠ .error (.ofKind .toolError ("Unknown tool: " ++ name)) := by
  obtain ⟨tool, hfind⟩ := Option.isSome_iff_exists.mp hknown
  rw [request, hfind]
  dsimp only
  cases tool.accept arguments with
  | ok request => simp [Except.mapError]
  | error problem => simp [Except.mapError, Failure.ofKind]

end Catalog

namespace Agent

open Exchange

/-- The requests of the model for chosen tools that are known, with their arguments, in their
order. -/
def requestsFor (catalog : Catalog) (names : List String) (exchanges : List Exchange) :
    List (String × Fields) :=
  (((modelReplies exchanges).flatMap (·.toolCalls)).map fun call =>
    (call.name, call.arguments)).filter fun request =>
      decide (request.1 ∈ names) && Table.contains catalog request.1

/-- Why not all of some requests were served: as many tools were run as may be, or the last one
failed and the failure was not its own. -/
inductive CutOff (limits : Limits) (requests : List (String × Fields))
    (dialogue : Dialogue Ending) : Prop
  | limit {limit : Int} (hlimit : limits.maxToolCalls = some limit)
    (hfull : (toolRuns dialogue.exchanges).length = limit.toNat)
    (hmore : (toolRuns dialogue.exchanges).length < requests.length)
    (hvalue : dialogue.value = ⟨.error (toolLimit limit), .failed⟩)
  | escape {name : String} {arguments : Fields} {failure : Failure}
    (hlast : dialogue.exchanges.getLast? =
      some (.answered (.tool name arguments) (.error failure)))
    (hescapes : ¬ IsToolError failure)
    (hvalue : dialogue.value = ⟨.error failure, .awaitingTool⟩)

theorem requested_eq_requestsFor {catalog : Catalog} (hnamed : catalog.IsNamed) (task : Task)
    (names : List String) (exchanges : List Exchange) :
    requested { task with tools := catalog.select names } exchanges =
      requestsFor catalog names exchanges := by
  rw [requested, wanted, requestsFor, List.filter_map]
  congr 1
  refine List.filter_congr fun call _ => ?_
  exact Catalog.any_select hnamed names call.name

theorem mem_requestsFor {catalog : Catalog} {names : List String} {exchanges : List Exchange}
    {request : String × Fields} (hmem : request ∈ requestsFor catalog names exchanges) :
    request.1 ∈ names ∧ Table.contains catalog request.1 := by
  simpa using (List.mem_filter.mp hmem).2

/-- A conversation serves all requests for enabled tools, unless it is cut off. -/
theorem served_or_cutOff (limits : Limits) (task : Task) (world : World)
    (before : List Exchange) :
    let dialogue := (run limits task).dialogue world before
    toolRuns dialogue.exchanges = requested task dialogue.exchanges ∧
        (∀ result, dialogue.value.result = .ok result →
          result.toolCalls = (toolRuns dialogue.exchanges).length) ∨
      (∀ result, dialogue.value.result ≠ .ok result) ∧
        CutOff limits (requested task dialogue.exchanges) dialogue := by
  intro dialogue
  have hconversation := conversation_run limits task world before
  change Conversation limits task [] 0 _ dialogue.exchanges dialogue.value at hconversation
  have hfinish := hconversation.finish
  have hle (limit : Int) (hlimit : limits.maxToolCalls = some limit) :=
    hconversation.used_le hlimit
  clear hconversation
  obtain ⟨exchanges, ending⟩ := dialogue
  dsimp only at hfinish hle ⊢
  cases hfinish with
  | exhausted hasked hasks hserved => exact .inl ⟨hserved.runs, nofun⟩
  | failed hfailed hasks hserved => exact .inl ⟨hserved.runs, nofun⟩
  | answered later hfinal hreplies hlast hserved =>
      refine .inl ⟨hserved.runs, fun result hresult => ?_⟩
      cases hresult
      exact Nat.zero_add _
  | limited hlimit hreached hasks hmore hanswer =>
      -- The limit was reached, and no more tools are run than it allows.
      refine .inr ⟨nofun, .limit hlimit ?_ hmore rfl⟩
      have hmost := hle _ hlimit
      dsimp only
      omega
  | escaped hlast hescapes hasks =>
      exact .inr ⟨nofun, .escape hlast hescapes rfl⟩

/-- Tools are isolated: only tools that were chosen and are known are run, and they are run as the
model asks for them, up to where the tool limit or a failure ends the conversation. -/
theorem tools_are_isolated (limits : Limits) (task : Task) (names : List String)
    (added : List Tool) (world : World) (before : List Exchange) :
    let catalog := Catalog.extended added
    let dialogue := (run limits { task with tools := catalog.select names }).dialogue world before
    let runs := toolRuns dialogue.exchanges
    let requests := requestsFor catalog names dialogue.exchanges
    (∀ name arguments, (name, arguments) ∈ runs → name ∈ names ∧ Table.contains catalog name ∧
      catalog.request name (.map arguments) ≠
        .error (.ofKind .toolError ("Unknown tool: " ++ name))) ∧
    runs <+: requests ∧ (runs = requests ∨ CutOff limits requests dialogue) ∧
    ∀ result, dialogue.value.result = .ok result →
      runs = requests ∧ result.toolCalls = runs.length := by
  intro catalog dialogue runs requests
  have hconversation := conversation_run limits { task with tools := catalog.select names } world
    before
  have hrequested := requested_eq_requestsFor (Catalog.isNamed_extended added) task names
    dialogue.exchanges
  have hserves : runs <+: requests := by
    have hruns := hconversation.toolRuns_isPrefix
    rwa [hrequested] at hruns
  refine ⟨fun name arguments hmem => ?_, hserves, ?_⟩
  · obtain ⟨hchosen, hknown⟩ := mem_requestsFor (hserves.subset hmem)
    exact ⟨hchosen, hknown, Catalog.request_ne_unknown hknown _⟩
  · rcases served_or_cutOff limits { task with tools := catalog.select names } world before with
      ⟨hserved, hcount⟩ | ⟨hfails, hcut⟩
    · rw [hrequested] at hserved
      exact ⟨.inl hserved, fun result hresult => ⟨hserved, hcount result hresult⟩⟩
    · rw [hrequested] at hcut
      exact ⟨.inr hcut, fun result hresult => absurd hresult (hfails result)⟩

end Agent

end Workflow
