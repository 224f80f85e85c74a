import Workflow.Definition
import Workflow.Failure

/-!
Graphs: definitions that can be run. Step ids are unique, edges join two different steps, there is
no cycle, and exactly one step is a trigger. `Graph.ofDefinition` finds the first reason why a
definition is none.
-/

namespace Workflow

inductive GraphError where
  | duplicateStep (id : String)
  | unknownStep (edge : Edge) (id : String)
  | selfEdge (id : String)
  | cycle (ids : List String)
  | triggerCount (count : Nat)
  deriving DecidableEq

namespace GraphError

def kind : GraphError → FailureKind
  | .triggerCount _ => .missingTrigger
  | _ => .invalidGraph

def message : GraphError → String
  | .duplicateStep id => "Duplicate step id: " ++ id
  | .unknownStep edge id =>
    "Edge " ++ edge.source ++ " -> " ++ edge.target ++ " references unknown step " ++ id
  | .selfEdge id => "Self-edge on step " ++ id
  | .cycle ids => "Workflow graph contains a cycle through: " ++ Text.join ", " ids
  | .triggerCount count =>
    "Workflow must have exactly one trigger step, found " ++ toString count

def failure (e : GraphError) : Failure := .ofKind e.kind e.message

end GraphError

/-- Texts in the order of their code points. -/
def sorted (texts : List String) : List String := texts.mergeSort fun a b => decide (a ≤ b)

/-- The first element that repeats an earlier one. -/
def firstRepeated? (seen : List String) : List String → Option String
  | [] => none
  | id :: ids => if id ∈ seen then some id else firstRepeated? (id :: seen) ids

namespace Definition

variable (d : Definition)

/-- Edges into a step, as declared. -/
def incomingEdges (id : String) : List Edge := d.edges.filter (·.target = id)

def outgoingEdges (id : String) : List Edge := d.edges.filter (·.source = id)

/-- The distinct parents of a step, ordered by first incoming edge. -/
def parents (id : String) : List String := distinct ((d.incomingEdges id).map (·.source))

/-- The distinct children of a step, ordered by first outgoing edge. -/
def children (id : String) : List String := distinct ((d.outgoingEdges id).map (·.target))

def triggers : List Step := d.steps.filter (·.kind = .trigger)

/-- An edge joins two different steps. -/
def IsSound (e : Edge) : Prop := e.source ∈ d.stepIds ∧ e.target ∈ d.stepIds ∧ e.source ≠ e.target

instance (e : Edge) : Decidable (d.IsSound e) := by
  unfold IsSound; infer_instance

def edgeError (e : Edge) : GraphError :=
  if e.source ∉ d.stepIds then .unknownStep e e.source
  else if e.target ∉ d.stepIds then .unknownStep e e.target
  else .selfEdge e.source

/-- For each step, the number of its parents. -/
def parentCounts : Table String Nat := d.stepIds.map fun id => (id, (d.parents id).length)

end Definition

/-- Each of some steps waits for one parent less. Returns those that now wait for none. -/
def release (waits : Table String Nat) : List String → Table String Nat × List String
  | [] => (waits, [])
  | id :: ids =>
    match Table.find? waits id with
    | some (count + 1) =>
      let (waits, released) := release (Table.insert waits id count) ids
      (waits, if count = 0 then id :: released else released)
    | _ => release waits ids

/-- What all steps together wait for. -/
def waitCount : Table String Nat → Nat
  | [] => 0
  | entry :: waits => entry.2 + waitCount waits

theorem waitCount_insert {waits : Table String Nat} {id : String} {count : Nat}
    (hcount : Table.find? waits id = some count) (count' : Nat) :
    waitCount (Table.insert waits id count') + count = waitCount waits + count' := by
  induction waits with
  | nil => cases hcount
  | cons entry waits ih =>
      by_cases heq : entry.1 = id
      · rw [Table.find?, if_pos heq, Option.some.injEq] at hcount
        simp only [Table.insert, heq, if_true, waitCount]
        omega
      · rw [Table.find?, if_neg heq] at hcount
        have hrest := ih hcount
        simp only [Table.insert, heq, if_false, waitCount]
        omega

/-- Every step that is released was waited for at least once. -/
theorem waitCount_release_le (waits : Table String Nat) (ids : List String) :
    waitCount (release waits ids).1 + (release waits ids).2.length ≤ waitCount waits := by
  induction ids generalizing waits with
  | nil => simp [release]
  | cons id ids ih =>
      rw [release]
      split
      · rename_i count hcount
        have hsum := waitCount_insert hcount count
        have hrest := ih (Table.insert waits id count)
        dsimp only
        split
        · rw [List.length_cons]
          omega
        · omega
      · exact ih waits

namespace Definition

variable (d : Definition)

/-- Takes steps off the front of `queue` and counts them. Their children wait for one parent less,
and go to the end of the queue when they wait for none. Returns what the steps wait for in the end,
and the number of those that were taken. -/
def visit (queue : List String) (waits : Table String Nat) (visited : Nat) :
    Table String Nat × Nat :=
  match queue with
  | [] => (waits, visited)
  | id :: queue =>
    visit (queue ++ (release waits (d.children id)).2) (release waits (d.children id)).1
      (visited + 1)
termination_by waitCount waits + queue.length
decreasing_by
  have hsum := waitCount_release_le waits (d.children id)
  simp only [List.length_append, List.length_cons]
  omega

/-- All steps, each after its parents as far as that is possible. -/
def visitAll : Table String Nat × Nat :=
  d.visit ((d.parentCounts.filter (·.2 = 0)).map (·.1)) d.parentCounts 0

/-- Every step is taken at some time. -/
def IsAcyclic : Prop := d.visitAll.2 = d.stepIds.length

instance : Decidable d.IsAcyclic := inferInstanceAs (Decidable (_ = _))

/-- The steps that can never start because they wait, directly or not, on a cycle. -/
def cyclicSteps : List String := (d.visitAll.1.filter (0 < ·.2)).map (·.1)

end Definition

structure Graph where
  definition : Definition
  trigger : Step
  nodup : definition.stepIds.Nodup
  sound : ∀ e ∈ definition.edges, definition.IsSound e
  acyclic : definition.IsAcyclic
  triggers_eq : definition.triggers = [trigger]

namespace Graph

def ofDefinition (d : Definition) : Except GraphError Graph :=
  if nodup : d.stepIds.Nodup then
    if sound : ∀ e ∈ d.edges, d.IsSound e then
      if acyclic : d.IsAcyclic then
        match triggers_eq : d.triggers with
        | [trigger] => .ok ⟨d, trigger, nodup, sound, acyclic, triggers_eq⟩
        | triggers => .error (.triggerCount triggers.length)
      else .error (.cycle (sorted d.cyclicSteps))
    else
      match d.edges.find? fun e => !decide (d.IsSound e) with
      | some e => .error (d.edgeError e)
      | none => .error (.selfEdge "")
  else .error (.duplicateStep ((firstRepeated? [] d.stepIds).getD ""))

variable (g : Graph)

def steps : List Step := g.definition.steps

def ids : List String := g.definition.stepIds

def contains (id : String) : Bool := g.ids.contains id

def step? (id : String) : Option Step := g.steps.find? (·.id = id)

def step (id : String) : Except Failure Step :=
  match g.step? id with
  | some step => .ok step
  | none => .error (.notFound ("Unknown step: " ++ id))

def incomingEdges (id : String) : List Edge := g.definition.incomingEdges id

def parents (id : String) : List String := g.definition.parents id

def children (id : String) : List String := g.definition.children id

/-- Steps other than the trigger that nothing leads to; they never become ready. -/
def orphans : List String :=
  g.ids.filter fun id => (g.incomingEdges id).isEmpty && id ≠ g.trigger.id

/-- The credentials that steps refer to, in step order. -/
def credentialIds : List String := distinct (g.steps.filterMap Step.credentialId?)

def display (id : String) : String := ((g.step? id).map Step.displayName).getD id

end Graph

end Workflow
