import Workflow.Value

/-!
What a step receives from its parents: the entries of all results that are mappings. A later parent
wins on a key that several of them hold; the keys stay in order of first occurrence.
-/

namespace Workflow.Incoming

/-- The entries a result contributes. -/
def entries : Value → Fields
  | .map entries => entries
  | _ => []

def merge (results : List Value) : Fields :=
  results.foldl (fun merged result => merged.insertAll (entries result)) []

end Workflow.Incoming
