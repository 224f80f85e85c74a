import Workflow.Failure

/-!
Mappings that are given as lists of pairs.
-/

namespace Workflow.Pairs

/-- The two parts of an entry that is given as a pair. -/
def pairOf (index : Nat) (item : Value) : Except Failure (Value × Value) :=
  let ofParts (parts : List Value) : Except Failure (Value × Value) :=
    match parts with
    | [a, b] => .ok (a, b)
    | _ =>
      .error (.wrongValue ("dictionary update sequence element #" ++ toString index ++
        " has length " ++ toString parts.length ++ "; 2 is required"))
  match item with
  | .str s => ofParts (s.toList.map fun c => .str (String.singleton c))
  | .list parts => ofParts parts
  | .map entries => ofParts (entries.map fun entry => .scalar entry.1)
  | .scalar _ =>
    .error (.wrongType ("cannot convert dictionary update sequence element #" ++ toString index ++
      " to a sequence"))

def pairsFrom (index : Nat) : List Value → Except Failure (List (Value × Value))
  | [] => .ok []
  | item :: rest => do
    let pair ← pairOf index item
    return pair :: (← pairsFrom (index + 1) rest)

/-- The entries of a mapping, or of a list of pairs. -/
def entriesOf (value : Value) : Except Failure Fields :=
  let collect (items : List Value) : Except Failure Fields := do
    let pairs ← pairsFrom 0 items
    let entries ← pairs.mapM fun
      | (.scalar key, value) => .ok (key, value)
      | _ => .error (.wrongType "unhashable type")
    return Table.ofEntries entries
  if !value.isTruthy then .ok []
  else match value with
    | .map entries => .ok entries
    | .list items => collect items
    | .str s => collect (s.toList.map fun c => .str (String.singleton c))
    | .scalar _ => .error (.wrongType "object is not iterable")

end Workflow.Pairs
