import Workflow.Yaml.Node
import Workflow.Yaml.Resolution

/-!
Values from YAML documents. Keys have to be scalars, and numbers that are equal are the same key;
of repeated keys the last value wins. The key `<<` takes over the entries of other mappings, which
the mapping's own entries override.
-/

namespace Workflow.Yaml

open Resolution (malformed)

/-- Numbers are compared by value, except that what is no number is itself; moments that carry an
offset are compared as points in time. -/
def sameKey (a b : Scalar) : Bool :=
  let number? : Scalar → Option Float
    | .bool b => some (if b then 1.0 else 0.0)
    | .int n => some (floatOfInt n)
    | .float x => some x
    | _ => none
  match a, b with
  | .int m, .int n => m == n
  | .moment m, .moment n =>
    if m.offset.isSome && n.offset.isSome then m.instant == n.instant else m == n
  | a, b =>
    match number? a, number? b with
    | some x, some y => x == y || (x.isNaN && y.isNaN)
    | none, none => a == b
    | _, _ => false

def insertKey (entries : Fields) (key : Scalar) (value : Value) : Fields :=
  match entries with
  | [] => [(key, value)]
  | (k, v) :: rest =>
    if sameKey k key then (k, value) :: rest else (k, v) :: insertKey rest key value

def collapse (entries : List (Scalar × Value)) : Fields :=
  entries.foldl (fun fields entry => insertKey fields entry.1 entry.2) []

def standard (name : String) : Option String := some ("tag:yaml.org,2002:" ++ name)

/-- The kind of a scalar that has a tag. -/
def taggedKind? (tag : Option String) : Option ScalarKind :=
  let kinds : List (String × ScalarKind) :=
    [("null", .null), ("bool", .bool), ("int", .int), ("float", .float),
      ("timestamp", .timestamp), ("str", .text), ("binary", .binary), ("merge", .merge),
      ("value", .default)]
  (kinds.find? fun kind => standard kind.1 = tag).map (·.2)

def scalarKind? (tag : Option String) (text : String) (isPlain : Bool) : Option ScalarKind :=
  match tag with
  | none => some (if isPlain then Resolution.plainKind text else .text)
  | tag => taggedKind? tag

/-- What the key of an entry is. -/
inductive KeyRole where
  | merge
  | key (value : Scalar)

def keyRole (key : Node) : Except Failure KeyRole :=
  match key with
  | .scalar tag text isPlain =>
    match scalarKind? tag text isPlain with
    | none => .error malformed
    | some .merge => .ok .merge
    | some .default => .ok (.key (.str text))
    | some kind =>
      match Resolution.construct kind text with
      | .ok (.scalar s) => .ok (.key s)
      | .ok _ => .error malformed
      | .error e => .error e
  | _ => .error malformed

/-- The entry of a list of entries that is a mapping of one entry. -/
def singleEntry? : Value → Option Value
  | .map [(key, value)] => some (.list [.scalar key, value])
  | _ => none

mutual

def construct : Node → Except Failure Value
  | .scalar tag text isPlain =>
    match scalarKind? tag text isPlain with
    | some kind => Resolution.construct kind text
    | none => .error malformed
  | .sequence tag items => do
    let values ← constructItems items
    if tag = none ∨ tag = standard "seq" then return .list values
    else if tag = standard "omap" ∨ tag = standard "pairs" then
      match values.mapM singleEntry? with
      | some entries => return .list entries
      | none => throw malformed
    else throw malformed
  | .mapping tag entries => do
    let (merged, own) ← constructEntries entries
    let fields := collapse (merged ++ own)
    if tag = none ∨ tag = standard "map" then return .map fields
    else if tag = standard "set" then return .list (fields.map fun entry => .scalar entry.1)
    else throw malformed

def constructItems : List Node → Except Failure (List Value)
  | [] => .ok []
  | item :: rest => do
    let value ← construct item
    return value :: (← constructItems rest)

/-- The entries taken over from other mappings, and those of the mapping itself. -/
def constructEntries : List (Node × Node) →
    Except Failure (List (Scalar × Value) × List (Scalar × Value))
  | [] => .ok ([], [])
  | (key, value) :: rest => do
    match ← keyRole key with
    | .merge =>
      let taken ← takenOver value
      let (merged, own) ← constructEntries rest
      return (taken ++ merged, own)
    | .key k =>
      let v ← construct value
      let (merged, own) ← constructEntries rest
      return (merged, (k, v) :: own)

/-- The entries of a mapping, or of a sequence of mappings of which the first one wins. -/
def takenOver : Node → Except Failure (List (Scalar × Value))
  | .mapping _ entries => do
    let (merged, own) ← constructEntries entries
    return merged ++ own
  | .sequence _ items => takenOverAll items
  | .scalar .. => .error malformed

def takenOverAll : List Node → Except Failure (List (Scalar × Value))
  | [] => .ok []
  | .mapping _ entries :: rest => do
    let (merged, own) ← constructEntries entries
    return (← takenOverAll rest) ++ merged ++ own
  | _ :: _ => .error malformed

end

/-- The value of the document in a text; nothing when the text holds none. -/
def load (text : String) : Except Failure (Option Value) :=
  match (Token.ofText? text).bind Node.ofTokens? with
  | none => .error malformed
  | some none => .ok none
  | some (some node) => (construct node).map some

end Workflow.Yaml
