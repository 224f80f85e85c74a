import Workflow.Text.Literal

/-!
Checked data: a decoder turns a value into typed data or reports every problem it finds, each with
its place. `Checked` is applicative, so the parts of a record are all examined; a problem in one
part does not hide the problems of the next.
-/

namespace Workflow

/-- One component of the path from the root of a value to a part of it. -/
inductive Place where
  | field (name : String)
  | item (index : Int)
  deriving DecidableEq

inductive Problem where
  | missing
  | notRecord (model : String)
  | notTagged
  | noTag (discriminator : String)
  | unknownTag (tag discriminator : String) (expected : List String)
  | notText
  | notList
  | notMapping
  | notInteger
  | unreadableInteger
  | fractionalInteger
  | oversizedInteger
  | notFinite
  | notNumber
  | unreadableNumber
  | notBoolean
  | unreadableBoolean
  | notLiteral (expected : List String)
  | notMember (expected : List String)
  | tooSmall (bound : Nat)
  | notAbove (bound : Nat)
  deriving DecidableEq

structure Detail where
  problem : Problem
  place : List Place
  deriving DecidableEq

/-- The problems found in data for `model`. -/
structure ValidationError where
  model : String
  first : Detail
  rest : List Detail
  deriving DecidableEq

def ValidationError.details (e : ValidationError) : List Detail := e.first :: e.rest

namespace Problem

/-- Choices in quotes, the last two joined by `or`. -/
def alternatives (choices : List String) : String :=
  let quoted := choices.map fun choice => "'" ++ choice ++ "'"
  match quoted.reverse with
  | [] => ""
  | [only] => only
  | last :: before => Text.join ", " before.reverse ++ " or " ++ last

def code : Problem → String
  | .missing => "missing"
  | .notRecord _ => "model_type"
  | .notTagged => "model_attributes_type"
  | .noTag _ => "union_tag_not_found"
  | .unknownTag .. => "union_tag_invalid"
  | .notText => "string_type"
  | .notList => "list_type"
  | .notMapping => "dict_type"
  | .notInteger => "int_type"
  | .unreadableInteger => "int_parsing"
  | .fractionalInteger => "int_from_float"
  | .oversizedInteger => "int_parsing_size"
  | .notFinite => "finite_number"
  | .notNumber => "float_type"
  | .unreadableNumber => "float_parsing"
  | .notBoolean => "bool_type"
  | .unreadableBoolean => "bool_parsing"
  | .notLiteral _ => "literal_error"
  | .notMember _ => "enum"
  | .tooSmall _ => "greater_than_equal"
  | .notAbove _ => "greater_than"

def message : Problem → String
  | .missing => "Field required"
  | .notRecord model => "Input should be a valid dictionary or instance of " ++ model
  | .notTagged => "Input should be a valid dictionary or object to extract fields from"
  | .noTag discriminator => "Unable to extract tag using discriminator '" ++ discriminator ++ "'"
  | .unknownTag tag discriminator expected =>
    "Input tag '" ++ tag ++ "' found using '" ++ discriminator ++
      "' does not match any of the expected tags: " ++
      Text.join ", " (expected.map fun choice => "'" ++ choice ++ "'")
  | .notText => "Input should be a valid string"
  | .notList => "Input should be a valid list"
  | .notMapping => "Input should be a valid dictionary"
  | .notInteger => "Input should be a valid integer"
  | .unreadableInteger => "Input should be a valid integer, unable to parse string as an integer"
  | .fractionalInteger => "Input should be a valid integer, got a number with a fractional part"
  | .oversizedInteger => "Unable to parse input string as an integer, exceeded maximum size"
  | .notFinite => "Input should be a finite number"
  | .notNumber => "Input should be a valid number"
  | .unreadableNumber => "Input should be a valid number, unable to parse string as a number"
  | .notBoolean => "Input should be a valid boolean"
  | .unreadableBoolean => "Input should be a valid boolean, unable to interpret input"
  | .notLiteral expected => "Input should be " ++ alternatives expected
  | .notMember expected => "Input should be " ++ alternatives expected
  | .tooSmall bound => "Input should be greater than or equal to " ++ toString bound
  | .notAbove bound => "Input should be greater than " ++ toString bound

end Problem

/-- Typed data, or at least one problem. -/
inductive Checked (α : Type) where
  | valid (value : α)
  | invalid (first : Detail) (rest : List Detail)

namespace Checked

variable {α β : Type}

def problem (p : Problem) : Checked α := .invalid ⟨p, []⟩ []

def map (f : α → β) : Checked α → Checked β
  | .valid a => .valid (f a)
  | .invalid first rest => .invalid first rest

/-- Problems of both sides are kept, those of the left first. -/
def apply : Checked (α → β) → Checked α → Checked β
  | .valid f, .valid a => .valid (f a)
  | .valid _, .invalid first rest => .invalid first rest
  | .invalid first rest, .valid _ => .invalid first rest
  | .invalid first rest, .invalid first' rest' => .invalid first (rest ++ first' :: rest')

instance : Applicative Checked where
  pure := .valid
  map := map
  seq f a := apply f (a ())

/-- A further test of data that is valid so far. -/
def andThen (f : α → Checked β) : Checked α → Checked β
  | .valid a => f a
  | .invalid first rest => .invalid first rest

/-- The same problems, seen from one level further up. -/
def within (place : Place) : Checked α → Checked α
  | .valid a => .valid a
  | .invalid first rest =>
    let deepen (d : Detail) : Detail := { d with place := place :: d.place }
    .invalid (deepen first) (rest.map deepen)

def collect : List (Checked α) → Checked (List α)
  | [] => .valid []
  | c :: cs => apply (map List.cons c) (collect cs)

def toExcept (model : String) : Checked α → Except ValidationError α
  | .valid a => .ok a
  | .invalid first rest => .error ⟨model, first, rest⟩

end Checked

abbrev Decoder (α : Type) := Value → Checked α

end Workflow
