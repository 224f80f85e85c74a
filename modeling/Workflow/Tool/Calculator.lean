import Workflow.Validation.Record
import Workflow.Validation.Scalar

/-!
The calculator tool: one of four operations on two numbers.
-/

namespace Workflow

inductive Operation where
  | add
  | subtract
  | multiply
  | divide
  deriving DecidableEq, Repr

namespace Operation

def name : Operation → String
  | .add => "add"
  | .subtract => "subtract"
  | .multiply => "multiply"
  | .divide => "divide"

def all : List Operation := [.add, .subtract, .multiply, .divide]

def decode : Decoder Operation := fun value =>
  (Decode.literalText (all.map name) value).andThen fun text =>
    match all.find? (·.name == text) with
    | some operation => .valid operation
    | none => .problem (.notLiteral (all.map name))

end Operation

structure Calculation where
  operation : Operation
  a : Float
  b : Float

namespace Calculation

def decode : Decoder Calculation :=
  Decode.record "CalculatorArgs" fun fields =>
    Calculation.mk
      <$> Decode.required fields ["operation"] Operation.decode
      <*> Decode.required fields ["a"] Decode.number
      <*> Decode.required fields ["b"] Decode.number

/-- A whole number is written as an integer, with all its digits. -/
def numberText (x : Float) : String :=
  match wholeValue? x with
  | some n => toString n
  | none => Decimal.text x

/-- The text of the result; nothing for a division by zero. -/
def run? (c : Calculation) : Option String :=
  match c.operation with
  | .add => some (numberText (c.a + c.b))
  | .subtract => some (numberText (c.a - c.b))
  | .multiply => some (numberText (c.a * c.b))
  | .divide => if c.b == 0.0 then none else some (numberText (c.a / c.b))

end Calculation

end Workflow
