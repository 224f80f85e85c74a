import Workflow.Decimal.Binary
import Workflow.Definition
import Workflow.Failure

/-!
The delay before another attempt: a base to the power of the attempt, and a random share of the
jitter on top.
-/

namespace Workflow

/-- Integers are exact and unbounded; as soon as one operand is a float, so is the result. -/
inductive Number where
  | int (value : Int)
  | float (value : Float)
  deriving DecidableEq

inductive ArithmeticError where
  | zeroToNegativePower
  | overflow
  | integerTooLarge
  deriving DecidableEq

def ArithmeticError.failure : ArithmeticError → Failure
  | .zeroToNegativePower =>
    .fault "ZeroDivisionError" "0.0 cannot be raised to a negative power"
  | .overflow => .fault "OverflowError" "(34, 'Numerical result out of range')"
  | .integerTooLarge => .fault "OverflowError" "int too large to convert to float"

namespace Number

def toFloat : Number → Except ArithmeticError Float
  | .float x => .ok x
  | .int n =>
    let x := floatOfInt n
    if isFiniteFloat x then .ok x else .error .integerTooLarge

/-- An integer stays one when both operands are integers. -/
def combine (onInts : Int → Int → Int) (onFloats : Float → Float → Float) :
    Number → Number → Except ArithmeticError Number
  | .int a, .int b => .ok (.int (onInts a b))
  | a, b => do
    let x ← a.toFloat
    let y ← b.toFloat
    return .float (onFloats x y)

def add : Number → Number → Except ArithmeticError Number := combine (· + ·) (· + ·)

def mul : Number → Number → Except ArithmeticError Number := combine (· * ·) (· * ·)

def floatPower (x y : Float) : Except ArithmeticError Number :=
  let result := x.pow y
  if x == 0.0 ∧ y < 0.0 then .error .zeroToNegativePower
  else if isFiniteFloat x ∧ isFiniteFloat y ∧ !isFiniteFloat result then .error .overflow
  else .ok (.float result)

/-- An integer to the power of a natural number is exact. -/
def power (base exponent : Number) : Except ArithmeticError Number :=
  let inexact := do floatPower (← base.toFloat) (← exponent.toFloat)
  match base, exponent with
  | .int n, .int m => if 0 ≤ m then .ok (.int (n.pow m.toNat)) else inexact
  | _, _ => inexact

end Number

namespace Backoff

/-- `share` is drawn from the unit interval. -/
def delay (attempt base jitter share : Number) : Except ArithmeticError Number := do
  let power ← base.power attempt
  power.add (← (Number.int 0).add (← jitter.mul share))

/-- The seconds to wait after a failed attempt under a policy. -/
def seconds (policy : RetryPolicy) (attempt : Nat) (share : Float) :
    Except ArithmeticError Float := do
  let number ←
    delay (.int attempt) (.float policy.backoffBase) (.float policy.backoffJitter) (.float share)
  number.toFloat

end Backoff

end Workflow
