/-!
Floats as exact binary fractions, so that digits and roundings can be computed on integers.
-/

namespace Workflow

/-- The number `± mantissa * 2 ^ exponent`. -/
structure Binary where
  negative : Bool
  mantissa : Nat
  exponent : Int
  deriving DecidableEq, Repr

namespace Binary

/-- The exact value of a finite float; infinities and NaN have none. -/
def ofFloat? (x : Float) : Option Binary :=
  let bits := x.toBits.toNat
  let negative := bits / Nat.pow 2 63 = 1
  let exponent : Nat := bits / Nat.pow 2 52 % Nat.pow 2 11
  let fraction := bits % Nat.pow 2 52
  if exponent = 2047 then none
  else if exponent = 0 then some ⟨negative, fraction, -1074⟩
  else some ⟨negative, Nat.pow 2 52 + fraction, (exponent : Int) - 1075⟩

/-- Division to the nearest integer; a half goes to the even neighbour. -/
def roundDiv (num den : Nat) : Nat :=
  let quotient := num / den
  let twice := 2 * (num % den)
  if twice < den then quotient
  else if twice > den then quotient + 1
  else if quotient % 2 = 0 then quotient else quotient + 1

/-- The exponent of the float nearest to a positive `num / den`: the mantissa then has 53 bits, and
fewer only at the least exponent. -/
def exponentFor (num den : Nat) : Int :=
  let guess : Int := (num.log2 : Int) - den.log2 - 53
  let fits :=
    num * Nat.pow 2 (-guess).toNat < Nat.pow 2 53 * (den * Nat.pow 2 guess.toNat)
  max (if fits then guess else guess + 1) (-1074)

/-- The float nearest to a positive `num / den`; a half goes to the even neighbour, and numbers past
the largest float become infinite. The bits of the floats count up with their values, so a mantissa
that is rounded up to a power of two leads over to the next exponent. -/
def nearest (num den : Nat) : Float :=
  let exponent := exponentFor num den
  let mantissa :=
    roundDiv (num * Nat.pow 2 (-exponent).toNat) (den * Nat.pow 2 exponent.toNat)
  let bits := Nat.pow 2 52 * (exponent + 1074).toNat + mantissa
  Float.ofBits (UInt64.ofNat (min bits (2047 * Nat.pow 2 52)))

/-- The nearest integer to `scale * b`; a half goes to the even neighbour. -/
def round (scale : Nat) (b : Binary) : Int :=
  let magnitude :=
    if 0 ≤ b.exponent then scale * b.mantissa * Nat.pow 2 b.exponent.toNat
    else roundDiv (scale * b.mantissa) (Nat.pow 2 (-b.exponent).toNat)
  if b.negative then -magnitude else magnitude

/-- The value of `b` when it is an integer. -/
def toInt? (b : Binary) : Option Int :=
  let magnitude? :=
    if 0 ≤ b.exponent then some (b.mantissa * Nat.pow 2 b.exponent.toNat)
    else
      let den := Nat.pow 2 (-b.exponent).toNat
      if b.mantissa % den = 0 then some (b.mantissa / den) else none
  magnitude?.map fun n => if b.negative then -(n : Int) else n

end Binary

/-- The integer a float stands for, if it is whole. -/
def wholeValue? (x : Float) : Option Int :=
  (Binary.ofFloat? x).bind Binary.toInt?

/-- Whole microseconds of a time in seconds. -/
def microsOf (seconds : Float) : Int :=
  ((Binary.ofFloat? seconds).map (Binary.round 1000000)).getD 0

/-- The float nearest to an integer; infinite when there is no finite one. -/
def floatOfInt (n : Int) : Float :=
  if n = 0 then 0.0
  else
    let magnitude := Binary.nearest n.natAbs 1
    if n < 0 then -magnitude else magnitude

def isFiniteFloat (x : Float) : Bool := (Binary.ofFloat? x).isSome

end Workflow
