import Workflow.Decimal.Binary

/-!
The shortest decimal that reads back as a given float.

A float owns the interval of reals that round to it. For one digit, two digits, and so on, the two
neighbours of the float on the decimal grid with that many digits are tested against the interval;
the first grid with a hit wins, and of two hits the nearer.
-/

namespace Workflow.Decimal

/-- The number `digits * 10 ^ exponent`. -/
structure Scaled where
  digits : Nat
  exponent : Int
  deriving DecidableEq, Repr

/-- The interval of a float over a common denominator: its ends, and whether they belong to it. -/
structure Interval where
  low : Nat
  value : Nat
  high : Nat
  denominator : Nat
  closed : Bool

/-- The interval reaches half way to each neighbour; below a power of two they are closer. -/
def Interval.ofBinary (b : Binary) : Interval :=
  let onPower := b.mantissa = Nat.pow 2 52 ∧ b.exponent ≠ -1074
  let scale := if 2 ≤ b.exponent then Nat.pow 2 (b.exponent - 2).toNat else 1
  { low := (4 * b.mantissa - (if onPower then 1 else 2)) * scale
    value := 4 * b.mantissa * scale
    high := (4 * b.mantissa + 2) * scale
    denominator := if 2 ≤ b.exponent then 1 else Nat.pow 2 (2 - b.exponent).toNat
    closed := b.mantissa % 2 = 0 }

def Interval.holds (i : Interval) (num factor : Nat) : Bool :=
  if i.closed then i.low * factor ≤ num && num ≤ i.high * factor
  else i.low * factor < num && num < i.high * factor

/-- The number of decimal digits before the point; zero or negative for small values. -/
def Interval.magnitude (i : Interval) : Int :=
  let guess : Int := (toString i.value).length - (toString i.denominator).length
  let below (p : Int) : Bool :=
    if 0 ≤ p then i.value < i.denominator * Nat.pow 10 p.toNat
    else i.value * Nat.pow 10 (-p).toNat < i.denominator
  if below guess then guess else guess + 1

/-- The better of the two neighbours on the grid of multiples of `10 ^ exponent`. -/
def Interval.onGrid? (i : Interval) (exponent : Int) : Option Nat :=
  let factor := Nat.pow 10 (-exponent).toNat
  let unit := i.denominator * Nat.pow 10 exponent.toNat
  let lower := i.value * factor / unit
  let below := i.value * factor - lower * unit
  let above := (lower + 1) * unit - i.value * factor
  match i.holds (lower * unit) factor, i.holds ((lower + 1) * unit) factor with
  | true, false => some lower
  | false, true => some (lower + 1)
  | true, true =>
    if below < above then some lower
    else if above < below then some (lower + 1)
    else if lower % 2 = 0 then some lower else some (lower + 1)
  | false, false => none

def Interval.search (i : Interval) (magnitude : Int) : Nat → Nat → Scaled
  | 0, count => ⟨(i.onGrid? (magnitude - count)).getD 0, magnitude - count⟩
  | more + 1, count =>
    match i.onGrid? (magnitude - count) with
    | some digits => ⟨digits, magnitude - count⟩
    | none => i.search magnitude more (count + 1)

/-- Trailing zeros move into the exponent. -/
def Scaled.trim (s : Scaled) : Nat → Scaled
  | 0 => s
  | n + 1 =>
    if s.digits ≠ 0 ∧ s.digits % 10 = 0 then
      Scaled.trim ⟨s.digits / 10, s.exponent + 1⟩ n
    else s

/-- Seventeen digits always suffice. -/
def shortest (b : Binary) : Scaled :=
  if b.mantissa = 0 then ⟨0, 0⟩
  else
    let i := Interval.ofBinary b
    (i.search i.magnitude 16 1).trim 18

end Workflow.Decimal
