import Workflow.Text.Case
import Workflow.Validation

/-!
Lenient decoders for scalars: a number may be given as a text, a whole float as an integer, and a
boolean as zero or one.
-/

namespace Workflow.Decode

def text : Decoder String
  | .str s => .valid s
  | _ => .problem .notText

def literalText (choices : List String) : Decoder String
  | .str s => if s ∈ choices then .valid s else .problem (.notLiteral choices)
  | _ => .problem (.notLiteral choices)

def isDigit (c : Char) : Bool := '0' ≤ c && c ≤ '9'

/-- Underscores may stand between other characters, one at a time. -/
def withoutUnderscores? (cs : List Char) : Option (List Char) :=
  let parts := Text.splitOn '_' cs
  if parts.any (·.isEmpty) then none else some parts.flatten

/-- The sign of a number, and what follows it. -/
def splitSign : List Char → Bool × List Char
  | '-' :: rest => (true, rest)
  | '+' :: rest => (false, rest)
  | cs => (false, cs)

def digitsToNat (cs : List Char) : Nat := Decimal.ofDigits (cs.map (·.toNat - 48))

/-- A point and at least one zero may follow the digits of an integer. -/
def withoutZeroFraction (cs : List Char) : List Char :=
  let fraction := (cs.dropWhile (· ≠ '.')).drop 1
  if !fraction.isEmpty && fraction.all (· = '0') then cs.takeWhile (· ≠ '.') else cs

def readInteger? (s : String) : Option Int := do
  let cs ← withoutUnderscores? (withoutZeroFraction (Text.trimBy Text.isWhite s.toList))
  let (negative, digits) := splitSign cs
  if digits.isEmpty || !digits.all isDigit then none
  else
    let n : Int := digitsToNat digits
    some (if negative then -n else n)

/-- Whether a number is one of 64 bits, the first of which is a sign. -/
def fitsWord (n : Int) : Bool := -Int.pow 2 63 ≤ n && n < Int.pow 2 63

/-- Whole floats are integers as long as they fit into 64 bits. -/
def integerOfFloat (x : Float) : Checked Int :=
  if !isFiniteFloat x then .problem .notFinite
  else match wholeValue? x with
    | none => .problem .fractionalInteger
    | some n => if n.natAbs < Nat.pow 2 63 then .valid n else .problem .oversizedInteger

def integer : Decoder Int
  | .bool b => .valid (if b then 1 else 0)
  | .int n => .valid n
  | .float x => integerOfFloat x
  | .str s => match readInteger? s with
    | some n => .valid n
    | none => .problem .unreadableInteger
  | _ => .problem .notInteger

def integerAtLeast (bound : Nat) : Decoder { n : Nat // bound ≤ n } := fun value =>
  (integer value).andThen fun n =>
    if h : bound ≤ n.toNat ∧ 0 ≤ n then .valid ⟨n.toNat, h.1⟩ else .problem (.tooSmall bound)

/-- Digits, a point and further digits, with at least one digit; then an optional exponent. -/
def readDecimal? (cs : List Char) : Option Float := do
  let whole := cs.takeWhile isDigit
  let rest := cs.dropWhile isDigit
  let (fraction, rest) := match rest with
    | '.' :: rest => (rest.takeWhile isDigit, rest.dropWhile isDigit)
    | _ => ([], rest)
  if whole.isEmpty && fraction.isEmpty then none
  else
    let digits := digitsToNat (whole ++ fraction)
    match rest with
    | [] => some (Decimal.toFloat digits (-(fraction.length : Int)))
    | e :: rest =>
      let (negative, power) := splitSign rest
      if (e = 'e' ∨ e = 'E') ∧ !power.isEmpty ∧ power.all isDigit then
        let shift : Int := digitsToNat power
        some (Decimal.toFloat digits ((if negative then -shift else shift) - fraction.length))
      else none

def readPlainFloat? (cs : List Char) : Option Float :=
  let (negative, body) := splitSign cs
  let magnitude := match String.ofList (body.map Char.toLower) with
    | "inf" => some (1.0 / 0.0)
    | "infinity" => some (1.0 / 0.0)
    | "nan" => some (0.0 / 0.0)
    | _ => readDecimal? body
  magnitude.map fun x => if negative then -x else x

/-- White space around a number is passed over, unless there are underscores in it. -/
def readFloat? (s : String) : Option Float :=
  (readPlainFloat? (Text.trimBy Text.isWhite s.toList)).or
    ((withoutUnderscores? s.toList).bind readPlainFloat?)

def number : Decoder Float
  | .bool b => .valid (if b then 1.0 else 0.0)
  | .int n =>
    let x := floatOfInt n
    if isFiniteFloat x then .valid x else .problem .notNumber
  | .float x => .valid x
  | .str s => match readFloat? s with
    | some x => .valid x
    | none => .problem .unreadableNumber
  | _ => .problem .notNumber

/-- NaN is neither at least nor above any bound. -/
def numberAtLeastZero : Decoder { x : Float // 0.0 ≤ x } := fun value =>
  (number value).andThen fun x => if h : 0.0 ≤ x then .valid ⟨x, h⟩ else .problem (.tooSmall 0)

def positiveNumber : Decoder { x : Float // 0.0 < x } := fun value =>
  (number value).andThen fun x => if h : 0.0 < x then .valid ⟨x, h⟩ else .problem (.notAbove 0)

def booleanWords : List (String × Bool) :=
  [("0", false), ("off", false), ("f", false), ("false", false), ("n", false), ("no", false),
    ("1", true), ("on", true), ("t", true), ("true", true), ("y", true), ("yes", true)]

def bitOf : Int → Checked Bool
  | 0 => .valid false
  | 1 => .valid true
  | _ => .problem .unreadableBoolean

/-- Of the numbers, only those that fit into a machine word are taken for attempts at a boolean. -/
def boolean : Decoder Bool
  | .bool b => .valid b
  | .int n => if fitsWord n then bitOf n else .problem .notBoolean
  | .float x =>
    match integerOfFloat x with
    | .valid n => bitOf n
    | .invalid .. => .problem .notBoolean
  | .str s =>
    let word := String.ofList (s.toList.map Char.toLower)
    match booleanWords.find? (·.1 == word) with
    | some (_, b) => .valid b
    | none => .problem .unreadableBoolean
  | _ => .problem .notBoolean

end Workflow.Decode
