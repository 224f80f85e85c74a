import Workflow.Decimal.Shortest

/-!
Numbers as text: writing floats, and reading the digits, fraction and exponent of a number.
-/

namespace Workflow.Decimal

/-- How values that are not finite are spelled. -/
structure Spelling where
  nan : String
  infinity : String

def plainSpelling : Spelling := ⟨"nan", "inf"⟩

def zeros (n : Nat) : String := String.ofList (List.replicate n '0')

def spaces (n : Nat) : String := String.ofList (List.replicate n ' ')

/-- Positional from 1e-4 up to but not including 1e16, with at least one digit after the point;
otherwise one digit before the point and an exponent of at least two digits. -/
def Scaled.text (s : Scaled) : String :=
  let digits := toString s.digits
  let point : Int := digits.length + s.exponent
  if -4 < point ∧ point ≤ 16 then
    if point ≤ 0 then "0." ++ zeros (-point).toNat ++ digits
    else if digits.length ≤ point then digits ++ zeros (point - digits.length).toNat ++ ".0"
    else
      String.ofList (digits.toList.take point.toNat) ++ "." ++
        String.ofList (digits.toList.drop point.toNat)
  else
    let exponent := point - 1
    let head := String.ofList (digits.toList.take 1)
    let tail := digits.toList.drop 1
    let size := toString exponent.natAbs
    head ++ (if tail.isEmpty then "" else "." ++ String.ofList tail) ++
      (if exponent < 0 then "e-" else "e+") ++ zeros (2 - size.length) ++ size

/-- The shortest text that reads back as the same float. -/
def render (spelling : Spelling) (x : Float) : String :=
  match Binary.ofFloat? x with
  | some b =>
    (if b.negative then "-" else "") ++ (if b.mantissa = 0 then "0.0" else (shortest b).text)
  | none =>
    if x == x then (if x < 0 then "-" else "") ++ spelling.infinity else spelling.nan

def text (x : Float) : String := render plainSpelling x

/-- The natural number a list of digit values stands for. -/
def ofDigits (digits : List Nat) : Nat := digits.foldl (fun n d => 10 * n + d) 0

/-- The float nearest to `digits * 10 ^ exponent`. Exponents past any float's reach are decided
without computing the power. -/
def toFloat (digits : Nat) (exponent : Int) : Float :=
  let magnitude : Int := (toString digits).length + exponent
  if digits = 0 then 0.0
  else if 320 < magnitude then 1.0 / 0.0
  else if magnitude < -340 then 0.0
  else Binary.nearest (digits * Nat.pow 10 exponent.toNat) (Nat.pow 10 (-exponent).toNat)

end Workflow.Decimal
