import Workflow.Failure
import Workflow.Text.Case
import Workflow.Text.Digit

/-!
Durations: a number of seconds, or a text such as `250ms`, `5s`, `2m` and `1h`. What is neither is
no duration, and whoever asked for one falls back on a default.
-/

namespace Workflow.Duration

/-- Digits with an optional fraction, and what follows them. -/
def readAmount? (cs : List Char) : Option (Float × List Char) :=
  let whole := cs.takeWhile (Text.digitValue? · |>.isSome)
  let rest := cs.dropWhile (Text.digitValue? · |>.isSome)
  if whole.isEmpty then none
  else
    let fraction := match rest with
      | '.' :: rest => rest.takeWhile (Text.digitValue? · |>.isSome)
      | _ => []
    let digits := (whole ++ fraction).filterMap Text.digitValue?
    let rest := if fraction.isEmpty then rest else rest.drop (fraction.length + 1)
    some (Decimal.toFloat (Decimal.ofDigits digits) (-(fraction.length : Int)), rest)

/-- Letters that count as the `s` of a unit, whatever their case. -/
def isSecondLetter (c : Char) : Bool := c = 's' || c = 'S' || c = 'ſ'

def isMinuteLetter (c : Char) : Bool := c = 'm' || c = 'M'

def isHourLetter (c : Char) : Bool := c = 'h' || c = 'H'

/-- The unit at the front of a text, as written. -/
def readUnit (cs : List Char) : List Char × List Char :=
  match cs with
  | a :: b :: rest =>
    if isMinuteLetter a && isSecondLetter b then ([a, b], rest)
    else if isSecondLetter a || isMinuteLetter a || isHourLetter a then ([a], b :: rest)
    else ([], cs)
  | [a] => if isSecondLetter a || isMinuteLetter a || isHourLetter a then ([a], []) else ([], cs)
  | [] => ([], [])

/-- Seconds in a unit; a text without a unit counts seconds. -/
def unitSeconds? : String → Option Float
  | "ms" => some 0.001
  | "s" => some 1.0
  | "m" => some 60.0
  | "h" => some 3600.0
  | "" => some 1.0
  | _ => none

/-- The amount and the unit, in lower case, of a text that has the form of a duration. -/
def read? (s : String) : Option (Float × String) := do
  let (amount, rest) ← readAmount? (s.toList.dropWhile Text.isBlank)
  let (unit, rest) := readUnit (rest.dropWhile Text.isBlank)
  if rest.all Text.isBlank then some (amount, Text.lower (String.ofList unit)) else none

/-- The seconds a value stands for, or nothing when it is no duration. A unit whose letter is no
plain `s` in lower case is read as a unit but then not found. -/
def seconds? : Value → Except Failure (Option Float)
  | .int n =>
    if n < 0 then .ok none
    else
      let x := floatOfInt n
      if isFiniteFloat x then .ok (some x)
      else .error (.fault "OverflowError" "int too large to convert to float")
  | .float x => .ok (if 0.0 ≤ x then some x else none)
  | .str s => match read? s with
    | none => .ok none
    | some (amount, unit) => match unitSeconds? unit with
      | some seconds => .ok (some (amount * seconds))
      | none => .error (.notFound unit)
  | _ => .ok none

end Workflow.Duration
