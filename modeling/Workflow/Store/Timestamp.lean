import Workflow.Calendar

/-!
Moments kept as text: reading the ISO text that `Moment.iso` writes.
-/

namespace Workflow

/-- Exactly `width` digits. -/
def readNumber? (width : Nat) (cs : List Char) : Option (Nat × List Char) :=
  let digits := cs.take width
  if digits.length = width ∧ digits.all Char.isDigit then
    some (Nat.ofDigitChars 10 digits 0, cs.drop width)
  else none

def readMark? (mark : Char) : List Char → Option (List Char)
  | [] => none
  | c :: rest => if c = mark then some rest else none

namespace Date

def readIso? (cs : List Char) : Option (Date × List Char) := do
  let (year, cs) ← readNumber? 4 cs
  let cs ← readMark? '-' cs
  let (month, cs) ← readNumber? 2 cs
  let cs ← readMark? '-' cs
  let (day, cs) ← readNumber? 2 cs
  return (⟨year, month, day⟩, cs)

end Date

namespace Moment

/-- The moments there are: less than a day from midnight, and less than a day from UTC. -/
def IsValid (m : Moment) : Prop :=
  m.date.IsValid ∧ m.hour < 24 ∧ m.minute < 60 ∧ m.second < 60 ∧ m.micros < 1000000 ∧
    ∀ minutes ∈ m.offset, minutes.natAbs < 1440

instance (m : Moment) : Decidable m.IsValid := by
  unfold IsValid; infer_instance

/-- Microseconds after a point, if there are any. -/
def readMicros? : List Char → Option (Nat × List Char)
  | '.' :: cs => readNumber? 6 cs
  | cs => some (0, cs)

/-- Hours, minutes, seconds and microseconds. -/
def readClock? (cs : List Char) : Option ((Nat × Nat × Nat × Nat) × List Char) := do
  let (hour, cs) ← readNumber? 2 cs
  let cs ← readMark? ':' cs
  let (minute, cs) ← readNumber? 2 cs
  let cs ← readMark? ':' cs
  let (second, cs) ← readNumber? 2 cs
  let (micros, cs) ← readMicros? cs
  return ((hour, minute, second, micros), cs)

def readOffset? : List Char → Option (Option Int)
  | [] => some none
  | sign :: cs => do
    let (hours, cs) ← readNumber? 2 cs
    let cs ← readMark? ':' cs
    let (minutes, cs) ← readNumber? 2 cs
    let total : Int := (hours * 60 + minutes : Nat)
    if cs ≠ [] then none
    else if sign = '+' then some (some total)
    else if sign = '-' then some (some (-total))
    else none

/-- The moment of an ISO text. -/
def ofIso? (text : String) : Option Moment := do
  let (date, cs) ← Date.readIso? text.toList
  let cs ← readMark? 'T' cs
  let ((hour, minute, second, micros), cs) ← readClock? cs
  let offset ← readOffset? cs
  let m : Moment := { date, hour, minute, second, micros, offset }
  if m.IsValid then some m else none

end Moment

end Workflow
