/-!
Dates and moments of the proleptic Gregorian calendar, and their ISO text.

A clock counts microseconds from `Moment.origin`; `Moment.ofMicros` is the moment that many
microseconds later, always in UTC.
-/

namespace Workflow

structure Date where
  year : Nat
  month : Nat
  day : Nat
  deriving DecidableEq, Inhabited, Repr

/-- A moment is aware when it carries its distance from UTC, in minutes. -/
structure Moment where
  date : Date
  hour : Nat
  minute : Nat
  second : Nat
  micros : Nat
  offset : Option Int
  deriving DecidableEq, Inhabited, Repr

/-- Pads a number with zeros on the left. -/
def padded (width n : Nat) : String :=
  let digits := toString n
  String.ofList (List.replicate (width - digits.length) '0') ++ digits

namespace Date

def isLeapYear (year : Nat) : Bool :=
  (year % 4 == 0 && year % 100 != 0) || year % 400 == 0

def daysInMonth (year month : Nat) : Nat :=
  if month = 2 then (if isLeapYear year then 29 else 28)
  else if month ∈ [4, 6, 9, 11] then 30
  else 31

def IsValid (d : Date) : Prop :=
  1 ≤ d.year ∧ d.year ≤ 9999 ∧ 1 ≤ d.month ∧ d.month ≤ 12 ∧
    1 ≤ d.day ∧ d.day ≤ daysInMonth d.year d.month

instance (d : Date) : Decidable d.IsValid := by
  unfold IsValid; infer_instance

def iso (d : Date) : String :=
  padded 4 d.year ++ "-" ++ padded 2 d.month ++ "-" ++ padded 2 d.day

/-- Days since 0000-03-01, counting years from March so that leap days come last. -/
def dayNumber (d : Date) : Int :=
  let year : Int := if d.month ≤ 2 then d.year - 1 else d.year
  let month := if d.month ≤ 2 then d.month + 9 else d.month - 3
  365 * year + year.fdiv 4 - year.fdiv 100 + year.fdiv 400 + ((153 * month + 2) / 5 : Nat) +
    d.day - 1

/-- The date a number of days after a given one. -/
def addDays : Nat → Date → Date
  | 0, d => d
  | n + 1, d =>
    addDays n <|
      if d.day < daysInMonth d.year d.month then { d with day := d.day + 1 }
      else if d.month < 12 then ⟨d.year, d.month + 1, 1⟩
      else ⟨d.year + 1, 1, 1⟩

end Date

namespace Moment

/-- Where every clock starts. -/
def origin : Moment := ⟨⟨2024, 1, 1⟩, 0, 0, 0, 0, some 0⟩

def ofMicros (n : Nat) : Moment :=
  let seconds := n / 1000000
  { date := origin.date.addDays (seconds / 86400)
    hour := seconds / 3600 % 24
    minute := seconds / 60 % 60
    second := seconds % 60
    micros := n % 1000000
    offset := some 0 }

def offsetText (offset : Int) : String :=
  (if offset < 0 then "-" else "+") ++ padded 2 (offset.natAbs / 60) ++ ":" ++
    padded 2 (offset.natAbs % 60)

def timeText (m : Moment) : String :=
  padded 2 m.hour ++ ":" ++ padded 2 m.minute ++ ":" ++ padded 2 m.second

/-- Microseconds are written only when there are any. -/
def clockText (m : Moment) : String :=
  m.timeText ++ (if m.micros = 0 then "" else "." ++ padded 6 m.micros)

/-- ISO text; `separator` stands between the date and the time of day. -/
def text (separator : String) (m : Moment) : String :=
  m.date.iso ++ separator ++ m.clockText ++ (m.offset.map offsetText).getD ""

def iso (m : Moment) : String := m.text "T"

/-- ISO text in which UTC is written `Z`. -/
def isoZulu (m : Moment) : String :=
  if m.offset = some 0 then m.date.iso ++ "T" ++ m.clockText ++ "Z" else m.iso

/-- Microseconds on a common time line; the offset of an aware moment is taken off. -/
def instant (m : Moment) : Int :=
  let minutes := m.date.dayNumber * 1440 + m.hour * 60 + m.minute - m.offset.getD 0
  (minutes * 60 + m.second) * 1000000 + m.micros

end Moment

end Workflow
