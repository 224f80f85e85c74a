import Workflow.Failure
import Workflow.Json.Reader
import Workflow.Text.Case
import Workflow.Validation.Scalar
import Workflow.Yaml.Cursor

/-!
What the text of a scalar means. A plain text takes its kind from its form; a tag may also give the
kind, and then a text of another form has no meaning.
-/

namespace Workflow.Yaml

inductive ScalarKind where
  | null
  | bool
  | int
  | float
  | timestamp
  | text
  | binary
  | merge
  | default
  deriving DecidableEq

namespace Resolution

open Decode (isDigit digitsToNat splitSign)

def isDigitOr (c : Char) : Bool := isDigit c || c = '_'

def isOctal (c : Char) : Bool := ('0' ≤ c && c ≤ '7') || c = '_'

def isHex (c : Char) : Bool := (Json.hexValue? c).isSome || c = '_'

/-- Groups of one or two digits up to 59, each behind a colon. -/
def areSixtieths (groups : List (List Char)) : Bool :=
  !groups.isEmpty && groups.all fun
    | [d] => isDigit d
    | [d, e] => '0' ≤ d && d ≤ '5' && isDigit e
    | _ => false

def isInt (text : List Char) : Bool :=
  let body := (splitSign text).2
  match body with
  | ['0'] => true
  | '0' :: 'b' :: rest => !rest.isEmpty && rest.all fun c => c = '0' || c = '1' || c = '_'
  | '0' :: 'x' :: rest => !rest.isEmpty && rest.all isHex
  | '0' :: rest => rest.all isOctal
  | c :: _ =>
    match Text.splitOn ':' body with
    | [whole] => isDigit c && whole.all isDigitOr
    | whole :: groups => isDigit c && whole.all isDigitOr && areSixtieths groups
    | [] => false
  | [] => false

def isExponent : List Char → Bool
  | [] => true
  | e :: sign :: digits =>
    (e = 'e' || e = 'E') && (sign = '-' || sign = '+') && !digits.isEmpty && digits.all isDigit
  | _ => false

def isFloat (text : List Char) : Bool :=
  let body := (splitSign text).2
  match body with
  | '.' :: 'i' :: _ => body = ".inf".toList
  | '.' :: 'I' :: _ => body = ".Inf".toList || body = ".INF".toList
  | '.' :: 'n' :: _ => text = ".nan".toList
  | '.' :: 'N' :: _ => text = ".NaN".toList || text = ".NAN".toList
  | '.' :: d :: rest =>
    text.head? = some '.' && isDigit d && isExponent (rest.dropWhile isDigitOr)
  | d :: _ =>
    let whole := body.takeWhile (· ≠ '.')
    let fraction := body.dropWhile (· ≠ '.')
    isDigit d && !fraction.isEmpty &&
      match Text.splitOn ':' whole with
      | [whole] => whole.all isDigitOr && isExponent ((fraction.drop 1).dropWhile isDigitOr)
      | whole :: groups =>
        whole.all isDigitOr && areSixtieths groups && (fraction.drop 1).all isDigitOr
      | [] => false
  | [] => false

/-- The parts of a timestamp, as numbers. `strict` dates have all their digits. -/
structure Timestamp where
  year : Nat
  month : Nat
  day : Nat
  time : Option (Nat × Nat × Nat)
  micros : Nat
  offset : Option Int
  strict : Bool

/-- One or two digits, as many as there are. -/
def shortNumber? : List Char → Option (Nat × Nat × List Char)
  | a :: b :: rest =>
    if isDigit a then
      if isDigit b then some (digitsToNat [a, b], 2, rest) else some (digitsToNat [a], 1, b :: rest)
    else none
  | [a] => if isDigit a then some (digitsToNat [a], 1, []) else none
  | [] => none

def twoDigits? : List Char → Option (Nat × List Char)
  | a :: b :: rest => if isDigit a && isDigit b then some (digitsToNat [a, b], rest) else none
  | _ => none

def expect? (c : Char) : List Char → Option (List Char)
  | [] => none
  | d :: rest => if d = c then some rest else none

/-- The distance from UTC in minutes at the end of a timestamp. -/
def readOffset? (cs : List Char) : Option (Option Int) :=
  let cs := cs.dropWhile fun c => c = ' ' || c = '\t'
  match cs with
  | ['Z'] => some (some 0)
  | sign :: rest =>
    if sign ≠ '-' ∧ sign ≠ '+' then none
    else do
      let (hours, _, rest) ← shortNumber? rest
      let minutes ← match rest with
        | [] => some 0
        | ':' :: rest =>
          (twoDigits? rest).bind fun (m, rest) => if rest.isEmpty then some m else none
        | _ => none
      let total : Int := hours * 60 + minutes
      return some (if sign = '-' then -total else total)
  | [] => none

def readFraction (cs : List Char) : Nat × List Char :=
  match cs with
  | '.' :: rest =>
    let digits := (rest.takeWhile isDigit).take 6
    (digitsToNat (digits ++ List.replicate (6 - digits.length) '0'), rest.dropWhile isDigit)
  | _ => (0, cs)

def readTimestamp? (cs : List Char) : Option Timestamp := do
  let yearDigits := cs.take 4
  if yearDigits.length < 4 || !yearDigits.all isDigit then none
  else
    let rest ← expect? '-' (cs.drop 4)
    let (month, monthLength, rest) ← shortNumber? rest
    let rest ← expect? '-' rest
    let (day, dayLength, rest) ← shortNumber? rest
    let year := digitsToNat yearDigits
    match rest with
    | [] => return ⟨year, month, day, none, 0, none, monthLength = 2 && dayLength = 2⟩
    | separator :: _ =>
      let rest ←
        if separator = 'T' || separator = 't' then some (rest.drop 1)
        else if separator = ' ' || separator = '\t' then
          some (rest.dropWhile fun c => c = ' ' || c = '\t')
        else none
      let (hour, _, rest) ← shortNumber? rest
      let (minute, rest) ← twoDigits? (← expect? ':' rest)
      let (second, rest) ← twoDigits? (← expect? ':' rest)
      let (micros, rest) := readFraction rest
      let offset ← if rest.isEmpty then some none else readOffset? rest
      return ⟨year, month, day, some (hour, minute, second), micros, offset, true⟩

def isTimestamp (text : List Char) : Bool :=
  match readTimestamp? text with
  | some t => t.strict
  | none => false

def nullWords : List String := ["", "~", "null", "Null", "NULL"]

def boolWords : List String :=
  ["yes", "Yes", "YES", "no", "No", "NO", "true", "True", "TRUE", "false", "False", "FALSE",
    "on", "On", "ON", "off", "Off", "OFF"]

/-- The kind of a plain text. -/
def plainKind (text : String) : ScalarKind :=
  let cs := text.toList
  if text ∈ boolWords then .bool
  else if isFloat cs then .float
  else if isInt cs then .int
  else if text = "<<" then .merge
  else if text ∈ nullWords then .null
  else if isTimestamp cs then .timestamp
  else if text = "=" then .default
  else .text

/-- The digits of a number in some base; an empty text is no number. -/
def digitsIn? (base : Nat) (cs : List Char) : Option Nat :=
  if cs.isEmpty then none
  else cs.foldlM (fun n c =>
    (Json.hexValue? c).bind fun d => if d < base then some (base * n + d) else none) 0

def badInt (base : Nat) (text : String) : Failure :=
  .wrongValue ("invalid literal for int() with base " ++ toString base ++ ": " ++ Text.literal text)

def inBase (base : Nat) (cs : List Char) : Except Failure Nat :=
  match digitsIn? base cs with
  | some n => .ok n
  | none => .error (badInt base (String.ofList cs))

def sexagesimal (groups : List Nat) : Nat := groups.foldl (fun n g => 60 * n + g) 0

/-- A text that should have a first character has none. -/
def noFirst : Failure := .fault "IndexError" "string index out of range"

def magnitude (body : List Char) : Except Failure Nat :=
  match body with
  | [] => .error noFirst
  | ['0'] => .ok 0
  | '0' :: 'b' :: rest => inBase 2 rest
  | '0' :: 'x' :: rest => inBase 16 rest
  | '0' :: _ => inBase 8 body
  | _ =>
    match Text.splitOn ':' body with
    | [whole] => inBase 10 whole
    | groups => (groups.mapM (inBase 10)).map sexagesimal

def toInt (text : String) : Except Failure Int := do
  let (negative, body) := splitSign (text.toList.filter (· ≠ '_'))
  let n ← magnitude body
  return if negative then -(n : Int) else n

def badFloat (text : String) : Failure :=
  .wrongValue ("could not convert string to float: " ++ Text.literal text)

def readFloat (cs : List Char) : Except Failure Float :=
  match Decode.readPlainFloat? cs with
  | some x => .ok x
  | none => .error (badFloat (String.ofList cs))

/-- Each group counts sixty times the next; the last one may have a fraction. -/
def sexagesimalFloat (groups : List Float) : Float :=
  (groups.reverse.foldl (fun (total, base) g => (total + g * base, base * 60.0)) (0.0, 1.0)).1

def toFloat (text : String) : Except Failure Float := do
  let lowered := (Text.lower text).toList.filter (· ≠ '_')
  let (negative, body) := splitSign lowered
  let x ←
    if lowered.isEmpty then throw noFirst
    else if body = ".inf".toList then pure (1.0 / 0.0)
    else if body = ".nan".toList then pure (0.0 / 0.0)
    else
      match Text.splitOn ':' body with
      | [whole] => readFloat whole
      | groups => (groups.mapM readFloat).map sexagesimalFloat
  return if negative then -x else x

def toDate (year month day : Nat) : Except Failure Date :=
  if year < 1 then
    .error (.wrongValue ("year " ++ toString year ++ " is out of range"))
  else if month < 1 ∨ 12 < month then .error (.wrongValue "month must be in 1..12")
  else if day < 1 ∨ Date.daysInMonth year month < day then
    .error (.wrongValue "day is out of range for month")
  else .ok ⟨year, month, day⟩

def toTimestamp (text : String) : Except Failure Value :=
  match readTimestamp? text.toList with
  | none => .error (.fault "AttributeError" "")
  | some t => do
    match t.time with
    | none => return .scalar (.date (← toDate t.year t.month t.day))
    | some (hour, minute, second) =>
      if (t.offset.getD 0).natAbs ≥ 1440 then
        throw (.wrongValue ("offset must be a timedelta strictly between " ++
          "-timedelta(hours=24) and timedelta(hours=24), not " ++
          Text.spanLiteral (t.offset.getD 0) ++ "."))
      let date ← toDate t.year t.month t.day
      if 24 ≤ hour then throw (.wrongValue "hour must be in 0..23")
      if 60 ≤ minute then throw (.wrongValue "minute must be in 0..59")
      if 60 ≤ second then throw (.wrongValue "second must be in 0..59")
      return .scalar (.moment ⟨date, hour, minute, second, t.micros, t.offset⟩)

def toBool (text : String) : Except Failure Bool :=
  match Text.lower text with
  | "yes" | "true" | "on" => .ok true
  | "no" | "false" | "off" => .ok false
  | word => .error (.notFound word)

def sextet? (c : Char) : Option Nat :=
  if 'A' ≤ c ∧ c ≤ 'Z' then some (c.toNat - 65)
  else if 'a' ≤ c ∧ c ≤ 'z' then some (c.toNat - 71)
  else if '0' ≤ c ∧ c ≤ '9' then some (c.toNat + 4)
  else if c = '+' then some 62
  else if c = '/' then some 63
  else none

def groupBytes : List Nat → List UInt8
  | a :: b :: c :: d :: rest =>
    let n := ((a * 64 + b) * 64 + c) * 64 + d
    [n / 65536, n / 256, n].map Nat.toUInt8 ++ groupBytes rest
  | [a, b, c] => [(a * 64 + b) / 16, ((a * 64 + b) * 64 + c) / 4].map Nat.toUInt8
  | [a, b] => [Nat.toUInt8 ((a * 64 + b) / 16)]
  | _ => []

/-- Bytes in base 64, as the text they encode. -/
def binaryText? (text : String) : Option String :=
  String.fromUTF8? ⟨(groupBytes (text.toList.filterMap sextet?)).toArray⟩

/-- A YAML text that cannot be read. -/
def malformed : Failure := .fault "YAMLError" ""

def construct (kind : ScalarKind) (text : String) : Except Failure Value :=
  match kind with
  | .null => .ok .null
  | .bool => (toBool text).map .bool
  | .int => (toInt text).map .int
  | .float => (toFloat text).map .float
  | .timestamp => toTimestamp text
  | .text => .ok (.str text)
  | .binary => match binaryText? text with
    | some s => .ok (.str s)
    | none => .error malformed
  | .merge => .error malformed
  | .default => .error malformed

end Resolution

end Workflow.Yaml
