import Workflow.Decimal.Text
import Workflow.Value

/-!
Reading JSON text. Numbers with a fraction or an exponent are floats, all others integers of any
size; `NaN`, `Infinity` and `-Infinity` are accepted. Of repeated names the last wins, in the place
of the first. Every reader returns what follows; the fuel is a bound on the nesting and is never
used up by a text of that many characters.
-/

namespace Workflow.Json

def skipSpace (cs : List Char) : List Char :=
  cs.dropWhile fun c => c = ' ' || c = '\n' || c = '\r' || c = '\t'

def hexValue? (c : Char) : Option Nat :=
  if '0' ≤ c ∧ c ≤ '9' then some (c.toNat - 48)
  else if 'a' ≤ c ∧ c ≤ 'f' then some (c.toNat - 87)
  else if 'A' ≤ c ∧ c ≤ 'F' then some (c.toNat - 55)
  else none

def readUnit? : List Char → Option (Nat × List Char)
  | a :: b :: c :: d :: rest => do
    let a ← hexValue? a
    let b ← hexValue? b
    let c ← hexValue? c
    let d ← hexValue? d
    return (4096 * a + 256 * b + 16 * c + d, rest)
  | _ => none

/-- The second unit of a pair whose first unit has been read. -/
def readLowUnit? (cs : List Char) : Option (Nat × List Char) :=
  match cs with
  | '\\' :: 'u' :: rest =>
    (readUnit? rest).bind fun (unit, rest) =>
      if 0xdc00 ≤ unit ∧ unit < 0xe000 then some (unit, rest) else none
  | _ => none

def readEscape? : List Char → Option (Char × List Char)
  | 'n' :: rest => some ('\n', rest)
  | 't' :: rest => some ('\t', rest)
  | 'r' :: rest => some ('\r', rest)
  | 'b' :: rest => some ('\x08', rest)
  | 'f' :: rest => some ('\x0c', rest)
  | '/' :: rest => some ('/', rest)
  | '\\' :: rest => some ('\\', rest)
  | '\x22' :: rest => some ('\x22', rest)
  | 'u' :: rest => do
    let (unit, rest) ← readUnit? rest
    if 0xd800 ≤ unit ∧ unit < 0xdc00 then
      match readLowUnit? rest with
      | some (low, rest) =>
        return (Char.ofNat (0x10000 + (unit - 0xd800) * 0x400 + (low - 0xdc00)), rest)
      | none => return ('\ufffd', rest)
    else if 0xdc00 ≤ unit ∧ unit < 0xe000 then return ('\ufffd', rest)
    else return (Char.ofNat unit, rest)
  | _ => none

/-- The rest of a string whose opening quote has been read. -/
def readString? : Nat → List Char → List Char → Option (String × List Char)
  | 0, _, _ => none
  | _, _, [] => none
  | fuel + 1, read, c :: rest =>
    if c = '\x22' then some (String.ofList read.reverse, rest)
    else if c = '\\' then (readEscape? rest).bind fun (c, rest) => readString? fuel (c :: read) rest
    else if c.toNat < 0x20 then none
    else readString? fuel (c :: read) rest

def isDigit (c : Char) : Bool := '0' ≤ c && c ≤ '9'

def digitsOf (cs : List Char) : List Nat := cs.map (·.toNat - 48)

/-- The digits of a fraction, if one follows. -/
def readFraction (cs : List Char) : List Char × List Char :=
  match cs with
  | '.' :: rest =>
    let digits := rest.takeWhile isDigit
    if digits.isEmpty then ([], cs) else (digits, rest.dropWhile isDigit)
  | _ => ([], cs)

def readExponentDigits? (cs : List Char) : Option (Int × List Char) :=
  let (negative, cs) := match cs with
    | '-' :: rest => (true, rest)
    | '+' :: rest => (false, rest)
    | _ => (false, cs)
  let digits := cs.takeWhile isDigit
  if digits.isEmpty then none
  else
    let n : Int := Decimal.ofDigits (digitsOf digits)
    some (if negative then -n else n, cs.dropWhile isDigit)

def readExponent? (cs : List Char) : Option (Int × List Char) :=
  match cs with
  | 'e' :: rest => readExponentDigits? rest
  | 'E' :: rest => readExponentDigits? rest
  | _ => none

/-- The digits a number starts with; a leading zero stands alone. -/
def leadingDigits (cs : List Char) : List Char :=
  match cs with
  | '0' :: _ => ['0']
  | _ => cs.takeWhile isDigit

/-- A number without its sign. -/
def readMagnitude? (negative : Bool) (cs : List Char) : Option (Value × List Char) :=
  let digits := leadingDigits cs
  if digits.isEmpty then none
  else
    let (fraction, rest) := readFraction (cs.drop digits.length)
    let exponent := readExponent? rest
    if fraction.isEmpty ∧ exponent.isNone then
      let n : Int := Decimal.ofDigits (digitsOf digits)
      some (.int (if negative then -n else n), rest)
    else
      let (shift, rest) := exponent.getD (0, rest)
      let x := Decimal.toFloat (Decimal.ofDigits (digitsOf (digits ++ fraction)))
        (shift - fraction.length)
      some (.float (if negative then -x else x), rest)

def literals : List (List Char × Value) :=
  [("null".toList, .null), ("true".toList, .bool true), ("false".toList, .bool false),
    ("NaN".toList, .float (0.0 / 0.0)), ("Infinity".toList, .float (1.0 / 0.0)),
    ("-Infinity".toList, .float (-1.0 / 0.0))]

def readAtom? (cs : List Char) : Option (Value × List Char) :=
  match literals.find? fun literal => literal.1.isPrefixOf cs with
  | some (word, value) => some (value, cs.drop word.length)
  | none => match cs with
    | '-' :: rest => readMagnitude? true rest
    | _ => readMagnitude? false cs

mutual

def read? : Nat → List Char → Option (Value × List Char)
  | 0, _ => none
  | fuel + 1, cs =>
    match cs with
    | '\x22' :: rest => (readString? (rest.length + 1) [] rest).map fun (s, rest) => (.str s, rest)
    | '[' :: rest =>
      match skipSpace rest with
      | ']' :: rest => some (.list [], rest)
      | rest => readItems? fuel [] rest
    | '\x7b' :: rest =>
      match skipSpace rest with
      | '\x7d' :: rest => some (.map [], rest)
      | rest => readEntries? fuel [] rest
    | _ => readAtom? cs

/-- The items of a list up to its closing bracket; `items` holds those read, last first. -/
def readItems? : Nat → List Value → List Char → Option (Value × List Char)
  | 0, _, _ => none
  | fuel + 1, items, cs =>
    match read? fuel cs with
    | none => none
    | some (item, rest) =>
      match skipSpace rest with
      | ',' :: rest => readItems? fuel (item :: items) (skipSpace rest)
      | ']' :: rest => some (.list (item :: items).reverse, rest)
      | _ => none

/-- The entries of a mapping up to its closing brace; `entries` holds those read, last first. -/
def readEntries? : Nat → List (Scalar × Value) → List Char → Option (Value × List Char)
  | 0, _, _ => none
  | fuel + 1, entries, cs =>
    match cs with
    | '\x22' :: rest =>
      match readString? (rest.length + 1) [] rest with
      | none => none
      | some (name, rest) =>
        match skipSpace rest with
        | ':' :: rest =>
          match read? fuel (skipSpace rest) with
          | none => none
          | some (value, rest) =>
            let entries := (.str name, value) :: entries
            match skipSpace rest with
            | ',' :: rest => readEntries? fuel entries (skipSpace rest)
            | '\x7d' :: rest => some (.map (Table.ofEntries entries.reverse), rest)
            | _ => none
        | _ => none
    | _ => none

end

/-- The value a text holds, with nothing but white space around it. -/
def parse? (text : String) : Option Value :=
  let cs := text.toList
  match read? (cs.length + 2) (skipSpace cs) with
  | some (value, rest) => if (skipSpace rest).isEmpty then some value else none
  | none => none

end Workflow.Json
