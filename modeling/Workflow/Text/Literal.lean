import Workflow.Decimal.Text
import Workflow.Json.Writer
import Workflow.Text.Printable
import Workflow.Value

/-!
Values as literals: strings in quotes with escapes, lists in brackets, mappings in braces.
`Value.display` is the text of a value that stands for itself, where a string is not quoted.
-/

namespace Workflow

namespace Text

def hexPadded (width n : Nat) : List Char :=
  (List.range width).map fun i => Json.hexDigit (n / Nat.pow 16 (width - 1 - i) % 16)

/-- Single quotes, unless the text holds one and no double quote. -/
def literalQuote (cs : List Char) : Char :=
  if cs.contains '\x27' && !cs.contains '\x22' then '\x22' else '\x27'

def literalChar (quote c : Char) : List Char :=
  let n := c.toNat
  if c = quote ∨ n = 0x5c then ['\\', c]
  else if n = 0x0a then ['\\', 'n']
  else if n = 0x0d then ['\\', 'r']
  else if n = 0x09 then ['\\', 't']
  else if isPrintable c then [c]
  else if n < 0x100 then '\\' :: 'x' :: hexPadded 2 n
  else if n < 0x10000 then '\\' :: 'u' :: hexPadded 4 n
  else '\\' :: 'U' :: hexPadded 8 n

/-- A string between quotes. -/
def literal (s : String) : String :=
  let quote := literalQuote s.toList
  String.ofList (quote :: s.toList.flatMap (literalChar quote) ++ [quote])

/-- A span of minutes as whole days and the seconds that remain; parts that are zero are left
out. -/
def spanLiteral (minutes : Int) : String :=
  let days := minutes.fdiv 1440
  let seconds := (minutes - days * 1440) * 60
  let parts := (if days = 0 then [] else ["days=" ++ toString days]) ++
    (if seconds = 0 then [] else ["seconds=" ++ toString seconds])
  "datetime.timedelta(" ++ (if parts.isEmpty then "0" else join ", " parts) ++ ")"

def zoneLiteral (offset : Int) : String :=
  if offset = 0 then "datetime.timezone.utc"
  else "datetime.timezone(" ++ spanLiteral offset ++ ")"

def dateParts (d : Date) : List Nat := [d.year, d.month, d.day]

/-- Seconds are left out when the moment is on a full minute. -/
def momentLiteral (m : Moment) : String :=
  let parts := dateParts m.date ++ [m.hour, m.minute] ++
    (if m.second = 0 ∧ m.micros = 0 then [] else [m.second]) ++
    (if m.micros = 0 then [] else [m.micros])
  let zone := match m.offset with
    | none => []
    | some offset => ["tzinfo=" ++ zoneLiteral offset]
  "datetime.datetime(" ++ join ", " (parts.map toString ++ zone) ++ ")"

end Text

namespace Scalar

def literal : Scalar → String
  | .null => "None"
  | .bool b => if b then "True" else "False"
  | .int n => toString n
  | .float x => Decimal.text x
  | .str s => Text.literal s
  | .date d => "datetime.date(" ++ Text.join ", " ((Text.dateParts d).map toString) ++ ")"
  | .moment m => Text.momentLiteral m

def display : Scalar → String
  | .str s => s
  | .date d => d.iso
  | .moment m => m.text " "
  | other => other.literal

end Scalar

namespace Value

mutual

def literal : Value → String
  | .scalar s => s.literal
  | .list items => "[" ++ Text.join ", " (itemLiterals items) ++ "]"
  | .map entries => "\x7b" ++ Text.join ", " (entryLiterals entries) ++ "\x7d"

def itemLiterals : List Value → List String
  | [] => []
  | item :: rest => literal item :: itemLiterals rest

def entryLiterals : List (Scalar × Value) → List String
  | [] => []
  | (key, value) :: rest => (key.literal ++ ": " ++ literal value) :: entryLiterals rest

end

def display : Value → String
  | .scalar s => s.display
  | other => other.literal

end Value

end Workflow
