import Workflow.Decimal.Text
import Workflow.Text.Blank
import Workflow.Value

/-!
Values as JSON text. Characters outside printable ASCII are escaped, floats that are not finite are
written `NaN`, `Infinity` and `-Infinity`, and dates become their text. A mapping keyed by a date
has no JSON text: `encode` fails on it.
-/

namespace Workflow.Json

def spelling : Decimal.Spelling := ⟨"NaN", "Infinity"⟩

def hexDigit (n : Nat) : Char := Char.ofNat (if n < 10 then 48 + n else 87 + n)

def unitEscape (n : Nat) : List Char :=
  ['\\', 'u', hexDigit (n / 4096 % 16), hexDigit (n / 256 % 16), hexDigit (n / 16 % 16),
    hexDigit (n % 16)]

/-- Characters above U+FFFF are escaped as the two units of their pair. -/
def escaped (c : Char) : List Char :=
  let n := c.toNat
  if n = 0x22 then ['\\', '\x22']
  else if n = 0x5c then ['\\', '\\']
  else if n = 0x0a then ['\\', 'n']
  else if n = 0x0d then ['\\', 'r']
  else if n = 0x09 then ['\\', 't']
  else if n = 0x08 then ['\\', 'b']
  else if n = 0x0c then ['\\', 'f']
  else if 0x20 ≤ n ∧ n < 0x7f then [c]
  else if n < 0x10000 then unitEscape n
  else unitEscape (0xd800 + (n - 0x10000) / 0x400) ++ unitEscape (0xdc00 + (n - 0x10000) % 0x400)

def quoted (s : String) : String :=
  "\"" ++ String.ofList (s.toList.flatMap escaped) ++ "\""

def scalarText : Scalar → String
  | .null => "null"
  | .bool b => if b then "true" else "false"
  | .int n => toString n
  | .float x => Decimal.render spelling x
  | .str s => quoted s
  | .date d => quoted d.iso
  | .moment m => quoted (m.text " ")

/-- A key that is not a string is written as the string of its text. -/
def keyText : Scalar → String
  | .str s => quoted s
  | .date d => quoted d.iso
  | .moment m => quoted (m.text " ")
  | other => "\"" ++ scalarText other ++ "\""

/-- `indent` spaces a level, or everything on one line. -/
structure Layout where
  indent : Option Nat

def compact : Layout := ⟨none⟩

def indented : Layout := ⟨some 2⟩

def Layout.newline (layout : Layout) (level : Nat) : String :=
  match layout.indent with
  | none => ""
  | some n => "\n" ++ Decimal.spaces (n * level)

def Layout.enclose (layout : Layout) (level : Nat) (opening closing : String)
    (parts : List String) : String :=
  if parts.isEmpty then opening ++ closing
  else
    let separator := match layout.indent with
      | none => ", "
      | some _ => "," ++ layout.newline (level + 1)
    opening ++ layout.newline (level + 1) ++ Text.join separator parts ++ layout.newline level ++
      closing

mutual

def write (layout : Layout) (level : Nat) : Value → String
  | .scalar s => scalarText s
  | .list items => layout.enclose level "[" "]" (writeItems layout (level + 1) items)
  | .map entries => layout.enclose level "\x7b" "\x7d" (writeEntries layout (level + 1) entries)

def writeItems (layout : Layout) (level : Nat) : List Value → List String
  | [] => []
  | item :: rest => write layout level item :: writeItems layout level rest

def writeEntries (layout : Layout) (level : Nat) : List (Scalar × Value) → List String
  | [] => []
  | (key, value) :: rest =>
    (keyText key ++ ": " ++ write layout level value) :: writeEntries layout level rest

end

/-- Keys that JSON text can hold. -/
def isKey : Scalar → Bool
  | .date _ | .moment _ => false
  | _ => true

mutual

/-- The first key of a value that has no JSON text. -/
def badKey? : Value → Option Scalar
  | .scalar _ => none
  | .list items => badKeyIn? items
  | .map entries => badKeyOf? entries

def badKeyIn? : List Value → Option Scalar
  | [] => none
  | item :: rest => (badKey? item).orElse fun _ => badKeyIn? rest

def badKeyOf? : List (Scalar × Value) → Option Scalar
  | [] => none
  | (key, value) :: rest =>
    if isKey key then (badKey? value).orElse fun _ => badKeyOf? rest else some key

end

mutual

/-- Whether all floats of a value are finite. -/
def isFinite : Value → Bool
  | .scalar (.float x) => isFiniteFloat x
  | .scalar _ => true
  | .list items => areFinite items
  | .map entries => haveFinite entries

def areFinite : List Value → Bool
  | [] => true
  | item :: rest => isFinite item && areFinite rest

def haveFinite : List (Scalar × Value) → Bool
  | [] => true
  | (_, value) :: rest => isFinite value && haveFinite rest

end

/-- The text of a value, or the key that stands in the way. -/
def encode (layout : Layout) (value : Value) : Except Scalar String :=
  match badKey? value with
  | some key => .error key
  | none => .ok (write layout 0 value)

end Workflow.Json
