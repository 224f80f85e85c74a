import Workflow.Decimal.Text
import Workflow.Text.Digit
import Workflow.Validation.Scalar

/-!
Network addresses as they stand in the authority of a URL: four decimal bytes, or up to eight groups
of hexadecimal digits of which one run of zeros may be left out.
-/

namespace Workflow.Http.Address

/-- A decimal byte without needless zeros. -/
def isByte (part : List Char) : Bool :=
  !part.isEmpty && part.all Decode.isDigit && part.length ≤ 3 &&
    (part.length = 1 || part.head? ≠ some '0') && Decode.digitsToNat part < 256

/-- An address of four bytes. -/
def isFourBytes (text : List Char) : Bool :=
  let parts := Text.splitOn '.' text
  parts.length = 4 && parts.all isByte

/-- Where a reader of four numbers can stand: the separators still to come, and whether the current
number has begun. -/
abbrev NumberState := Nat × Bool

def NumberState.step (c : Char) (state : NumberState) : List NumberState :=
  (if Decode.isDigit c then [(state.1, true)] else []) ++
    match state with
    | (n + 1, true) => [(n, false)]
    | _ => []

/-- Whether a text consists of four numbers with any characters in between; it then has to be an
address. -/
def looksNumeric (text : List Char) : Bool :=
  let states := text.foldl (fun states c => distinct (states.flatMap (NumberState.step c)))
    [((3, false) : NumberState)]
  states.contains (0, true)

def isHexDigit (c : Char) : Bool :=
  Decode.isDigit c || ('a' ≤ c && c ≤ 'f') || ('A' ≤ c && c ≤ 'F')

def isGroup (part : List Char) : Bool :=
  !part.isEmpty && part.length ≤ 4 && part.all isHexDigit

/-- The groups of an address; four bytes at the end stand for two groups. -/
def groups? (text : List Char) : Option (List (List Char)) :=
  let parts := Text.splitOn ':' text
  let last := parts.getLastD []
  if parts.length < 3 then none
  else if last.contains '.' then
    if isFourBytes last then some (parts.dropLast ++ [['0'], ['0']]) else none
  else some parts

/-- Groups without an omission are eight; with one they are fewer, and an empty group at an end
belongs to the omission. -/
def areGroups (parts : List (List Char)) : Bool :=
  let inner := (parts.drop 1).dropLast
  match inner.findIdx? (·.isEmpty) with
  | none => parts.length = 8 && parts.all isGroup
  | some i =>
    let front := parts.take (i + 1)
    let back := parts.drop (i + 2)
    let isEnd (side : List (List Char)) : Bool := side = [[]]
    let before := if isEnd front then [] else front
    let after := if isEnd back then [] else back
    before.all isGroup && after.all isGroup && before.length + after.length < 8

/-- An address of groups, perhaps with a zone behind a percent sign. -/
def isGrouped (text : List Char) : Bool :=
  let address := text.takeWhile (· ≠ '%')
  let zone := text.dropWhile (· ≠ '%')
  let hasZone := !zone.isEmpty
  !text.contains '/' && !(hasZone && (zone.length = 1 || (zone.drop 1).contains '%')) &&
    ((groups? address).map areGroups).getD false

/-- A number as it may stand for the service on a host: digits of any script, a sign, and single
underscores in between. -/
def isServiceNumber (text : List Char) : Bool :=
  let (_, digits) := Decode.splitSign (Text.trimBy Text.isBlank text)
  match Decode.withoutUnderscores? digits with
  | some digits => !digits.isEmpty && digits.all fun c => (Text.digitValue? c).isSome
  | none => false

end Workflow.Http.Address
