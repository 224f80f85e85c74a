import Workflow.Json.Reader
import Workflow.Yaml.Cursor

/-!
The texts of YAML scalars: plain, in quotes, or as an indented block. Every reader returns the text
and the cursor behind it; the fuel bounds the number of lines and runs and is never used up.
-/

namespace Workflow.Yaml.ScalarText

/-- Line breaks, and the blanks around them; a document marker must not follow. -/
def quotedBreaks? : Nat → Cursor → List Char → Option (List Char × Cursor)
  | 0, _, _ => none
  | fuel + 1, c, breaks =>
    if c.isAtDocumentMarker then none
    else
      let c := c.dropWhile fun ch => ch = ' ' || ch = '\t'
      match c.takeBreak with
      | (some b, c) => quotedBreaks? fuel c (breaks ++ [b])
      | (none, c) => some (breaks, c)

/-- A single line break is folded into a space, further ones are kept. -/
def folded (first : Char) (breaks : List Char) : List Char :=
  (if first ≠ '\n' then [first] else if breaks.isEmpty then [' '] else []) ++ breaks

def quotedSpaces? (fuel : Nat) (c : Cursor) : Option (List Char × Cursor) :=
  let (spaces, c) := c.takeWhile fun ch => ch = ' ' || ch = '\t'
  if c.head = endMark then none
  else match c.takeBreak with
    | (some first, c) => (quotedBreaks? fuel c []).map fun (breaks, c) => (folded first breaks, c)
    | (none, c) => some (spaces, c)

def simpleEscapes : List (Char × Nat) :=
  [('0', 0), ('a', 7), ('b', 8), ('t', 9), ('\t', 9), ('n', 10), ('v', 11), ('f', 12), ('r', 13),
    ('e', 27), (' ', 32), ('\x22', 0x22), ('\\', 0x5c), ('/', 0x2f), ('N', 0x85), ('_', 0xa0),
    ('L', 0x2028), ('P', 0x2029)]

/-- How many hexadecimal digits follow the letter of an escape. -/
def escapeLength? : Char → Option Nat
  | 'x' => some 2
  | 'u' => some 4
  | 'U' => some 8
  | _ => none

def hexNumber? (cs : List Char) : Option Nat :=
  cs.foldlM (fun n c => (Json.hexValue? c).map (16 * n + ·)) 0

/-- What a backslash in double quotes stands for; the cursor is behind it. -/
def escape? (fuel : Nat) (c : Cursor) : Option (List Char × Cursor) :=
  match simpleEscapes.find? (·.1 = c.head) with
  | some (_, code) => if c.rest.isEmpty then none else some ([Char.ofNat code], c.next)
  | none => match escapeLength? c.head with
    | some length => do
      let c := c.next
      let digits := c.rest.take length
      if digits.length < length then none
      else
        let code ← hexNumber? digits
        if code < 0x110000 then some ([Char.ofNat code], c.skip length) else none
    | none => match c.takeBreak with
      | (some _, c) => quotedBreaks? fuel c []
      | (none, _) => none

/-- A run of characters in quotes that are neither blanks nor the closing quote. -/
def quotedRun? (double : Bool) : Nat → Cursor → List Char → Option (List Char × Cursor)
  | 0, _, _ => none
  | fuel + 1, c, run =>
    let (more, c) := c.takeWhile fun ch => !(isGap ch || ch = '\x27' || ch = '\x22' || ch = '\\')
    let run := run ++ more
    let ch := c.head
    if !double && ch = '\x27' && c.peek 1 = '\x27' then
      quotedRun? double fuel (c.skip 2) (run ++ ['\x27'])
    else if (double && ch = '\x27') || (!double && (ch = '\x22' || ch = '\\')) then
      quotedRun? double fuel c.next (run ++ [ch])
    else if double && ch = '\\' then
      match escape? fuel c.next with
      | some (chars, c) => quotedRun? double fuel c (run ++ chars)
      | none => none
    else some (run, c)

def quotedRest? (double : Bool) (quote : Char) :
    Nat → Cursor → List Char → Option (List Char × Cursor)
  | 0, _, _ => none
  | fuel + 1, c, text =>
    if c.head = quote then some (text, c.next)
    else do
      let (spaces, c) ← quotedSpaces? fuel c
      let (run, c) ← quotedRun? double fuel c []
      quotedRest? double quote fuel c (text ++ spaces ++ run)

/-- A scalar in quotes; the cursor is at the opening one. -/
def quoted? (c : Cursor) : Option (String × Cursor) := do
  let quote := c.head
  let double := quote = '\x22'
  let fuel := c.rest.length + 2
  let (run, c) ← quotedRun? double fuel c.next []
  let (text, c) ← quotedRest? double quote fuel c run
  return (String.ofList text, c)

/-- The end of a run of characters of a plain scalar. -/
def endsPlainRun (inFlow : Bool) (ch following : Char) : Bool :=
  isGap ch ||
    (ch = ':' && (isGap following || (inFlow && (",[]\x7b\x7d".toList.contains following)))) ||
    (inFlow && (",?[]\x7b\x7d".toList.contains ch))

def plainRunLength (inFlow : Bool) : List Char → Nat
  | [] => 0
  | ch :: rest =>
    if endsPlainRun inFlow ch (rest.headD endMark) then 0 else plainRunLength inFlow rest + 1

/-- Line breaks and spaces between two runs; none when a document marker follows. -/
def plainBreaks? : Nat → Cursor → List Char → Option (List Char) × Cursor
  | 0, c, _ => (none, c)
  | fuel + 1, c, breaks =>
    if c.head = ' ' then plainBreaks? fuel c.next breaks
    else match c.takeBreak with
      | (some b, c) =>
        if c.isAtDocumentMarker then (none, c) else plainBreaks? fuel c (breaks ++ [b])
      | (none, c) => (some breaks, c)

/-- What lies between two runs of a plain scalar, and whether a line was passed. -/
def plainSpaces (fuel : Nat) (c : Cursor) : List Char × Bool × Cursor :=
  let (spaces, c) := c.takeWhile (· = ' ')
  match c.takeBreak with
  | (some first, c) =>
    if c.isAtDocumentMarker then ([], true, c)
    else match plainBreaks? fuel c [] with
      | (some breaks, c) => (folded first breaks, true, c)
      | (none, c) => ([], true, c)
  | (none, c) => (spaces, false, c)

structure Plain where
  text : List Char
  passedLine : Bool
  cursor : Cursor

/-- A plain scalar goes on over lines that are indented to `indent` at least. -/
def plainFrom (inFlow : Bool) (indent : Int) : Nat → Plain → List Char → Plain
  | 0, p, _ => p
  | fuel + 1, p, spaces =>
    let length := if p.cursor.head = '#' then 0 else plainRunLength inFlow p.cursor.rest
    if length = 0 then p
    else
      let text := p.text ++ spaces ++ p.cursor.rest.take length
      let (spaces, passedLine, cursor) := plainSpaces fuel (p.cursor.skip length)
      let p : Plain := ⟨text, passedLine, cursor⟩
      if spaces.isEmpty || cursor.head = '#' || (!inFlow && cursor.column < indent) then p
      else plainFrom inFlow indent fuel p spaces

def plain (inFlow : Bool) (indent : Int) (c : Cursor) : Plain :=
  plainFrom inFlow indent (c.rest.length + 2) ⟨[], false, c⟩ []

/-- What becomes of the line breaks at the end of a block. -/
inductive Chomping where
  | strip
  | clip
  | keep
  deriving DecidableEq

def chomping? : Char → Option Chomping
  | '+' => some .keep
  | '-' => some .strip
  | _ => none

def increment? (c : Char) : Option Nat := if '1' ≤ c ∧ c ≤ '9' then some (c.toNat - 48) else none

/-- The indicators after `|` or `>`, in either order. -/
def blockHeader? (c : Cursor) : Option (Chomping × Option Nat × Cursor) :=
  let (chomping, c) := match chomping? c.head with
    | some chomping => (some chomping, c.next)
    | none => (none, c)
  let (increment, c) := match increment? c.head with
    | some increment => (some increment, c.next)
    | none => (none, c)
  let (chomping, c) := match chomping, increment, chomping? c.head with
    | none, some _, some late => (some late, c.next)
    | early, _, _ => (early, c)
  if c.head = ' ' || isBreakOrEnd c.head then some (chomping.getD .clip, increment, c) else none

/-- The rest of a line may hold a comment. -/
def restOfLine? (c : Cursor) : Option Cursor :=
  let c := c.dropWhile (· = ' ')
  let c := if c.head = '#' then c.dropWhile (!isBreakOrEnd ·) else c
  if isBreakOrEnd c.head then some c.takeBreak.2 else none

/-- Leading empty lines, and the deepest column among them and the first text. -/
def blockIndentation : Nat → Cursor → List Char → Nat → List Char × Nat × Cursor
  | 0, c, breaks, deepest => (breaks, deepest, c)
  | fuel + 1, c, breaks, deepest =>
    if c.head = ' ' then
      blockIndentation fuel c.next breaks (max deepest c.next.column)
    else match c.takeBreak with
      | (some b, c) => blockIndentation fuel c (breaks ++ [b]) deepest
      | (none, c) => (breaks, deepest, c)

def skipIndent (indent : Nat) : Nat → Cursor → Cursor
  | 0, c => c
  | fuel + 1, c => if c.column < indent && c.head = ' ' then skipIndent indent fuel c.next else c

/-- Empty lines of a block. -/
def blockBreaks (indent : Nat) : Nat → Cursor → List Char → List Char × Cursor
  | 0, c, breaks => (breaks, c)
  | fuel + 1, c, breaks =>
    match (skipIndent indent indent c).takeBreak with
    | (some b, c) => blockBreaks indent fuel c (breaks ++ [b])
    | (none, c) => (breaks, c)

structure Block where
  text : List Char
  lastBreak : List Char
  breaks : List Char
  cursor : Cursor

def isBlank (c : Char) : Bool := c = ' ' || c = '\t'

/-- The lines of a block. In a folded one a break between two lines of text becomes a space. -/
def blockLines (isFolded : Bool) (indent : Nat) : Nat → Block → Block
  | 0, b => b
  | fuel + 1, b =>
    if b.cursor.column = indent && !b.cursor.rest.isEmpty then
      let startsWithText := !isBlank b.cursor.head
      let (line, c) := b.cursor.takeWhile (!isBreakOrEnd ·)
      let (lastBreak, c) := c.takeBreak
      let (breaks, c) := blockBreaks indent fuel c []
      let text := b.text ++ b.breaks ++ line
      if c.column = indent && !c.rest.isEmpty then
        let joint :=
          if isFolded && lastBreak = some '\n' && startsWithText && !isBlank c.head then
            (if breaks.isEmpty then [' '] else [])
          else lastBreak.toList
        blockLines isFolded indent fuel ⟨text ++ joint, lastBreak.toList, breaks, c⟩
      else ⟨text, lastBreak.toList, breaks, c⟩
    else b

/-- A block scalar; the cursor is at its indicator. -/
def block? (parentIndent : Int) (c : Cursor) : Option (String × Cursor) := do
  let isFolded := c.head = '>'
  let (chomping, increment, c) ← blockHeader? c.next
  let c ← restOfLine? c
  let fuel := c.rest.length + 2
  let least := (max (parentIndent + 1) 1).toNat
  let (breaks, indent, c) := match increment with
    | none =>
      let (breaks, deepest, c) := blockIndentation fuel c [] 0
      (breaks, max least deepest, c)
    | some increment =>
      let indent := least + increment - 1
      let (breaks, c) := blockBreaks indent fuel c []
      (breaks, indent, c)
  let b := blockLines isFolded indent fuel ⟨[], [], breaks, c⟩
  let ending := match chomping with
    | .strip => []
    | .clip => b.lastBreak
    | .keep => b.lastBreak ++ b.breaks
  return (String.ofList (b.text ++ ending), b.cursor)

end Workflow.Yaml.ScalarText
