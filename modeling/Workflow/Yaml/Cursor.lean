/-!
A place in a YAML text: what is still to be read, and how many characters, lines and columns have
been passed.
-/

namespace Workflow.Yaml

structure Cursor where
  rest : List Char
  index : Nat
  line : Nat
  column : Nat

/-- Stands for the end of the text, which holds no such character itself. -/
def endMark : Char := '\x00'

def isBreak (c : Char) : Bool :=
  c = '\n' || c = '\r' || c.toNat = 0x85 || c.toNat = 0x2028 || c.toNat = 0x2029

def isBreakOrEnd (c : Char) : Bool := isBreak c || c = endMark

/-- A line break, the end, or a space. -/
def isGap (c : Char) : Bool := isBreakOrEnd c || c = ' ' || c = '\t'

def isWordChar (c : Char) : Bool :=
  ('0' ≤ c && c ≤ '9') || ('A' ≤ c && c ≤ 'Z') || ('a' ≤ c && c ≤ 'z') || c = '-' || c = '_'

/-- Characters that may occur in a text at all. -/
def isPermitted (c : Char) : Bool :=
  let n := c.toNat
  n = 9 || n = 10 || n = 13 || (0x20 ≤ n && n ≤ 0x7e) || n = 0x85 || (0xa0 ≤ n && n ≤ 0xd7ff) ||
    (0xe000 ≤ n && n ≤ 0xfffd) || 0x10000 ≤ n

namespace Cursor

def start (text : List Char) : Cursor := ⟨text, 0, 0, 0⟩

def peek (c : Cursor) (offset : Nat) : Char := c.rest.getD offset endMark

def head (c : Cursor) : Char := c.rest.headD endMark

/-- Passes one character. A byte order mark takes no column. -/
def next (c : Cursor) : Cursor :=
  match c.rest with
  | [] => c
  | ch :: rest =>
    if isBreak ch && !(ch = '\r' && rest.headD endMark = '\n') then
      ⟨rest, c.index + 1, c.line + 1, 0⟩
    else ⟨rest, c.index + 1, c.line, if ch = '\ufeff' then c.column else c.column + 1⟩

def skip (c : Cursor) : Nat → Cursor
  | 0 => c
  | n + 1 => c.next.skip n

/-- Passes the longest run of characters that satisfy `p`. -/
def takeWhile (c : Cursor) (p : Char → Bool) : List Char × Cursor :=
  let run := c.rest.takeWhile p
  (run, c.skip run.length)

def dropWhile (c : Cursor) (p : Char → Bool) : Cursor := (c.takeWhile p).2

/-- Passes a line break if there is one. All breaks but two count as the same. -/
def takeBreak (c : Cursor) : Option Char × Cursor :=
  if !isBreak c.head then (none, c)
  else if c.head = '\r' && c.peek 1 = '\n' then (some '\n', c.skip 2)
  else if c.head.toNat = 0x2028 || c.head.toNat = 0x2029 then (some c.head, c.next)
  else (some '\n', c.next)

/-- Whether three given characters stand here and a gap follows. -/
def isAtMarker (c : Cursor) (mark : Char) : Bool :=
  c.peek 0 = mark && c.peek 1 = mark && c.peek 2 = mark && isGap (c.peek 3)

/-- Whether a line that begins here would begin or end a document. -/
def isAtDocumentMarker (c : Cursor) : Bool := c.isAtMarker '-' || c.isAtMarker '.'

end Cursor

end Workflow.Yaml
