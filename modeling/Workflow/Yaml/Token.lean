import Workflow.Yaml.ScalarText

/-!
The tokens of a YAML text. Indentation is made explicit: a deeper column opens a block, a shallower
one closes it. A key without an indicator is recognised only by the colon behind it, so its token
is put in front of what was read since.
-/

namespace Workflow.Yaml

inductive Token where
  | versionDirective (major : Nat)
  | handleDirective (handle uri : String)
  | otherDirective
  | documentStart
  | documentEnd
  | blockSequenceStart
  | blockMappingStart
  | blockEnd
  | flowSequenceStart
  | flowSequenceEnd
  | flowMappingStart
  | flowMappingEnd
  | blockEntry
  | flowEntry
  | key
  | value
  | alias (name : String)
  | anchor (name : String)
  | tag (handle : Option String) (suffix : String)
  | scalar (text : String) (isPlain : Bool)
  deriving DecidableEq

/-- Where a key may have begun: the number of tokens before it, and its place. -/
structure Candidate where
  position : Nat
  required : Bool
  index : Nat
  line : Nat
  column : Nat

/-- `candidates` holds at most one candidate for each flow level. -/
structure Scanner where
  cursor : Cursor
  tokens : Array Token := #[]
  flowLevel : Nat := 0
  indent : Int := -1
  indents : List Int := []
  keyAllowed : Bool := true
  candidates : List (Nat × Candidate) := []

namespace Scanner

def emit (s : Scanner) (t : Token) : Scanner := { s with tokens := s.tokens.push t }

def inFlow (s : Scanner) : Bool := s.flowLevel ≠ 0

def moveTo (s : Scanner) (c : Cursor) : Scanner := { s with cursor := c }

/-- Passes spaces, comments and line breaks; after a break a key may begin. -/
def skipGaps : Nat → Scanner → Scanner
  | 0, s => s
  | fuel + 1, s =>
    let c := s.cursor.dropWhile (· = ' ')
    let c := if c.head = '#' then c.dropWhile (!isBreakOrEnd ·) else c
    match c.takeBreak with
    | (some _, c) =>
      skipGaps fuel { s with cursor := c, keyAllowed := s.keyAllowed || !s.inFlow }
    | (none, c) => s.moveTo c

/-- A key ends on the line it begins on, and within 1024 characters. -/
def dropStale? (s : Scanner) : Option Scanner :=
  let isStale (k : Candidate) : Bool :=
    k.line ≠ s.cursor.line || s.cursor.index - k.index > 1024
  if s.candidates.any fun entry => isStale entry.2 && entry.2.required then none
  else some { s with candidates := s.candidates.filter fun entry => !isStale entry.2 }

def candidate? (s : Scanner) : Option Candidate :=
  (s.candidates.find? (·.1 = s.flowLevel)).map (·.2)

/-- Gives up the candidate of this level. One that had to be a key cannot be given up. -/
def dropCandidate? (s : Scanner) : Option Scanner :=
  match s.candidate? with
  | none => some s
  | some k =>
    if k.required then none
    else some { s with candidates := s.candidates.filter (·.1 ≠ s.flowLevel) }

/-- Notes that a key may begin here. -/
def noteCandidate? (s : Scanner) : Option Scanner :=
  if s.keyAllowed then
    s.dropCandidate?.map fun s =>
      let k : Candidate :=
        { position := s.tokens.size
          required := !s.inFlow && s.indent = s.cursor.column
          index := s.cursor.index
          line := s.cursor.line
          column := s.cursor.column }
      { s with candidates := (s.flowLevel, k) :: s.candidates }
  else some s

/-- Closes the blocks that are indented deeper than a column. -/
def unwind (column : Int) : Nat → Scanner → Scanner
  | 0, s => s
  | fuel + 1, s =>
    if s.inFlow || s.indent ≤ column then s
    else
      match s.indents with
      | [] => { s with indent := -1 }.emit .blockEnd
      | indent :: indents =>
        unwind column fuel ({ s with indent := indent, indents := indents }.emit .blockEnd)

def unwindTo (s : Scanner) (column : Int) : Scanner := unwind column (s.indents.length + 1) s

/-- Opens a block at a column that is deeper than the current one. -/
def openBlock (s : Scanner) (column : Nat) (position : Nat) (opening : Token) : Scanner :=
  if s.indent < column then
    { s with
      indents := s.indent :: s.indents
      indent := column
      tokens := s.tokens.insertIdxIfInBounds position opening }
  else s

/-- Passes `length` characters as one token. -/
def pass (s : Scanner) (length : Nat) (t : Token) : Scanner :=
  (s.moveTo (s.cursor.skip length)).emit t

def readDigits (c : Cursor) : List Char × Cursor := c.takeWhile Json.isDigit

def isUriChar (c : Char) : Bool :=
  isWordChar c || "-;/?:@&=+$,_.!~*'()[]%".toList.contains c

/-- Escaped bytes of a character above ASCII are taken one by one. -/
def unescapeUri : Nat → List Char → Option (List Char)
  | _, [] => some []
  | 0, _ :: _ => none
  | fuel + 1, '%' :: rest => do
    let high ← Json.hexValue? (rest.getD 0 endMark)
    let low ← Json.hexValue? (rest.getD 1 endMark)
    return Char.ofNat (16 * high + low) :: (← unescapeUri fuel (rest.drop 2))
  | fuel + 1, c :: rest => return c :: (← unescapeUri fuel rest)

def readUri? (c : Cursor) : Option (String × Cursor) := do
  let (uri, c) := c.takeWhile isUriChar
  if uri.isEmpty then none
  else return (String.ofList (← unescapeUri uri.length uri), c)

/-- A handle is `!`, or word characters between two of them. -/
def readHandle? (c : Cursor) : Option (String × Cursor) :=
  if c.head ≠ '!' then none
  else if c.peek 1 = ' ' then some ("!", c.next)
  else
    let (word, rest) := c.next.takeWhile isWordChar
    if rest.head = '!' then some (String.ofList ('!' :: word ++ ['!']), rest.next) else none

def readTag? (c : Cursor) : Option (Token × Cursor) := do
  let following := c.peek 1
  let (token, c) ←
    if following = '<' then do
      let (uri, c) ← readUri? (c.skip 2)
      if c.head = '>' then some (Token.tag none uri, c.next) else none
    else if isGap following then some (Token.tag none "!", c.next)
    else do
      let word := c.next.rest.takeWhile fun ch => !(isBreakOrEnd ch || ch = ' ')
      let (handle, c) ← if word.contains '!' then readHandle? c else some ("!", c.next)
      let (suffix, c) ← readUri? c
      some (Token.tag (some handle) suffix, c)
  if isBreakOrEnd c.head || c.head = ' ' then some (token, c) else none

def readName? (c : Cursor) : Option (String × Cursor) :=
  let (name, c) := c.next.takeWhile isWordChar
  if name.isEmpty then none
  else if isGap c.head || "?:,]\x7d%@\x60".toList.contains c.head then some (String.ofList name, c)
  else none

def readDirective? (c : Cursor) : Option (Token × Cursor) := do
  let (name, c) := c.next.takeWhile isWordChar
  if name.isEmpty || !(isBreakOrEnd c.head || c.head = ' ') then none
  else
    let (token, c) ← match String.ofList name with
      | "YAML" => do
        let (major, c) := readDigits (c.dropWhile (· = ' '))
        let (minor, rest) := readDigits c.next
        if major.isEmpty || minor.isEmpty || c.head ≠ '.' ||
            !(isBreakOrEnd rest.head || rest.head = ' ') then none
        else some (Token.versionDirective (Decimal.ofDigits (Json.digitsOf major)), rest)
      | "TAG" => do
        let (handle, c) ← readHandle? (c.dropWhile (· = ' '))
        if c.head ≠ ' ' then none
        else
          let (uri, c) ← readUri? (c.dropWhile (· = ' '))
          if isBreakOrEnd c.head || c.head = ' ' then some (Token.handleDirective handle uri, c)
          else none
      | _ => some (Token.otherDirective, c.dropWhile (!isBreakOrEnd ·))
    return (token, ← ScalarText.restOfLine? c)

/-- Whether a plain scalar can begin here. -/
def isPlainStart (s : Scanner) : Bool :=
  let ch := s.cursor.head
  let reserved := isGap ch || "-?:,[]\x7b\x7d#&*!|>'\"%@\x60".toList.contains ch
  !reserved ||
    (!isGap (s.cursor.peek 1) && (ch = '-' || (!s.inFlow && (ch = '?' || ch = ':'))))

def beforeMarker? (s : Scanner) : Option Scanner :=
  (s.unwindTo (-1)).dropCandidate?.map ({ · with keyAllowed := false })

def flowStart? (s : Scanner) (t : Token) : Option Scanner := do
  let s ← s.noteCandidate?
  return { s with flowLevel := s.flowLevel + 1, keyAllowed := true }.pass 1 t

def flowEnd? (s : Scanner) (t : Token) : Option Scanner := do
  let s ← s.dropCandidate?
  if s.flowLevel = 0 then none
  else return { s with flowLevel := s.flowLevel - 1, keyAllowed := false }.pass 1 t

/-- An indicator of a block collection may open the collection it belongs to. Outside of flow
collections it has to stand where a key may begin. -/
def beforeIndicator? (s : Scanner) (opening : Token) : Option Scanner :=
  if s.inFlow then some s
  else if s.keyAllowed then some (s.openBlock s.cursor.column s.tokens.size opening)
  else none

def blockEntry? (s : Scanner) : Option Scanner := do
  let s ← s.beforeIndicator? .blockSequenceStart
  let s ← { s with keyAllowed := true }.dropCandidate?
  return s.pass 1 .blockEntry

def key? (s : Scanner) : Option Scanner := do
  let s ← s.beforeIndicator? .blockMappingStart
  let s ← { s with keyAllowed := !s.inFlow }.dropCandidate?
  return s.pass 1 .key

def value? (s : Scanner) : Option Scanner :=
  match s.candidate? with
  | some k =>
    let s :=
      { s with
        candidates := s.candidates.filter (·.1 ≠ s.flowLevel)
        tokens := s.tokens.insertIdxIfInBounds k.position .key
        keyAllowed := false }
    let s := if s.inFlow then s else s.openBlock k.column k.position .blockMappingStart
    some (s.pass 1 .value)
  | none => do
    let s ← s.beforeIndicator? .blockMappingStart
    let s ← { s with keyAllowed := !s.inFlow }.dropCandidate?
    return s.pass 1 .value

def named? (s : Scanner) (token : String → Token) : Option Scanner := do
  let s ← s.noteCandidate?
  let (name, c) ← readName? s.cursor
  return ({ s with keyAllowed := false }.moveTo c).emit (token name)

def tag? (s : Scanner) : Option Scanner := do
  let s ← s.noteCandidate?
  let (token, c) ← readTag? s.cursor
  return ({ s with keyAllowed := false }.moveTo c).emit token

def block? (s : Scanner) : Option Scanner := do
  let s ← { s with keyAllowed := true }.dropCandidate?
  let (text, c) ← ScalarText.block? s.indent s.cursor
  return (s.moveTo c).emit (.scalar text false)

def quoted? (s : Scanner) : Option Scanner := do
  let s ← s.noteCandidate?
  let (text, c) ← ScalarText.quoted? s.cursor
  return ({ s with keyAllowed := false }.moveTo c).emit (.scalar text false)

def plain? (s : Scanner) : Option Scanner := do
  let s ← s.noteCandidate?
  let p := ScalarText.plain s.inFlow (s.indent + 1) s.cursor
  return ({ s with keyAllowed := p.passedLine }.moveTo p.cursor).emit
    (.scalar (String.ofList p.text) true)

/-- Reads the token that begins at the cursor, together with those it implies. -/
def token? (s : Scanner) : Option Scanner :=
  let c := s.cursor
  let ch := c.head
  let gapFollows := isGap (c.peek 1)
  if ch = '%' && c.column = 0 then do
    let s ← s.beforeMarker?
    let (token, c) ← readDirective? s.cursor
    return (s.moveTo c).emit token
  else if c.column = 0 && c.isAtMarker '-' then s.beforeMarker?.map (·.pass 3 .documentStart)
  else if c.column = 0 && c.isAtMarker '.' then s.beforeMarker?.map (·.pass 3 .documentEnd)
  else if ch = '[' then s.flowStart? .flowSequenceStart
  else if ch = '\x7b' then s.flowStart? .flowMappingStart
  else if ch = ']' then s.flowEnd? .flowSequenceEnd
  else if ch = '\x7d' then s.flowEnd? .flowMappingEnd
  else if ch = ',' then do
    let s ← { s with keyAllowed := true }.dropCandidate?
    return s.pass 1 .flowEntry
  else if ch = '-' && gapFollows then s.blockEntry?
  else if ch = '?' && (s.inFlow || gapFollows) then s.key?
  else if ch = ':' && (s.inFlow || gapFollows) then s.value?
  else if ch = '*' then s.named? .alias
  else if ch = '&' then s.named? .anchor
  else if ch = '!' then s.tag?
  else if (ch = '|' || ch = '>') && !s.inFlow then s.block?
  else if ch = '\x27' || ch = '\x22' then s.quoted?
  else if s.isPlainStart then s.plain?
  else none

/-- Every token passes at least one character. -/
def scan : Nat → Scanner → Option (List Token)
  | 0, _ => none
  | fuel + 1, s => do
    let s ← (skipGaps (s.cursor.rest.length + 1) s).dropStale?
    let s := s.unwindTo s.cursor.column
    if s.cursor.rest.isEmpty then
      let s ← (s.unwindTo (-1)).dropCandidate?
      return s.tokens.toList
    else scan fuel (← s.token?)

end Scanner

/-- The tokens of a text, if it is made of permitted characters and has the form of YAML. -/
def Token.ofText? (text : String) : Option (List Token) :=
  let cs := text.toList
  if cs.all isPermitted then
    let cs := if cs.head? = some '\ufeff' then cs.tail else cs
    Scanner.scan (cs.length + 2) { cursor := .start cs }
  else none

end Workflow.Yaml
