import Workflow.Table
import Workflow.Yaml.Token

/-!
The nodes of a YAML document. Aliases are replaced by what they stand for, and the handles of tags
by what they abbreviate. The fuel of the readers bounds their nesting; a few units for each token
are enough.
-/

namespace Workflow.Yaml

inductive Node where
  | scalar (tag : Option String) (text : String) (isPlain : Bool)
  | sequence (tag : Option String) (items : List Node)
  | mapping (tag : Option String) (entries : List (Node × Node))
  deriving Inhabited

namespace Node

/-- A node that is not written at all. -/
def empty (tag : Option String) : Node := .scalar tag "" true

/-- The tokens still to be read, and the nodes that have been given a name. -/
structure Source where
  tokens : List Token
  anchors : Table String Node := []
  handles : Table String String

def Source.next? (s : Source) : Option Token := s.tokens.head?

def Source.drop (s : Source) : Source := { s with tokens := s.tokens.tail }

/-- Passes a token that has to come next. -/
def Source.expect? (s : Source) (t : Token) : Option Source :=
  if s.next? = some t then some s.drop else none

def Source.isAt (s : Source) (ts : List Token) : Bool :=
  match s.next? with
  | none => true
  | some t => ts.contains t

/-- Name and tag of a node, in either order. -/
structure Properties where
  anchor : Option String := none
  tag : Option String := none

def tagName? (s : Source) (handle : Option String) (suffix : String) : Option String :=
  match handle with
  | none => some suffix
  | some handle => (Table.find? s.handles handle).map (· ++ suffix)

def properties? (s : Source) : Option (Properties × Source) :=
  match s.tokens with
  | .anchor name :: .tag handle suffix :: rest =>
    (tagName? s handle suffix).map fun tag => (⟨some name, some tag⟩, { s with tokens := rest })
  | .tag handle suffix :: .anchor name :: rest =>
    (tagName? s handle suffix).map fun tag => (⟨some name, some tag⟩, { s with tokens := rest })
  | .anchor name :: rest => some (⟨some name, none⟩, { s with tokens := rest })
  | .tag handle suffix :: rest =>
    (tagName? s handle suffix).map fun tag => (⟨none, some tag⟩, { s with tokens := rest })
  | _ => some ({}, s)

/-- The tag `!` asks for the meaning the text would have without quotes. -/
def scalarOf (tag : Option String) (text : String) (isPlain : Bool) : Node :=
  if tag = some "!" then .scalar none text true else .scalar tag text isPlain

def collectionTag (tag : Option String) : Option String := tag.filter (· ≠ "!")

/-- A name may be given to one node only. -/
def named? (p : Properties) : Node × Source → Option (Node × Source)
  | (node, s) =>
    match p.anchor with
    | none => some (node, s)
    | some name =>
      if Table.contains s.anchors name then none
      else some (node, { s with anchors := Table.insert s.anchors name node })

/-- Where a node may stand decides which collections it can be. -/
inductive Position where
  | block
  /-- The value or key of a block mapping, where a sequence need not be indented. -/
  | entry
  | flow
  deriving DecidableEq

mutual

def read? (position : Position) : Nat → Source → Option (Node × Source)
  | 0, _ => none
  | fuel + 1, s =>
    match s.tokens with
    | .alias name :: _ => (Table.find? s.anchors name).map fun node => (node, s.drop)
    | _ =>
      match properties? s with
      | none => none
      | some (p, s) =>
        match s.tokens with
        | .scalar text isPlain :: _ => named? p (scalarOf p.tag text isPlain, s.drop)
        | .flowSequenceStart :: _ =>
          (flowSequence? fuel true [] s.drop).bind fun (items, s) =>
            named? p (.sequence (collectionTag p.tag) items, s)
        | .flowMappingStart :: _ =>
          (flowMapping? fuel true [] s.drop).bind fun (entries, s) =>
            named? p (.mapping (collectionTag p.tag) entries, s)
        | .blockSequenceStart :: _ =>
          if position = .flow then none
          else (blockSequence? fuel [] s.drop).bind fun (items, s) =>
            named? p (.sequence (collectionTag p.tag) items, s)
        | .blockMappingStart :: _ =>
          if position = .flow then none
          else (blockMapping? fuel [] s.drop).bind fun (entries, s) =>
            named? p (.mapping (collectionTag p.tag) entries, s)
        | .blockEntry :: _ =>
          if position = .entry then
            (looseSequence? fuel [] s).bind fun (items, s) =>
              named? p (.sequence (collectionTag p.tag) items, s)
          else if p.anchor.isSome || p.tag.isSome then named? p (scalarOf p.tag "" true, s)
          else none
        | _ =>
          if p.anchor.isSome || p.tag.isSome then named? p (scalarOf p.tag "" true, s) else none

/-- A node, unless one of the tokens `ends` or the end comes next. -/
def readUnless? (position : Position) (ends : List Token) : Nat → Source → Option (Node × Source)
  | 0, _ => none
  | fuel + 1, s => if s.isAt ends then some (empty none, s) else read? position fuel s

def blockSequence? : Nat → List Node → Source → Option (List Node × Source)
  | 0, _, _ => none
  | fuel + 1, items, s =>
    match s.next? with
    | some .blockEntry =>
      match readUnless? .block [.blockEntry, .blockEnd] fuel s.drop with
      | some (item, s) => blockSequence? fuel (item :: items) s
      | none => none
    | some .blockEnd => some (items.reverse, s.drop)
    | _ => none

/-- A sequence that is indented no deeper than the key before it. -/
def looseSequence? : Nat → List Node → Source → Option (List Node × Source)
  | 0, _, _ => none
  | fuel + 1, items, s =>
    match s.next? with
    | some .blockEntry =>
      match readUnless? .block [.blockEntry, .key, .value, .blockEnd] fuel s.drop with
      | some (item, s) => looseSequence? fuel (item :: items) s
      | none => none
    | _ => some (items.reverse, s)

def blockMapping? : Nat → List (Node × Node) → Source → Option (List (Node × Node) × Source)
  | 0, _, _ => none
  | fuel + 1, entries, s =>
    match s.next? with
    | some .blockEnd => some (entries.reverse, s.drop)
    | some .key =>
      match readUnless? .entry [.key, .value, .blockEnd] fuel s.drop with
      | none => none
      | some (key, s) =>
        let value := if s.next? = some .value then
            readUnless? .entry [.key, .value, .blockEnd] fuel s.drop
          else some (empty none, s)
        match value with
        | some (value, s) => blockMapping? fuel ((key, value) :: entries) s
        | none => none
    | _ => none

/-- The value of a flow entry, if there is one. -/
def flowValue? (closing : Token) : Nat → Source → Option (Node × Source)
  | 0, _ => none
  | fuel + 1, s =>
    if s.next? = some .value then readUnless? .flow [.flowEntry, closing] fuel s.drop
    else some (empty none, s)

/-- Items up to the closing bracket; an item with a key is a mapping of one entry. -/
def flowSequence? : Nat → Bool → List Node → Source → Option (List Node × Source)
  | 0, _, _, _ => none
  | fuel + 1, isFirst, items, s =>
    if s.next? = some .flowSequenceEnd then some (items.reverse, s.drop)
    else
      match if isFirst then some s else s.expect? .flowEntry with
      | none => none
      | some s =>
        if s.next? = some .flowSequenceEnd then some (items.reverse, s.drop)
        else if s.next? = some .key then
          match readUnless? .flow [.value, .flowEntry, .flowSequenceEnd] fuel s.drop with
          | none => none
          | some (key, s) =>
            match flowValue? .flowSequenceEnd fuel s with
            | some (value, s) => flowSequence? fuel false (.mapping none [(key, value)] :: items) s
            | none => none
        else
          match read? .flow fuel s with
          | some (item, s) => flowSequence? fuel false (item :: items) s
          | none => none

def flowMapping? : Nat → Bool → List (Node × Node) → Source →
    Option (List (Node × Node) × Source)
  | 0, _, _, _ => none
  | fuel + 1, isFirst, entries, s =>
    if s.next? = some .flowMappingEnd then some (entries.reverse, s.drop)
    else
      match if isFirst then some s else s.expect? .flowEntry with
      | none => none
      | some s =>
        if s.next? = some .flowMappingEnd then some (entries.reverse, s.drop)
        else if s.next? = some .key then
          match readUnless? .flow [.value, .flowEntry, .flowMappingEnd] fuel s.drop with
          | none => none
          | some (key, s) =>
            match flowValue? .flowMappingEnd fuel s with
            | some (value, s) => flowMapping? fuel false ((key, value) :: entries) s
            | none => none
        else
          match read? .flow fuel s with
          | some (key, s) => flowMapping? fuel false ((key, empty none) :: entries) s
          | none => none

end

def defaultHandles : Table String String := [("!", "!"), ("!!", "tag:yaml.org,2002:")]

/-- What the directives in front of a document say. -/
structure Prologue where
  versionSeen : Bool := false
  handles : Table String String := []

def prologue? : List Token → Prologue → Option (Prologue × List Token)
  | .versionDirective major :: rest, p =>
    if p.versionSeen || major ≠ 1 then none else prologue? rest { p with versionSeen := true }
  | .handleDirective handle uri :: rest, p =>
    if Table.contains p.handles handle then none
    else prologue? rest { p with handles := Table.insert p.handles handle uri }
  | .otherDirective :: rest, p => prologue? rest p
  | tokens, p => some (p, tokens)

def isDocumentBoundary : Token → Bool
  | .versionDirective _ | .handleDirective .. | .otherDirective | .documentStart | .documentEnd =>
    true
  | _ => false

/-- Nothing but end marks may follow the only document. -/
def isFinished (tokens : List Token) : Bool := tokens.all (· = .documentEnd)

/-- The document behind the prologue; `isExplicit` when its beginning is marked. -/
def document? (tokens : List Token) (handles : Table String String) (isExplicit : Bool) :
    Option Node :=
  let s : Source := { tokens := tokens, handles := defaultHandles.insertAll handles }
  let isEmpty := isExplicit && (tokens.head?.map isDocumentBoundary).getD true
  let result := if isEmpty then some (empty none, s) else read? .block (4 * tokens.length + 8) s
  result.bind fun (node, s) => if isFinished s.tokens then some node else none

/-- The only document among the tokens; the outer option is `none` when they form no document, the
inner one when there is nothing at all. -/
def ofTokens? (tokens : List Token) : Option (Option Node) :=
  match tokens with
  | [] => some none
  | t :: _ =>
    if isDocumentBoundary t && t ≠ .documentEnd then
      match prologue? tokens {} with
      | some (p, .documentStart :: rest) => (document? rest p.handles true).map some
      | _ => none
    else (document? tokens [] false).map some

end Node

end Workflow.Yaml
