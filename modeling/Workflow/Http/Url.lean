import Workflow.Failure
import Workflow.Http.Address
import Workflow.Json.Reader
import Workflow.Text.Case

/-!
URLs: the host, path and query of a request. A URL without scheme and host is relative to a root
that has no host.
-/

namespace Workflow.Http

def invalidUrl (message : String) : Failure := .fault "InvalidURL" message

/-- Bytes as text; bytes that are no UTF-8 become replacement characters. -/
def lossyText : Nat → List UInt8 → List Char
  | 0, _ => []
  | _, [] => []
  | fuel + 1, b :: rest =>
    let candidate (n : Nat) : Option (Char × List UInt8) :=
      let taken := (b :: rest).take n
      if taken.length < n then none
      else match String.fromUTF8? ⟨taken.toArray⟩ with
        | some s => match s.toList with
          | [c] => some (c, (b :: rest).drop n)
          | _ => none
        | none => none
    match [1, 2, 3, 4].findSome? candidate with
    | some (c, rest) => c :: lossyText fuel rest
    | none => '\ufffd' :: lossyText fuel rest

def percentBytes : List Char → List UInt8
  | '%' :: a :: b :: rest =>
    match Json.hexValue? a, Json.hexValue? b with
    | some high, some low => (16 * high + low).toUInt8 :: percentBytes rest
    | _, _ => 37 :: percentBytes (a :: b :: rest)
  | c :: rest => (String.singleton c).toUTF8.toList ++ percentBytes rest
  | [] => []

/-- A text without its percent escapes. -/
def unescape (cs : List Char) : String :=
  if cs.contains '%' then
    let bytes := percentBytes cs
    String.ofList (lossyText bytes.length bytes)
  else String.ofList cs

/-- Names and values of a query, in which `+` stands for a space. -/
def queryPairs (query : List Char) : List (String × String) :=
  let spaced (cs : List Char) : List Char := cs.map fun c => if c = '+' then ' ' else c
  ((Text.splitOn '&' query).filter (!·.isEmpty)).map fun part =>
    (unescape (spaced (part.takeWhile (· ≠ '='))),
      unescape (spaced ((part.dropWhile (· ≠ '=')).drop 1)))

/-- Values of one name stand together, where the name first occurs. -/
def groupPairs (pairs : List (String × String)) : List (String × String) :=
  (distinct (pairs.map (·.1))).flatMap fun name => pairs.filter (·.1 = name)

structure Url where
  /-- Nothing, unless there is a host. -/
  scheme : String := ""
  host : String
  path : String
  query : List Char
  /-- The name and the password of a user, of which one may be nothing. -/
  user : Option (String × String) := none

def isSchemeChar (c : Char) : Bool := c.isAlphanum || c = '+' || c = '.' || c = '-'

/-- The scheme at the front of a URL, and what follows its colon. A colon may stand without one. -/
def splitScheme (cs : List Char) : List Char × List Char :=
  let scheme := cs.takeWhile isSchemeChar
  match cs.drop scheme.length with
  | ':' :: rest =>
    if (scheme.head?.map Char.isAlpha).getD true then (scheme, rest) else ([], cs)
  | _ => ([], cs)

def splitAuthority (cs : List Char) : List Char × List Char :=
  match cs with
  | '/' :: '/' :: rest =>
    let isEnd (c : Char) : Bool := c = '/' || c = '?' || c = '#'
    (rest.takeWhile (!isEnd ·), rest.dropWhile (!isEnd ·))
  | _ => ([], cs)

/-- The user of an authority, who stands before the last `@`, and the rest. -/
def splitUser (authority : List Char) : List Char × List Char :=
  if authority.contains '@' then
    let body := (authority.reverse.takeWhile (· ≠ '@')).reverse
    (authority.take (authority.length - body.length - 1), body)
  else ([], authority)

/-- The host of an authority without a user, and the number behind it. -/
def splitHost (body : List Char) : List Char × List Char :=
  let withoutColon : List Char → List Char
    | ':' :: rest => rest
    | rest => rest
  let plain := (body.takeWhile (· ≠ ':'), withoutColon (body.dropWhile (· ≠ ':')))
  match body with
  | '[' :: _ =>
    if body.contains ']' then
      let after := (body.reverse.takeWhile (· ≠ ']')).reverse
      (body.take (body.length - after.length), withoutColon after)
    else plain
  | _ => plain

def isHostChar (c : Char) : Bool :=
  c.isAlphanum || "-._~!$&'()*+,;=\"`\x7b\x7d%|\\".toList.contains c

/-- A character that a host cannot hold is escaped. -/
def escapeHostChar (c : Char) : List Char :=
  if isHostChar c || 128 ≤ c.toNat then [c]
  else '%' :: (Text.hexPadded 2 c.toNat).map Char.toUpper

/-- The host as it is looked up. Numbers have to be an address, and brackets have to hold one. -/
def hostOf (host : List Char) : Except Failure String :=
  let quoted := Text.literal (String.ofList host)
  if Address.looksNumeric host then
    if Address.isFourBytes host then .ok (String.ofList host)
    else .error (invalidUrl ("Invalid IPv4 address: " ++ quoted))
  else if host.head? = some '[' && host.getLast? = some ']' then
    let address := (host.drop 1).dropLast
    if Address.isGrouped address then .ok (String.ofList address)
    else .error (invalidUrl ("Invalid IPv6 address: " ++ quoted))
  else .ok (String.ofList ((Text.lower (String.ofList host)).toList.flatMap escapeHostChar))

def checkServiceNumber (text : List Char) : Except Failure Unit :=
  if text.isEmpty || Address.isServiceNumber text then .ok ()
  else .error (invalidUrl ("Invalid port: " ++ Text.literal (String.ofList text)))

/-- Parts `.` are dropped, and `..` takes back the part before it. -/
def withoutDots (path : List Char) : List Char :=
  let keep (kept : List (List Char)) (part : List Char) : List (List Char) :=
    if part = ['.'] then kept
    else if part = ['.', '.'] then (if kept.isEmpty || kept = [[]] then kept else kept.dropLast)
    else kept ++ [part]
  let parts := Text.splitOn '/' path
  if parts.contains ['.'] || parts.contains ['.', '.'] then
    ['/'].intercalate (parts.foldl keep [])
  else path

def isUnprintable (c : Char) : Bool := c.toNat < 32 || c.toNat = 127

/-- The name and the password that a URL holds. -/
def userOf (text : List Char) : Option (String × String) :=
  let name := unescape (text.takeWhile (· ≠ ':'))
  let password := unescape ((text.dropWhile (· ≠ ':')).drop 1)
  if name = "" && password = "" then none else some (name, password)

def checkCharacters (cs : List Char) : Except Failure Unit :=
  if 65536 < cs.length then .error (invalidUrl "URL too long")
  else match cs.find? isUnprintable with
    | some c =>
      .error (invalidUrl ("Invalid non-printable ASCII character in URL, " ++
        Text.literal (String.singleton c) ++ " at position " ++ toString (cs.idxOf c) ++ "."))
    | none => .ok ()

/-- A path without scheme and authority must not be taken for one of them. -/
def checkRelative (path : List Char) : Except Failure Unit :=
  if path.take 2 = ['/', '/'] then
    .error (invalidUrl "Relative URLs cannot have a path starting with '//'")
  else if path.head? = some ':' then
    .error (invalidUrl "Relative URLs cannot have a path starting with ':'")
  else .ok ()

def Url.parse (text : String) : Except Failure Url := do
  let cs := text.toList
  checkCharacters cs
  let (scheme, rest) := splitScheme cs
  let (authority, rest) := splitAuthority rest
  let path := rest.takeWhile fun c => c ≠ '?' && c ≠ '#'
  let query := ((rest.dropWhile fun c => c ≠ '?' && c ≠ '#').takeWhile (· ≠ '#')).drop 1
  let (user, body) := splitUser authority
  let (host, number) := splitHost body
  let host ← hostOf host
  checkServiceNumber number
  let isRelative := scheme.isEmpty && user.isEmpty && host.isEmpty && number.isEmpty
  if isRelative then checkRelative path
  let path := if isRelative then path else withoutDots path
  if scheme.isEmpty || host.isEmpty then
    return { host := "", path := unescape ('/' :: path.dropWhile (· = '/')), query }
  else
    return {
      scheme := Text.lower (String.ofList scheme)
      host
      path := unescape (if path.isEmpty then ['/'] else path)
      query
      user := userOf user }

end Workflow.Http
