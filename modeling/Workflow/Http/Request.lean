import Workflow.Http.Url
import Workflow.Json.Writer
import Workflow.Pairs
import Workflow.Text.Base64

/-!
HTTP requests from the parameters of an action, and the results of their responses. A secret is
sent as a bearer token unless the headers hold a field of exactly that name already, and a user that
the URL names takes the place of either.
-/

namespace Workflow.Http

structure Request where
  method : String
  /-- The URL as it was given. -/
  address : String
  scheme : String
  host : String
  path : String
  query : List (String × String)
  headers : List (String × String)
  body : Option Value

/-- A header field is sent as ASCII. -/
def asciiText (s : String) : Except Failure String :=
  let cs := s.toList
  let isAscii (c : Char) : Bool := c.toNat < 128
  if cs.all isAscii then .ok s
  else
    let before := (cs.takeWhile isAscii).length
    let run := ((cs.dropWhile isAscii).takeWhile (!isAscii ·))
    let what :=
      if run.length = 1 then
        "character '" ++ String.ofList (escapeOf (run.headD ' ')) ++ "' in position " ++
          toString before
      else
        "characters in position " ++ toString before ++ "-" ++ toString (before + run.length - 1)
    .error (.fault "UnicodeEncodeError"
      ("'ascii' codec can't encode " ++ what ++ ": ordinal not in range(128)"))
where
  escapeOf (c : Char) : List Char :=
    let n := c.toNat
    if n < 0x100 then '\\' :: 'x' :: Text.hexPadded 2 n
    else if n < 0x10000 then '\\' :: 'u' :: Text.hexPadded 4 n
    else '\\' :: 'U' :: Text.hexPadded 8 n

def headerOf : Scalar × Value → Except Failure (String × String)
  | (.str name, .str value) => do
    let name ← asciiText name
    return (name, ← asciiText value)
  | (.str name, _) => do
    let _ ← asciiText name
    throw (.wrongType "Header value must be str or bytes")
  | _ => .error (.fault "AttributeError" "")

def authorizationName : Scalar := .str "Authorization"

/-- The fields given, and a bearer token after them if they have none of that name. -/
def withToken (headers : Fields) (secret : Option String) : Fields :=
  match secret.filter (· ≠ "") with
  | some secret =>
    if Table.contains headers authorizationName then headers
    else headers ++ [(authorizationName, .str ("Bearer " ++ secret))]
  | none => headers

/-- A user is sent in the field that a token would be sent in, whatever the case of its name. -/
def withUser (headers : List (String × String)) (user : Option (String × String)) :
    List (String × String) :=
  match user with
  | none => headers
  | some (name, password) =>
    headers.filter (Text.lower ·.1 ≠ "authorization") ++
      [("Authorization", "Basic " ++ Text.Base64.encodeText (name ++ ":" ++ password))]

def queryText : Value → String
  | .scalar (.bool b) => if b then "true" else "false"
  | .null => ""
  | value => value.display

def queryPairOf : Value → Except Failure (String × String)
  | .list (name :: value :: _) => .ok (name.display, queryText value)
  | .list _ => .error (.fault "IndexError" "list index out of range")
  | .str s => match s.toList with
    | name :: value :: _ => .ok (String.singleton name, String.singleton value)
    | _ => .error (.fault "IndexError" "string index out of range")
  | .map _ => .error (.fault "KeyError" "0")
  | _ => .error (.wrongType "object is not subscriptable")

/-- The query that replaces the one of the URL. -/
def queryOf (params : Value) : Except Failure (List (String × String)) :=
  if !params.isTruthy then .ok []
  else match params with
    | .str s => .ok (groupPairs (queryPairs s.toList))
    | .list items => (items.mapM queryPairOf).map groupPairs
    | .map entries =>
      .ok (entries.flatMap fun (name, value) =>
        match value with
        | .list items => items.map fun item => (name.display, queryText item)
        | value => [(name.display, queryText value)])
    | .scalar _ => .error (.fault "AttributeError" "")

mutual

/-- A date cannot be sent as JSON. -/
def holdsDate : Value → Bool
  | .scalar (.date _) | .scalar (.moment _) => true
  | .scalar _ => false
  | .list items => anyHoldsDate items
  | .map entries => entriesHoldDate entries

def anyHoldsDate : List Value → Bool
  | [] => false
  | item :: rest => holdsDate item || anyHoldsDate rest

def entriesHoldDate : List (Scalar × Value) → Bool
  | [] => false
  | (_, value) :: rest => holdsDate value || entriesHoldDate rest

end

/-- The body as the receiver reads it. -/
def bodyOf (json : Value) : Except Failure (Option Value) :=
  match json with
  | .null => .ok none
  | json =>
    if holdsDate json then .error (.wrongType "Object of type date is not JSON serializable")
    else if !Json.isFinite json then
      .error (.wrongValue "Out of range float values are not JSON compliant")
    else match Json.encode Json.compact json with
      | .error key => .error (.unwritableKey key)
      | .ok text => .ok (Json.parse? text)

def addressOf (parameters : Fields) : Except Failure Value :=
  let url := parameters.get "url"
  if url.isTruthy then .ok url
  else .error (.typed .activityFailure "http.request requires a 'url' parameter" false)

def methodOf (parameters : Fields) : String :=
  Text.upper ((parameters.get? "method").getD (.str "GET")).display

def Request.ofParameters (parameters : Fields) (secret : Option String) :
    Except Failure Request := do
  let address ← addressOf parameters
  let headers ← Pairs.entriesOf (parameters.get "headers")
  let address ← match address with
    | .str s => pure s
    | _ => throw (.wrongType "Invalid type for url")
  let url ← Url.parse address
  let headers ← (withToken headers secret).mapM headerOf
  let query ← match parameters.get "params" with
    | .null => pure (groupPairs (queryPairs url.query))
    | params => queryOf params
  let body ← bodyOf (parameters.get "json")
  return { method := methodOf parameters, address, scheme := url.scheme, host := url.host,
           path := url.path, query, headers := withUser headers url.user, body }

/-- All values of a field, whatever the case of its name. -/
def Request.headerValues (request : Request) (name : String) : List String :=
  (request.headers.filter fun header => Text.lower header.1 = Text.lower name).map (·.2)

/-- What comes back: a response, or the failure of the transport. -/
inductive Reply where
  | response (status : Int) (body : String)
  | broken (name message : String)

/-- What comes back when nothing can be reached. -/
def Request.unreachable (request : Request) : Reply :=
  if request.scheme = "" then
    .broken "UnsupportedProtocol"
      "Request URL is missing an 'http://' or 'https://' protocol."
  else if request.scheme = "http" || request.scheme = "https" then
    .broken "ConnectError" "All connection attempts failed"
  else
    .broken "UnsupportedProtocol"
      ("Request URL has an unsupported protocol '" ++ request.scheme ++ "://'.")

/-- Failures of the transport that say nothing about the exchange itself. -/
def isTransportFailure (name : String) : Bool := name ≠ "InvalidURL" && name ≠ "StreamError"

def bodyValue (body : String) : Value :=
  let text := match body.toList with
    | '\ufeff' :: rest => String.ofList rest
    | _ => body
  (Json.parse? text).getD (.str body)

/-- The result of a request: refused requests fail, for good unless the server is at fault. -/
def Request.result (request : Request) : Reply → Except Failure Value
  | .broken name message =>
    if isTransportFailure name then
      .error (.ofKind .activityFailure
        ("HTTP " ++ request.method ++ " " ++ request.address ++ " failed: " ++ message))
    else .error (.fault name message)
  | .response status body =>
    if 400 ≤ status then
      .error (.typed .activityFailure
        ("HTTP " ++ request.method ++ " " ++ request.address ++ " returned " ++ toString status ++
          ": " ++ String.ofList (body.toList.take 200))
        (500 ≤ status))
    else .ok (.record [("status_code", .int status), ("body", bodyValue body)])

end Workflow.Http
