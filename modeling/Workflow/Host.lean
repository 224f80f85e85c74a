import Workflow.Failure

/-!
What a program finds around it: named texts and environment variables. Paths are relative to the
directory that holds the texts.
-/

namespace Workflow

structure Host where
  files : Table String String := []
  environment : Table String String := []

namespace Path

/-- The parts of a path; empty parts and `.` lead nowhere. -/
def parts (path : String) : List String :=
  ((Text.splitOn '/' path.toList).map String.ofList).filter fun part => part ≠ "" ∧ part ≠ "."

/-- A path without needless parts; what is left of nothing is `.`. -/
def normal (path : String) : String :=
  let body := Text.join "/" (parts path)
  if path.toList.head? = some '/' then "/" ++ body else if body = "" then "." else body

def fileName (path : String) : String := (parts path).getLastD ""

/-- The last dot of a name and what follows; not at the beginning or the end of the name. -/
def suffix (path : String) : String :=
  let name := (fileName path).toList
  let ending := (name.reverse.takeWhile (· ≠ '.')).reverse
  if ending.isEmpty || name.length ≤ ending.length + 1 then "" else String.ofList ('.' :: ending)

def stem (path : String) : String :=
  let name := (fileName path).toList
  String.ofList (name.take (name.length - (suffix path).length))

end Path

namespace Host

/-- Every line break is read as the same. -/
def unifyBreaks : List Char → List Char
  | '\r' :: '\n' :: rest => '\n' :: unifyBreaks rest
  | '\r' :: rest => '\n' :: unifyBreaks rest
  | c :: rest => c :: unifyBreaks rest
  | [] => []

def isDirectory (host : Host) (path : String) : Bool :=
  let parts := Path.parts path
  parts.isEmpty || host.files.any fun file =>
    parts.isPrefixOf (Path.parts file.1) && parts.length < (Path.parts file.1).length

def find? (host : Host) (path : String) : Option String :=
  (List.find? (fun file => Path.parts file.1 = Path.parts path) host.files).map (·.2)

def exists? (host : Host) (path : String) : Bool :=
  path ≠ "" && ((host.find? path).isSome || host.isDirectory path)

/-- Whether a path leads through a text as if it were a directory. -/
def isBlocked (host : Host) (path : String) : Bool :=
  host.files.any fun file =>
    (Path.parts file.1).isPrefixOf (Path.parts path) &&
      (Path.parts file.1).length < (Path.parts path).length

/-- A text that cannot be read; the path is named as given. -/
def unreadable (name : String) (number : Nat) (reason path : String) : Failure :=
  .fault name ("[Errno " ++ toString number ++ "] " ++ reason ++ ": " ++ Text.literal path)

def missingFile : String → Failure := unreadable "FileNotFoundError" 2 "No such file or directory"

def notDirectory : String → Failure := unreadable "NotADirectoryError" 20 "Not a directory"

def isDirectoryItself : String → Failure := unreadable "IsADirectoryError" 21 "Is a directory"

/-- Whether a failure says that a text cannot be read. -/
def isUnreadable : Failure → Bool
  | .fault name _ => ["FileNotFoundError", "NotADirectoryError", "IsADirectoryError"].contains name
  | _ => false

/-- The text at a path. -/
def read (host : Host) (path : String) : Except Failure String :=
  match host.find? path with
  | some text => .ok (String.ofList (unifyBreaks text.toList))
  | none =>
    .error <|
      (if host.isDirectory path then isDirectoryItself
        else if host.isBlocked path then notDirectory
        else missingFile) path

/-- An environment variable; one that is set to nothing is set all the same. -/
def setting? (host : Host) (name : String) : Option String := Table.find? host.environment name

def setVariable (host : Host) (name value : String) : Host :=
  { host with environment := Table.insert host.environment name value }

def unsetVariable (host : Host) (name : String) : Host :=
  { host with environment := Table.erase host.environment name }

end Host

end Workflow
