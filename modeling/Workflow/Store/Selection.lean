import Workflow.Settings
import Workflow.Store.Repository

/-!
The choice of a repository. A URL, the environment and the settings are asked in this order; where
none names a database, runs are kept in memory. The last repository chosen is kept at hand for those
who ask for none in particular.
-/

namespace Workflow

inductive StoragePlace where
  | memory
  | database (path : String)
  deriving DecidableEq

/-- One repository that was opened, and how many were opened before it. -/
structure StorageHandle where
  number : Nat
  place : StoragePlace
  deriving DecidableEq

structure Selection where
  current : Option StorageHandle := none
  opened : Nat := 0

namespace Selection

def scheme : List Char := "sqlite://".toList

def unsupported (url : String) : Failure :=
  .wrongValue ("Unsupported database backend: " ++ url)

def cannotOpen : Failure := .fault "OperationalError" "unable to open database file"

/-- A file that holds any other text is no database. -/
def noDatabase : Failure := .fault "DatabaseError" "file is not a database"

/-- A database is opened at a file in a directory that is there; a path of nothing, and the path
`:memory:`, need no file. -/
def canOpen (host : Host) (path : String) : Bool :=
  let parts := Path.parts path
  path = "" || path = ":memory:" ||
    (if path.toList.head? = some '/' then parts.length = 1 || parts.head? = some "tmp"
      else !host.isDirectory path && host.isDirectory (Text.join "/" parts.dropLast))

def placeOf (host : Host) (url : String) : Except Failure StoragePlace :=
  if scheme.isPrefixOf url.toList then
    let path := String.ofList (url.toList.drop scheme.length)
    if !canOpen host path then .error cannotOpen
    else if (host.find? path).any (· ≠ "") then .error noDatabase
    else .ok (.database path)
  else .error (unsupported url)

def openPlace (place : StoragePlace) (s : Selection) : StorageHandle × Selection :=
  let handle : StorageHandle := ⟨s.opened, place⟩
  (handle, { current := some handle, opened := s.opened + 1 })

/-- Memory is opened anew only if something else has been chosen in the meantime. -/
def openMemory (s : Selection) : StorageHandle × Selection :=
  match s.current with
  | some handle => if handle.place = .memory then (handle, s) else s.openPlace .memory
  | none => s.openPlace .memory

/-- The URL of a database, if any source names one. -/
def urlFor (host : Host) (url : Option String) (settings : Settings) : Option String :=
  ((url.filter (· ≠ "")).or (Settings.override? host Settings.databaseVariable)).or
    (settings.databaseUrl.filter (· ≠ ""))

def chooseFor (host : Host) (url : Option String) (settings : Settings) (s : Selection) :
    Except Failure (StorageHandle × Selection) :=
  match urlFor host url settings with
  | none => .ok s.openMemory
  | some url => (placeOf host url).map fun place => s.openPlace place

/-- The repository asked for. Nothing changes when there is none. -/
def choose (host : Host) (url : Option String) (settings : Option Settings) (s : Selection) :
    Except Failure (StorageHandle × Selection) :=
  match s.current, url, settings with
  | some handle, none, none => .ok (handle, s)
  | _, url, some settings => s.chooseFor host url settings
  | _, url, none => do s.chooseFor host url (← Settings.load host)

end Selection

end Workflow
