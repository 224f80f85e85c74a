import Workflow.Text.Digit
import Workflow.Validation.Scalar

/-!
The arguments of the command line. They are words and options; an option has a name that begins with
a hyphen, and may take a value, which stands in the same argument behind an equals sign or in the
next argument.
-/

namespace Workflow

namespace CommandLine

/-- Whether an option takes a value. -/
inductive OptionKind where
  | flag
  | valued
  deriving DecidableEq

/-- The words and the options of some arguments, each in their order. -/
structure Arguments where
  words : List String := []
  options : List (String × String) := []
  deriving DecidableEq

namespace Arguments

def addWord (word : String) (found : Arguments) : Arguments :=
  { found with words := word :: found.words }

def addOption (name value : String) (found : Arguments) : Arguments :=
  { found with options := (name, value) :: found.options }

def has (found : Arguments) (name : String) : Bool := found.options.any (·.1 = name)

/-- The values of an option that may be given more than once. -/
def values (found : Arguments) (name : String) : List String :=
  (found.options.filter (·.1 = name)).map (·.2)

/-- Of an option that counts once, the last value holds. -/
def value? (found : Arguments) (name : String) : Option String := (found.values name).getLast?

/-- The last of some options that was given. -/
def last? (found : Arguments) (names : List String) : Option String :=
  ((found.options.map (·.1)).filter names.contains).getLast?

end Arguments

/-- A hyphen by itself is a word. -/
def isOption (argument : String) : Bool :=
  match argument.toList with
  | '-' :: _ :: _ => true
  | _ => false

/-- What stands before the first equals sign, and what stands behind it if there is one. -/
def splitAtEquals (text : String) : String × Option String :=
  let rest := text.toList.dropWhile (· ≠ '=')
  (String.ofList (text.toList.takeWhile (· ≠ '=')),
    if rest.isEmpty then none else some (String.ofList rest.tail))

/-- Reads arguments, unless one of them names no known option or a value is missing or not expected.
Two hyphens end the options. Where options may not stand behind words, all that follows a word is a
word. -/
def scan (known : Table String OptionKind) (isMixed : Bool) : List String → Option Arguments
  | [] => some {}
  | argument :: rest =>
    if argument = "--" then some { words := rest }
    else if isOption argument then
      let (name, attached) := splitAtEquals argument
      match Table.find? known name, attached, rest with
      | some .flag, none, rest => (scan known isMixed rest).map (Arguments.addOption name "")
      | some .valued, some value, rest =>
        (scan known isMixed rest).map (Arguments.addOption name value)
      | some .valued, none, value :: rest =>
        (scan known isMixed rest).map (Arguments.addOption name value)
      | _, _, _ => none
    else if isMixed then (scan known isMixed rest).map (Arguments.addWord argument)
    else some { words := argument :: rest }

end CommandLine

structure RunOptions where
  payload : Option String := none
  /-- Whether independent branches go on after a failure. -/
  continues : Bool := false
  /-- Secrets, each given as an id, an equals sign and the secret. -/
  secrets : List String := []
  timeout : Option Float := none

inductive Command where
  | run (path : String) (options : RunOptions)
  | validate (path : String)
  | listRuns
  | showRun (runId : String)

namespace Command

open CommandLine

/-- The digits of all scripts count. -/
def plainChar (c : Char) : Char :=
  match Text.digitValue? c with
  | some n => Char.ofNat (48 + n)
  | none => c

def readSeconds? (text : String) : Option Float :=
  Decode.readFloat? (String.ofList ((Text.trimBy Text.isBlank text.toList).map plainChar))

/-- What stands before all commands says how much is logged, which no command shows. -/
def commonOptions : Table String OptionKind := [("--log-level", .valued)]

def continueFlag : String := "--continue-on-failure"

def abortFlag : String := "--no-continue-on-failure"

def runOptions : Table String OptionKind :=
  [("--payload", .valued), (continueFlag, .flag), (abortFlag, .flag), ("--secret", .valued),
    ("--timeout", .valued)]

def ofRunArguments (found : Arguments) : Option Command :=
  let command (path : String) (timeout : Option Float) : Command :=
    .run path
      { payload := found.value? "--payload"
        continues := found.last? [continueFlag, abortFlag] == some continueFlag
        secrets := found.values "--secret"
        timeout }
  match found.words, found.value? "--timeout" with
  | [path], none => some (command path none)
  | [path], some text => (readSeconds? text).map fun seconds => command path (some seconds)
  | _, _ => none

def ofRunsArguments (found : Arguments) : Option Command :=
  match found.words with
  | "list" :: rest => do
    match (← scan [] true rest).words with
    | [] => some .listRuns
    | _ => none
  | "show" :: rest => do
    match (← scan [] true rest).words with
    | [runId] => some (.showRun runId)
    | _ => none
  | _ => none

/-- The command that some arguments call, if they call one. -/
def parse? (arguments : List String) : Option Command := do
  match (← scan commonOptions false arguments).words with
  | "run" :: rest => ofRunArguments (← scan runOptions true rest)
  | "validate" :: rest =>
    match (← scan [] true rest).words with
    | [path] => some (.validate path)
    | _ => none
  | "runs" :: rest => ofRunsArguments (← scan [] false rest)
  | _ => none

end Command

end Workflow
