import Workflow.Chat
import Workflow.Failure
import Workflow.Tool.Calculator

/-!
The tools an agent can choose from. Each has a name, a description, and arguments it accepts; two
are built in, others are added by name.
-/

namespace Workflow

inductive ToolWork where
  | calculator
  | search
  /-- A tool that accepts any record and is performed elsewhere. -/
  | custom
  deriving DecidableEq, Repr

structure Tool where
  name : String
  description : String
  work : ToolWork
  deriving DecidableEq

/-- What a tool is asked to do, once its arguments are accepted. -/
inductive ToolRequest where
  | calculation (calculation : Calculation)
  | query (text : String)
  | custom (arguments : Fields)

namespace Tool

def numberSchema (title : String) : Value :=
  .record [("title", .str title), ("type", .str "number")]

/-- A record schema in which every field is required. -/
def recordSchema (title : String) (properties : List (String × Value)) : Value :=
  .record
    [("properties", .record properties),
      ("required", .strs (properties.map (·.1))),
      ("title", .str title),
      ("type", .str "object")]

def schema (tool : Tool) : Value :=
  match tool.work with
  | .calculator =>
    recordSchema "CalculatorArgs"
      [("operation", .record
          [("enum", .strs (Operation.all.map Operation.name)), ("title", .str "Operation"),
            ("type", .str "string")]),
        ("a", numberSchema "A"),
        ("b", numberSchema "B")]
  | .search =>
    recordSchema "WebSearchArgs"
      [("query", .record [("title", .str "Query"), ("type", .str "string")])]
  | .custom =>
    .record
      [("additionalProperties", .bool true), ("properties", .record []),
        ("title", .str "AnyArgs"), ("type", .str "object")]

def spec (tool : Tool) : ToolSpec := ⟨tool.name, tool.description, tool.schema⟩

def accept (tool : Tool) (arguments : Value) : Except ValidationError ToolRequest :=
  match tool.work with
  | .calculator =>
    ((Calculation.decode arguments).map .calculation).toExcept "CalculatorArgs"
  | .search =>
    (Decode.record "WebSearchArgs"
      (fun fields => .query <$> Decode.required fields ["query"] Decode.text)
      arguments).toExcept "WebSearchArgs"
  | .custom => (Decode.record "AnyArgs" (fun fields => .valid (.custom fields)) arguments).toExcept
      "AnyArgs"

end Tool

/-- Tools in the order in which their names were first added. -/
abbrev Catalog := Table String Tool

namespace Catalog

def add (catalog : Catalog) (tool : Tool) : Catalog := Table.insert catalog tool.name tool

def builtIn : Catalog :=
  add (add [] ⟨"calc", "Can perform mathematical operations.", .calculator⟩)
    ⟨"web_search", "Search the web for information.", .search⟩

def customTool (name : String) : Tool := ⟨name, name ++ " tool", .custom⟩

/-- The specs of the given tools; names of no tool are passed over. -/
def select (catalog : Catalog) (names : List String) : List ToolSpec :=
  names.filterMap fun name => (Table.find? catalog name).map Tool.spec

def request (catalog : Catalog) (name : String) (arguments : Value) :
    Except Failure ToolRequest :=
  match Table.find? catalog name with
  | none => .error (.ofKind .toolError ("Unknown tool: " ++ name))
  | some tool => (tool.accept arguments).mapError (.toolArguments name)

def divisionByZero : Failure := .ofKind .toolError "Division by zero"

def calculate (c : Calculation) : Except Failure String :=
  match c.run? with
  | some text => .ok text
  | none => .error divisionByZero

def cannedResult (query : String) : String :=
  "Results for " ++ query ++ ": Nexusflow is a workflow engine."

end Catalog

end Workflow
