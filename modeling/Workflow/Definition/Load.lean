import Workflow.Definition.Decode
import Workflow.Host
import Workflow.Yaml.Document

/-!
Workflow definitions from documents: JSON when the name says so, and YAML otherwise.
-/

namespace Workflow

def malformedJson : Failure := .fault "JSONDecodeError" ""

/-- A document that holds nothing, or a value that counts as nothing, is an empty mapping. -/
def yamlOrEmpty (text : String) : Except Failure Value := do
  match ← Yaml.load text with
  | some value => return if value.isTruthy then value else .map []
  | none => return .map []

def Definition.load (host : Host) (path : String) : Except Failure Definition := do
  let path := Path.normal path
  let text ← host.read path
  let value ←
    if (Path.suffix path).map Char.toLower = ".json" then
      match Json.parse? text with
      | some value => pure value
      | none => throw malformedJson
    else yamlOrEmpty text
  (Definition.ofValue value).mapError .invalid

end Workflow
