import Workflow.Failure
import Workflow.Text.Case

/-!
Providers of models. With a secret, a client of the provider is made that uses it; without one, the
model is known by its name alone and its provider finds a key for itself.
-/

namespace Workflow

inductive ModelAccess where
  | named (name : String)
  | keyed (provider model secret : String)
  deriving DecidableEq

namespace ModelAccess

/-- The providers whose clients take a secret, in the order of their names. -/
def keyedProviders : List String := ["anthropic", "groq", "mistral", "openai"]

def keyRefused (provider : String) : Failure :=
  .typed .activityFailure
    ("Provider " ++ provider ++ " does not accept an explicit API key; supported: " ++
      Text.join ", " keyedProviders) false

def choose (provider model : String) (secret : Option String) : Except Failure ModelAccess :=
  match secret.filter (· ≠ "") with
  | none => .ok (.named (provider ++ ":" ++ model))
  | some secret =>
    let known := Text.lower provider
    if known ∈ keyedProviders then .ok (.keyed known model secret)
    else .error (keyRefused provider)

/-- A provider that is not set up properly will not be by the next attempt. -/
def failureOf (provider model : String) : Failure → Failure
  | .fault "UserError" text =>
    .typed .activityFailure
      ("Model " ++ provider ++ ":" ++ model ++ " is misconfigured: " ++ text) false
  | failure => failure

end ModelAccess

end Workflow
