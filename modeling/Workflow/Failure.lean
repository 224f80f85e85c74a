import Workflow.Validation

/-!
Failures: what an invocation, a look-up or a repository can end with instead of a result. Failures
of the workflow's own kinds carry a code and say whether another attempt may help; any other fault
is known by its name and text and counts as transient.
-/

namespace Workflow

inductive FailureKind where
  | general
  | invalidGraph
  | missingTrigger
  | secretNotFound
  | missingCredential
  | activityFailure
  | activityTimeout
  | agentLimit
  | toolError
  | runCancelled
  deriving DecidableEq, Repr

namespace FailureKind

def code : FailureKind → String
  | .general => "error"
  | .invalidGraph => "invalid_graph"
  | .missingTrigger => "missing_trigger"
  | .secretNotFound => "secret_not_found"
  | .missingCredential => "missing_credential"
  | .activityFailure => "activity_failure"
  | .activityTimeout => "timeout"
  | .agentLimit => "agent_iteration_limit_exceeded"
  | .toolError => "tool_error"
  | .runCancelled => "cancelled"

/-- Unless said otherwise, only failures of an activity are worth another attempt. -/
def isRetryable : FailureKind → Bool
  | .activityFailure | .activityTimeout => true
  | _ => false

end FailureKind

inductive Failure where
  | typed (kind : FailureKind) (message : String) (retryable : Bool)
  /-- A tool was called with arguments that it does not accept. -/
  | toolArguments (tool : String) (error : ValidationError)
  | invalid (error : ValidationError)
  | fault (name text : String)
  /-- The invocation was cancelled; nothing handles this but the task it runs in. -/
  | cancelled
  deriving DecidableEq

namespace Place

def text : Place → String
  | .field name => name
  | .item index => toString index

end Place

namespace ValidationError

/-- The heading of the report on invalid data. -/
def heading (e : ValidationError) : String :=
  let count := e.details.length
  toString count ++ " validation error" ++ (if count = 1 then "" else "s") ++ " for " ++ e.model

def placeText (d : Detail) : String := Text.join "." (d.place.map Place.text)

/-- The heading, and for each problem its place and message. -/
def report (e : ValidationError) : String :=
  Text.join "\n" <| e.heading :: e.details.map fun d =>
    placeText d ++ "\n  " ++ d.problem.message ++ " [type=" ++ d.problem.code ++ "]"

/-- The problems on one line: place and code of each. -/
def summary (e : ValidationError) : String :=
  Text.join "; " (e.details.map fun d => placeText d ++ " " ++ d.problem.code)

end ValidationError

namespace Failure

def ofKind (kind : FailureKind) (message : String) : Failure :=
  .typed kind message kind.isRetryable

def secretNotFound (credentialId : String) : Failure :=
  ofKind .secretNotFound ("Secret not found: " ++ credentialId)

def missingCredential (credentialId : String) : Failure :=
  ofKind .missingCredential
    ("MISSING SECRET: " ++ credentialId ++ ". Add it to the secret store before running.")

/-- A failed look-up quotes what was looked up. -/
def notFound (key : String) : Failure := .fault "KeyError" (Text.literal key)

def wrongValue (message : String) : Failure := .fault "ValueError" message

/-- A value that is none of the members of a type. -/
def notMember (type : String) (value : Value) : Failure :=
  wrongValue (value.literal ++ " is not a valid " ++ type)

def wrongType (message : String) : Failure := .fault "TypeError" message

def wrongState (message : String) : Failure := .fault "RuntimeError" message

def timedOut : Failure := .fault "TimeoutError" ""

/-- JSON text cannot hold a mapping that is keyed by a date. -/
def unwritableKey (key : Scalar) : Failure :=
  wrongType ("keys must be str, int, float, bool or None, not " ++
    match key with
    | .moment _ => "datetime"
    | _ => "date")

/-- The text a failure would print by itself. -/
def text : Failure → String
  | .typed _ message _ => message
  | .toolArguments tool error => "Invalid arguments for " ++ tool ++ ": " ++ error.summary
  | .invalid error => error.report
  | .fault _ text => text
  | .cancelled => ""

/-- The message shown to users: a fault of no kind of its own is introduced by its name. -/
def describe : Failure → String
  | .typed _ message _ => message
  | .toolArguments tool error => (toolArguments tool error).text
  | .invalid error => "ValidationError: " ++ error.report
  | .fault name text => if text = "" then name else name ++ ": " ++ text
  | .cancelled => "CancelledError"

def code : Failure → String
  | .typed kind _ _ => kind.code
  | .toolArguments _ _ => FailureKind.toolError.code
  | _ => FailureKind.activityFailure.code

/-- Faults of no kind of their own are taken to be transient. -/
def isRetryable : Failure → Bool
  | .typed _ _ retryable => retryable
  | .toolArguments _ _ => false
  | _ => true

end Failure

end Workflow
