import Workflow.Backoff
import Workflow.Decimal.Text
import Workflow.Program

/-!
Repeated attempts under a policy. Every attempt has its time limit; a failure that may be transient
is followed by another attempt after a growing delay, until the attempts are used up.
-/

namespace Workflow.Retry

variable {α : Type}

/-- How an operation ended, and the number of its last attempt. -/
structure Ending (α : Type) where
  result : Except Failure α
  attempts : Nat

def timeout (label : String) (policy : RetryPolicy) : Failure :=
  .ofKind .activityTimeout
    (label ++ " timed out after " ++ Decimal.text policy.perAttemptTimeout ++ "s")

/-- The failure an attempt counts as. An attempt that reports a timeout of its own cannot be told
from one that was given up. -/
def failureOf (label : String) (policy : RetryPolicy) : Option Failure → Failure
  | none => timeout label policy
  | some (.fault "TimeoutError" _) => timeout label policy
  | some failure => failure

def attempt (policy : RetryPolicy) (operation : Program (Except Failure α)) :
    Program (Option (Except Failure α)) := do
  let start ← Program.perform .clock
  operation.within (start + policy.perAttemptTimeout)

/-- Makes attempt `number`, and at most `remaining` further ones. -/
def attempts (policy : RetryPolicy) (label : String) (operation : Program (Except Failure α))
    (number : Nat) : Nat → Program (Ending α)
  | 0 => do
    Program.perform (.attempt number)
    match ← attempt policy operation with
    | some (.ok value) => return ⟨.ok value, number⟩
    | some (.error failure) => return ⟨.error (failureOf label policy (some failure)), number⟩
    | none => return ⟨.error (failureOf label policy none), number⟩
  | remaining + 1 => do
    Program.perform (.attempt number)
    let failure ← match ← attempt policy operation with
      | some (.ok value) => return ⟨.ok value, number⟩
      | some (.error failure) => pure (failureOf label policy (some failure))
      | none => pure (failureOf label policy none)
    if failure = .cancelled || !failure.isRetryable then return ⟨.error failure, number⟩
    let share ← Program.perform .draw
    match Backoff.seconds policy number share with
    | .error problem => return ⟨.error problem.failure, number⟩
    | .ok seconds =>
      Program.perform (.sleep seconds)
      attempts policy label operation (number + 1) remaining

def run (policy : RetryPolicy) (label : String) (operation : Program (Except Failure α)) :
    Program (Ending α) :=
  attempts policy label operation 1 (policy.maxAttempts - 1)

end Workflow.Retry
