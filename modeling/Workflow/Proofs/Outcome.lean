import Workflow.Dispatch
import Workflow.Status

/-!
# Outcomes

An invocation that ends without having been cancelled has an outcome, and a failure in it always has
a code.
-/

namespace Workflow

theorem FailureKind.code_ne (kind : FailureKind) : kind.code ≠ "" := by
  cases kind <;> decide

theorem Failure.code_ne (failure : Failure) : failure.code ≠ "" := by
  unfold Failure.code
  split <;> exact FailureKind.code_ne _

/-- The failure of a step, as its outcome has it. -/
def StepError.ofFailure (failure : Failure) : StepError := ⟨failure.describe, failure.code⟩

namespace Outcome

variable {ending : Retry.Ending Value} {outcome : Outcome}

def status (outcome : Outcome) : StepStatus :=
  if outcome.isOk then .completed else .failed

theorem status_ne_idle (outcome : Outcome) : outcome.status ≠ .idle := by
  unfold status
  split <;> decide

theorem status_ne_running (outcome : Outcome) : outcome.status ≠ .running := by
  unfold status
  split <;> decide

theorem result_of_ofEnding? (houtcome : ofEnding? ending = some outcome) :
    outcome.result = ending.result.mapError .ofFailure := by
  obtain ⟨failure | value, attempts⟩ := ending
  · cases failure <;> cases houtcome <;> rfl
  · cases houtcome
    rfl

theorem ofEnding?_isSome_iff :
    (ofEnding? ending).isSome ↔ ending.result ≠ .error .cancelled := by
  obtain ⟨failure | value, attempts⟩ := ending
  · cases failure <;> simp [ofEnding?]
  · simp [ofEnding?]

theorem code_ne_of_ofEnding? (houtcome : ofEnding? ending = some outcome) (e : StepError)
    (hresult : outcome.result = .error e) : e.code ≠ "" := by
  rw [result_of_ofEnding? houtcome] at hresult
  cases hending : ending.result with
  | ok value =>
      rw [hending] at hresult
      cases hresult
  | error failure =>
      rw [hending] at hresult
      obtain rfl := Except.error.inj hresult
      exact failure.code_ne

end Outcome

end Workflow
