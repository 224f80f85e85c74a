import Workflow.Failure
import Workflow.Http.Request

/-!
# Failures on one line

The message of a failure is the text that its cause has given it. So it is one line if the cause
says something and says it on one line; the report on invalid data never is one, and a refusal of a
server is one as long as the part of the response that it quotes has no break.
-/

namespace Workflow

namespace Text

/-- The characters that end a line. -/
def lineBreaks : List Char :=
  ['\n', '\r', '\x0b', '\x0c', '\x1c', '\x1d', '\x1e', '\x85', '\u2028', '\u2029']

def IsUnbroken (text : String) : Prop := ∀ c ∈ text.toList, c ∉ lineBreaks

instance (text : String) : Decidable (IsUnbroken text) :=
  List.decidableBAll (· ∉ lineBreaks) text.toList

/-- A line says something and has no break. -/
def IsLine (text : String) : Prop := text ≠ "" ∧ IsUnbroken text

instance (text : String) : Decidable (IsLine text) :=
  inferInstanceAs (Decidable (text ≠ "" ∧ IsUnbroken text))

@[simp]
theorem isUnbroken_append {text text' : String} :
    IsUnbroken (text ++ text') ↔ IsUnbroken text ∧ IsUnbroken text' := by
  simp [IsUnbroken, or_imp, forall_and]

theorem isUnbroken_join {separator : String} (hseparator : IsUnbroken separator)
    (parts : List String) :
    IsUnbroken (join separator parts) ↔ ∀ part ∈ parts, IsUnbroken part := by
  unfold join
  induction parts with
  | nil => simp [IsUnbroken]
  | cons part rest ih =>
      cases rest with
      | nil => simp
      | cons next rest =>
          rw [String.intercalate_cons_cons, isUnbroken_append, isUnbroken_append, ih]
          simp [hseparator]

theorem isLine_append_iff {text text' : String} (h : IsLine text) :
    IsLine (text ++ text') ↔ IsUnbroken text' := by
  have hne : text ++ text' ≠ "" := by simp [h.1]
  simp [IsLine, hne, h.2]

end Text

open Text

/-! ### Failures -/

theorem Problem.isUnbroken_code (problem : Problem) : IsUnbroken problem.code := by
  unfold Problem.code
  split <;> decide

/-- The cause of a failure says something, and says it without a break. -/
def Failure.IsPlain : Failure → Prop
  | .typed _ message _ => IsLine message
  | .toolArguments tool error =>
    IsUnbroken tool ∧ ∀ d ∈ error.details, IsUnbroken (ValidationError.placeText d)
  | .invalid _ => False
  | .fault name text => (name ≠ "" ∨ text ≠ "") ∧ IsUnbroken name ∧ IsUnbroken text
  | .cancelled => True

theorem ValidationError.isUnbroken_summary (e : ValidationError) :
    IsUnbroken e.summary ↔ ∀ d ∈ e.details, IsUnbroken (placeText d) := by
  unfold summary
  rw [isUnbroken_join (by decide), List.forall_mem_map]
  have hspace : IsUnbroken " " := by decide
  simp [Problem.isUnbroken_code, hspace]

/-- The report has a line for the place of each problem, and there is one at least. -/
theorem ValidationError.not_isUnbroken_report (e : ValidationError) : ¬IsUnbroken e.report := by
  have hbreak : ¬IsUnbroken "\n" := by decide
  unfold report join details
  rw [List.map_cons, String.intercalate_cons_cons]
  simp [hbreak]

/-- The message of a failure is a line if and only if its cause is plain. -/
theorem Failure.isLine_describe_iff (failure : Failure) :
    IsLine failure.describe ↔ failure.IsPlain := by
  cases failure with
  | typed kind message retryable => rfl
  | toolArguments tool error =>
      have hopening : IsLine "Invalid arguments for " := by decide
      have hcolon : IsUnbroken ": " := by decide
      show IsLine ("Invalid arguments for " ++ tool ++ ": " ++ error.summary) ↔ _
      rw [String.append_assoc, String.append_assoc, isLine_append_iff hopening, isUnbroken_append,
        isUnbroken_append, error.isUnbroken_summary]
      simp [hcolon, IsPlain]
  | invalid error =>
      have hopening : IsLine "ValidationError: " := by decide
      show IsLine ("ValidationError: " ++ error.report) ↔ _
      rw [isLine_append_iff hopening]
      simp [IsPlain, error.not_isUnbroken_report]
  | fault name text =>
      have hcolon : IsUnbroken ": " := by decide
      have hempty : IsUnbroken "" := by decide
      show IsLine (if text = "" then name else name ++ ": " ++ text) ↔
        (name ≠ "" ∨ text ≠ "") ∧ IsUnbroken name ∧ IsUnbroken text
      by_cases hsilent : text = ""
      · simp [hsilent, hempty, IsLine]
      · simp [hsilent, hcolon, IsLine]
  | cancelled =>
      have hname : IsLine "CancelledError" := by decide
      exact iff_of_true hname trivial

theorem isUnbroken_toString (n : Nat) : IsUnbroken (toString n) := by
  have hbreaks : ∀ c ∈ lineBreaks, c.isDigit = false := by
    have hall : lineBreaks.all (!·.isDigit) = true := by decide
    simpa using hall
  intro c hc hbreak
  rw [show toString n = String.ofList (Nat.toDigits 10 n) from rfl, String.toList_ofList] at hc
  have hdigit := Nat.isDigit_of_mem_toDigits (by decide) (by decide) hc
  rw [hbreaks c hbreak] at hdigit
  cases hdigit

/-- A server that refuses a request is quoted, so what it says has to be on one line as well. -/
theorem Http.Request.isPlain_of_refused_iff (request : Request) {status : Int} (body : String)
    (hstatus : 400 ≤ status) {failure : Failure}
    (hfailure : request.result (.response status body) = .error failure) :
    failure.IsPlain ↔ IsUnbroken request.method ∧ IsUnbroken request.address ∧
      IsUnbroken (String.ofList (body.toList.take 200)) := by
  obtain ⟨n, rfl⟩ := Int.eq_ofNat_of_zero_le (a := status) (by omega)
  rw [Request.result, if_pos hstatus] at hfailure
  cases hfailure
  have hopening : IsLine "HTTP " := by decide
  have hspace : IsUnbroken " " := by decide
  have hreturned : IsUnbroken " returned " := by decide
  have hcolon : IsUnbroken ": " := by decide
  have hnumber : IsUnbroken (n : Int).repr := isUnbroken_toString n
  show IsLine ("HTTP " ++ _ ++ _ ++ _ ++ _ ++ _ ++ _ ++ _) ↔ _
  simp only [String.append_assoc]
  rw [isLine_append_iff hopening]
  simp [hspace, hreturned, hcolon, hnumber]

end Workflow
