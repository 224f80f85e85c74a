import Workflow.Host
import Workflow.Yaml.Document

/-!
# What a text fails with that is no document

However a text is malformed, and whichever of its scalars has no meaning, the failure is a fault of
the text: no report on invalid data, and not the news that the text could not be read at all.
-/

namespace Workflow

/-- A fault of a text that has been read. -/
def Failure.IsOfText : Failure → Prop
  | .fault name text => Host.isUnreadable (.fault name text) = false
  | _ => False

/-- Whatever a computation fails with is of one kind. -/
def FailsOnly {α : Type} (p : Failure → Prop) (result : Except Failure α) : Prop :=
  ∀ failure, result = .error failure → p failure

namespace FailsOnly

variable {α β : Type} {p : Failure → Prop}

theorem ok (a : α) : FailsOnly p (.ok a : Except Failure α) := nofun

theorem error {failure : Failure} (h : p failure) :
    FailsOnly p (.error failure : Except Failure α) := by
  rintro _ ⟨⟩
  exact h

theorem bind {result : Except Failure α} {next : α → Except Failure β} (h : FailsOnly p result)
    (hnext : ∀ a, FailsOnly p (next a)) : FailsOnly p (result >>= next) := by
  cases result with
  | ok a => exact hnext a
  | error failure => exact error (h failure rfl)

theorem map {result : Except Failure α} (h : FailsOnly p result) (f : α → β) :
    FailsOnly p (result.map f) := by
  cases result with
  | ok a => exact ok _
  | error failure => exact error (h failure rfl)

theorem mapError {ε : Type} {f : ε → Failure} (h : ∀ e, p (f e)) (result : Except ε α) :
    FailsOnly p (result.mapError f) := by
  cases result with
  | ok a => exact ok a
  | error e => exact error (h e)

theorem ite {c : Prop} [Decidable c] {result result' : Except Failure α} (h : FailsOnly p result)
    (h' : FailsOnly p result') : FailsOnly p (if c then result else result') := by
  split
  · exact h
  · exact h'

/-- What is only gone on with unless a failure is due. -/
theorem guard {c : Prop} [Decidable c] {failure : Failure} {next : Unit → Except Failure α}
    (h : p failure) (hnext : FailsOnly p (next ())) :
    FailsOnly p (if c then throw failure >>= next else next ()) :=
  .ite (error h) hnext

theorem mapM {f : α → Except Failure β} (h : ∀ a, FailsOnly p (f a)) (as : List α) :
    FailsOnly p (as.mapM f) := by
  induction as with
  | nil => exact ok _
  | cons a as ih =>
      rw [List.mapM_cons]
      exact (h a).bind fun b => ih.bind fun bs => ok _

end FailsOnly

namespace Yaml

open FailsOnly (ok error)

namespace Resolution

theorem isOfText_malformed : malformed.IsOfText := rfl

theorem isOfText_noFirst : noFirst.IsOfText := rfl

theorem isOfText_wrongValue (message : String) : (Failure.wrongValue message).IsOfText := rfl

theorem failsOnly_inBase (base : Nat) (cs : List Char) :
    FailsOnly Failure.IsOfText (inBase base cs) := by
  unfold inBase
  split
  · exact ok _
  · exact error (isOfText_wrongValue _)

theorem failsOnly_magnitude (body : List Char) : FailsOnly Failure.IsOfText (magnitude body) := by
  unfold magnitude
  split
  · exact error isOfText_noFirst
  · exact ok _
  · exact failsOnly_inBase 2 _
  · exact failsOnly_inBase 16 _
  · exact failsOnly_inBase 8 _
  · split
    · exact failsOnly_inBase 10 _
    · exact (FailsOnly.mapM (failsOnly_inBase 10) _).map _

theorem failsOnly_toInt (text : String) : FailsOnly Failure.IsOfText (toInt text) :=
  (failsOnly_magnitude _).bind fun _ => ok _

theorem failsOnly_readFloat (cs : List Char) : FailsOnly Failure.IsOfText (readFloat cs) := by
  unfold readFloat
  split
  · exact ok _
  · exact error (isOfText_wrongValue _)

theorem failsOnly_toFloat (text : String) : FailsOnly Failure.IsOfText (toFloat text) := by
  unfold toFloat
  dsimp only
  refine .ite (error isOfText_noFirst) (.ite (ok _) (.ite (ok _) ?_))
  split
  · exact (failsOnly_readFloat _).bind fun _ => ok _
  · exact ((FailsOnly.mapM failsOnly_readFloat _).map _).bind fun _ => ok _

theorem failsOnly_toDate (year month day : Nat) :
    FailsOnly Failure.IsOfText (toDate year month day) :=
  .ite (error (isOfText_wrongValue _)) <| .ite (error (isOfText_wrongValue _)) <|
    .ite (error (isOfText_wrongValue _)) (ok _)

theorem failsOnly_toTimestamp (text : String) : FailsOnly Failure.IsOfText (toTimestamp text) := by
  unfold toTimestamp
  split
  · exact error rfl
  · split
    · exact (failsOnly_toDate _ _ _).bind fun _ => ok _
    · dsimp only
      refine .guard (isOfText_wrongValue _) ((failsOnly_toDate _ _ _).bind fun date => ?_)
      exact .guard (isOfText_wrongValue _) <| .guard (isOfText_wrongValue _) <|
        .guard (isOfText_wrongValue _) (ok _)

theorem failsOnly_toBool (text : String) : FailsOnly Failure.IsOfText (toBool text) := by
  unfold toBool
  split <;> first | exact ok _ | exact error rfl

theorem failsOnly_construct (kind : ScalarKind) (text : String) :
    FailsOnly Failure.IsOfText (construct kind text) := by
  cases kind with
  | null => exact ok _
  | bool => exact (failsOnly_toBool text).map _
  | int => exact (failsOnly_toInt text).map _
  | float => exact (failsOnly_toFloat text).map _
  | timestamp => exact failsOnly_toTimestamp text
  | text => exact ok _
  | binary =>
      unfold construct
      dsimp only
      split
      · exact ok _
      · exact error isOfText_malformed
  | merge => exact error isOfText_malformed
  | default => exact error isOfText_malformed

end Resolution

open Resolution (isOfText_malformed)

theorem failsOnly_keyRole (key : Node) : FailsOnly Failure.IsOfText (keyRole key) := by
  unfold keyRole
  split
  · split
    · exact error isOfText_malformed
    · exact ok _
    · exact ok _
    · split
      · exact ok _
      · exact error isOfText_malformed
      · rename_i hconstruct
        exact error (Resolution.failsOnly_construct _ _ _ hconstruct)
  · exact error isOfText_malformed

mutual

theorem failsOnly_construct : (node : Node) → FailsOnly Failure.IsOfText (construct node)
  | .scalar tag text isPlain => by
      unfold construct
      split
      · exact Resolution.failsOnly_construct _ text
      · exact error isOfText_malformed
  | .sequence tag items => by
      unfold construct
      refine (failsOnly_constructItems items).bind fun values => .ite (ok _) (.ite ?_ ?_)
      · split
        · exact ok _
        · exact error isOfText_malformed
      · exact error isOfText_malformed
  | .mapping tag entries => by
      unfold construct
      refine (failsOnly_constructEntries entries).bind fun _ => .ite (ok _) (.ite (ok _) ?_)
      exact error isOfText_malformed

theorem failsOnly_constructItems :
    (items : List Node) → FailsOnly Failure.IsOfText (constructItems items)
  | [] => by
      unfold constructItems
      exact ok _
  | item :: rest => by
      unfold constructItems
      exact (failsOnly_construct item).bind fun _ =>
        (failsOnly_constructItems rest).bind fun _ => ok _

theorem failsOnly_constructEntries :
    (entries : List (Node × Node)) → FailsOnly Failure.IsOfText (constructEntries entries)
  | [] => by
      unfold constructEntries
      exact ok _
  | (key, value) :: rest => by
      have hrest := failsOnly_constructEntries rest
      unfold constructEntries
      refine (failsOnly_keyRole key).bind fun role => ?_
      cases role with
      | merge => exact (failsOnly_takenOver value).bind fun _ => hrest.bind fun _ => ok _
      | key k => exact (failsOnly_construct value).bind fun _ => hrest.bind fun _ => ok _

theorem failsOnly_takenOver : (node : Node) → FailsOnly Failure.IsOfText (takenOver node)
  | .mapping _ entries => by
      unfold takenOver
      exact (failsOnly_constructEntries entries).bind fun _ => ok _
  | .sequence _ items => by
      unfold takenOver
      exact failsOnly_takenOverAll items
  | .scalar .. => by
      unfold takenOver
      exact error isOfText_malformed

theorem failsOnly_takenOverAll :
    (items : List Node) → FailsOnly Failure.IsOfText (takenOverAll items)
  | [] => by
      unfold takenOverAll
      exact ok _
  | .mapping _ entries :: rest => by
      unfold takenOverAll
      exact (failsOnly_constructEntries entries).bind fun _ =>
        (failsOnly_takenOverAll rest).bind fun _ => ok _
  | .scalar .. :: _ => by
      unfold takenOverAll
      exact error isOfText_malformed
  | .sequence .. :: _ => by
      unfold takenOverAll
      exact error isOfText_malformed

end

/-- Whatever keeps a text from being loaded is a fault of the text. -/
theorem failsOnly_load (text : String) : FailsOnly Failure.IsOfText (load text) := by
  unfold load
  split
  · exact error isOfText_malformed
  · exact ok _
  · exact (failsOnly_construct _).map _

end Yaml

end Workflow
