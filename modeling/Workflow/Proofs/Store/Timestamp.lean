import Workflow.Store.Timestamp
import Mathlib.Data.List.Basic

/-!
The ISO text of a moment is read as that moment.
-/

namespace Workflow

variable {rest : List Char}

theorem toList_padded (width n : Nat) : (padded width n).toList =
    List.replicate (width - (Nat.toDigits 10 n).length) '0' ++ Nat.toDigits 10 n := by
  rw [← Nat.toList_repr, String.length_toList]
  simp [padded]

/-- A number padded to a width it fits in is read back. -/
theorem readNumber?_padded {width n : Nat} (hwidth : 0 < width) (hn : n < Nat.pow 10 width) :
    readNumber? width ((padded width n).toList ++ rest) = some (n, rest) := by
  have hlength : (Nat.toDigits 10 n).length ≤ width :=
    (Nat.length_toDigits_le_iff (by decide) hwidth).mpr hn
  obtain ⟨digits, htext⟩ : ∃ digits, digits = (padded width n).toList := ⟨_, rfl⟩
  rw [← htext]
  rw [toList_padded] at htext
  have hsize : digits.length = width := by
    rw [htext, List.length_append, List.length_replicate]
    omega
  have hdigits : digits.all Char.isDigit = true := by
    rw [htext, List.all_append, Bool.and_eq_true, List.all_eq_true, List.all_eq_true]
    refine ⟨fun c hc => ?_, fun c hc => Nat.isDigit_of_mem_toDigits (by decide) (by decide) hc⟩
    rw [List.eq_of_mem_replicate hc]
    rfl
  have hvalue : Nat.ofDigitChars 10 digits 0 = n := by
    rw [htext, Nat.ofDigitChars_append, Nat.ofDigitChars_replicate_zero, Nat.mul_zero,
      Nat.ofDigitChars_ten_toDigits]
  unfold readNumber?
  rw [List.take_left' hsize, List.drop_left' hsize]
  simp only [hsize, hdigits, hvalue, and_self, if_true]

theorem readTwo?_padded {n : Nat} (hn : n < 100) :
    readNumber? 2 ((padded 2 n).toList ++ rest) = some (n, rest) :=
  readNumber?_padded (by decide) hn

theorem readMark?_cons (mark : Char) : readMark? mark (mark :: rest) = some rest := by
  rw [readMark?, if_pos rfl]

theorem Date.readIso?_iso {d : Date} (h : d.IsValid) :
    readIso? (d.iso.toList ++ rest) = some (d, rest) := by
  obtain ⟨-, hyear, -, hmonth, -, hday⟩ := h
  have hdays : daysInMonth d.year d.month ≤ 31 := by
    unfold daysInMonth
    repeat' split
    all_goals decide
  have htext : d.iso.toList ++ rest = (padded 4 d.year).toList ++ ('-' ::
      ((padded 2 d.month).toList ++ ('-' :: ((padded 2 d.day).toList ++ rest)))) := by
    simp [iso]
  have hyear' : d.year < 10 ^ 4 := by omega
  rw [htext, readIso?, readNumber?_padded (by decide) hyear']
  simp only [readMark?_cons, readTwo?_padded (show d.month < 100 by omega),
    readTwo?_padded (show d.day < 100 by omega), Option.bind_eq_bind, Option.bind_some]
  rfl

namespace Moment

theorem readMicros?_text {micros : Nat} (h : micros < 1000000) (hrest : rest.head? ≠ some '.') :
    readMicros? ((if micros = 0 then "" else "." ++ padded 6 micros).toList ++ rest) =
      some (micros, rest) := by
  split
  · rename_i hzero
    rw [hzero]
    cases rest with
    | nil => rfl
    | cons c rest =>
        have hc : c ≠ '.' := fun heq => hrest (by rw [heq]; rfl)
        simp [readMicros?, hc]
  · have hmicros : micros < 10 ^ 6 := by omega
    have htext : ("." ++ padded 6 micros).toList ++ rest =
        '.' :: ((padded 6 micros).toList ++ rest) := by
      simp
    rw [htext, readMicros?, readNumber?_padded (by decide) hmicros]

theorem readClock?_clockText {m : Moment} (h : m.IsValid) (hrest : rest.head? ≠ some '.') :
    readClock? (m.clockText.toList ++ rest) =
      some ((m.hour, m.minute, m.second, m.micros), rest) := by
  obtain ⟨-, hhour, hminute, hsecond, hmicros, -⟩ := h
  have hfraction := readMicros?_text hmicros hrest
  obtain ⟨more, hmore⟩ : ∃ more,
      more = (if m.micros = 0 then "" else "." ++ padded 6 m.micros).toList ++ rest := ⟨_, rfl⟩
  rw [← hmore] at hfraction
  have htext : m.clockText.toList ++ rest = (padded 2 m.hour).toList ++ (':' ::
      ((padded 2 m.minute).toList ++ (':' :: ((padded 2 m.second).toList ++ more)))) := by
    rw [hmore]
    simp [clockText, timeText]
  have hhour' : m.hour < 100 := by omega
  have hminute' : m.minute < 100 := by omega
  have hsecond' : m.second < 100 := by omega
  rw [htext, readClock?, readTwo?_padded hhour']
  simp only [readMark?_cons, readTwo?_padded hminute', readTwo?_padded hsecond', hfraction,
    Option.bind_eq_bind, Option.bind_some]
  rfl

theorem readOffset?_offsetText {offset : Option Int}
    (h : ∀ minutes ∈ offset, minutes.natAbs < 1440) :
    readOffset? ((offset.map offsetText).getD "").toList = some offset := by
  cases offset with
  | none => rfl
  | some minutes =>
      have hbound := h minutes rfl
      have hhours : minutes.natAbs / 60 < 100 := by omega
      have hminutes : minutes.natAbs % 60 < 100 := by omega
      have htotal : minutes.natAbs / 60 * 60 + minutes.natAbs % 60 = minutes.natAbs :=
        Nat.div_add_mod' _ _
      have hlast : readNumber? 2 (padded 2 (minutes.natAbs % 60)).toList =
          some (minutes.natAbs % 60, []) := by
        rw [← List.append_nil (padded 2 _).toList]
        exact readTwo?_padded hminutes
      have htext : ((some minutes).map offsetText |>.getD "").toList =
          (if minutes < 0 then '-' else '+') :: ((padded 2 (minutes.natAbs / 60)).toList ++
            (':' :: (padded 2 (minutes.natAbs % 60)).toList)) := by
        by_cases hsign : minutes < 0 <;> simp [offsetText, hsign]
      rw [htext, readOffset?]
      simp only [readTwo?_padded hhours, readMark?_cons, hlast, Option.bind_eq_bind,
        Option.bind_some, htotal]
      by_cases hsign : minutes < 0
      · have hnegative : -(minutes.natAbs : Int) = minutes := by omega
        simp only [hsign, if_true, hnegative]
        simp
      · have hpositive : (minutes.natAbs : Int) = minutes := by omega
        simp only [hsign, if_false, hpositive]
        simp

theorem head?_offsetText (offset : Option Int) :
    ((offset.map offsetText).getD "").toList.head? ≠ some '.' := by
  cases offset with
  | none => simp
  | some minutes => by_cases hsign : minutes < 0 <;> simp [offsetText, hsign]

/-- Reading the text of a moment gives the moment. -/
theorem ofIso?_iso {m : Moment} (h : m.IsValid) : ofIso? m.iso = some m := by
  have htext : m.iso.toList = m.date.iso.toList ++
      ('T' :: (m.clockText.toList ++ ((m.offset.map offsetText).getD "").toList)) := by
    simp [iso, text]
  rw [ofIso?, htext, Date.readIso?_iso h.1]
  simp only [readMark?_cons, readClock?_clockText h (head?_offsetText m.offset),
    readOffset?_offsetText h.2.2.2.2.2, Option.bind_eq_bind, Option.bind_some]
  exact if_pos h

end Moment

end Workflow
