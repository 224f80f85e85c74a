import Mathlib.Tactic.IntervalCases
import Workflow.Json.Reader
import Workflow.Json.Writer

/-!
Strings in JSON text. Each character is written as itself or as an escape, and its escape is read as
that character; characters above U+FFFF are put together from the two units of their pair.
-/

namespace Workflow.Json

variable {rest : List Char}

theorem hexValue?_hexDigit {n : Nat} (hn : n < 16) : hexValue? (hexDigit n) = some n := by
  interval_cases n <;> rfl

theorem readUnit?_digits {n : Nat} (hn : n < 0x10000) :
    readUnit? (hexDigit (n / 4096 % 16) :: hexDigit (n / 256 % 16) :: hexDigit (n / 16 % 16) ::
      hexDigit (n % 16) :: rest) = some (n, rest) := by
  have hdigit (m : Nat) : hexValue? (hexDigit (m % 16)) = some (m % 16) :=
    hexValue?_hexDigit (Nat.mod_lt m (by norm_num))
  have hsum : 4096 * (n / 4096 % 16) + 256 * (n / 256 % 16) + 16 * (n / 16 % 16) + n % 16 = n := by
    omega
  simp only [readUnit?, hdigit, Option.bind_eq_bind, Option.bind_some, hsum]
  rfl

theorem toNat_valid (c : Char) :
    c.toNat < 0xd800 ∨ 0xdfff < c.toNat ∧ c.toNat < 0x110000 := c.valid

theorem eq_of_toNat_eq {c d : Char} (h : c.toNat = d.toNat) : c = d :=
  Char.ext (UInt32.toNat.inj h)

/-- The escape of a unit that is a character by itself. -/
theorem readEscape?_unit {n : Nat} (hn : n < 0xd800 ∨ 0xdfff < n ∧ n < 0x10000) :
    readEscape? ((unitEscape n).tail ++ rest) = some (Char.ofNat n, rest) := by
  have hread : readUnit? _ = some (n, rest) := readUnit?_digits (by omega)
  simp only [unitEscape, List.tail_cons, List.cons_append, List.nil_append, readEscape?, hread,
    Option.bind_eq_bind, Option.bind_some]
  rw [if_neg (by omega), if_neg (by omega)]
  rfl

/-- The escapes of the two units of a pair. -/
theorem readEscape?_pair {n : Nat} (hlow : 0x10000 ≤ n) (hhigh : n < 0x110000) :
    readEscape? ((unitEscape (0xd800 + (n - 0x10000) / 0x400)).tail ++
      (unitEscape (0xdc00 + (n - 0x10000) % 0x400) ++ rest)) = some (Char.ofNat n, rest) := by
  obtain ⟨high, hhighUnit⟩ : ∃ high, high = 0xd800 + (n - 0x10000) / 0x400 := ⟨_, rfl⟩
  obtain ⟨low, hlowUnit⟩ : ∃ low, low = 0xdc00 + (n - 0x10000) % 0x400 := ⟨_, rfl⟩
  rw [← hhighUnit, ← hlowUnit]
  have hread (more : List Char) : readUnit? _ = some (high, more) := readUnit?_digits (by omega)
  have hread' : readUnit? _ = some (low, rest) := readUnit?_digits (by omega)
  have hsum : 0x10000 + (high - 0xd800) * 0x400 + (low - 0xdc00) = n := by omega
  simp only [unitEscape, List.tail_cons, List.cons_append, List.nil_append, readEscape?, hread,
    readLowUnit?, hread', Option.bind_eq_bind, Option.bind_some]
  rw [if_pos (by omega), if_pos (by omega)]
  simp only [hsum]
  rfl

/-- A character is read from its escape or from itself. -/
theorem readString?_escaped (fuel : Nat) (read : List Char) (c : Char) (rest : List Char) :
    readString? (fuel + 1) read (escaped c ++ rest) = readString? fuel (c :: read) rest := by
  have hvalid := toNat_valid c
  by_cases hquote : c.toNat = 0x22
  · obtain rfl : c = '\x22' := eq_of_toNat_eq hquote
    rfl
  by_cases hslash : c.toNat = 0x5c
  · obtain rfl : c = '\\' := eq_of_toNat_eq hslash
    rfl
  by_cases hline : c.toNat = 0x0a
  · obtain rfl : c = '\n' := eq_of_toNat_eq hline
    rfl
  by_cases hreturn : c.toNat = 0x0d
  · obtain rfl : c = '\r' := eq_of_toNat_eq hreturn
    rfl
  by_cases htab : c.toNat = 0x09
  · obtain rfl : c = '\t' := eq_of_toNat_eq htab
    rfl
  by_cases hback : c.toNat = 0x08
  · obtain rfl : c = '\x08' := eq_of_toNat_eq hback
    rfl
  by_cases hfeed : c.toNat = 0x0c
  · obtain rfl : c = '\x0c' := eq_of_toNat_eq hfeed
    rfl
  unfold escaped
  simp only [hquote, hslash, hline, hreturn, htab, hback, hfeed, if_false]
  split
  · -- printable characters stand for themselves
    have hne (d : Char) (hd : c.toNat ≠ d.toNat) : c ≠ d := fun heq => hd (by rw [heq])
    rw [List.singleton_append, readString?, if_neg (hne '\x22' hquote),
      if_neg (hne '\\' hslash), if_neg (by omega)]
  · have hstart (n : Nat) : unitEscape n = '\\' :: (unitEscape n).tail := rfl
    have hescape (cs : List Char) : readString? (fuel + 1) read ('\\' :: cs) =
        (readEscape? cs).bind fun found => readString? fuel (found.1 :: read) found.2 := rfl
    split
    · rw [hstart, List.cons_append, hescape, readEscape?_unit (by omega), Char.ofNat_toNat]
      rfl
    · rw [hstart, List.append_assoc, List.cons_append, hescape,
        readEscape?_pair (by omega) (by omega), Char.ofNat_toNat]
      rfl

theorem escaped_ne_nil (c : Char) : escaped c ≠ [] := by
  unfold escaped
  dsimp only
  repeat' split
  all_goals simp [unitEscape]

theorem readString?_quoted (s : List Char) (read : List Char) (rest : List Char) {fuel : Nat}
    (hfuel : (s.flatMap escaped).length < fuel) :
    readString? fuel read (s.flatMap escaped ++ '\x22' :: rest) =
      some (String.ofList (read.reverse ++ s), rest) := by
  induction s generalizing read fuel with
  | nil =>
      obtain ⟨fuel, rfl⟩ := Nat.exists_eq_succ_of_ne_zero (Nat.ne_zero_of_lt hfuel)
      simp [readString?]
  | cons c s ih =>
      obtain ⟨fuel, rfl⟩ := Nat.exists_eq_succ_of_ne_zero (Nat.ne_zero_of_lt hfuel)
      have hlength := List.length_pos_iff.mpr (escaped_ne_nil c)
      rw [List.flatMap_cons, List.length_append] at hfuel
      rw [List.flatMap_cons, List.append_assoc, readString?_escaped, ih _ (by omega)]
      simp

end Workflow.Json
