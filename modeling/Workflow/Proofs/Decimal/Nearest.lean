import Mathlib.Algebra.Order.Field.Power
import Mathlib.Tactic.FieldSimp
import Mathlib.Tactic.Linarith
import Mathlib.Tactic.NormNum
import Mathlib.Tactic.Positivity
import Mathlib.Tactic.Ring
import Workflow.Decimal.Binary

/-!
Rounding to the nearest float. A float owns the numbers that are nearer to it than to its
neighbours, and of those half way the ones next to an even mantissa; `nearest` finds the owner.
-/

namespace Workflow

theorem zpow_eq_div (base : Nat) (e : Int) :
    (base : ℚ) ^ e = (Nat.pow base e.toNat : Nat) / (Nat.pow base (-e).toNat : Nat) := by
  simp only [Nat.pow_eq, Nat.cast_pow]
  rcases le_total 0 e with he | he
  · lift e to Nat using he
    simp
  · obtain ⟨n, rfl⟩ := Int.exists_eq_neg_ofNat he
    simp

theorem div_div_zpow (num den base : Nat) (e : Int) :
    ((num * Nat.pow base (-e).toNat : Nat) : ℚ) / (den * Nat.pow base e.toNat : Nat) =
      num / den / (base : ℚ) ^ e := by
  rw [zpow_eq_div, div_div_div_eq, Nat.cast_mul, Nat.cast_mul]

namespace Binary

/-! ### Rounding a quotient -/

/-- A quotient is rounded to the integer it is within a half of; an odd one gives up the halves. -/
theorem roundDiv_eq {num den n : Nat} (hden : 0 < den)
    (hlow : 2 * n * den ≤ 2 * num + den) (hhigh : 2 * num ≤ 2 * n * den + den)
    (hodd : n % 2 = 1 → 2 * n * den < 2 * num + den ∧ 2 * num < 2 * n * den + den) :
    roundDiv num den = n := by
  have hnum : num = den * (num / den) + num % den := (Nat.div_add_mod num den).symm
  have hrest : num % den < den := Nat.mod_lt num hden
  unfold roundDiv
  generalize num / den = q at *
  generalize num % den = r at *
  subst hnum
  have hle : n ≤ q + 1 := by
    by_contra hgt
    have : den * (q + 2) ≤ den * n := Nat.mul_le_mul_left den (by omega)
    nlinarith
  have hge : q ≤ n := by
    by_contra hlt
    have : den * (n + 1) ≤ den * q := Nat.mul_le_mul_left den (by omega)
    nlinarith
  obtain rfl | rfl : n = q ∨ n = q + 1 := by omega
  · have hhalf : 2 * r ≤ den := by nlinarith
    rcases Nat.lt_or_eq_of_le hhalf with hlt | heq
    · simp [hlt]
    · have heven : n % 2 = 0 := by
        by_contra hne
        have := (hodd (by omega)).2
        nlinarith
      simp [heq, heven]
  · have hhalf : den ≤ 2 * r := by nlinarith
    rcases Nat.lt_or_eq_of_le hhalf with hlt | heq
    · simp [hlt, hlt.le]
    · have heven : q % 2 ≠ 0 := by
        intro hzero
        have := (hodd (by omega)).1
        nlinarith
      simp [← heq, heven]

theorem roundDiv_eq_of_near {num den n : Nat} (hden : 0 < den)
    (hlow : (n : ℚ) - 1 / 2 ≤ num / den) (hhigh : (num : ℚ) / den ≤ n + 1 / 2)
    (hodd : n % 2 = 1 → (n : ℚ) - 1 / 2 < num / den ∧ (num : ℚ) / den < n + 1 / 2) :
    roundDiv num den = n := by
  have hden' : (0 : ℚ) < den := by exact_mod_cast hden
  rw [le_div_iff₀ hden'] at hlow
  rw [div_le_iff₀ hden'] at hhigh
  rw [lt_div_iff₀ hden', div_lt_iff₀ hden'] at hodd
  refine roundDiv_eq hden ?_ ?_ fun h => ⟨?_, ?_⟩
  · have : (2 * n * den : ℚ) ≤ 2 * num + den := by linarith
    exact_mod_cast this
  · have : (2 * num : ℚ) ≤ 2 * n * den + den := by linarith
    exact_mod_cast this
  · have : (2 * n * den : ℚ) < 2 * num + den := by linarith [(hodd h).1]
    exact_mod_cast this
  · have : (2 * num : ℚ) < 2 * n * den + den := by linarith [(hodd h).2]
    exact_mod_cast this

/-! ### The exponent -/

theorem cast_log2 {n : Nat} (hn : 0 < n) :
    (2 : ℚ) ^ (n.log2 : ℤ) ≤ n ∧ (n : ℚ) < 2 ^ ((n.log2 : ℤ) + 1) := by
  have hlow := Nat.log2_self_le hn.ne'
  have hhigh := Nat.lt_log2_self (n := n)
  constructor
  · exact_mod_cast hlow
  · exact_mod_cast hhigh

/-- The mantissa of a quotient has 53 bits at the exponent chosen for it, and at most that many at
the least exponent. -/
theorem exponentFor_spec {num den : Nat} (hnum : 0 < num) (hden : 0 < den) :
    -1074 ≤ exponentFor num den ∧ (num : ℚ) / den < 2 ^ (exponentFor num den + 53) ∧
      (exponentFor num den = -1074 ∨ (2 : ℚ) ^ (exponentFor num den + 52) ≤ num / den) := by
  have hden' : (0 : ℚ) < den := by exact_mod_cast hden
  obtain ⟨hnumLow, hnumHigh⟩ := cast_log2 hnum
  obtain ⟨hdenLow, hdenHigh⟩ := cast_log2 hden
  obtain ⟨guess, hguess⟩ : ∃ guess : ℤ, guess = num.log2 - den.log2 - 53 := ⟨_, rfl⟩
  have hlow : (2 : ℚ) ^ (guess + 52) ≤ num / den := by
    rw [le_div_iff₀ hden']
    calc (2 : ℚ) ^ (guess + 52) * den
        ≤ 2 ^ (guess + 52) * 2 ^ ((den.log2 : ℤ) + 1) := by gcongr
      _ = 2 ^ (num.log2 : ℤ) := by rw [← zpow_add₀ two_ne_zero]; congr 1; omega
      _ ≤ num := hnumLow
  have hhigh : (num : ℚ) / den < 2 ^ (guess + 54) := by
    rw [div_lt_iff₀ hden']
    calc (num : ℚ) < 2 ^ ((num.log2 : ℤ) + 1) := hnumHigh
      _ = 2 ^ (guess + 54) * 2 ^ (den.log2 : ℤ) := by
          rw [← zpow_add₀ two_ne_zero]; congr 1; omega
      _ ≤ 2 ^ (guess + 54) * den := by gcongr
  have hfits : num * Nat.pow 2 (-guess).toNat < Nat.pow 2 53 * (den * Nat.pow 2 guess.toNat) ↔
      (num : ℚ) / den < 2 ^ (guess + 53) := by
    have hpos : (0 : ℚ) < (den * Nat.pow 2 guess.toNat : Nat) := by
      exact_mod_cast Nat.mul_pos hden (Nat.pow_pos two_pos)
    have hsplit : (2 : ℚ) ^ (guess + 53) = 2 ^ 53 * 2 ^ guess := by
      rw [zpow_add₀ two_ne_zero, mul_comm]
      norm_cast
    rw [hsplit, ← div_lt_iff₀ (by positivity)]
    have hscaled := div_div_zpow num den 2 guess
    rw [Nat.cast_ofNat] at hscaled
    rw [← hscaled, div_lt_iff₀ hpos]
    norm_cast
  have hexponent : exponentFor num den =
      max (if (num : ℚ) / den < 2 ^ (guess + 53) then guess else guess + 1) (-1074) := by
    unfold exponentFor
    simp only [← hguess, hfits]
  have hmono {e e' : ℤ} (h : e ≤ e') : (2 : ℚ) ^ e ≤ 2 ^ e' := zpow_le_zpow_right₀ one_le_two h
  rw [hexponent]
  split
  · rename_i hlt
    refine ⟨le_max_right _ _, hlt.trans_le (hmono (by omega)), ?_⟩
    rcases le_or_gt guess (-1074) with hle | hgt
    · exact Or.inl (max_eq_right hle)
    · exact Or.inr (by rw [max_eq_left hgt.le]; exact hlow)
  · rename_i hge
    rw [not_lt] at hge
    refine ⟨le_max_right _ _, hhigh.trans_le (hmono (by omega)), ?_⟩
    rcases le_or_gt (guess + 1) (-1074) with hle | hgt
    · exact Or.inl (max_eq_right hle)
    · refine Or.inr ?_
      rw [max_eq_left hgt.le]
      exact (hmono (by omega)).trans hge

/-! ### The numbers a float owns -/

/-- The fractions that are the values of floats. -/
structure IsFloat (b : Binary) : Prop where
  mantissa_lt : b.mantissa < 2 ^ 53
  least : -1074 ≤ b.exponent
  most : b.exponent ≤ 971
  leading : b.exponent = -1074 ∨ 2 ^ 52 ≤ b.mantissa

/-- How far down a float reaches, in units of its mantissa. Below a power of two the next float is
half as far as elsewhere. -/
def reach (b : Binary) : ℚ :=
  if b.mantissa = 2 ^ 52 ∧ b.exponent ≠ -1074 then 1 / 4 else 1 / 2

/-- The numbers that round to a float, its sign left out. -/
structure Owns (b : Binary) (r : ℚ) : Prop where
  low : (b.mantissa - b.reach) * 2 ^ b.exponent ≤ r
  high : r ≤ (b.mantissa + 1 / 2) * 2 ^ b.exponent
  odd : b.mantissa % 2 = 1 →
    (b.mantissa - b.reach) * 2 ^ b.exponent < r ∧ r < (b.mantissa + 1 / 2) * 2 ^ b.exponent

/-- The bits of a float without its sign: the floats are counted up from zero. -/
def position (b : Binary) : Nat := (b.exponent + 1074).toNat * 2 ^ 52 + b.mantissa

theorem reach_le (b : Binary) : b.reach ≤ 1 / 2 := by
  unfold reach
  split <;> norm_num

theorem reach_pos (b : Binary) : 0 < b.reach := by
  unfold reach
  split <;> norm_num

theorem IsFloat.position_lt {b : Binary} (h : b.IsFloat) : b.position < 2047 * 2 ^ 52 := by
  have := h.mantissa_lt
  have := h.most
  have := h.least
  unfold position
  omega

/-- The exponent of a number is that of its owner, or one less just below a power of two. -/
theorem exponentFor_of_owns {b : Binary} (hb : b.IsFloat) {num den : Nat} (hnum : 0 < num)
    (hden : 0 < den) (h : b.Owns (num / den)) :
    exponentFor num den = b.exponent ∨
      exponentFor num den = b.exponent - 1 ∧ b.mantissa = 2 ^ 52 ∧
        (num : ℚ) / den < 2 ^ 52 * 2 ^ b.exponent := by
  obtain ⟨hleast, hbelow, habove⟩ := exponentFor_spec hnum hden
  obtain ⟨e, he⟩ : ∃ e, e = exponentFor num den := ⟨_, rfl⟩
  rw [← he] at hleast hbelow habove ⊢
  have hunit : (0 : ℚ) < 2 ^ b.exponent := by positivity
  have hmantissa : (b.mantissa : ℚ) + 1 ≤ 2 ^ 53 := by exact_mod_cast hb.mantissa_lt
  have hlt : (num : ℚ) / den < 2 ^ (b.exponent + 53) := by
    calc (num : ℚ) / den ≤ (b.mantissa + 1 / 2) * 2 ^ b.exponent := h.high
      _ < 2 ^ 53 * 2 ^ b.exponent := by gcongr; linarith
      _ = 2 ^ (b.exponent + 53) := by rw [zpow_add₀ two_ne_zero, mul_comm]; norm_cast
  have hle : e ≤ b.exponent := by
    rcases habove with rfl | habove
    · exact hb.least
    · have := (zpow_lt_zpow_iff_right₀ one_lt_two).mp (habove.trans_lt hlt)
      omega
  rcases hle.eq_or_lt with heq | hless
  · exact Or.inl heq
  · refine Or.inr ?_
    have hnotLeast : b.exponent ≠ -1074 := by omega
    have hleading : 2 ^ 52 ≤ b.mantissa := hb.leading.resolve_left hnotLeast
    have hunder : (num : ℚ) / den < 2 ^ 52 * 2 ^ b.exponent := by
      calc (num : ℚ) / den < 2 ^ (e + 53) := hbelow
        _ ≤ 2 ^ (52 + b.exponent) := zpow_le_zpow_right₀ one_le_two (by omega)
        _ = 2 ^ 52 * 2 ^ b.exponent := by rw [zpow_add₀ two_ne_zero]; norm_cast
    have hclose : (b.mantissa : ℚ) - b.reach < 2 ^ 52 :=
      lt_of_mul_lt_mul_right (h.low.trans_lt hunder) hunit.le
    have hpower : b.mantissa = 2 ^ 52 := by
      have : (b.mantissa : ℚ) < (2 ^ 52 + 1 : Nat) := by
        push_cast
        linarith [b.reach_le]
      have : b.mantissa < 2 ^ 52 + 1 := by exact_mod_cast this
      omega
    have hover : (2 : ℚ) ^ (b.exponent + 51) < num / den := by
      calc (2 : ℚ) ^ (b.exponent + 51) = 2 ^ 51 * 2 ^ b.exponent := by
            rw [zpow_add₀ two_ne_zero, mul_comm]; norm_cast
        _ < (b.mantissa - b.reach) * 2 ^ b.exponent := by
            gcongr
            rw [hpower]
            push_cast
            linarith [b.reach_le]
        _ ≤ num / den := h.low
    have := (zpow_lt_zpow_iff_right₀ one_lt_two).mp (hover.trans hbelow)
    exact ⟨by omega, hpower, hunder⟩

theorem nearest_eq {b : Binary} (hb : b.IsFloat) {num den : Nat} (hnum : 0 < num)
    (hden : 0 < den) (h : b.Owns (num / den)) :
    nearest num den = Float.ofBits (UInt64.ofNat b.position) := by
  obtain ⟨e, he⟩ : ∃ e, e = exponentFor num den := ⟨_, rfl⟩
  have hscale : 0 < den * Nat.pow 2 e.toNat := Nat.mul_pos hden (Nat.pow_pos two_pos)
  have hquotient := div_div_zpow num den 2 e
  rw [Nat.cast_ofNat] at hquotient
  have hunit : (0 : ℚ) < 2 ^ b.exponent := by positivity
  have hreach := b.reach_le
  have hbits : Nat.pow 2 52 * (e + 1074).toNat +
      roundDiv (num * Nat.pow 2 (-e).toNat) (den * Nat.pow 2 e.toNat) = b.position := by
    rcases exponentFor_of_owns hb hnum hden h with heq | ⟨heq, hpower, hunder⟩
    · rw [← he] at heq
      rw [heq] at hquotient hscale ⊢
      have hround : roundDiv (num * Nat.pow 2 (-b.exponent).toNat)
          (den * Nat.pow 2 b.exponent.toNat) = b.mantissa := by
        refine roundDiv_eq_of_near hscale ?_ ?_ fun hodd => ?_
        all_goals rw [hquotient]
        · rw [le_div_iff₀ hunit]
          refine le_trans ?_ h.low
          gcongr
        · rw [div_le_iff₀ hunit]
          exact h.high
        · rw [lt_div_iff₀ hunit, div_lt_iff₀ hunit]
          refine ⟨lt_of_le_of_lt ?_ (h.odd hodd).1, (h.odd hodd).2⟩
          gcongr
      rw [hround, Nat.mul_comm]
      rfl
    · -- Just below a power of two the scale is half as coarse, and the quotient rounds up to the
      -- least mantissa of the owner's exponent.
      rw [← he] at heq
      have hnotLeast : b.exponent ≠ -1074 := by
        have := (exponentFor_spec hnum hden).1
        omega
      have hquarter : b.reach = 1 / 4 := if_pos ⟨hpower, hnotLeast⟩
      have hhalf : (2 : ℚ) ^ e = 2 ^ b.exponent / 2 := by
        rw [heq, zpow_sub_one₀ two_ne_zero]
        rfl
      have hlow := h.low
      rw [hpower, hquarter] at hlow
      have hround : roundDiv (num * Nat.pow 2 (-e).toNat) (den * Nat.pow 2 e.toNat) = 2 ^ 53 := by
        refine roundDiv_eq_of_near hscale ?_ ?_ fun hodd => by omega
        all_goals rw [hquotient, hhalf]
        · rw [le_div_iff₀ (by positivity)]
          push_cast at hlow ⊢
          linarith
        · rw [div_le_iff₀ (by positivity)]
          push_cast
          linarith
      have hleast := hb.least
      rw [hround, position, hpower]
      simp only [Nat.pow_eq]
      omega
  unfold nearest
  simp only [← he, hbits]
  congr 2
  exact min_eq_left hb.position_lt.le

end Binary

end Workflow
