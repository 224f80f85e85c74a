import Workflow.Proofs.Decimal.Shortest

/-!
# What numbers round to

A number that is not negative rounds to the float that owns it, and to infinity if it lies past the
largest float. This says for every number what it rounds to, and the roundings of quotients, of
decimals and of integers are all of them.
-/

namespace Workflow

/-- The numbers from here on are nearer to `2 ^ 1024` than to any float, or half way to it. -/
def overflow : ℚ := 2 ^ (1024 : ℤ) - 2 ^ (970 : ℤ)

/-- What a number that is not negative rounds to. -/
inductive Rounds (r : ℚ) : Float → Prop
  | finite {x : Float} {b : Binary} (hvalue : Binary.ofFloat? x = some b)
    (hsign : b.negative = false) (howns : b.Owns r) : Rounds r x
  | infinite (hlarge : overflow ≤ r) : Rounds r (1.0 / 0.0)

theorem overflow_eq : overflow = (2 ^ 53 - 1 / 2) * 2 ^ (971 : ℤ) := by
  have hhigh : (2 : ℚ) ^ (1024 : ℤ) = 2 ^ 54 * 2 ^ (970 : ℤ) :=
    calc (2 : ℚ) ^ (1024 : ℤ) = 2 ^ (54 + 970 : ℤ) := rfl
      _ = 2 ^ (54 : ℤ) * 2 ^ (970 : ℤ) := zpow_add₀ two_ne_zero 54 970
      _ = 2 ^ 54 * 2 ^ (970 : ℤ) := by rw [zpow_ofNat 2 54]
  have hlow : (2 : ℚ) ^ (971 : ℤ) = 2 ^ (970 : ℤ) * 2 := zpow_add_one₀ two_ne_zero 970
  rw [overflow, hhigh, hlow]
  ring

theorem overflow_pos : 0 < overflow := by
  rw [overflow_eq]
  exact mul_pos (by norm_num) (by positivity)

namespace Binary

variable {b : Binary} {r : ℚ}

theorem Owns.lt_overflow (hb : b.IsFloat) (h : b.Owns r) : r < overflow := by
  have hunit : (2 : ℚ) ^ b.exponent ≤ 2 ^ (971 : ℤ) := zpow_le_zpow_right₀ one_le_two hb.most
  have hpos : (0 : ℚ) < 2 ^ b.exponent := by positivity
  have hlast : (2 ^ 53 - 1 / 2) * (2 : ℚ) ^ b.exponent ≤ overflow := by
    rw [overflow_eq]
    exact mul_le_mul_of_nonneg_left hunit (by norm_num)
  refine lt_of_lt_of_le ?_ hlast
  rcases Nat.mod_two_eq_zero_or_one b.mantissa with heven | hodd
  · have hmantissa : b.mantissa + 2 ≤ 2 ^ 53 := by
      have := hb.mantissa_lt
      omega
    have hmantissa : (b.mantissa : ℚ) + 2 ≤ 2 ^ 53 := by exact_mod_cast hmantissa
    calc r ≤ (b.mantissa + 1 / 2) * 2 ^ b.exponent := h.high
      _ < (2 ^ 53 - 1 / 2) * 2 ^ b.exponent := by gcongr; linarith
  · have hmantissa : (b.mantissa : ℚ) + 1 ≤ 2 ^ 53 := by exact_mod_cast hb.mantissa_lt
    calc r < (b.mantissa + 1 / 2) * 2 ^ b.exponent := (h.odd hodd).2
      _ ≤ (2 ^ 53 - 1 / 2) * 2 ^ b.exponent := by gcongr; linarith

/-- At a position without a sign, the float without its sign is found. -/
theorem ofFloat?_atPosition (hb : b.IsFloat) :
    ofFloat? (atPosition false b.position) = some { b with negative := false } := by
  have hbits : (atPosition false b.position).toBits.toNat = b.position :=
    (toBits_atPosition false hb.position_lt).trans (Nat.zero_add _)
  obtain ⟨negative, mantissa, exponent⟩ := b
  obtain ⟨hmantissa, hleast, hmost, hleading⟩ := hb
  simp only [position] at hmantissa hleast hmost hleading hbits ⊢
  unfold ofFloat?
  simp only [hbits, Nat.pow_eq]
  split
  · omega
  · split <;> simp only [Option.some.injEq, Binary.mk.injEq, decide_eq_false_iff_not] <;> omega

theorem rounds_atPosition (hb : b.IsFloat) (h : b.Owns r) :
    Rounds r (atPosition false b.position) :=
  .finite (ofFloat?_atPosition hb) rfl ⟨h.low, h.high, h.odd⟩

/-! ### Quotients -/

theorem roundDiv_spec (num : Nat) {den : Nat} (hden : 0 < den) :
    (roundDiv num den : ℚ) - 1 / 2 ≤ num / den ∧ (num : ℚ) / den ≤ roundDiv num den + 1 / 2 ∧
      (roundDiv num den % 2 = 1 →
        (roundDiv num den : ℚ) - 1 / 2 < num / den ∧
          (num : ℚ) / den < roundDiv num den + 1 / 2) := by
  have hden' : (0 : ℚ) < den := by exact_mod_cast hden
  have hrest : num % den < den := Nat.mod_lt num hden
  have hnum : num = den * (num / den) + num % den := (Nat.div_add_mod num den).symm
  generalize hquotient : num / den = q at hnum
  generalize hremainder : num % den = r at hrest hnum
  have hsplit : (num : ℚ) / den = q + r / den := by
    rw [hnum]
    push_cast
    rw [add_div, mul_div_cancel_left₀ _ hden'.ne']
  have hfraction : (0 : ℚ) ≤ r / den ∧ (r : ℚ) / den < 1 :=
    ⟨by positivity, (div_lt_one hden').mpr (by exact_mod_cast hrest)⟩
  have hbelow (h : 2 * r < den) : (r : ℚ) / den < 1 / 2 := by
    rw [div_lt_div_iff₀ hden' two_pos]
    have : (2 * r : ℚ) < den := by exact_mod_cast h
    linarith
  have habove (h : den < 2 * r) : 1 / 2 < (r : ℚ) / den := by
    rw [div_lt_div_iff₀ two_pos hden']
    have : (den : ℚ) < 2 * r := by exact_mod_cast h
    linarith
  have hhalf (h : 2 * r = den) : (r : ℚ) / den = 1 / 2 := by
    rw [div_eq_div_iff hden'.ne' two_ne_zero]
    have : (2 * r : ℚ) = den := by exact_mod_cast h
    linarith
  unfold roundDiv
  simp only [hquotient, hremainder]
  rw [hsplit]
  rcases lt_trichotomy (2 * r) den with hlt | heq | hgt
  · rw [if_pos hlt]
    have := hbelow hlt
    exact ⟨by linarith, by linarith, fun _ => ⟨by linarith, by linarith⟩⟩
  · rw [if_neg heq.not_lt, if_neg heq.not_gt, hhalf heq]
    split
    · exact ⟨by linarith, by linarith, fun _ => by omega⟩
    · exact ⟨by push_cast; linarith, by push_cast; linarith, fun _ => by omega⟩
  · rw [if_neg hgt.not_gt, if_pos hgt]
    have := habove hgt
    push_cast
    exact ⟨by linarith, by linarith, fun _ => ⟨by linarith, by linarith⟩⟩

/-- Positions past those of the floats lead to infinity, and what they own is past the floats. -/
theorem rounds_min_position (hmantissa : b.mantissa < 2 ^ 53) (hleast : -1074 ≤ b.exponent)
    (hleading : b.exponent = -1074 ∨ 2 ^ 52 ≤ b.mantissa) (h : b.Owns r) :
    Rounds r (Float.ofBits (UInt64.ofNat (min b.position (2047 * Nat.pow 2 52)))) := by
  rcases le_or_gt b.exponent 971 with hmost | hpast
  · have hb : b.IsFloat := ⟨hmantissa, hleast, hmost, hleading⟩
    have hmin : min b.position (2047 * Nat.pow 2 52) = b.position := min_eq_left hb.position_lt.le
    rw [hmin]
    exact rounds_atPosition hb h
  · have hfull : 2 ^ 52 ≤ b.mantissa := hleading.resolve_left (by omega)
    have hmin : min b.position (2047 * Nat.pow 2 52) = 2047 * 2 ^ 52 := by
      refine min_eq_right ?_
      rw [position, Nat.pow_eq]
      omega
    have hinfinite : Float.ofBits (UInt64.ofNat (2047 * 2 ^ 52)) = 1.0 / 0.0 :=
      ext_toBits (by decide +kernel)
    have hunit : (2 : ℚ) ^ (972 : ℤ) ≤ 2 ^ b.exponent := zpow_le_zpow_right₀ one_le_two hpast
    have hclose : (2 : ℚ) ^ 52 - 1 / 4 ≤ b.mantissa - b.reach := by
      rcases hfull.eq_or_lt with hpower | hmore
      · have hreach : b.reach = 1 / 4 := if_pos ⟨hpower.symm, by omega⟩
        rw [hreach, ← hpower]
        norm_num
      · have : (2 : ℚ) ^ 52 + 1 ≤ b.mantissa := by exact_mod_cast hmore
        linarith [b.reach_le]
    rw [hmin, hinfinite]
    refine .infinite ?_
    calc overflow = (2 ^ 53 - 1 / 2) * 2 ^ (971 : ℤ) := overflow_eq
      _ = (2 ^ 52 - 1 / 4) * (2 ^ (971 : ℤ) * 2) := by ring
      _ = (2 ^ 52 - 1 / 4) * 2 ^ (972 : ℤ) := by rw [← zpow_add_one₀ two_ne_zero 971]; rfl
      _ ≤ (b.mantissa - b.reach) * 2 ^ b.exponent :=
          mul_le_mul hclose hunit (by positivity) (le_trans (by norm_num) hclose)
      _ ≤ r := h.low

/-- A mantissa that is rounded up to the next power of two takes the next exponent. -/
theorem owns_carry {e : ℤ} (hleast : -1074 ≤ e) (hlow : ((2 : ℚ) ^ 53 - 1 / 2) * 2 ^ e ≤ r)
    (hhigh : r < 2 ^ 53 * 2 ^ e) : (⟨false, 2 ^ 52, e + 1⟩ : Binary).Owns r := by
  have hreach : (⟨false, 2 ^ 52, e + 1⟩ : Binary).reach = 1 / 4 :=
    if_pos ⟨rfl, by simp only; omega⟩
  have htwice : (2 : ℚ) ^ (e + 1) = 2 ^ e * 2 := zpow_add_one₀ two_ne_zero e
  have hunit : (0 : ℚ) < 2 ^ e := by positivity
  refine ⟨?_, ?_, fun h => absurd h (by norm_num)⟩
  · rw [hreach]
    simp only [htwice]
    push_cast
    linarith
  · simp only [htwice]
    push_cast
    linarith

/-- Below a power of two the reach is shorter, but then the number is not below it. -/
theorem owns_rounded {m : Nat} {e : ℤ} (hlow : ((m : ℚ) - 1 / 2) * 2 ^ e ≤ r)
    (hhigh : r ≤ (m + 1 / 2) * 2 ^ e)
    (hodd : m % 2 = 1 → ((m : ℚ) - 1 / 2) * 2 ^ e < r ∧ r < (m + 1 / 2) * 2 ^ e)
    (hfloor : e = -1074 ∨ (2 : ℚ) ^ 52 * 2 ^ e ≤ r) : (⟨false, m, e⟩ : Binary).Owns r := by
  refine ⟨?_, hhigh, fun h => ?_⟩
  · unfold reach
    split
    · rename_i hpower
      have hmantissa : (m : ℚ) = 2 ^ 52 := by exact_mod_cast hpower.1
      have hunit : (0 : ℚ) < 2 ^ e := by positivity
      have := hfloor.resolve_left hpower.2
      simp only [hmantissa]
      linarith
    · exact hlow
  · have hreach : (⟨false, m, e⟩ : Binary).reach = 1 / 2 := if_neg fun hpower => by
      simp only at h hpower
      omega
    rw [hreach]
    exact hodd h

theorem rounds_nearest {num den : Nat} (hnum : 0 < num) (hden : 0 < den) :
    Rounds (num / den) (nearest num den) := by
  obtain ⟨hleast, hbelow, habove⟩ := exponentFor_spec hnum hden
  obtain ⟨e, he⟩ : ∃ e, e = exponentFor num den := ⟨_, rfl⟩
  rw [← he] at hleast hbelow habove
  have hscale : 0 < den * Nat.pow 2 e.toNat := Nat.mul_pos hden (Nat.pow_pos two_pos)
  obtain ⟨m, hm⟩ : ∃ m, m = roundDiv (num * Nat.pow 2 (-e).toNat) (den * Nat.pow 2 e.toNat) :=
    ⟨_, rfl⟩
  have hunit : (0 : ℚ) < 2 ^ e := by positivity
  obtain ⟨r, hr⟩ : ∃ r : ℚ, r = num / den := ⟨_, rfl⟩
  have hround : ((m : ℚ) - 1 / 2) * 2 ^ e ≤ r ∧ r ≤ (m + 1 / 2) * 2 ^ e ∧
      (m % 2 = 1 → ((m : ℚ) - 1 / 2) * 2 ^ e < r ∧ r < (m + 1 / 2) * 2 ^ e) := by
    have hquotient := div_div_zpow num den 2 e
    rw [Nat.cast_ofNat] at hquotient
    have hspec := roundDiv_spec (num * Nat.pow 2 (-e).toNat) hscale
    rw [← hm, hquotient, ← hr] at hspec
    rwa [le_div_iff₀ hunit, div_le_iff₀ hunit, lt_div_iff₀ hunit, div_lt_iff₀ hunit] at hspec
  obtain ⟨hlow, hhigh, hodd⟩ := hround
  have hpower (n : Nat) : (2 : ℚ) ^ (e + n) = 2 ^ n * 2 ^ e := by
    rw [zpow_add₀ two_ne_zero, zpow_natCast, mul_comm]
  have hbelow : r < 2 ^ 53 * 2 ^ e := hr ▸ hpower 53 ▸ hbelow
  have habove : e = -1074 ∨ (2 : ℚ) ^ 52 * 2 ^ e ≤ r := hr ▸ hpower 52 ▸ habove
  have hle : m ≤ 2 ^ 53 := by
    have : (m : ℚ) - 1 / 2 < 2 ^ 53 := lt_of_mul_lt_mul_right (hlow.trans_lt hbelow) hunit.le
    have : (m : ℚ) < (2 ^ 53 + 1 : Nat) := by
      push_cast
      linarith
    have : m < 2 ^ 53 + 1 := by exact_mod_cast this
    omega
  have hbits : nearest num den = Float.ofBits
      (UInt64.ofNat (min ((e + 1074).toNat * 2 ^ 52 + m) (2047 * Nat.pow 2 52))) := by
    rw [nearest, ← he, ← hm, Nat.mul_comm (Nat.pow 2 52)]
    rfl
  rw [← hr, hbits]
  rcases hle.eq_or_lt with rfl | hlt
  · have hposition : (e + 1074).toNat * 2 ^ 52 + 2 ^ 53 =
        (⟨false, 2 ^ 52, e + 1⟩ : Binary).position := by
      simp only [position]
      omega
    rw [hposition]
    push_cast at hlow
    exact rounds_min_position (by norm_num) (by simp only; omega) (Or.inr le_rfl)
      (owns_carry hleast hlow hbelow)
  · have hfull : e = -1074 ∨ 2 ^ 52 ≤ m := by
      refine habove.imp_right fun habove => ?_
      have : (2 : ℚ) ^ 52 ≤ m + 1 / 2 := le_of_mul_le_mul_right (habove.trans hhigh) hunit
      have : ((2 ^ 52 : Nat) : ℚ) < m + 1 := by
        push_cast
        linarith
      have : 2 ^ 52 < m + 1 := by exact_mod_cast this
      omega
    exact rounds_min_position (b := ⟨false, m, e⟩) hlt hleast hfull
      (owns_rounded hlow hhigh hodd habove)

end Binary

/-! ### There is one rounding -/

/-- Numbers below half of the least float vanish. -/
theorem rounds_zero_of_lt {r : ℚ} (hr : 0 ≤ r) (hsmall : r < 1 / 2 * 2 ^ (-1074 : ℤ)) :
    Rounds r 0.0 := by
  have hreach := Binary.reach_pos ⟨false, 0, -1074⟩
  have hunit : (0 : ℚ) < 2 ^ (-1074 : ℤ) := by positivity
  refine .finite (b := ⟨false, 0, -1074⟩) (by decide +kernel) rfl
    ⟨?_, ?_, fun h => absurd h (by decide)⟩
  · simp only [Nat.cast_zero]
    nlinarith
  · simp only [Nat.cast_zero]
    linarith

theorem rounds_zero : Rounds 0 0.0 := rounds_zero_of_lt le_rfl (by positivity)

theorem eq_num_div_den {r : ℚ} (hr : 0 ≤ r) : r = (r.num.toNat : ℚ) / r.den := by
  have hnum : ((r.num.toNat : ℤ) : ℚ) = r.num := by
    rw [Int.toNat_of_nonneg (Rat.num_nonneg.mpr hr)]
  rw [← Int.cast_natCast, hnum, Rat.num_div_den]

theorem Binary.Owns.eq_zero {b : Binary} (hb : b.IsFloat) (h : b.Owns 0) :
    b.mantissa = 0 ∧ b.exponent = -1074 := by
  have hunit : (0 : ℚ) < 2 ^ b.exponent := by positivity
  have hle : (b.mantissa : ℚ) - b.reach ≤ 0 := le_of_mul_le_mul_right (by linarith [h.low]) hunit
  have hlt : (b.mantissa : ℚ) < 1 := by linarith [b.reach_le]
  have hzero : b.mantissa = 0 := by
    have : b.mantissa < 1 := by exact_mod_cast hlt
    omega
  exact ⟨hzero, hb.leading.resolve_right (by omega)⟩

/-- A number rounds to one float. -/
theorem Rounds.unique {r : ℚ} {x y : Float} (hr : 0 ≤ r) (hx : Rounds r x) (hy : Rounds r y) :
    x = y := by
  cases hx with
  | @finite _ b hvalue hsign howns =>
      have hb := Binary.isFloat_of_ofFloat? hvalue
      cases hy with
      | @finite _ b' hvalue' hsign' howns' =>
          have hb' := Binary.isFloat_of_ofFloat? hvalue'
          rw [Binary.eq_atPosition hvalue, Binary.eq_atPosition hvalue', hsign, hsign']
          rcases hr.eq_or_lt with rfl | hpos
          · obtain ⟨hm, he⟩ := howns.eq_zero hb
            obtain ⟨hm', he'⟩ := howns'.eq_zero hb'
            rw [Binary.position, Binary.position, hm, he, hm', he']
          · rw [eq_num_div_den hr] at howns howns'
            have hnum : 0 < r.num.toNat := by
              have := Rat.num_pos.mpr hpos
              omega
            exact (Binary.nearest_eq hb hnum r.den_pos howns).symm.trans
              (Binary.nearest_eq hb' hnum r.den_pos howns')
      | infinite hlarge => exact absurd (howns.lt_overflow hb) hlarge.not_gt
  | infinite hlarge =>
      cases hy with
      | finite hvalue hsign howns =>
          exact absurd (howns.lt_overflow (Binary.isFloat_of_ofFloat? hvalue)) hlarge.not_gt
      | infinite => rfl

theorem Rounds.isFinite_iff {r : ℚ} {x : Float} (h : Rounds r x) :
    isFiniteFloat x = true ↔ r < overflow := by
  cases h with
  | finite hvalue hsign howns =>
      have hlt := howns.lt_overflow (Binary.isFloat_of_ofFloat? hvalue)
      simp [isFiniteFloat, hvalue, hlt]
  | infinite hlarge =>
      have hnone : Binary.ofFloat? (1.0 / 0.0) = none := by decide +kernel
      simp [isFiniteFloat, hnone, hlarge]

/-! ### Integers and decimals -/

theorem rounds_floatOfInt {n : ℤ} (hn : 0 ≤ n) : Rounds n (floatOfInt n) := by
  rcases hn.eq_or_lt with rfl | hpos
  · exact_mod_cast rounds_zero
  · have hmagnitude : 0 < n.natAbs := by omega
    have hround := Binary.rounds_nearest hmagnitude one_pos
    have hvalue : ((n.natAbs : ℚ)) / (1 : Nat) = n := by
      rw [Nat.cast_one, div_one, Nat.cast_natAbs, abs_of_pos hpos]
    rw [hvalue] at hround
    rwa [floatOfInt, if_neg hpos.ne', if_neg hn.not_gt]

theorem two_zpow_le (n : Nat) : (2 : ℚ) ^ (13 * n : ℤ) ≤ 10 ^ (4 * n : ℤ) := by
  rw [zpow_mul, zpow_mul, zpow_natCast, zpow_natCast]
  gcongr
  norm_num

theorem overflow_le_pow : overflow ≤ 10 ^ (316 : ℤ) := by
  have hunit : (0 : ℚ) < 2 ^ (970 : ℤ) := by positivity
  calc overflow ≤ 2 ^ (1024 : ℤ) := sub_le_self _ hunit.le
    _ ≤ 2 ^ (1027 : ℤ) := zpow_le_zpow_right₀ one_le_two (by norm_num)
    _ ≤ 10 ^ (316 : ℤ) := two_zpow_le 79

theorem pow_le_half_least : (10 : ℚ) ^ (-332 : ℤ) ≤ 1 / 2 * 2 ^ (-1074 : ℤ) :=
  calc (10 : ℚ) ^ (-332 : ℤ) ≤ 2 ^ (-1079 : ℤ) := by
        rw [zpow_neg, zpow_neg]
        exact inv_anti₀ (by positivity) (two_zpow_le 83)
    _ ≤ 2 ^ (-1 + -1074 : ℤ) := zpow_le_zpow_right₀ one_le_two (by norm_num)
    _ = 1 / 2 * 2 ^ (-1074 : ℤ) := by rw [zpow_add₀ two_ne_zero, zpow_neg_one, one_div]

theorem rounds_toFloat (digits : Nat) (exponent : ℤ) :
    Rounds (digits * 10 ^ exponent) (Decimal.toFloat digits exponent) := by
  have hmesh : (0 : ℚ) < 10 ^ exponent := by positivity
  rcases Nat.eq_zero_or_pos digits with rfl | hdigits
  · rw [Nat.cast_zero, zero_mul]
    exact rounds_zero
  · obtain ⟨hlow, hhigh⟩ := Decimal.pow_length_toString hdigits
    unfold Decimal.toFloat
    dsimp only
    rw [if_neg hdigits.ne']
    split
    · rename_i hmagnitude
      refine .infinite ?_
      calc overflow ≤ 10 ^ (316 : ℤ) := overflow_le_pow
        _ ≤ 10 ^ (((toString digits).length : ℤ) - 1 + exponent) :=
            zpow_le_zpow_right₀ (by norm_num) (by omega)
        _ = 10 ^ (((toString digits).length : ℤ) - 1) * 10 ^ exponent := zpow_add₀ (by norm_num) _ _
        _ ≤ digits * 10 ^ exponent := by gcongr
    · split
      · rename_i hmagnitude
        refine rounds_zero_of_lt (by positivity) ?_
        calc (digits : ℚ) * 10 ^ exponent
              < 10 ^ ((toString digits).length : ℤ) * 10 ^ exponent := by gcongr
          _ = 10 ^ (((toString digits).length : ℤ) + exponent) := (zpow_add₀ (by norm_num) _ _).symm
          _ ≤ 10 ^ (-332 : ℤ) := zpow_le_zpow_right₀ (by norm_num) (by omega)
          _ ≤ 1 / 2 * 2 ^ (-1074 : ℤ) := pow_le_half_least
      · have hnum : 0 < digits * Nat.pow 10 exponent.toNat :=
          Nat.mul_pos hdigits (Nat.pow_pos (by norm_num))
        have hquotient : ((digits * Nat.pow 10 exponent.toNat : Nat) : ℚ) /
            (Nat.pow 10 (-exponent).toNat : Nat) = digits * 10 ^ exponent := by
          have hpower : (10 : ℚ) ^ exponent = _ := zpow_eq_div 10 exponent
          rw [hpower, Nat.cast_mul, mul_div_assoc]
        have hden : 0 < Nat.pow 10 (-exponent).toNat := Nat.pow_pos (by norm_num)
        rw [← hquotient]
        exact Binary.rounds_nearest hnum hden

/-- A decimal is read as the float that owns it. -/
theorem Decimal.toFloat_eq {b : Binary} (hb : b.IsFloat) {digits : Nat} {exponent : ℤ}
    (h : b.Owns (digits * 10 ^ exponent)) :
    toFloat digits exponent = atPosition false b.position :=
  (rounds_toFloat digits exponent).unique (by positivity) (Binary.rounds_atPosition hb h)

end Workflow
