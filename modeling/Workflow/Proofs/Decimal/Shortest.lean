import Workflow.Decimal.Text
import Workflow.Proofs.Decimal.Bits

/-!
The shortest decimal of a float is one of the numbers the float owns. A grid whose mesh is finer
than the float's interval has a point in it, and the grid of seventeen digits is that fine.
-/

namespace Workflow.Decimal

/-- The number that scaled digits stand for. -/
def Scaled.value (s : Scaled) : ℚ := s.digits * 10 ^ s.exponent

/-! ### The interval of a float -/

section Interval

variable {b : Binary} {i : Interval}

/-- What an interval over a common denominator says of a float. -/
structure Interval.Covers (i : Interval) (b : Binary) : Prop where
  denominator_pos : 0 < i.denominator
  low : (i.low : ℚ) / i.denominator = (b.mantissa - b.reach) * 2 ^ b.exponent
  value : (i.value : ℚ) / i.denominator = b.mantissa * 2 ^ b.exponent
  high : (i.high : ℚ) / i.denominator = (b.mantissa + 1 / 2) * 2 ^ b.exponent
  closed : i.closed = decide (b.mantissa % 2 = 0)

theorem covers_ofBinary (hpos : 0 < b.mantissa) : (Interval.ofBinary b).Covers b := by
  obtain ⟨scale, hscale⟩ : ∃ scale : Nat, scale =
      if 2 ≤ b.exponent then Nat.pow 2 (b.exponent - 2).toNat else 1 := ⟨_, rfl⟩
  obtain ⟨denominator, hdenominator⟩ : ∃ denominator : Nat, denominator =
      if 2 ≤ b.exponent then 1 else Nat.pow 2 (2 - b.exponent).toNat := ⟨_, rfl⟩
  have hdenominatorPos : 0 < denominator := by
    rw [hdenominator]
    split
    · exact one_pos
    · exact Nat.pow_pos two_pos
  have hquarter : (scale : ℚ) / denominator = 2 ^ b.exponent / 4 := by
    have hshift : (2 : ℚ) ^ (b.exponent - 2) = 2 ^ b.exponent / 4 := by
      rw [zpow_sub₀ two_ne_zero]
      norm_num
    rw [← hshift, hscale, hdenominator]
    split
    · obtain ⟨n, hn⟩ := Int.eq_ofNat_of_zero_le (a := b.exponent - 2) (by omega)
      simp [hn]
    · obtain ⟨n, hn⟩ := Int.eq_ofNat_of_zero_le (a := 2 - b.exponent) (by omega)
      have hn' : b.exponent - 2 = -n := by omega
      simp [hn, hn']
  have hgap : ((4 * b.mantissa - (if b.mantissa = 2 ^ 52 ∧ b.exponent ≠ -1074 then 1 else 2) : Nat)
      : ℚ) = 4 * (b.mantissa - b.reach) := by
    unfold Binary.reach
    split
    · rw [Nat.cast_sub (by omega)]
      push_cast
      ring
    · rw [Nat.cast_sub (by omega)]
      push_cast
      ring
  refine ⟨?_, ?_, ?_, ?_, rfl⟩
  all_goals simp only [Interval.ofBinary, ← hscale, ← hdenominator]
  · exact hdenominatorPos
  · simp only [Nat.pow_eq, Nat.cast_mul, hgap]
    rw [mul_div_assoc, hquarter]
    ring
  · push_cast
    rw [mul_div_assoc, hquarter]
    ring
  · push_cast
    rw [mul_div_assoc, hquarter]
    ring

theorem holds_iff (h : i.Covers b) {num factor : Nat} (hfactor : 0 < factor) :
    i.holds num factor = true ↔ b.Owns (num / (factor * i.denominator)) := by
  have hfactor' : (0 : ℚ) < factor := by exact_mod_cast hfactor
  have hdenominator : (0 : ℚ) < i.denominator := by exact_mod_cast h.denominator_pos
  have hscaled (x y : ℚ) : x / i.denominator ≤ y / (factor * i.denominator) ↔ x * factor ≤ y := by
    rw [div_le_div_iff₀ hdenominator (by positivity), ← mul_assoc,
      mul_le_mul_iff_left₀ hdenominator]
  have hscaled' (x y : ℚ) : y / (factor * i.denominator) ≤ x / i.denominator ↔ y ≤ x * factor := by
    rw [div_le_div_iff₀ (by positivity) hdenominator, ← mul_assoc,
      mul_le_mul_iff_left₀ hdenominator]
  have hlow : (b.mantissa - b.reach) * 2 ^ b.exponent ≤ (num : ℚ) / (factor * i.denominator) ↔
      i.low * factor ≤ num := by
    rw [← h.low, hscaled]
    exact_mod_cast Iff.rfl
  have hhigh : (num : ℚ) / (factor * i.denominator) ≤ (b.mantissa + 1 / 2) * 2 ^ b.exponent ↔
      num ≤ i.high * factor := by
    rw [← h.high, hscaled']
    exact_mod_cast Iff.rfl
  have hlow' : (b.mantissa - b.reach) * 2 ^ b.exponent < (num : ℚ) / (factor * i.denominator) ↔
      i.low * factor < num := by
    rw [← not_le, ← h.low, hscaled', not_le]
    exact_mod_cast Iff.rfl
  have hhigh' : (num : ℚ) / (factor * i.denominator) < (b.mantissa + 1 / 2) * 2 ^ b.exponent ↔
      num < i.high * factor := by
    rw [← not_le, ← h.high, hscaled, not_le]
    exact_mod_cast Iff.rfl
  unfold Interval.holds
  rw [h.closed]
  by_cases heven : b.mantissa % 2 = 0
  · rw [decide_eq_true heven, if_pos rfl, Bool.and_eq_true, decide_eq_true_iff, decide_eq_true_iff]
    constructor
    · rintro ⟨hl, hh⟩
      exact ⟨hlow.mpr hl, hhigh.mpr hh, fun hodd => by omega⟩
    · exact fun howns => ⟨hlow.mp howns.low, hhigh.mp howns.high⟩
  · rw [decide_eq_false heven, if_neg (by simp), Bool.and_eq_true, decide_eq_true_iff,
      decide_eq_true_iff]
    constructor
    · rintro ⟨hl, hh⟩
      exact ⟨hlow.mpr hl.le, hhigh.mpr hh.le, fun _ => ⟨hlow'.mpr hl, hhigh'.mpr hh⟩⟩
    · exact fun howns => ⟨hlow'.mp (howns.odd (by omega)).1, hhigh'.mp (howns.odd (by omega)).2⟩

/-! ### A grid -/

theorem holds_grid_iff (h : i.Covers b) (digits : Nat) (exponent : ℤ) :
    i.holds (digits * (i.denominator * Nat.pow 10 exponent.toNat))
      (Nat.pow 10 (-exponent).toNat) = true ↔ b.Owns (Scaled.value ⟨digits, exponent⟩) := by
  have hdenominator : (i.denominator : ℚ) ≠ 0 := by exact_mod_cast h.denominator_pos.ne'
  have hpower : (10 : ℚ) ^ exponent = _ := zpow_eq_div 10 exponent
  have hfactor : 0 < Nat.pow 10 (-exponent).toNat := Nat.pow_pos (by norm_num)
  rw [holds_iff h hfactor]
  have hpoint : ((digits * (i.denominator * Nat.pow 10 exponent.toNat) : Nat) : ℚ) /
      ((Nat.pow 10 (-exponent).toNat : Nat) * i.denominator) =
        Scaled.value ⟨digits, exponent⟩ := by
    rw [Scaled.value, hpower]
    push_cast
    field_simp
  rw [hpoint]

/-- A grid offers one of the two neighbours of the float, unless the float owns neither. -/
theorem onGrid?_spec (h : i.Covers b) (exponent : ℤ) : ∃ lower : Nat,
    (lower : ℚ) * 10 ^ exponent ≤ b.mantissa * 2 ^ b.exponent ∧
    (b.mantissa : ℚ) * 2 ^ b.exponent < (lower + 1) * 10 ^ exponent ∧
    ((∃ digits, i.onGrid? exponent = some digits ∧ b.Owns (Scaled.value ⟨digits, exponent⟩)) ∨
      i.onGrid? exponent = none ∧ ¬ b.Owns (Scaled.value ⟨lower, exponent⟩) ∧
        ¬ b.Owns (Scaled.value ⟨lower + 1, exponent⟩)) := by
  have hmesh : (0 : ℚ) < 10 ^ exponent := by positivity
  have hunit : 0 < i.denominator * Nat.pow 10 exponent.toNat :=
    Nat.mul_pos h.denominator_pos (Nat.pow_pos (by norm_num))
  have hunit' : (0 : ℚ) < (i.denominator * Nat.pow 10 exponent.toNat : Nat) := by
    exact_mod_cast hunit
  obtain ⟨lower, hlower⟩ : ∃ lower, lower = i.value * Nat.pow 10 (-exponent).toNat /
    (i.denominator * Nat.pow 10 exponent.toNat) := ⟨_, rfl⟩
  have hvalue := div_div_zpow i.value i.denominator 10 exponent
  rw [h.value, Nat.cast_ofNat] at hvalue
  refine ⟨lower, ?_, ?_, ?_⟩
  · rw [← le_div_iff₀ hmesh, ← hvalue, le_div_iff₀ hunit']
    have := (Nat.le_div_iff_mul_le hunit).mp hlower.le
    exact_mod_cast this
  · rw [← div_lt_iff₀ hmesh, ← hvalue, div_lt_iff₀ hunit']
    have := (Nat.div_lt_iff_lt_mul hunit).mp (hlower.symm.le.trans_lt (Nat.lt_succ_self lower))
    exact_mod_cast this
  · have hholds := holds_grid_iff h lower exponent
    have hholds' := holds_grid_iff h (lower + 1) exponent
    unfold Interval.onGrid?
    simp only [← hlower]
    cases hl : i.holds (lower * (i.denominator * Nat.pow 10 exponent.toNat))
        (Nat.pow 10 (-exponent).toNat) with
    | true =>
        have howns := hholds.mp hl
        cases hu : i.holds ((lower + 1) * (i.denominator * Nat.pow 10 exponent.toNat))
            (Nat.pow 10 (-exponent).toNat) with
        | true =>
            have howns' := hholds'.mp hu
            refine Or.inl ?_
            dsimp only
            split
            · exact ⟨lower, rfl, howns⟩
            · split
              · exact ⟨lower + 1, rfl, howns'⟩
              · split
                · exact ⟨lower, rfl, howns⟩
                · exact ⟨lower + 1, rfl, howns'⟩
        | false => exact Or.inl ⟨lower, rfl, howns⟩
    | false =>
        cases hu : i.holds ((lower + 1) * (i.denominator * Nat.pow 10 exponent.toNat))
            (Nat.pow 10 (-exponent).toNat) with
        | true => exact Or.inl ⟨lower + 1, rfl, hholds'.mp hu⟩
        | false =>
            rw [hl] at hholds
            rw [hu] at hholds'
            exact Or.inr ⟨rfl, fun howns => by simpa using hholds.mpr howns,
              fun howns => by simpa using hholds'.mpr howns⟩

theorem owns_of_onGrid? (h : i.Covers b) {exponent : ℤ} {digits : Nat}
    (hdigits : i.onGrid? exponent = some digits) :
    b.Owns (Scaled.value ⟨digits, exponent⟩) := by
  obtain ⟨lower, -, -, ⟨digits', hdigits', howns⟩ | ⟨hnone, -, -⟩⟩ := onGrid?_spec h exponent
  · rw [hdigits] at hdigits'
    cases hdigits'
    exact howns
  · rw [hnone] at hdigits
    cases hdigits

/-- A grid that is finer than the float's interval offers a point. -/
theorem isSome_onGrid? (h : i.Covers b) {exponent : ℤ}
    (hfine : (10 : ℚ) ^ exponent < (b.reach + 1 / 2) * 2 ^ b.exponent) :
    (i.onGrid? exponent).isSome := by
  obtain ⟨lower, hbelow, habove, ⟨digits, hdigits, -⟩ | ⟨-, hlower, hupper⟩⟩ :=
    onGrid?_spec h exponent
  · rw [hdigits]
    rfl
  · exfalso
    have hunit : (0 : ℚ) < 2 ^ b.exponent := by positivity
    have hreach := b.reach_pos
    have howns {r : ℚ} (hl : (b.mantissa - b.reach) * 2 ^ b.exponent < r)
        (hh : r < (b.mantissa + 1 / 2) * 2 ^ b.exponent) : b.Owns r :=
      ⟨hl.le, hh.le, fun _ => ⟨hl, hh⟩⟩
    have hfar : (lower : ℚ) * 10 ^ exponent ≤ (b.mantissa - b.reach) * 2 ^ b.exponent := by
      by_contra hnear
      refine hlower (howns (not_le.mp hnear) (hbelow.trans_lt ?_))
      nlinarith
    have hfar' : (b.mantissa + 1 / 2) * 2 ^ b.exponent ≤ (lower + 1) * (10 : ℚ) ^ exponent := by
      by_contra hnear
      have hcast : Scaled.value ⟨lower + 1, exponent⟩ = (lower + 1) * (10 : ℚ) ^ exponent := by
        rw [Scaled.value, Nat.cast_add_one]
      refine hupper (hcast ▸ howns (lt_of_le_of_lt ?_ habove) (not_le.mp hnear))
      nlinarith
    nlinarith

/-! ### The grid of seventeen digits -/

theorem pow_length_toString {n : Nat} (hn : 0 < n) :
    (10 : ℚ) ^ (((toString n).length : ℤ) - 1) ≤ n ∧
      (n : ℚ) < 10 ^ ((toString n).length : ℤ) := by
  obtain ⟨size, hsize⟩ : ∃ size, (toString n).length = size + 1 :=
    Nat.exists_eq_succ_of_ne_zero (Nat.length_repr_pos (n := n)).ne'
  have hhigh : n < 10 ^ (size + 1) :=
    (Nat.length_repr_le_iff (Nat.succ_pos size)).mp hsize.le
  have hlow : 10 ^ size ≤ n := by
    rcases Nat.eq_zero_or_pos size with rfl | hpos
    · exact hn
    · by_contra hless
      have hle : (toString n).length ≤ size := (Nat.length_repr_le_iff hpos).mpr (not_le.mp hless)
      omega
  rw [hsize]
  constructor
  · rw [Nat.cast_add_one, add_sub_cancel_right, zpow_natCast]
    exact_mod_cast hlow
  · rw [zpow_natCast]
    exact_mod_cast hhigh

/-- The first digit of a float is where its magnitude says. -/
theorem pow_magnitude_le (h : i.Covers b) (hpos : 0 < b.mantissa) :
    (10 : ℚ) ^ (i.magnitude - 1) ≤ b.mantissa * 2 ^ b.exponent := by
  have hdenominator : (0 : ℚ) < i.denominator := by exact_mod_cast h.denominator_pos
  have hvaluePos : 0 < i.value := by
    have : (0 : ℚ) < i.value / i.denominator := by
      rw [h.value]
      have : (0 : ℚ) < b.mantissa := by exact_mod_cast hpos
      positivity
    have := (div_pos_iff_of_pos_right hdenominator).mp this
    exact_mod_cast this
  obtain ⟨hvalueLow, -⟩ := pow_length_toString hvaluePos
  obtain ⟨-, hdenominatorHigh⟩ := pow_length_toString h.denominator_pos
  obtain ⟨guess, hguess⟩ : ∃ guess : ℤ,
      guess = (toString i.value).length - (toString i.denominator).length := ⟨_, rfl⟩
  have hlow : (10 : ℚ) ^ (guess - 1) ≤ i.value / i.denominator := by
    rw [le_div_iff₀ hdenominator]
    calc (10 : ℚ) ^ (guess - 1) * i.denominator
        ≤ 10 ^ (guess - 1) * 10 ^ ((toString i.denominator).length : ℤ) := by gcongr
      _ = 10 ^ (((toString i.value).length : ℤ) - 1) := by
          rw [← zpow_add₀ (by norm_num)]; congr 1; omega
      _ ≤ i.value := hvalueLow
  obtain ⟨below, hbelow⟩ : ∃ below : Bool, below =
      if 0 ≤ guess then decide (i.value < i.denominator * Nat.pow 10 guess.toNat)
      else decide (i.value * Nat.pow 10 (-guess).toNat < i.denominator) := ⟨_, rfl⟩
  have hmagnitude : i.magnitude = if below then guess else guess + 1 := by
    subst hbelow hguess
    rfl
  rw [← h.value, hmagnitude]
  cases below with
  | true => exact hlow
  | false =>
      have hnot : i.denominator * Nat.pow 10 guess.toNat ≤
          i.value * Nat.pow 10 (-guess).toNat := by
        split at hbelow
        · rename_i hguess
          have := of_decide_eq_false hbelow.symm
          rw [show (-guess).toNat = 0 by omega]
          simpa using this
        · rename_i hguess
          have := of_decide_eq_false hbelow.symm
          rw [show guess.toNat = 0 by omega]
          simpa using this
      have hpower : (10 : ℚ) ^ guess = _ := zpow_eq_div 10 guess
      have hscale : (0 : ℚ) < (Nat.pow 10 (-guess).toNat : Nat) := by
        exact_mod_cast Nat.pow_pos (by norm_num)
      rw [if_neg Bool.false_ne_true, add_sub_cancel_right, hpower,
        div_le_div_iff₀ hscale hdenominator, mul_comm]
      exact_mod_cast hnot

/-- Seventeen digits make a grid that is fine enough for every float. -/
theorem seventeen_digits_suffice (h : i.Covers b) (hb : b.IsFloat) (hpos : 0 < b.mantissa) :
    (10 : ℚ) ^ (i.magnitude - 17) < (b.reach + 1 / 2) * 2 ^ b.exponent := by
  have hunit : (0 : ℚ) < 2 ^ b.exponent := by positivity
  have hmantissa : (b.mantissa : ℚ) < (b.reach + 1 / 2) * 10 ^ 16 := by
    unfold Binary.reach
    split
    · rename_i hpower
      rw [hpower.1]
      norm_num
    · have : (b.mantissa : ℚ) < 2 ^ 53 := by exact_mod_cast hb.mantissa_lt
      linarith
  -- The mesh is at most a part in 10 ^ 16 of the float, and its interval is a part in 2 ^ 53 or more.
  calc (10 : ℚ) ^ (i.magnitude - 17) = 10 ^ (i.magnitude - 1) / 10 ^ 16 := by
        rw [show i.magnitude - 17 = i.magnitude - 1 - 16 by ring, zpow_sub₀ (by norm_num)]
        norm_cast
    _ ≤ b.mantissa * 2 ^ b.exponent / 10 ^ 16 := by gcongr; exact pow_magnitude_le h hpos
    _ < (b.reach + 1 / 2) * 2 ^ b.exponent := by
        rw [div_lt_iff₀ (by norm_num)]
        nlinarith

/-! ### The search -/

/-- A search that reaches a fine enough grid ends at a number the float owns. -/
theorem owns_search (h : i.Covers b) (magnitude : ℤ) (more count : Nat)
    (hfine : (i.onGrid? (magnitude - (count + more : Nat))).isSome) :
    b.Owns (i.search magnitude more count).value := by
  induction more generalizing count with
  | zero =>
      obtain ⟨digits, hdigits⟩ := Option.isSome_iff_exists.mp hfine
      rw [Nat.add_zero] at hdigits
      rw [Interval.search, hdigits]
      exact owns_of_onGrid? h hdigits
  | succ more ih =>
      rw [Interval.search]
      split
      · rename_i digits hdigits
        exact owns_of_onGrid? h hdigits
      · refine ih (count + 1) ?_
        rwa [Nat.succ_add_eq_add_succ]

end Interval

theorem Scaled.value_trim (s : Scaled) (n : Nat) : (s.trim n).value = s.value := by
  induction n generalizing s with
  | zero => rfl
  | succ n ih =>
      rw [Scaled.trim]
      split
      · rename_i hzeros
        rw [ih, Scaled.value, Scaled.value]
        have hdigits : s.digits = s.digits / 10 * 10 := (Nat.div_mul_cancel (by omega)).symm
        conv_rhs => rw [hdigits]
        rw [zpow_add_one₀ (by norm_num)]
        push_cast
        ring
      · rfl

theorem owns_shortest {b : Binary} (hb : b.IsFloat) (hpos : 0 < b.mantissa) :
    b.Owns (shortest b).value := by
  have hcovers := covers_ofBinary hpos
  rw [shortest, if_neg hpos.ne']
  dsimp only
  rw [Scaled.value_trim]
  exact owns_search hcovers _ 16 1
    (isSome_onGrid? hcovers (seventeen_digits_suffice hcovers hb hpos))

theorem digits_pos_of_owns {b : Binary} (hpos : 0 < b.mantissa) {digits : Nat} {exponent : ℤ}
    (h : b.Owns (digits * 10 ^ exponent)) : 0 < digits := by
  have hunit : (0 : ℚ) < 2 ^ b.exponent := by positivity
  have hone : (1 : ℚ) ≤ b.mantissa := by exact_mod_cast hpos
  have hlow : (0 : ℚ) < (b.mantissa - b.reach) * 2 ^ b.exponent :=
    mul_pos (by linarith [b.reach_le]) hunit
  have := pos_of_mul_pos_left (hlow.trans_le h.low) (by positivity)
  exact_mod_cast this

end Workflow.Decimal
