import Mathlib
import Workflow.Proofs.Decimal.Nearest

/-!
Floats and their bits. The finite floats are counted up from zero by their bits, and a sign bit
stands before; so a finite float is its sign and its position.
-/

namespace Workflow

open Float.Model Float.Model.UnpackedFloat

/-! ### The parts of a word -/

variable (word : BitVec Format.binary64.numBits)

theorem toNat_unpackExponent : (unpackExponent word).toNat = word.toNat / 2 ^ 52 % 2 ^ 11 := by
  simp [unpackExponent, BitVec.extractLsb, BitVec.extractLsb', Nat.shiftRight_eq_div_pow]

theorem toNat_unpackMantissa : (unpackMantissa word).toNat = word.toNat % 2 ^ 52 := by
  simp [unpackMantissa, BitVec.extractLsb, BitVec.extractLsb']

theorem toNat_unpackSign : (unpackSign word).toNat = word.toNat / 2 ^ 63 := by
  have hword : word.toNat < 2 ^ 64 := word.isLt
  simp [unpackSign, BitVec.extractLsb, BitVec.extractLsb', Nat.shiftRight_eq_div_pow]
  omega

theorem toNat_packComponents (sign : Sign) (exponent : BitVec 11) (mantissa : BitVec 52) :
    (packComponents Format.binary64 sign exponent mantissa).toNat =
      sign.toBitVec.toNat * 2 ^ 63 + exponent.toNat * 2 ^ 52 + mantissa.toNat := by
  have hexponent := exponent.isLt
  have hmantissa := mantissa.isLt
  rw [packComponents, BitVec.toNat_append, BitVec.toNat_append,
    ← Nat.shiftLeft_add_eq_or_of_lt hexponent, ← Nat.shiftLeft_add_eq_or_of_lt hmantissa]
  simp [Nat.shiftLeft_eq]
  omega

/-- A finite float takes either sign, and is packed as it was. -/
theorem exists_unpack_eq (hfinite : unpackExponent word ≠ -1#_) :
    ∃ f : Sign → UnpackedFloat,
      UnpackedFloat.unpack Format.binary64 word = f (Sign.ofBitVec (unpackSign word)) ∧
      (∀ sign, (f sign).neg = f (-sign)) ∧
      ∀ sign, UnpackedFloat.pack Format.binary64 (f sign) =
        packComponents Format.binary64 sign (unpackExponent word) (unpackMantissa word) := by
  have hmantissa : (unpackMantissa word).toNat < 2 ^ 52 := (unpackMantissa word).isLt
  have hexponent : (unpackExponent word).toNat < 2 ^ 11 := (unpackExponent word).isLt
  unfold UnpackedFloat.unpack
  simp only [if_neg hfinite]
  by_cases hzero : unpackExponent word = 0#_
  · rw [if_pos hzero]
    by_cases hnothing : unpackMantissa word = 0#_
    · refine ⟨.zero, by rw [dif_pos hnothing], fun sign => rfl, fun sign => ?_⟩
      rw [hzero, hnothing]
      rfl
    · refine ⟨fun sign => .finite sign (unpackMantissa word).toNat _ _, by rw [dif_neg hnothing],
        fun sign => rfl, fun sign => ?_⟩
      have hsmall : (unpackMantissa word).toNat.log2 + 1 ≠ Format.binary64.mantissaBits := by
        have hpos : (unpackMantissa word).toNat ≠ 0 := fun h => hnothing (BitVec.eq_of_toNat_eq h)
        have hlog : (unpackMantissa word).toNat.log2 < 52 := (Nat.log2_lt hpos).mpr hmantissa
        change _ ≠ 53
        omega
      rw [UnpackedFloat.pack]
      dsimp only
      rw [if_neg hsmall, if_neg, hzero, BitVec.ofNat_toNat, BitVec.setWidth_eq]
      simp [Format.exponentBias, hzero]
  · rw [if_neg hzero]
    refine ⟨fun sign => .finite sign (1#1 ++ unpackMantissa word).toNat _ _, rfl,
      fun sign => rfl, fun sign => ?_⟩
    have hmantissa' :
        (1#1 ++ unpackMantissa word).toNat = 2 ^ 52 + (unpackMantissa word).toNat := by
      rw [BitVec.toNat_append, ← Nat.shiftLeft_add_eq_or_of_lt hmantissa]
      rfl
    have hfull : (1#1 ++ unpackMantissa word).toNat.log2 + 1 = Format.binary64.mantissaBits := by
      rw [hmantissa', (Nat.log2_eq_iff (by omega)).mpr ⟨Nat.le_add_right _ _, by omega⟩]
      rfl
    have hexponent' : (unpackExponent word).toNat + 1 < 2 ^ 11 := by
      by_contra hge
      refine hfinite (BitVec.eq_of_toNat_eq ?_)
      change _ = 2 ^ 11 - 1
      omega
    have hbiased : ((unpackExponent word).toNat - ((Format.binary64.exponentBias : ℤ) +
        (Format.binary64.mantissaBitsWithoutImplicit : ℤ)) + Format.binary64.exponentBias +
        Format.binary64.mantissaBitsWithoutImplicit).toNat = (unpackExponent word).toNat := by
      omega
    rw [UnpackedFloat.pack]
    dsimp only
    rw [if_pos hfull, hbiased, if_neg (by omega), BitVec.ofNat_toNat, BitVec.setWidth_eq]
    congr 1
    apply BitVec.eq_of_toNat_eq
    rw [hmantissa', BitVec.toNat_ofNat, Nat.add_mod_left, Nat.mod_eq_of_lt hmantissa]

/-! ### Positions -/

/-- The float at a position. -/
def atPosition (negative : Bool) (n : Nat) : Float :=
  let x := Float.ofBits (UInt64.ofNat n)
  if negative then -x else x

theorem ext_toBits {x y : Float} (h : x.toBits.toNat = y.toBits.toNat) : x = y := by
  obtain ⟨⟨bits, _⟩⟩ := x
  obtain ⟨⟨bits', _⟩⟩ := y
  obtain rfl : bits = bits' := UInt64.toNat.inj h
  rfl

theorem toBits_atPosition (negative : Bool) {n : Nat} (hn : n < 2047 * 2 ^ 52) :
    (atPosition negative n).toBits.toNat = (if negative then 2 ^ 63 else 0) + n := by
  obtain ⟨word, hword⟩ : ∃ word : BitVec Format.binary64.numBits,
      word = (UInt64.ofNat n).toBitVec := ⟨_, rfl⟩
  have hbits : word.toNat = n := by
    rw [hword]
    exact UInt64.toNat_ofNat_of_lt (by change _ < 2 ^ 64; omega)
  have hexponent := toNat_unpackExponent word
  have hmantissa := toNat_unpackMantissa word
  have hsign := toNat_unpackSign word
  rw [hbits] at hexponent hmantissa hsign
  have hfinite : unpackExponent word ≠ -1#_ := by
    intro h
    have : (unpackExponent word).toNat = 2047 := congrArg BitVec.toNat h
    omega
  have hpositive : Sign.ofBitVec (unpackSign word) = .positive := by
    refine if_pos (BitVec.eq_of_toNat_eq ?_)
    change _ = 0
    omega
  obtain ⟨f, hunpack, hneg, hpack⟩ := exists_unpack_eq word hfinite
  rw [hpositive] at hunpack
  have htoNat (sign : Sign) : (UnpackedFloat.pack Format.binary64 (f sign)).toNat =
      sign.toBitVec.toNat * 2 ^ 63 + n := by
    rw [hpack, toNat_packComponents, hexponent, hmantissa]
    omega
  have hself : UnpackedFloat.pack Format.binary64 (f .positive) = word := by
    apply BitVec.eq_of_toNat_eq
    rw [htoNat, hbits]
    exact Nat.zero_add n
  cases negative with
  | false =>
      change (UnpackedFloat.pack Format.binary64
        (UnpackedFloat.unpack Format.binary64 (UInt64.ofNat n).toBitVec)).toNat = 0 + n
      rw [← hword, hunpack, htoNat]
      rfl
  | true =>
      change (UnpackedFloat.pack Format.binary64 (UnpackedFloat.neg
        (UnpackedFloat.unpack Format.binary64 (UnpackedFloat.pack Format.binary64
          (UnpackedFloat.unpack Format.binary64 (UInt64.ofNat n).toBitVec))))).toNat = 2 ^ 63 + n
      rw [← hword, hunpack, hself, hunpack, hneg, htoNat]
      rfl

namespace Binary

/-! ### Finite floats -/

theorem isFloat_of_ofFloat? {x : Float} {b : Binary} (h : ofFloat? x = some b) : b.IsFloat := by
  unfold ofFloat? at h
  simp only [Nat.pow_eq] at h
  have hword := x.toBits.toNat_lt
  split at h
  · cases h
  · split at h
    · cases h
      exact ⟨by simp only; omega, le_refl _, by simp only; omega, Or.inl rfl⟩
    · cases h
      exact ⟨by simp only; omega, by simp only; omega, by simp only; omega,
        Or.inr (by simp only; omega)⟩

theorem eq_atPosition {x : Float} {b : Binary} (h : ofFloat? x = some b) :
    x = atPosition b.negative b.position := by
  have hposition := (isFloat_of_ofFloat? h).position_lt
  apply ext_toBits
  rw [toBits_atPosition b.negative hposition]
  unfold ofFloat? at h
  simp only [Nat.pow_eq] at h
  have hword := x.toBits.toNat_lt
  split at h
  · cases h
  · split at h
    · cases h
      simp only [position, decide_eq_true_eq]
      split <;> omega
    · cases h
      simp only [position, decide_eq_true_eq]
      split <;> omega

/-- The floats that are not finite are two infinities and a single NaN. -/
theorem eq_of_ofFloat?_eq_none {x : Float} (h : ofFloat? x = none) :
    x = 0.0 / 0.0 ∨ x = 1.0 / 0.0 ∨ x = -1.0 / 0.0 := by
  have hexponent : x.toBits.toNat / 2 ^ 52 % 2 ^ 11 = 2047 := by
    unfold ofFloat? at h
    simp only [Nat.pow_eq] at h
    split at h
    · assumption
    · split at h <;> cases h
  have hword := x.toBits.toNat_lt
  by_cases hfraction : x.toBits.toNat % 2 ^ 52 = 0
  · refine Or.inr ?_
    by_cases hsign : x.toBits.toNat / 2 ^ 63 = 0
    · refine Or.inl (ext_toBits (y := 1.0 / 0.0) ?_)
      have : (1.0 / 0.0 : Float).toBits.toNat = 2047 * 2 ^ 52 := by decide +kernel
      omega
    · refine Or.inr (ext_toBits (y := -1.0 / 0.0) ?_)
      have : (-1.0 / 0.0 : Float).toBits.toNat = 2 ^ 63 + 2047 * 2 ^ 52 := by decide +kernel
      omega
  · refine Or.inl (ext_toBits (y := 0.0 / 0.0) ?_)
    have hvalid := x.toModel.valid.eq_packedNaN (BitVec.eq_of_toNat_eq ?_) fun hzero => ?_
    · have hnan : (0.0 / 0.0 : Float).toBits.toNat = (packedNaN Format.binary64).toNat := by
        decide +kernel
      rw [hnan]
      exact congrArg BitVec.toNat hvalid
    · rw [toNat_unpackExponent]
      exact hexponent
    · refine hfraction ?_
      have := congrArg BitVec.toNat hzero
      rwa [toNat_unpackMantissa] at this

end Binary

end Workflow
