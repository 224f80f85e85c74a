import Mathlib.Tactic.IntervalCases
import Workflow.Json.Reader
import Workflow.Json.Writer
import Workflow.Proofs.Decimal.Rounding
import Workflow.Proofs.Text.Scanning

/-!
Numbers in JSON text. A written number is a numeral, taken apart here into its digits, its fraction
and its exponent; reading a numeral gives the number back, whatever follows that is no part of it.
-/

namespace Workflow.Json

/-! ### Digits -/

variable {rest : List Char}

/-- What follows a number and does not prolong it. -/
def EndsNumber (rest : List Char) : Prop :=
  ∀ c ∈ rest.head?, isDigit c = false ∧ c ≠ '.' ∧ c ≠ 'e' ∧ c ≠ 'E'

theorem ofDigits_digitsOf (digits : List Char) :
    Decimal.ofDigits (digitsOf digits) = Nat.ofDigitChars 10 digits 0 := by
  rw [Decimal.ofDigits, digitsOf, List.foldl_map]
  rfl

theorem isDigit_of_mem_toDigits {n : Nat} {c : Char} (hc : c ∈ Nat.toDigits 10 n) :
    isDigit c = true :=
  Nat.isDigit_of_mem_toDigits (by norm_num) le_rfl hc

theorem head?_toDigits {n : Nat} (hn : 0 < n) : (Nat.toDigits 10 n).head? ≠ some '0' := by
  induction n using Nat.strongRecOn with
  | ind n ih =>
      rw [Nat.toDigits_eq_if (by norm_num)]
      split
      · rename_i hless
        interval_cases n <;> decide
      · rename_i hle
        rw [List.head?_append_of_ne_nil _ Nat.toDigits_ne_nil]
        exact ih (n / 10) (by omega) (by omega)

/-! ### Numerals -/

/-- The parts of a written number: its digits, those after the point, and the sign and the digits of
its exponent. -/
structure Numeral where
  whole : List Char
  fraction : List Char := []
  exponent : Option (Bool × List Char) := none

namespace Numeral

def tail : Option (Bool × List Char) → List Char
  | none => []
  | some (negative, size) => 'e' :: (if negative then '-' else '+') :: size

def chars (n : Numeral) : List Char :=
  n.whole ++ ((if n.fraction.isEmpty then [] else '.' :: n.fraction) ++ tail n.exponent)

def shift : Option (Bool × List Char) → ℤ
  | none => 0
  | some (negative, size) =>
    let n : ℤ := Decimal.ofDigits (digitsOf size)
    if negative then -n else n

/-- All digits of a numeral, without its point. -/
def significand (n : Numeral) : Nat := Decimal.ofDigits (digitsOf (n.whole ++ n.fraction))

/-- The power of ten the digits are scaled by. -/
def scale (n : Numeral) : ℤ := shift n.exponent - n.fraction.length

structure IsProper (n : Numeral) : Prop where
  whole_ne : n.whole ≠ []
  whole : ∀ c ∈ n.whole, isDigit c = true
  leading : n.whole = ['0'] ∨ n.whole.head? ≠ some '0'
  fraction : ∀ c ∈ n.fraction, isDigit c = true
  exponent : ∀ negative size, n.exponent = some (negative, size) →
    size ≠ [] ∧ ∀ c ∈ size, isDigit c = true

theorem readExponent?_tail {exponent : Option (Bool × List Char)}
    (h : ∀ negative size, exponent = some (negative, size) →
      size ≠ [] ∧ ∀ c ∈ size, isDigit c = true) (hrest : EndsNumber rest) :
    readExponent? (tail exponent ++ rest) = exponent.map fun _ => (shift exponent, rest) := by
  cases exponent with
  | none =>
      cases rest with
      | nil => rfl
      | cons c rest =>
          obtain ⟨-, -, he, hE⟩ := hrest c rfl
          simp only [tail, List.nil_append, Option.map_none]
          unfold readExponent?
          split
          · rename_i heq
            cases heq
            exact absurd rfl he
          · rename_i heq
            cases heq
            exact absurd rfl hE
          · rfl
  | some exponent =>
      obtain ⟨negative, size⟩ := exponent
      obtain ⟨hne, hsize⟩ := h negative size rfl
      have hend : ∀ c ∈ rest.head?, isDigit c = false := fun c hc => (hrest c hc).1
      have htake := takeWhile_append_of_head hsize hend
      have hdrop := dropWhile_append_of_head hsize hend
      have hempty : size.isEmpty = false := by simpa using hne
      cases negative <;>
        simp [tail, readExponent?, readExponentDigits?, htake, hdrop, hempty, shift]

theorem readFraction_chars {n : Numeral} (h : n.IsProper) (hrest : EndsNumber rest) :
    readFraction ((if n.fraction.isEmpty then [] else '.' :: n.fraction) ++
      (tail n.exponent ++ rest)) = (n.fraction, tail n.exponent ++ rest) := by
  have hend : ∀ c ∈ (tail n.exponent ++ rest).head?, isDigit c = false ∧ c ≠ '.' := by
    cases n.exponent with
    | none => exact fun c hc => ⟨(hrest c hc).1, (hrest c hc).2.1⟩
    | some exponent =>
        intro c hc
        cases hc
        decide
  have hend' : ∀ c ∈ (tail n.exponent ++ rest).head?, isDigit c = false :=
    fun c hc => (hend c hc).1
  by_cases hempty : n.fraction = []
  · rw [hempty]
    simp only [List.isEmpty_nil, if_true, List.nil_append]
    generalize tail n.exponent ++ rest = cs at hend
    unfold readFraction
    split
    · exact absurd rfl (hend '.' rfl).2
    · rfl
  · have htake := takeWhile_append_of_head h.fraction hend'
    have hdrop := dropWhile_append_of_head h.fraction hend'
    simp [readFraction, htake, hdrop, hempty]

theorem IsProper.chars_ne {n : Numeral} (h : n.IsProper) : n.chars ++ rest ≠ [] := by
  simp [chars, h.whole_ne]

theorem IsProper.head?_chars {n : Numeral} (h : n.IsProper) :
    ∀ c ∈ (n.chars ++ rest).head?, isDigit c = true := by
  intro c hc
  rw [chars, List.append_assoc, List.head?_append_of_ne_nil _ h.whole_ne] at hc
  exact h.whole c (List.mem_of_mem_head? hc)

/-- The digits before the point are read first; what they are followed by decides the rest. -/
theorem IsProper.readMagnitude?_chars {n : Numeral} (h : n.IsProper) (hrest : EndsNumber rest)
    (negative : Bool) :
    readMagnitude? negative (n.chars ++ rest) =
      if n.fraction = [] ∧ n.exponent = none then
        some (.int (if negative then -(n.significand : ℤ) else n.significand), rest)
      else
        some (.float (if negative then -(Decimal.toFloat n.significand n.scale)
          else Decimal.toFloat n.significand n.scale), rest) := by
  obtain ⟨more, hmore⟩ : ∃ more, more = (if n.fraction.isEmpty then [] else '.' :: n.fraction) ++
      (tail n.exponent ++ rest) := ⟨_, rfl⟩
  have hchars : n.chars ++ rest = n.whole ++ more := by
    rw [chars, hmore, List.append_assoc, List.append_assoc]
  have hfraction : readFraction more = (n.fraction, tail n.exponent ++ rest) := by
    rw [hmore]
    exact readFraction_chars h hrest
  have hexponent := readExponent?_tail h.exponent hrest
  have hend : ∀ c ∈ more.head?, isDigit c = false := by
    rw [hmore]
    split
    · cases n.exponent with
      | none => exact fun c hc => (hrest c hc).1
      | some exponent =>
          intro c hc
          cases hc
          decide
    · intro c hc
      cases hc
      decide
  have hempty : n.whole.isEmpty = false := by simpa using h.whole_ne
  have hdigits : leadingDigits (n.whole ++ more) = n.whole := by
    rcases h.leading with hzero | hleading
    · rw [hzero]
      rfl
    · rw [leadingDigits, takeWhile_append_of_head h.whole hend]
      intro more' heq
      rw [← List.head?_append_of_ne_nil _ h.whole_ne, heq] at hleading
      exact hleading rfl
  rw [hchars, readMagnitude?]
  simp only [hdigits, hempty, Bool.false_eq_true, if_false, List.drop_left, hfraction, hexponent,
    List.isEmpty_iff, Option.isNone_iff_eq_none, Option.map_eq_none_iff]
  split
  · rename_i hint
    simp [hint, significand, tail]
  · have hshift : (n.exponent.map fun _ => (shift n.exponent, rest)).getD
        (0, tail n.exponent ++ rest) = (shift n.exponent, rest) := by
      cases n.exponent <;> rfl
    rw [hshift]
    rfl

end Numeral

/-! ### Integers -/

theorem isProper_toDigits (n : Nat) : Numeral.IsProper { whole := Nat.toDigits 10 n } where
  whole_ne := Nat.toDigits_ne_nil
  whole := fun c hc => isDigit_of_mem_toDigits hc
  leading := by
    rcases Nat.eq_zero_or_pos n with rfl | hpos
    · exact Or.inl rfl
    · exact Or.inr (head?_toDigits hpos)
  fraction := by simp
  exponent := by simp

theorem toList_toString (n : Nat) : (toString n).toList = Nat.toDigits 10 n := by
  simp

theorem readMagnitude?_nat (negative : Bool) (n : Nat) (hrest : EndsNumber rest) :
    readMagnitude? negative ((toString n).toList ++ rest) =
      some (.int (if negative then -(n : ℤ) else n), rest) := by
  have hread := (isProper_toDigits n).readMagnitude?_chars hrest negative
  simpa [Numeral.chars, Numeral.tail, Numeral.significand, ofDigits_digitsOf] using hread

/-! ### Floats -/

/-- A text is a numeral with a point or an exponent, for the value of some scaled digits. -/
structure Numeral.Spells (n : Numeral) (text : String) (s : Decimal.Scaled) : Prop where
  proper : n.IsProper
  isFloat : ¬ (n.fraction = [] ∧ n.exponent = none)
  chars : text.toList = n.chars
  value : (n.significand : ℚ) * 10 ^ n.scale = s.value

section Spells

variable {s : Decimal.Scaled} {point : ℤ}

theorem isDigit_of_mem_zeros {n : Nat} {c : Char} (hc : c ∈ List.replicate n '0') :
    isDigit c = true := by
  rw [List.eq_of_mem_replicate hc]
  rfl

theorem isDigit_of_mem_append {more : List Char} (hdigits : ∀ c ∈ digits, isDigit c = true)
    (hmore : ∀ c ∈ more, isDigit c = true) : ∀ c ∈ digits ++ more, isDigit c = true := by
  intro c hc
  rcases List.mem_append.mp hc with hc | hc
  · exact hdigits c hc
  · exact hmore c hc

/-- Nothing stands before the point. -/
theorem spells_fraction (hpoint : point = (Nat.toDigits 10 s.digits).length + s.exponent)
    (hsmall : point ≤ 0) :
    Numeral.Spells ⟨['0'], List.replicate (-point).toNat '0' ++ Nat.toDigits 10 s.digits, none⟩
      ("0." ++ Decimal.zeros (-point).toNat ++ toString s.digits) s where
  proper := ⟨by simp, by simp [isDigit], Or.inl rfl,
    isDigit_of_mem_append (fun _ => isDigit_of_mem_zeros) fun _ => isDigit_of_mem_toDigits, by simp⟩
  isFloat := by simp
  chars := by simp [Decimal.zeros, Numeral.chars, Numeral.tail]
  value := by
    have hscale : -((-point).toNat + (Nat.toDigits 10 s.digits).length : ℤ) = s.exponent := by
      omega
    simp [Numeral.significand, ofDigits_digitsOf, Nat.ofDigitChars_cons, Nat.ofDigitChars_append,
      Numeral.scale, Numeral.shift, Decimal.Scaled.value, ← hscale]

/-- Zeros fill the places up to the point. -/
theorem spells_whole (hpos : 0 < s.digits)
    (hpoint : point = (Nat.toDigits 10 s.digits).length + s.exponent)
    (hlarge : (Nat.toDigits 10 s.digits).length ≤ point) :
    Numeral.Spells ⟨Nat.toDigits 10 s.digits ++ List.replicate s.exponent.toNat '0', ['0'], none⟩
      (toString s.digits ++ Decimal.zeros (point - (Nat.toDigits 10 s.digits).length).toNat ++ ".0")
      s where
  proper := by
    refine ⟨by simp, ?_, Or.inr ?_, by simp [isDigit], by simp⟩
    · exact isDigit_of_mem_append (fun _ => isDigit_of_mem_toDigits) fun _ => isDigit_of_mem_zeros
    · rw [List.head?_append_of_ne_nil _ Nat.toDigits_ne_nil]
      exact head?_toDigits hpos
  isFloat := by simp
  chars := by
    have hzeros : (point - (Nat.toDigits 10 s.digits).length).toNat = s.exponent.toNat := by omega
    simp [Decimal.zeros, Numeral.chars, Numeral.tail, hzeros]
  value := by
    obtain ⟨n, hn⟩ := Int.eq_ofNat_of_zero_le (a := s.exponent) (by omega)
    simp [Numeral.significand, ofDigits_digitsOf, Nat.ofDigitChars_cons, Nat.ofDigitChars_append,
      Numeral.scale, Numeral.shift, Decimal.Scaled.value, hn]
    ring

/-- The point stands among the digits. -/
theorem spells_mixed (hpos : 0 < s.digits)
    (hpoint : point = (Nat.toDigits 10 s.digits).length + s.exponent) (hlarge : 0 < point)
    (hsmall : point < (Nat.toDigits 10 s.digits).length) :
    Numeral.Spells ⟨(Nat.toDigits 10 s.digits).take point.toNat,
        (Nat.toDigits 10 s.digits).drop point.toNat, none⟩
      (String.ofList ((toString s.digits).toList.take point.toNat) ++ "." ++
        String.ofList ((toString s.digits).toList.drop point.toNat)) s where
  proper := by
    refine ⟨?_, fun c hc => isDigit_of_mem_toDigits (List.mem_of_mem_take hc), Or.inr ?_,
      fun c hc => isDigit_of_mem_toDigits (List.mem_of_mem_drop hc), by simp⟩
    · simp
      omega
    · rw [List.head?_take, if_neg (by omega)]
      exact head?_toDigits hpos
  isFloat := by
    simp
    omega
  chars := by
    have hsome : (Nat.toDigits 10 s.digits).drop point.toNat ≠ [] := by
      simp
      omega
    simp [Numeral.chars, Numeral.tail, hsome]
  value := by
    have hscale : -(((Nat.toDigits 10 s.digits).length - point.toNat : Nat) : ℤ) = s.exponent := by
      omega
    simp [Numeral.significand, ofDigits_digitsOf, Numeral.scale, Numeral.shift,
      Decimal.Scaled.value, hscale]

/-- One digit stands before the point, and an exponent tells where the point belongs. -/
theorem spells_exponent (hpos : 0 < s.digits)
    (hpoint : point = (Nat.toDigits 10 s.digits).length + s.exponent) :
    Numeral.Spells ⟨(Nat.toDigits 10 s.digits).take 1, (Nat.toDigits 10 s.digits).drop 1,
        some (decide (point - 1 < 0),
          List.replicate (2 - (toString (point - 1).natAbs).length) '0' ++
            Nat.toDigits 10 (point - 1).natAbs)⟩
      (String.ofList ((toString s.digits).toList.take 1) ++
        (if ((toString s.digits).toList.drop 1).isEmpty then ""
          else "." ++ String.ofList ((toString s.digits).toList.drop 1)) ++
        (if point - 1 < 0 then "e-" else "e+") ++
        Decimal.zeros (2 - (toString (point - 1).natAbs).length) ++
        toString (point - 1).natAbs) s where
  proper := by
    refine ⟨by simp, fun c hc => isDigit_of_mem_toDigits (List.mem_of_mem_take hc), Or.inr ?_,
      fun c hc => isDigit_of_mem_toDigits (List.mem_of_mem_drop hc), ?_⟩
    · rw [List.head?_take, if_neg one_ne_zero]
      exact head?_toDigits hpos
    · rintro negative size heq
      cases heq
      exact ⟨by simp,
        isDigit_of_mem_append (fun _ => isDigit_of_mem_zeros) fun _ => isDigit_of_mem_toDigits⟩
  isFloat := by simp
  chars := by
    simp only [toList_toString, String.toList_append, String.toList_ofList, Numeral.chars,
      Numeral.tail, Decimal.zeros, List.append_assoc, decide_eq_true_eq]
    congr 1
    congr 1
    · split <;> simp
    · split <;> simp
  value := by
    have hlength : 0 < (Nat.toDigits 10 s.digits).length := Nat.length_toDigits_pos
    have hshift : (if point - 1 < 0 then -((point - 1).natAbs : ℤ) else (point - 1).natAbs) =
        point - 1 := by
      split <;> omega
    have hscale : point - 1 - ((Nat.toDigits 10 s.digits).length - 1 : Nat) = s.exponent := by
      omega
    simp only [Numeral.significand, ofDigits_digitsOf, Numeral.scale, Numeral.shift,
      Decimal.Scaled.value, List.take_append_drop, Nat.ofDigitChars_ten_toDigits,
      Nat.ofDigitChars_append, Nat.ofDigitChars_replicate_zero, mul_zero, decide_eq_true_eq,
      hshift, List.length_drop, hscale]

end Spells

theorem exists_spells {s : Decimal.Scaled} (hpos : 0 < s.digits) :
    ∃ n : Numeral, n.Spells s.text s := by
  obtain ⟨point, hpoint⟩ : ∃ point : ℤ,
      point = (Nat.toDigits 10 s.digits).length + s.exponent := ⟨_, rfl⟩
  have hlength : (toString s.digits).length = (Nat.toDigits 10 s.digits).length := by
    rw [← String.length_toList, toList_toString]
  unfold Decimal.Scaled.text
  simp only [hlength, ← hpoint]
  split
  · split
    · exact ⟨_, spells_fraction hpoint ‹_›⟩
    · split
      · exact ⟨_, spells_whole hpos hpoint ‹_›⟩
      · exact ⟨_, spells_mixed hpos hpoint (by omega) (by omega)⟩
  · exact ⟨_, spells_exponent hpos hpoint⟩

theorem digits_shortest_pos {x : Float} {b : Binary} (hb : Binary.ofFloat? x = some b)
    (hpos : 0 < b.mantissa) : 0 < (Decimal.shortest b).digits :=
  Decimal.digits_pos_of_owns hpos (Decimal.owns_shortest (Binary.isFloat_of_ofFloat? hb) hpos)

theorem readMagnitude?_shortest {x : Float} {b : Binary} (hb : Binary.ofFloat? x = some b)
    (hpos : 0 < b.mantissa) (hrest : EndsNumber rest) :
    readMagnitude? b.negative ((Decimal.shortest b).text.toList ++ rest) =
      some (.float x, rest) := by
  have hfloat := Binary.isFloat_of_ofFloat? hb
  have howns := Decimal.owns_shortest hfloat hpos
  obtain ⟨n, hn⟩ := exists_spells (digits_shortest_pos hb hpos)
  rw [← hn.value] at howns
  rw [hn.chars, hn.proper.readMagnitude?_chars hrest, if_neg hn.isFloat,
    Decimal.toFloat_eq hfloat howns, Binary.eq_atPosition hb]
  cases b.negative <;> rfl

theorem readMagnitude?_zero {x : Float} {b : Binary} (hb : Binary.ofFloat? x = some b)
    (hzero : b.mantissa = 0) (hrest : EndsNumber rest) :
    readMagnitude? b.negative ("0.0".toList ++ rest) = some (.float x, rest) := by
  have hleast : b.exponent = -1074 := by
    rcases (Binary.isFloat_of_ofFloat? hb).leading with h | h
    · exact h
    · omega
  have hproper : Numeral.IsProper ⟨['0'], ['0'], none⟩ :=
    ⟨by simp, by simp [isDigit], Or.inl rfl, by simp [isDigit], by simp⟩
  have hread := hproper.readMagnitude?_chars hrest b.negative
  have hposition : b.position = 0 := by
    rw [Binary.position, hzero, hleast]
    rfl
  have hfloat (negative : Bool) : (if negative then -(Decimal.toFloat 0 (-1))
      else Decimal.toFloat 0 (-1)) = atPosition negative 0 := by
    cases negative <;> decide +kernel
  rw [Binary.eq_atPosition hb, hposition, ← hfloat]
  exact hread

/-! ### Numbers among other values -/

theorem readAtom?_number {digits : List Char} (hne : digits ≠ [])
    (hdigits : ∀ c ∈ digits.head?, isDigit c = true) (negative : Bool) :
    readAtom? ((if negative then ['-'] else []) ++ digits) = readMagnitude? negative digits := by
  obtain ⟨c, cs, rfl⟩ := List.exists_cons_of_ne_nil hne
  have hother (d : Char) (hd : isDigit d = false) : d ≠ c := by
    rintro rfl
    rw [hdigits d rfl] at hd
    cases hd
  have hsign := hother '-' rfl
  have hnone (negative : Bool) : (literals.find? fun literal =>
      literal.1.isPrefixOf ((if negative then ['-'] else []) ++ c :: cs)) = none := by
    rw [List.find?_eq_none]
    cases negative <;>
      simp [literals, hsign, hother 'n' rfl, hother 't' rfl, hother 'f' rfl, hother 'N' rfl,
        hother 'I' rfl]
  unfold readAtom?
  rw [hnone]
  cases negative with
  | true => rfl
  | false =>
      dsimp only
      split
      · rename_i heq
        cases heq
        exact absurd rfl hsign
      · rfl

theorem head?_toDigits_isDigit (n : Nat) : ∀ c ∈ (Nat.toDigits 10 n ++ rest).head?,
    isDigit c = true := by
  intro c hc
  rw [List.head?_append_of_ne_nil _ Nat.toDigits_ne_nil] at hc
  exact isDigit_of_mem_toDigits (List.mem_of_mem_head? hc)

theorem readAtom?_int (n : ℤ) (hrest : EndsNumber rest) :
    readAtom? ((scalarText (.int n)).toList ++ rest) = some (.int n, rest) := by
  have hnat (negative : Bool) (n : Nat) :
      readAtom? ((if negative then ['-'] else []) ++ ((toString n).toList ++ rest)) =
        some (.int (if negative then -(n : ℤ) else n), rest) := by
    rw [readAtom?_number (by simp) (by rw [toList_toString]; exact head?_toDigits_isDigit n),
      readMagnitude?_nat negative n hrest]
  cases n with
  | ofNat n => exact hnat false n
  | negSucc n =>
      have htext : scalarText (.int (Int.negSucc n)) = "-" ++ toString (n + 1) := rfl
      rw [htext, String.toList_append]
      exact hnat true (n + 1)

/-- Reading a written float gives the float, whether it is finite or not. -/
theorem readAtom?_float (x : Float) (hrest : EndsNumber rest) :
    readAtom? ((scalarText (.float x)).toList ++ rest) = some (.float x, rest) := by
  rw [scalarText, Decimal.render]
  split
  · rename_i b hb
    have hsign : (if b.negative then "-" else "").toList = if b.negative then ['-'] else [] := by
      cases b.negative <;> rfl
    rw [String.toList_append, hsign, List.append_assoc]
    by_cases hzero : b.mantissa = 0
    · rw [if_pos hzero, readAtom?_number (by simp) (by simp [isDigit]),
        readMagnitude?_zero hb hzero hrest]
    · have hpos : 0 < b.mantissa := Nat.pos_of_ne_zero hzero
      obtain ⟨n, hn⟩ := exists_spells (digits_shortest_pos hb hpos)
      rw [if_neg hzero, readAtom?_number _ _, readMagnitude?_shortest hb hpos hrest]
      · rw [hn.chars]
        exact hn.proper.chars_ne
      · rw [hn.chars]
        exact hn.proper.head?_chars
  · rename_i hnone
    rcases Binary.eq_of_ofFloat?_eq_none hnone with rfl | rfl | rfl
    · have htext : (if (0.0 / 0.0 : Float) == 0.0 / 0.0 then
          (if (0.0 / 0.0 : Float) < 0 then "-" else "") ++ spelling.infinity else spelling.nan) =
            "NaN" := by decide +kernel
      rw [htext]
      rfl
    · have htext : (if (1.0 / 0.0 : Float) == 1.0 / 0.0 then
          (if (1.0 / 0.0 : Float) < 0 then "-" else "") ++ spelling.infinity else spelling.nan) =
            "Infinity" := by decide +kernel
      rw [htext]
      rfl
    · have htext : (if (-1.0 / 0.0 : Float) == -1.0 / 0.0 then
          (if (-1.0 / 0.0 : Float) < 0 then "-" else "") ++ spelling.infinity else spelling.nan) =
            "-Infinity" := by decide +kernel
      rw [htext]
      rfl

end Workflow.Json
