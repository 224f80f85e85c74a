import Workflow.Dispatch
import Workflow.Proofs.Decimal.Rounding
import Workflow.Proofs.Program.Dialogue
import Workflow.Proofs.Text.Scanning

/-!
# Reading durations

A text is a duration if it consists of white space, digits with an optional fraction, white space, a
unit and white space. Whoever reads one greedily finds these parts again, since no part can begin
with a character that could go on with the part before it. A long s counts as the letter of a unit
here, but no unit is spelled with it.
-/

namespace Workflow

namespace Text

def isDigit (c : Char) : Bool := (digitValue? c).isSome

/-- The code points of white space. -/
def blanks : List Nat :=
  [9, 10, 11, 12, 13, 28, 29, 30, 31, 32, 133, 160, 5760, 8192, 8193, 8194, 8195, 8196, 8197, 8198,
    8199, 8200, 8201, 8202, 8232, 8233, 8239, 8287, 12288]

theorem toNat_mem_blanks {c : Char} (h : isBlank c = true) : c.toNat ∈ blanks := by
  simp only [isBlank, isWhite, Bool.or_eq_true, Bool.and_eq_true, decide_eq_true_eq,
    beq_iff_eq] at h
  simp only [blanks, List.mem_cons, List.not_mem_nil]
  omega

theorem isDigit_of_isBlank {c : Char} (h : isBlank c = true) : isDigit c = false := by
  have hnone : ∀ n ∈ blanks, isDigit (Char.ofNat n) = false := by decide
  simpa using hnone c.toNat (toNat_mem_blanks h)

end Text

namespace Duration

open Text

/-- The units in all their spellings, with their seconds. -/
def units : List (String × Float) :=
  [("", 1.0), ("ms", 0.001), ("mS", 0.001), ("Ms", 0.001), ("MS", 0.001), ("s", 1.0), ("S", 1.0),
    ("m", 60.0), ("M", 60.0), ("h", 3600.0), ("H", 3600.0)]

/-- What is read as a unit and is none. -/
def strayUnits : List String := ["ſ", "mſ", "Mſ"]

/-- A fraction, with the point before it. -/
def dotted (fraction : List Char) : List Char := if fraction = [] then [] else '.' :: fraction

/-- The parts of a written duration. -/
structure Parts where
  before : List Char
  whole : List Char
  fraction : List Char
  between : List Char
  unit : String
  after : List Char

namespace Parts

def text (p : Parts) : String :=
  String.ofList
    (p.before ++ (p.whole ++ dotted p.fraction ++ (p.between ++ (p.unit.toList ++ p.after))))

structure IsProper (p : Parts) : Prop where
  before : ∀ c ∈ p.before, isBlank c = true
  whole : ∀ c ∈ p.whole, isDigit c = true
  whole_ne_nil : p.whole ≠ []
  fraction : ∀ c ∈ p.fraction, isDigit c = true
  between : ∀ c ∈ p.between, isBlank c = true
  after : ∀ c ∈ p.after, isBlank c = true

/-- The digits before and after the point. -/
def digits (p : Parts) : Nat := Decimal.ofDigits ((p.whole ++ p.fraction).filterMap digitValue?)

/-- The number before the unit. -/
def amount (p : Parts) : ℚ := p.digits * 10 ^ (-(p.fraction.length : ℤ))

end Parts

/-- The seconds that a value stands for. -/
inductive Stands : Value → Float → Prop
  | int {n : ℤ} {x : Float} (hn : 0 ≤ n) (hx : Rounds n x) : Stands (.int n) x
  | float {x : Float} (hx : 0.0 ≤ x) : Stands (.float x) x
  | text {p : Parts} {amount seconds : Float} (hproper : p.IsProper)
    (hamount : Rounds p.amount amount) (hunit : (p.unit, seconds) ∈ units) :
    Stands (.str p.text) (amount * seconds)

/-- Values that are taken for durations and then cannot be converted: integers past the floats, and
texts with a stray unit. -/
inductive IsStray : Value → Prop
  | int {n : ℤ} (hn : overflow ≤ n) : IsStray (.int n)
  | text {p : Parts} (hproper : p.IsProper) (hunit : p.unit ∈ strayUnits) : IsStray (.str p.text)

/-! ### Units -/

theorem isSecondLetter_iff {c : Char} : isSecondLetter c = true ↔ c ∈ ['s', 'S', 'ſ'] := by
  simp [isSecondLetter, or_assoc]

theorem isMinuteLetter_iff {c : Char} : isMinuteLetter c = true ↔ c ∈ ['m', 'M'] := by
  simp [isMinuteLetter]

theorem isHourLetter_iff {c : Char} : isHourLetter c = true ↔ c ∈ ['h', 'H'] := by
  simp [isHourLetter]

/-- What is read as a unit. -/
def spellings : List String := units.map (·.1) ++ strayUnits

theorem unitSeconds?_lower : ∀ unit ∈ units, unitSeconds? (lower unit.1) = some unit.2 := by
  decide +kernel

theorem unitSeconds?_lower_stray : ∀ unit ∈ strayUnits, unitSeconds? (lower unit) = none := by
  decide +kernel

theorem not_isSecondLetter_of_isBlank {c : Char} (h : isBlank c = true) :
    isSecondLetter c = false := by
  rw [← Bool.not_eq_true, isSecondLetter_iff]
  rintro hmem
  have hsolid : ∀ c ∈ ['s', 'S', 'ſ'], isBlank c = false := by simp [isBlank, isWhite]
  rw [hsolid c hmem] at h
  cases h

theorem readUnit_of_mem_spellings {unit : String} (hunit : unit ∈ spellings) (hne : unit ≠ "")
    {after : List Char} (hafter : ∀ c ∈ after, isBlank c = true) :
    readUnit (unit.toList ++ after) = (unit.toList, after) := by
  have hstop : ∀ c ∈ after.head?, isSecondLetter c = false := fun c hhead =>
    not_isSecondLetter_of_isBlank (hafter c (List.mem_of_mem_head? hhead))
  have hsingle (a : Char)
      (ha : (isSecondLetter a || isMinuteLetter a || isHourLetter a) = true) :
      readUnit (a :: after) = ([a], after) := by
    cases after with
    | nil => simp [readUnit, ha]
    | cons b after => simp [readUnit, ha, hstop b rfl]
  have hpair (a b : Char) (ha : isMinuteLetter a = true) (hb : isSecondLetter b = true) :
      readUnit (a :: b :: after) = ([a, b], after) := by
    simp [readUnit, ha, hb]
  simp only [spellings, units, strayUnits, List.map_cons, List.map_nil, List.cons_append,
    List.nil_append, List.mem_cons, List.not_mem_nil, or_false] at hunit
  rcases hunit with rfl | rfl | rfl | rfl | rfl | rfl | rfl | rfl | rfl | rfl | rfl | rfl | rfl |
    rfl
  · exact absurd rfl hne
  all_goals first
    | exact hpair _ _ rfl rfl
    | exact hsingle _ rfl

/-- The spellings, letter by letter. -/
def letters : List (List Char) :=
  [[], ['m', 's'], ['m', 'S'], ['M', 's'], ['M', 'S'], ['s'], ['S'], ['m'], ['M'], ['h'], ['H'],
    ['ſ'], ['m', 'ſ'], ['M', 'ſ']]

theorem toList_spellings : spellings.map String.toList = letters := rfl

theorem ofList_mem_spellings {unit : List Char} (h : unit ∈ letters) :
    String.ofList unit ∈ spellings := by
  obtain ⟨spelling, hmem, rfl⟩ := List.mem_map.mp (toList_spellings ▸ h)
  rwa [String.ofList_toList]

/-- The letters of units go on with nothing that may stand before a unit. -/
theorem of_mem_spelling {unit : String} (hunit : unit ∈ spellings) {c : Char}
    (hmem : c ∈ unit.toList) : isBlank c = false ∧ isDigit c = false ∧ c ≠ '.' := by
  have hletter : ∀ spelling ∈ letters, ∀ c ∈ spelling, c ∈ ['m', 'M', 's', 'S', 'ſ', 'h', 'H'] := by
    simp [letters]
  have hunit : unit.toList ∈ letters := toList_spellings ▸ List.mem_map_of_mem hunit
  have hmem := hletter _ hunit c hmem
  simp only [List.mem_cons, List.not_mem_nil, or_false] at hmem
  rcases hmem with rfl | rfl | rfl | rfl | rfl | rfl | rfl <;> exact ⟨rfl, rfl, by decide⟩

theorem mem_spellings_of_readUnit {cs unit rest : List Char} (h : readUnit cs = (unit, rest)) :
    unit ++ rest = cs ∧ String.ofList unit ∈ spellings := by
  have hsingle (a : Char)
      (ha : (isSecondLetter a || isMinuteLetter a || isHourLetter a) = true) :
      String.ofList [a] ∈ spellings := by
    have hletters : ∀ a ∈ ['s', 'S', 'ſ', 'm', 'M', 'h', 'H'],
        [a] ∈ letters := by simp [letters]
    refine ofList_mem_spellings (hletters a ?_)
    rw [Bool.or_eq_true, Bool.or_eq_true, isSecondLetter_iff, isMinuteLetter_iff,
      isHourLetter_iff] at ha
    simpa [or_assoc] using ha
  have hpair (a b : Char) (ha : isMinuteLetter a = true) (hb : isSecondLetter b = true) :
      String.ofList [a, b] ∈ spellings := by
    have hletters : ∀ a ∈ ['m', 'M'], ∀ b ∈ ['s', 'S', 'ſ'],
        [a, b] ∈ letters := by simp [letters]
    exact ofList_mem_spellings
      (hletters a (isMinuteLetter_iff.mp ha) b (isSecondLetter_iff.mp hb))
  have hnone : String.ofList [] ∈ spellings := ofList_mem_spellings (by decide)
  unfold readUnit at h
  split at h
  · split at h
    · rename_i hletters
      rw [Bool.and_eq_true] at hletters
      cases h
      exact ⟨rfl, hpair _ _ hletters.1 hletters.2⟩
    · split at h
      · cases h
        exact ⟨rfl, hsingle _ ‹_›⟩
      · cases h
        exact ⟨rfl, hnone⟩
  · split at h
    · cases h
      exact ⟨rfl, hsingle _ ‹_›⟩
    · cases h
      exact ⟨rfl, hnone⟩
  · cases h
    exact ⟨rfl, hnone⟩

/-! ### Amounts -/

section Amount

variable {whole fraction rest : List Char}

/-- Where an amount ends, no digit and no point follows. -/
def EndsAmount (rest : List Char) : Prop := ∀ c ∈ rest.head?, isDigit c = false ∧ c ≠ '.'

/-- The fraction at the front of what follows the whole digits. -/
def fractionOf : List Char → List Char
  | '.' :: rest => rest.takeWhile isDigit
  | _ => []

theorem readAmount?_eq (cs : List Char) :
    readAmount? cs =
      if (cs.takeWhile isDigit).isEmpty then none
      else
        let fraction := fractionOf (cs.dropWhile isDigit)
        some (Decimal.toFloat
            (Decimal.ofDigits ((cs.takeWhile isDigit ++ fraction).filterMap digitValue?))
            (-(fraction.length : Int)),
          if fraction.isEmpty then cs.dropWhile isDigit
          else (cs.dropWhile isDigit).drop (fraction.length + 1)) :=
  rfl

theorem fractionOf_dotted (hfraction : ∀ c ∈ fraction, isDigit c = true)
    (hrest : EndsAmount rest) : fractionOf (dotted fraction ++ rest) = fraction := by
  unfold dotted
  split
  · rename_i hnone
    subst hnone
    cases rest with
    | nil => rfl
    | cons c rest =>
        have hc : c ≠ '.' := (hrest c rfl).2
        simp [fractionOf, hc]
  · exact takeWhile_append_of_head hfraction fun c hhead => (hrest c hhead).1

theorem readAmount?_append (hwhole : ∀ c ∈ whole, isDigit c = true) (hne : whole ≠ [])
    (hfraction : ∀ c ∈ fraction, isDigit c = true) (hrest : EndsAmount rest) :
    readAmount? (whole ++ dotted fraction ++ rest) =
      some (Decimal.toFloat (Decimal.ofDigits ((whole ++ fraction).filterMap digitValue?))
        (-(fraction.length : Int)), rest) := by
  have hpoint : isDigit '.' = false := by decide
  have hstop : ∀ c ∈ (dotted fraction ++ rest).head?, isDigit c = false := by
    unfold dotted
    split
    · exact fun c hhead => (hrest c hhead).1
    · rintro c hhead
      cases hhead
      exact hpoint
  have htake := takeWhile_append_of_head hwhole hstop
  have hdrop := dropWhile_append_of_head hwhole hstop
  rw [readAmount?_eq, List.append_assoc, htake, hdrop, if_neg (by simpa using hne)]
  rw [fractionOf_dotted hfraction hrest]
  rcases eq_or_ne fraction [] with rfl | hfractionNe
  · rfl
  · have hdrop : (dotted fraction ++ rest).drop (fraction.length + 1) = rest := by
      rw [dotted, if_neg hfractionNe]
      exact List.drop_left' rfl
    simp only [List.isEmpty_iff, hfractionNe, if_false, hdrop]

theorem isDigit_of_mem_fractionOf {cs : List Char} : ∀ c ∈ fractionOf cs, isDigit c = true := by
  unfold fractionOf
  split
  · exact fun c hmem => List.mem_takeWhile_imp hmem
  · simp

theorem dotted_fractionOf_append (cs : List Char) :
    dotted (fractionOf cs) ++
      (if (fractionOf cs).isEmpty then cs else cs.drop ((fractionOf cs).length + 1)) = cs := by
  rcases eq_or_ne (fractionOf cs) [] with hnone | hsome
  · simp [dotted, hnone]
  · rw [dotted, if_neg hsome, if_neg (by simpa using hsome)]
    unfold fractionOf at hsome ⊢
    split
    · rename_i rest
      have hsplit : rest.takeWhile isDigit ++ rest.dropWhile isDigit = rest :=
        List.takeWhile_append_dropWhile
      rw [List.drop_succ_cons, List.cons_append]
      nth_rewrite 3 [← hsplit]
      rw [List.drop_left, hsplit]
    · simp at hsome

/-- An amount that was read stood at the front, and what follows was left. -/
theorem of_readAmount?_eq_some {cs : List Char} {x : Float} (h : readAmount? cs = some (x, rest)) :
    ∃ whole fraction : List Char, (∀ c ∈ whole, isDigit c = true) ∧ whole ≠ [] ∧
      (∀ c ∈ fraction, isDigit c = true) ∧ cs = whole ++ dotted fraction ++ rest ∧
      x = Decimal.toFloat (Decimal.ofDigits ((whole ++ fraction).filterMap digitValue?))
        (-(fraction.length : Int)) := by
  rw [readAmount?_eq] at h
  split at h
  · cases h
  · rename_i hne
    cases h
    refine ⟨cs.takeWhile isDigit, fractionOf (cs.dropWhile isDigit),
      fun c hmem => List.mem_takeWhile_imp hmem, by simpa using hne, isDigit_of_mem_fractionOf,
      ?_, rfl⟩
    rw [List.append_assoc, dotted_fractionOf_append, List.takeWhile_append_dropWhile]

end Amount

/-! ### Texts -/

namespace Parts

variable {p : Parts}

/-- The number before the unit, rounded. -/
def read (p : Parts) : Float := Decimal.toFloat p.digits (-(p.fraction.length : Int))

theorem amount_nonneg (p : Parts) : 0 ≤ p.amount := by
  unfold amount
  positivity

theorem rounds_read (p : Parts) : Rounds p.amount p.read := rounds_toFloat _ _

theorem endsAmount (hproper : p.IsProper) (hunit : p.unit ∈ spellings) :
    EndsAmount (p.between ++ (p.unit.toList ++ p.after)) := by
  have hblank (c : Char) (h : isBlank c = true) : isDigit c = false ∧ c ≠ '.' :=
    ⟨isDigit_of_isBlank h, by rintro rfl; simp [isBlank, isWhite] at h⟩
  intro c hhead
  rcases List.mem_append.mp (List.mem_of_mem_head? hhead) with hbetween | hrest
  · exact hblank c (hproper.between c hbetween)
  · rcases List.mem_append.mp hrest with hunitMem | hafter
    · exact (of_mem_spelling hunit hunitMem).2
    · exact hblank c (hproper.after c hafter)

/-- Proper parts are found again. -/
theorem read?_text (hproper : p.IsProper) (hunit : p.unit ∈ spellings) :
    read? p.text = some (p.read, lower p.unit) := by
  have hamount : (p.before ++ (p.whole ++ dotted p.fraction ++
      (p.between ++ (p.unit.toList ++ p.after)))).dropWhile isBlank =
        p.whole ++ dotted p.fraction ++ (p.between ++ (p.unit.toList ++ p.after)) := by
    refine dropWhile_append_of_head hproper.before fun c hhead => ?_
    obtain ⟨first, more, hwhole⟩ := List.exists_cons_of_ne_nil hproper.whole_ne_nil
    rw [hwhole] at hhead
    cases hhead
    have hdigit := hproper.whole c (hwhole ▸ List.mem_cons_self)
    by_contra hblank
    rw [isDigit_of_isBlank (by simpa using hblank)] at hdigit
    cases hdigit
  have hread := readAmount?_append hproper.whole hproper.whole_ne_nil hproper.fraction
    (endsAmount hproper hunit)
  have hafter : p.after.all isBlank = true := List.all_eq_true.mpr hproper.after
  rw [read?, text, String.toList_ofList, hamount, hread]
  rcases eq_or_ne p.unit "" with hnone | hsome
  · have hrest : (p.between ++ (p.unit.toList ++ p.after)).dropWhile isBlank = [] := by
      rw [hnone, List.dropWhile_append_of_pos hproper.between]
      exact List.dropWhile_eq_nil_iff.mpr hproper.after
    simp only [Option.bind_eq_bind, Option.bind_some, hrest]
    rw [hnone]
    rfl
  · have hrest : (p.between ++ (p.unit.toList ++ p.after)).dropWhile isBlank =
        p.unit.toList ++ p.after := by
      refine dropWhile_append_of_head hproper.between fun c hhead => ?_
      obtain ⟨first, more, hletters⟩ : ∃ first more, p.unit.toList = first :: more :=
        List.exists_cons_of_ne_nil fun h => hsome (String.toList_eq_nil_iff.mp h)
      rw [hletters] at hhead
      cases hhead
      exact (of_mem_spelling hunit (hletters ▸ List.mem_cons_self)).1
    simp only [Option.bind_eq_bind, Option.bind_some, hrest,
      readUnit_of_mem_spellings hunit hsome hproper.after, hafter, if_true, String.ofList_toList]
    rfl

/-- What was read stands in the text. -/
theorem exists_of_read?_eq_some {s : String} {amount : Float} {unit : String}
    (h : read? s = some (amount, unit)) :
    ∃ p : Parts, p.IsProper ∧ p.unit ∈ spellings ∧ p.text = s ∧ amount = p.read ∧
      unit = lower p.unit := by
  simp only [read?, Option.bind_eq_bind, Option.bind_eq_some_iff] at h
  obtain ⟨⟨x, rest⟩, hamount, h⟩ := h
  obtain ⟨whole, fraction, hwhole, hne, hfraction, hfront, rfl⟩ := of_readAmount?_eq_some hamount
  dsimp only at h
  obtain ⟨unit, after, hunit⟩ : ∃ unit after, readUnit (rest.dropWhile isBlank) = (unit, after) :=
    ⟨_, _, rfl⟩
  obtain ⟨hletters, hspelling⟩ := mem_spellings_of_readUnit hunit
  rw [hunit] at h
  split at h
  · rename_i hafter
    cases h
    refine ⟨⟨s.toList.takeWhile isBlank, whole, fraction, rest.takeWhile isBlank,
      String.ofList unit, after⟩, ⟨fun c hmem => List.mem_takeWhile_imp hmem, hwhole, hne,
        hfraction, fun c hmem => List.mem_takeWhile_imp hmem, List.all_eq_true.mp hafter⟩,
      hspelling, ?_, ?_, rfl⟩
    · rw [text, String.toList_ofList, hletters, List.takeWhile_append_dropWhile, ← hfront,
        List.takeWhile_append_dropWhile, String.ofList_toList]
    · rw [read, digits]
  · cases h

end Parts

/-! ### Values -/

theorem mem_spellings_iff {unit : String} :
    unit ∈ spellings ↔ (∃ seconds, (unit, seconds) ∈ units) ∨ unit ∈ strayUnits := by
  simp [spellings]

theorem seconds?_text {p : Parts} (hproper : p.IsProper) {seconds : Float}
    (hunit : (p.unit, seconds) ∈ units) :
    seconds? (.str p.text) = .ok (some (p.read * seconds)) := by
  have hread := p.read?_text hproper (mem_spellings_iff.mpr (.inl ⟨seconds, hunit⟩))
  have hseconds : unitSeconds? (lower p.unit) = some seconds :=
    unitSeconds?_lower (p.unit, seconds) hunit
  simp only [seconds?, hread, hseconds]

theorem seconds?_stray {p : Parts} (hproper : p.IsProper) (hunit : p.unit ∈ strayUnits) :
    seconds? (.str p.text) = .error (.notFound (lower p.unit)) := by
  have hread := p.read?_text hproper (mem_spellings_iff.mpr (.inr hunit))
  simp only [seconds?, hread, unitSeconds?_lower_stray _ hunit]

theorem IsStray.seconds?_eq_error {value : Value} (h : IsStray value) :
    ∃ failure, seconds? value = .error failure := by
  cases h with
  | @int n hn =>
      have hnonneg : 0 ≤ n := by exact_mod_cast (overflow_pos.le.trans hn)
      have hinfinite : ¬isFiniteFloat (floatOfInt n) = true := by
        rw [(rounds_floatOfInt hnonneg).isFinite_iff]
        exact hn.not_gt
      rw [seconds?, if_neg hnonneg.not_gt]
      simp only [hinfinite]
      exact ⟨_, rfl⟩
  | text hproper hunit => exact ⟨_, seconds?_stray hproper hunit⟩

theorem Stands.seconds?_eq {value : Value} {x : Float} (h : Stands value x)
    (hstray : ¬IsStray value) : seconds? value = .ok (some x) := by
  cases h with
  | @int n x hn hx =>
      have hsmall : (n : ℚ) < overflow := not_le.mp fun hlarge => hstray (.int hlarge)
      obtain rfl := hx.unique (by exact_mod_cast hn) (rounds_floatOfInt hn)
      have hfinite := hx.isFinite_iff.mpr hsmall
      rw [seconds?, if_neg hn.not_gt]
      simp only [hfinite, if_true]
  | float hx => rw [seconds?, if_pos hx]
  | @text p amount seconds hproper hamount hunit =>
      obtain rfl := hamount.unique p.amount_nonneg p.rounds_read
      exact seconds?_text hproper hunit

/-- A value that is not stray is read as what it stands for, or as nothing. -/
theorem seconds?_cases (value : Value) :
    seconds? value = .ok none ∨ (∃ x, seconds? value = .ok (some x) ∧ Stands value x) ∨
      ∃ failure, seconds? value = .error failure ∧ IsStray value := by
  unfold seconds?
  split
  · split
    · exact .inl rfl
    · rename_i hnegative
      have hrounds := rounds_floatOfInt (not_lt.mp hnegative)
      dsimp only
      split
      · exact .inr (.inl ⟨_, rfl, .int (not_lt.mp hnegative) hrounds⟩)
      · rename_i hinfinite
        rw [hrounds.isFinite_iff, not_lt] at hinfinite
        exact .inr (.inr ⟨_, rfl, .int hinfinite⟩)
  · split
    · exact .inr (.inl ⟨_, rfl, .float ‹_›⟩)
    · exact .inl rfl
  · split
    · exact .inl rfl
    · rename_i hread
      obtain ⟨p, hproper, hunit, rfl, rfl, rfl⟩ := Parts.exists_of_read?_eq_some hread
      rcases mem_spellings_iff.mp hunit with ⟨seconds, hunit⟩ | hstray
      · rw [unitSeconds?_lower _ hunit]
        exact .inr (.inl ⟨_, rfl, .text hproper p.rounds_read hunit⟩)
      · rw [unitSeconds?_lower_stray _ hstray]
        exact .inr (.inr ⟨_, rfl, .text hproper hstray⟩)
  · exact .inl rfl

/-- The seconds of a value, and a default for what is no duration. -/
def secondsOr (default : Float) (value : Value) : Except Failure Float :=
  (seconds? value).map (·.getD default)

/-- Reading a value does not fail. It gives the seconds that the value stands for; for a value that
stands for none, it gives the default. -/
def Law (value : Value) : Prop :=
  ∃ answer : Option Float, (∀ x, answer = some x ↔ Stands value x) ∧
    ∀ default, secondsOr default value = .ok (answer.getD default)

theorem law_iff (value : Value) : Law value ↔ ¬IsStray value := by
  constructor
  · rintro ⟨answer, -, hreads⟩ hstray
    obtain ⟨failure, hfails⟩ := hstray.seconds?_eq_error
    have hread := hreads 0.0
    rw [secondsOr, hfails] at hread
    cases hread
  · intro hstray
    obtain ⟨answer, hread, hanswer⟩ :
        ∃ answer, seconds? value = .ok answer ∧ ∀ x, answer = some x → Stands value x := by
      rcases seconds?_cases value with hnone | ⟨x, hread, hstands⟩ | ⟨failure, -, hfails⟩
      · exact ⟨none, hnone, nofun⟩
      · exact ⟨some x, hread, fun _ hsame => Option.some.inj hsame ▸ hstands⟩
      · exact absurd hfails hstray
    refine ⟨answer, fun x => ⟨hanswer x, fun hstands => ?_⟩,
      fun default => by rw [secondsOr, hread]; rfl⟩
    rw [hstands.seconds?_eq hstray] at hread
    exact (Except.ok.inj hread).symm

end Duration

open Duration

/-- What a step waits for is no integer, so a text with a stray unit is all that it can fail on. -/
theorem Dispatcher.secondsFor_eq_ok_iff (d : Dispatcher) (time : Option WaitTime) :
    (∃ seconds, d.secondsFor time = .ok seconds) ↔
      ¬∃ text, time = some (.written text) ∧ IsStray (.str text) := by
  have hreads (value : Value) (hstray : ¬IsStray value) :
      ∃ seconds, (seconds? value).map (·.getD d.defaultWait) = .ok seconds := by
    obtain ⟨answer, -, hread⟩ := (law_iff value).mpr hstray
    exact ⟨_, hread d.defaultWait⟩
  cases time with
  | none => exact ⟨fun _ => by simp, fun _ => ⟨_, rfl⟩⟩
  | some time =>
      cases time with
      | seconds x => exact ⟨fun _ => by simp, fun _ => hreads (.float x) nofun⟩
      | written text =>
          constructor
          · rintro ⟨seconds, hread⟩ ⟨_, htext, hstray⟩
            cases htext
            obtain ⟨failure, hfails⟩ := hstray.seconds?_eq_error
            rw [secondsFor] at hread
            simp only [hfails] at hread
            cases hread
          · exact fun hstray => hreads (.str text) fun h => hstray ⟨text, rfl, h⟩

/-- **Durations are read exactly**, unless they are stray. A value stands for seconds if it is a
number that is not negative, or a text that is an amount with a unit; every other value gives the
default. Only an integer past the floats and a text with a stray unit are not read, and only such a
text makes a step fail that waits. -/
theorem Duration.read_exactly_unless_stray (value : Value) (d : Dispatcher)
    (time : Option WaitTime) (world : World) (before : List Exchange) :
    (Law value ↔ ¬IsStray value) ∧
      (((d.runWait time).dialogue world before).value.result =
          .ok (.record [("waited", .bool true)]) ↔
        ¬∃ text, time = some (.written text) ∧ IsStray (.str text)) := by
  refine ⟨law_iff value, ?_⟩
  rw [← d.secondsFor_eq_ok_iff, Dispatcher.runWait]
  cases hread : d.secondsFor time with
  | error failure => simp
  | ok seconds =>
      dsimp only
      rw [Program.dialogue_perform_bind]
      simp [Dialogue.cons]

/-- A unit that is spelled with a long s is read and not found. -/
theorem Duration.not_law_long_s : ¬Law (.str "5ſ") := by
  have hproper : Parts.IsProper ⟨[], ['5'], [], [], "ſ", []⟩ :=
    ⟨by simp, by simp; decide, by simp, by simp, by simp, by simp⟩
  rw [law_iff, not_not]
  exact IsStray.text hproper (by decide)

end Workflow
