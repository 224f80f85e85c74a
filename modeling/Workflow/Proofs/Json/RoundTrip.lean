import Workflow.Proofs.Json.Number
import Workflow.Proofs.Json.Text
import Workflow.Proofs.Table

/-!
Reading back what was written as JSON. Dates come back as their text, and so do keys that are not
strings; everything else comes back as it was.
-/

namespace Workflow.Json

/-! ### What is read back -/

/-- The name a key is written as. -/
def keyName : Scalar → String
  | .str s => s
  | .date d => d.iso
  | .moment m => m.text " "
  | other => scalarText other

def readBackScalar : Scalar → Scalar
  | .date d => .str d.iso
  | .moment m => .str (m.text " ")
  | other => other

mutual

/-- The value that is read where a value was written. -/
def readBack : Value → Value
  | .scalar s => .scalar (readBackScalar s)
  | .list items => .list (readBackItems items)
  | .map entries => .map (Table.ofEntries (readBackEntries entries))

def readBackItems : List Value → List Value
  | [] => []
  | item :: rest => readBack item :: readBackItems rest

def readBackEntries : List (Scalar × Value) → List (Scalar × Value)
  | [] => []
  | (key, value) :: rest => (.str (keyName key), readBack value) :: readBackEntries rest

end

/-! ### Keys -/

/-- A text in which nothing is escaped. -/
def IsPlain (s : String) : Prop := ∀ c ∈ s.toList, escaped c = [c]

theorem quoted_of_isPlain {s : String} (h : IsPlain s) : quoted s = "\"" ++ s ++ "\"" := by
  have hself : s.toList.flatMap escaped = s.toList := by
    rw [List.flatMap_congr h]
    simp
  rw [quoted, hself, String.ofList_toList]

theorem escaped_of_isDigit {c : Char} (hc : isDigit c = true) : escaped c = [c] := by
  have hrange : 48 ≤ c.toNat ∧ c.toNat ≤ 57 := by
    simpa [isDigit, Char.le_def, UInt32.le_iff_toNat_le] using hc
  unfold escaped
  dsimp only
  repeat' split
  all_goals first | rfl | omega

theorem Numeral.IsProper.escaped_eq {n : Numeral} (h : n.IsProper) :
    ∀ c ∈ n.chars, escaped c = [c] := by
  intro c hc
  rcases List.mem_append.mp hc with hc | hc
  · exact escaped_of_isDigit (h.whole c hc)
  · rcases List.mem_append.mp hc with hc | hc
    · split at hc
      · cases hc
      · rcases List.mem_cons.mp hc with rfl | hc
        · rfl
        · exact escaped_of_isDigit (h.fraction c hc)
    · cases hexponent : n.exponent with
      | none =>
          rw [hexponent] at hc
          cases hc
      | some exponent =>
          obtain ⟨negative, size⟩ := exponent
          rw [hexponent] at hc
          rcases List.mem_cons.mp hc with rfl | hc
          · rfl
          · rcases List.mem_cons.mp hc with rfl | hc
            · cases negative <;> rfl
            · exact escaped_of_isDigit ((h.exponent negative size hexponent).2 c hc)

theorem IsPlain.append {s t : String} (hs : IsPlain s) (ht : IsPlain t) : IsPlain (s ++ t) := by
  intro c hc
  rw [String.toList_append, List.mem_append] at hc
  exact hc.elim (hs c) (ht c)

instance (s : String) : Decidable (IsPlain s) :=
  List.decidableBAll (fun c => escaped c = [c]) s.toList

theorem isPlain_toString (n : Nat) : IsPlain (toString n) := by
  intro c hc
  rw [toList_toString] at hc
  exact escaped_of_isDigit (isDigit_of_mem_toDigits hc)

theorem isPlain_render (x : Float) : IsPlain (Decimal.render spelling x) := by
  unfold Decimal.render
  split
  · rename_i b hb
    refine IsPlain.append ?_ ?_
    · split <;> decide
    · split
      · decide
      · rename_i hpos
        obtain ⟨n, hn⟩ := exists_spells (digits_shortest_pos hb (Nat.pos_of_ne_zero hpos))
        intro c hc
        rw [hn.chars] at hc
        exact hn.proper.escaped_eq c hc
  · split
    · refine IsPlain.append ?_ (by decide)
      split <;> decide
    · decide

theorem keyText_eq (key : Scalar) : keyText key = quoted (keyName key) := by
  cases key with
  | null => rfl
  | bool b => cases b <;> rfl
  | int n =>
      refine (quoted_of_isPlain ?_).symm
      cases n with
      | ofNat n => exact isPlain_toString n
      | negSucc n => exact IsPlain.append (s := "-") (by decide) (isPlain_toString (n + 1))
  | float x => exact (quoted_of_isPlain (isPlain_render x)).symm
  | str s => rfl
  | date d => rfl
  | moment m => rfl

/-! ### What values start with and what may follow them -/

/-- What stands after a value: a comma, a closing bracket, or nothing. -/
def EndsValue (rest : List Char) : Prop :=
  ∀ c ∈ rest.head?, c = ',' ∨ c = ']' ∨ c = '\x7d'

theorem EndsValue.endsNumber {rest : List Char} (h : EndsValue rest) : EndsNumber rest := by
  intro c hc
  rcases h c hc with rfl | rfl | rfl <;> decide

/-- The first character of a value that is not in quotes or brackets. -/
def startsAtom (c : Char) : Bool := isDigit c || c ∈ ['n', 't', 'f', 'N', 'I', '-']

theorem isDigit_of_leadingDigits {c : Char} {cs : List Char} (h : leadingDigits (c :: cs) ≠ []) :
    isDigit c = true := by
  by_contra hc
  rw [Bool.not_eq_true] at hc
  refine h ?_
  unfold leadingDigits
  split
  · rename_i heq
    cases heq
    cases hc
  · rw [List.takeWhile_cons_of_neg (by simp [hc])]

theorem startsAtom_of_readAtom? {cs : List Char} {result : Value × List Char}
    (h : readAtom? cs = some result) : ∃ c rest, cs = c :: rest ∧ startsAtom c = true := by
  have hmagnitude (negative : Bool) (cs : List Char) (hread : readMagnitude? negative cs ≠ none) :
      leadingDigits cs ≠ [] := by
    intro hempty
    refine hread ?_
    unfold readMagnitude?
    rw [hempty]
    rfl
  unfold readAtom? at h
  cases hfind : literals.find? fun literal => literal.1.isPrefixOf cs with
  | some literal =>
      have hliterals : ∀ literal ∈ literals, literal.1.head?.any startsAtom = true := by decide
      have hstart := hliterals literal (List.mem_of_find?_eq_some hfind)
      have hprefix : literal.1 <+: cs := by simpa using List.find?_some hfind
      obtain ⟨rest, rfl⟩ := hprefix
      cases hword : literal.1 with
      | nil =>
          rw [hword] at hstart
          cases hstart
      | cons c word =>
          rw [hword] at hstart
          exact ⟨c, word ++ rest, rfl, hstart⟩
  | none =>
      rw [hfind] at h
      dsimp only at h
      split at h
      · exact ⟨_, _, rfl, by decide⟩
      · have hdigits := hmagnitude false cs (by rw [h]; exact Option.some_ne_none _)
        cases cs with
        | nil => exact absurd rfl hdigits
        | cons c rest =>
            refine ⟨c, rest, rfl, ?_⟩
            rw [startsAtom, isDigit_of_leadingDigits hdigits, Bool.true_or]

/-- An atom is told from strings, lists and mappings by its first character. -/
theorem read?_atom {fuel : Nat} {cs : List Char} {result : Value × List Char}
    (h : readAtom? cs = some result) : read? (fuel + 1) cs = some result := by
  obtain ⟨c, rest, rfl, hstart⟩ := startsAtom_of_readAtom? h
  have hne (d : Char) (hd : startsAtom d = false) : c ≠ d := by
    rintro rfl
    rw [hd] at hstart
    cases hstart
  rw [read?, h]
  · exact fun rest heq => hne '\x22' rfl (List.cons.inj heq).1
  · exact fun rest heq => hne '[' rfl (List.cons.inj heq).1
  · exact fun rest heq => hne '\x7b' rfl (List.cons.inj heq).1

/-! ### Scalars -/

variable {rest : List Char} {fuel : Nat}

theorem read?_quoted (s : String) (hfuel : 0 < fuel) :
    read? fuel ((quoted s).toList ++ rest) = some (.str s, rest) := by
  obtain ⟨fuel, rfl⟩ := Nat.exists_eq_succ_of_ne_zero hfuel.ne'
  have htext : (quoted s).toList ++ rest =
      '\x22' :: (s.toList.flatMap escaped ++ '\x22' :: rest) := by
    simp [quoted]
  have hlength : (s.toList.flatMap escaped).length <
      (s.toList.flatMap escaped ++ '\x22' :: rest).length + 1 := by
    rw [List.length_append]
    omega
  rw [htext, read?, readString?_quoted s.toList [] rest hlength]
  simp

theorem read?_scalar (s : Scalar) (hrest : EndsValue rest) (hfuel : 0 < fuel) :
    read? fuel ((scalarText s).toList ++ rest) = some (.scalar (readBackScalar s), rest) := by
  obtain ⟨fuel, rfl⟩ := Nat.exists_eq_succ_of_ne_zero hfuel.ne'
  cases s with
  | null => exact read?_atom rfl
  | bool b => cases b <;> exact read?_atom rfl
  | int n => exact read?_atom (readAtom?_int n hrest.endsNumber)
  | float x => exact read?_atom (readAtom?_float x hrest.endsNumber)
  | str s => exact read?_quoted s hfuel
  | date d => exact read?_quoted d.iso hfuel
  | moment m => exact read?_quoted (m.text " ") hfuel

/-! ### Lists and mappings -/

/-- The first character of a value. -/
def startsValue (c : Char) : Bool := startsAtom c || c ∈ ['\x22', '[', '\x7b']

theorem skipSpace_cons {c : Char} (hc : startsValue c = true) (cs : List Char) :
    skipSpace (c :: cs) = c :: cs := by
  have hne (d : Char) (hd : startsValue d = false) : c ≠ d := by
    rintro rfl
    rw [hd] at hc
    cases hc
  rw [skipSpace, List.dropWhile_cons_of_neg]
  simp [hne ' ' rfl, hne '\n' rfl, hne '\r' rfl, hne '\t' rfl]

theorem toList_enclose (level : Nat) (opening closing part : String) (parts : List String) :
    (compact.enclose level opening closing (part :: parts)).toList =
      opening.toList ++ ((Text.join ", " (part :: parts)).toList ++ closing.toList) := by
  simp [Layout.enclose, compact, Layout.newline]

theorem toList_join_cons (part next : String) (parts : List String) :
    (Text.join ", " (part :: next :: parts)).toList =
      part.toList ++ ',' :: ' ' :: (Text.join ", " (next :: parts)).toList := by
  rw [Text.join, String.intercalate_cons_cons, String.toList_append, String.toList_append,
    List.append_assoc]
  rfl

theorem toList_join_singleton (part : String) : (Text.join ", " [part]).toList = part.toList := by
  rw [Text.join, String.intercalate_singleton]

theorem exists_write_eq_cons (level : Nat) (v : Value) :
    ∃ c cs, (write compact level v).toList = c :: cs ∧ startsValue c = true := by
  cases v with
  | scalar s =>
      have hquoted (text : String) :
          ∃ c cs, (quoted text).toList = c :: cs ∧ startsValue c = true :=
        ⟨'\x22', _, by rw [quoted, String.append_assoc, String.toList_append]; rfl, rfl⟩
      have hatom {result : Value × List Char}
          (h : readAtom? ((scalarText s).toList ++ []) = some result) :
          ∃ c cs, (scalarText s).toList = c :: cs ∧ startsValue c = true := by
        obtain ⟨c, cs, heq, hc⟩ := startsAtom_of_readAtom? h
        rw [List.append_nil] at heq
        exact ⟨c, cs, heq, by rw [startsValue, hc, Bool.true_or]⟩
      have hnil : EndsNumber [] := by simp [EndsNumber]
      rw [write]
      cases s with
      | null => exact ⟨'n', _, rfl, rfl⟩
      | bool b => cases b <;> exact ⟨_, _, rfl, rfl⟩
      | int n => exact hatom (readAtom?_int n hnil)
      | float x => exact hatom (readAtom?_float x hnil)
      | str s => exact hquoted s
      | date d => exact hquoted d.iso
      | moment m => exact hquoted (m.text " ")
  | list items =>
      cases items with
      | nil => exact ⟨'[', [']'], by simp [write, writeItems, Layout.enclose], rfl⟩
      | cons item items =>
          rw [write, writeItems, toList_enclose]
          exact ⟨'[', _, rfl, rfl⟩
  | map entries =>
      cases entries with
      | nil => exact ⟨'\x7b', ['\x7d'], by simp [write, writeEntries, Layout.enclose], rfl⟩
      | cons entry entries =>
          obtain ⟨key, value⟩ := entry
          rw [write, writeEntries, toList_enclose]
          exact ⟨'\x7b', _, rfl, rfl⟩

theorem skipSpace_write (level : Nat) (v : Value) (rest : List Char) :
    skipSpace ((write compact level v).toList ++ rest) =
      (write compact level v).toList ++ rest := by
  obtain ⟨c, cs, heq, hc⟩ := exists_write_eq_cons level v
  rw [heq, List.cons_append, skipSpace_cons hc]

theorem exists_join_eq_cons {part : String} {c : Char} {cs : List Char}
    (hpart : part.toList = c :: cs) (parts : List String) :
    ∃ cs', (Text.join ", " (part :: parts)).toList = c :: cs' := by
  cases parts with
  | nil => exact ⟨cs, by rw [toList_join_singleton, hpart]⟩
  | cons next parts => exact ⟨_, by rw [toList_join_cons, hpart, List.cons_append]⟩

theorem skipSpace_join {part : String} {c : Char} {cs : List Char} (hpart : part.toList = c :: cs)
    (hc : startsValue c = true) (parts : List String) (rest : List Char) :
    skipSpace ((Text.join ", " (part :: parts)).toList ++ rest) =
      (Text.join ", " (part :: parts)).toList ++ rest := by
  obtain ⟨cs', hjoin⟩ := exists_join_eq_cons hpart parts
  rw [hjoin, List.cons_append, skipSpace_cons hc]

/-- Whether a value is read back where it stands, whatever follows it. -/
def IsReadable (v : Value) : Prop :=
  ∀ (level fuel : Nat) (rest : List Char), EndsValue rest →
    (write compact level v).toList.length ≤ fuel →
    read? fuel ((write compact level v).toList ++ rest) = some (readBack v, rest)

theorem readItems?_join {level : Nat} (item : Value) (items : List Value)
    (hread : ∀ item' ∈ item :: items, IsReadable item') (read : List Value) {fuel : Nat}
    (hfuel : (Text.join ", " (writeItems compact level (item :: items))).toList.length < fuel) :
    readItems? fuel read
      ((Text.join ", " (writeItems compact level (item :: items))).toList ++ ']' :: rest) =
        some (.list (read.reverse ++ readBackItems (item :: items)), rest) := by
  induction items generalizing item read fuel with
  | nil =>
      obtain ⟨fuel, rfl⟩ := Nat.exists_eq_succ_of_ne_zero (Nat.ne_zero_of_lt hfuel)
      simp only [writeItems, toList_join_singleton] at hfuel ⊢
      have hitem := hread item List.mem_cons_self level fuel (']' :: rest) (by simp [EndsValue])
        (by omega)
      have hskip : skipSpace (']' :: rest) = ']' :: rest := rfl
      simp [readItems?, hitem, hskip, readBackItems]
  | cons next items ih =>
      obtain ⟨fuel, rfl⟩ := Nat.exists_eq_succ_of_ne_zero (Nat.ne_zero_of_lt hfuel)
      obtain ⟨more, hmore⟩ : ∃ more, more =
        (Text.join ", " (writeItems compact level (next :: items))).toList := ⟨_, rfl⟩
      have htext : (Text.join ", " (writeItems compact level (item :: next :: items))).toList =
          (write compact level item).toList ++ ',' :: ' ' :: more := by
        rw [hmore, writeItems, writeItems, toList_join_cons]
      rw [htext, List.length_append, List.length_cons, List.length_cons] at hfuel
      have hitem := hread item List.mem_cons_self level fuel (',' :: ' ' :: (more ++ ']' :: rest))
        (by simp [EndsValue]) (by omega)
      have hcomma : skipSpace (',' :: ' ' :: (more ++ ']' :: rest)) =
        ',' :: ' ' :: (more ++ ']' :: rest) := rfl
      have hspace : skipSpace (' ' :: (more ++ ']' :: rest)) = more ++ ']' :: rest := by
        obtain ⟨c, cs, hcons, hc⟩ := exists_write_eq_cons level next
        rw [hmore]
        exact skipSpace_join hcons hc (writeItems compact level items) (']' :: rest)
      have hless : more.length < fuel := by omega
      have hrest := ih next (fun item' hmem => hread item' (List.mem_cons_of_mem _ hmem))
        (readBack item :: read) (hmore ▸ hless)
      rw [← hmore] at hrest
      rw [htext, List.append_assoc, List.cons_append, List.cons_append, readItems?, hitem]
      simp only [hcomma, hspace, hrest]
      simp [readBackItems]

theorem exists_entry_eq_cons (key : Scalar) (more : String) :
    ∃ cs, (keyText key ++ more).toList = '\x22' :: cs := by
  simp [keyText_eq, quoted]

/-- One entry of a mapping is read, up to what follows its value. -/
theorem readEntries?_entry {level : Nat} (key : Scalar) {value : Value} (hread : IsReadable value)
    (read : List (Scalar × Value)) {fuel : Nat} (hrest : EndsValue rest)
    (hfuel : (write compact level value).toList.length ≤ fuel) :
    readEntries? (fuel + 1) read
        ((keyText key ++ ": " ++ write compact level value).toList ++ rest) =
      match skipSpace rest with
      | ',' :: rest =>
        readEntries? fuel ((.str (keyName key), readBack value) :: read) (skipSpace rest)
      | '\x7d' :: rest =>
        some (.map (Table.ofEntries ((.str (keyName key), readBack value) :: read).reverse), rest)
      | _ => none := by
  obtain ⟨more, hmore⟩ : ∃ more, more = (write compact level value).toList ++ rest := ⟨_, rfl⟩
  have htext : (keyText key ++ ": " ++ write compact level value).toList ++ rest =
      '\x22' :: ((keyName key).toList.flatMap escaped ++ '\x22' :: ':' :: ' ' :: more) := by
    simp [keyText_eq, quoted, hmore]
  have hlength : ((keyName key).toList.flatMap escaped).length <
      ((keyName key).toList.flatMap escaped ++ '\x22' :: ':' :: ' ' :: more).length + 1 := by
    rw [List.length_append]
    omega
  have hcolon : skipSpace (':' :: ' ' :: more) = ':' :: ' ' :: more := rfl
  have hspace : skipSpace (' ' :: more) = more := by
    rw [hmore]
    exact skipSpace_write level value rest
  have hvalue : read? fuel more = some (readBack value, rest) := by
    rw [hmore]
    exact hread level fuel rest hrest hfuel
  rw [htext, readEntries?, readString?_quoted _ [] _ hlength]
  simp only [hcolon, List.reverse_nil, List.nil_append, String.ofList_toList]
  rewrite [hspace, hvalue]
  rfl

theorem readEntries?_join {level : Nat} (entry : Scalar × Value) (entries : List (Scalar × Value))
    (hread : ∀ entry' ∈ entry :: entries, IsReadable entry'.2) (read : List (Scalar × Value))
    {fuel : Nat} (hfuel :
      (Text.join ", " (writeEntries compact level (entry :: entries))).toList.length < fuel) :
    readEntries? fuel read
      ((Text.join ", " (writeEntries compact level (entry :: entries))).toList ++ '\x7d' :: rest) =
        some (.map (Table.ofEntries (read.reverse ++ readBackEntries (entry :: entries))), rest) := by
  induction entries generalizing entry read fuel with
  | nil =>
      obtain ⟨fuel, rfl⟩ := Nat.exists_eq_succ_of_ne_zero (Nat.ne_zero_of_lt hfuel)
      obtain ⟨key, value⟩ := entry
      have hvalue : IsReadable value := hread _ List.mem_cons_self
      simp only [writeEntries, toList_join_singleton] at hfuel ⊢
      rw [String.toList_append, List.length_append] at hfuel
      rw [readEntries?_entry key hvalue read (by simp [EndsValue]) (by omega)]
      simp [skipSpace, readBackEntries]
  | cons next entries ih =>
      obtain ⟨fuel, rfl⟩ := Nat.exists_eq_succ_of_ne_zero (Nat.ne_zero_of_lt hfuel)
      obtain ⟨key, value⟩ := entry
      obtain ⟨more, hmore⟩ : ∃ more, more =
        (Text.join ", " (writeEntries compact level (next :: entries))).toList := ⟨_, rfl⟩
      have htext :
          (Text.join ", " (writeEntries compact level ((key, value) :: next :: entries))).toList =
            (keyText key ++ ": " ++ write compact level value).toList ++ ',' :: ' ' :: more := by
        obtain ⟨key', value'⟩ := next
        rw [hmore, writeEntries, writeEntries, toList_join_cons]
      rw [htext, String.toList_append, List.length_append, List.length_append, List.length_cons,
        List.length_cons] at hfuel
      have hless : more.length < fuel := by omega
      have hrest := ih next (fun entry' hmem => hread entry' (List.mem_cons_of_mem _ hmem))
        ((.str (keyName key), readBack value) :: read) (hmore ▸ hless)
      rw [← hmore] at hrest
      have hvalue : IsReadable value := hread _ List.mem_cons_self
      have hcomma : skipSpace (',' :: ' ' :: (more ++ '\x7d' :: rest)) =
        ',' :: ' ' :: (more ++ '\x7d' :: rest) := rfl
      have hspace : skipSpace (' ' :: (more ++ '\x7d' :: rest)) = more ++ '\x7d' :: rest := by
        obtain ⟨key', value'⟩ := next
        obtain ⟨cs, hcons⟩ := exists_entry_eq_cons key' (": " ++ write compact level value')
        rw [hmore, writeEntries, String.append_assoc]
        exact skipSpace_join hcons rfl (writeEntries compact level entries) ('\x7d' :: rest)
      rw [htext, List.append_assoc, List.cons_append, List.cons_append,
        readEntries?_entry key hvalue read (by simp [EndsValue]) (by omega)]
      simp only [hcomma, hspace, hrest]
      simp [readBackEntries]

/-! ### Values -/

theorem read?_openList {c : Char} (hc : startsValue c = true) (cs : List Char) :
    read? (fuel + 1) ('[' :: c :: cs) = readItems? fuel [] (c :: cs) := by
  rw [read?, skipSpace_cons hc]
  split
  · rename_i heq
    cases heq
    cases hc
  · rfl

theorem isReadable_list {items : List Value} (h : ∀ item ∈ items, IsReadable item) :
    IsReadable (.list items) := by
  intro level fuel rest hrest hfuel
  cases items with
  | nil =>
      have htext : (write compact level (.list [])).toList = ['[', ']'] := by
        simp [write, writeItems, Layout.enclose]
      rw [htext] at hfuel ⊢
      obtain ⟨fuel, rfl⟩ := Nat.exists_eq_succ_of_ne_zero (Nat.ne_zero_of_lt hfuel)
      rfl
  | cons item items =>
      obtain ⟨joined, hjoined⟩ : ∃ joined, joined =
        (Text.join ", " (writeItems compact (level + 1) (item :: items))).toList := ⟨_, rfl⟩
      have htext : (write compact level (.list (item :: items))).toList =
          '[' :: (joined ++ [']']) := by
        rw [write, hjoined, writeItems, toList_enclose]
        rfl
      rw [htext, List.length_cons, List.length_append, List.length_singleton] at hfuel
      obtain ⟨fuel, rfl⟩ := Nat.exists_eq_succ_of_ne_zero (Nat.ne_zero_of_lt hfuel)
      have hless : joined.length < fuel := by omega
      obtain ⟨c, cs, hcons, hc⟩ := exists_write_eq_cons (level + 1) item
      obtain ⟨cs', hcons'⟩ := exists_join_eq_cons hcons (writeItems compact (level + 1) items)
      have hitems : readItems? fuel [] _ = some (_, rest) :=
        readItems?_join item items h [] (hjoined ▸ hless)
      rw [writeItems, hcons', List.cons_append] at hitems
      rw [htext, hjoined, writeItems, hcons', List.cons_append, List.cons_append, List.cons_append,
        List.append_assoc, read?_openList hc]
      exact hitems

theorem isReadable_map {entries : List (Scalar × Value)}
    (h : ∀ entry ∈ entries, IsReadable entry.2) : IsReadable (.map entries) := by
  intro level fuel rest hrest hfuel
  cases entries with
  | nil =>
      have htext : (write compact level (.map [])).toList = ['\x7b', '\x7d'] := by
        simp [write, writeEntries, Layout.enclose]
      rw [htext] at hfuel ⊢
      obtain ⟨fuel, rfl⟩ := Nat.exists_eq_succ_of_ne_zero (Nat.ne_zero_of_lt hfuel)
      rfl
  | cons entry entries =>
      obtain ⟨key, value⟩ := entry
      obtain ⟨joined, hjoined⟩ : ∃ joined, joined = (Text.join ", "
        (writeEntries compact (level + 1) ((key, value) :: entries))).toList := ⟨_, rfl⟩
      have htext : (write compact level (.map ((key, value) :: entries))).toList =
          '\x7b' :: (joined ++ ['\x7d']) := by
        rw [write, hjoined, writeEntries, toList_enclose]
        rfl
      rw [htext, List.length_cons, List.length_append, List.length_singleton] at hfuel
      obtain ⟨fuel, rfl⟩ := Nat.exists_eq_succ_of_ne_zero (Nat.ne_zero_of_lt hfuel)
      have hless : joined.length < fuel := by omega
      obtain ⟨cs, hcons⟩ := exists_entry_eq_cons key (": " ++ write compact (level + 1) value)
      rw [← String.append_assoc] at hcons
      obtain ⟨cs', hcons'⟩ := exists_join_eq_cons hcons (writeEntries compact (level + 1) entries)
      have hentries : readEntries? fuel [] _ = some (_, rest) :=
        readEntries?_join (key, value) entries h [] (hjoined ▸ hless)
      rw [writeEntries, hcons', List.cons_append] at hentries
      rw [htext, hjoined, writeEntries, hcons', List.cons_append, List.cons_append,
        List.cons_append, List.append_assoc, read?, skipSpace_cons rfl]
      exact hentries

theorem isReadable (v : Value) : IsReadable v := by
  match v with
  | .scalar s =>
      intro level fuel rest hrest hfuel
      obtain ⟨c, cs, hcons, -⟩ := exists_write_eq_cons level (.scalar s)
      rw [hcons, List.length_cons] at hfuel
      exact read?_scalar s hrest (by omega)
  | .list items => exact isReadable_list fun item hmem => isReadable item
  | .map entries => exact isReadable_map fun entry hmem => isReadable entry.2
termination_by sizeOf v
decreasing_by
  · have := List.sizeOf_lt_of_mem hmem
    simp only [Value.list.sizeOf_spec]
    omega
  · have := List.sizeOf_lt_of_mem hmem
    obtain ⟨key, value⟩ := entry
    simp only [Value.map.sizeOf_spec, Prod.mk.sizeOf_spec] at this ⊢
    omega

theorem parse?_write (v : Value) : parse? (write compact 0 v) = some (readBack v) := by
  have hread := isReadable v 0 ((write compact 0 v).toList.length + 2) [] (by simp [EndsValue])
    (by omega)
  have hspace := skipSpace_write 0 v []
  rw [List.append_nil] at hread hspace
  rw [parse?]
  simp only [hspace, hread]
  rfl

theorem parse?_of_encode {v : Value} {text : String} (h : encode compact v = .ok text) :
    parse? text = some (readBack v) := by
  unfold encode at h
  split at h
  · cases h
  · cases h
    exact parse?_write v

/-! ### Values that come back unchanged -/

mutual

/-- Whether a value is made of what JSON has: its mappings have strings for keys, each of them once,
and there are no dates. -/
def isNative : Value → Bool
  | .scalar (.date _) | .scalar (.moment _) => false
  | .scalar _ => true
  | .list items => areNative items
  | .map entries => haveNative entries && decide (Table.keys entries).Nodup

def areNative : List Value → Bool
  | [] => true
  | item :: rest => isNative item && areNative rest

def haveNative : List (Scalar × Value) → Bool
  | [] => true
  | (.str _, value) :: rest => isNative value && haveNative rest
  | _ => false

end

mutual

theorem readBack_of_isNative (v : Value) (h : isNative v = true) : readBack v = v := by
  match v with
  | .scalar s => cases s <;> first | rfl | cases h
  | .list items => rw [readBack, readBackItems_of_areNative items h]
  | .map entries =>
      rw [isNative, Bool.and_eq_true, decide_eq_true_iff] at h
      rw [readBack, readBackEntries_of_haveNative entries h.1, Table.ofEntries_of_nodup h.2]

theorem readBackItems_of_areNative (items : List Value) (h : areNative items = true) :
    readBackItems items = items := by
  match items with
  | [] => rfl
  | item :: rest =>
      rw [areNative, Bool.and_eq_true] at h
      rw [readBackItems, readBack_of_isNative item h.1, readBackItems_of_areNative rest h.2]

theorem readBackEntries_of_haveNative (entries : List (Scalar × Value))
    (h : haveNative entries = true) : readBackEntries entries = entries := by
  match entries with
  | [] => rfl
  | (.str name, value) :: rest =>
      rw [haveNative, Bool.and_eq_true] at h
      rw [readBackEntries, readBack_of_isNative value h.1, readBackEntries_of_haveNative rest h.2]
      rfl

end

mutual

theorem badKey?_of_isNative (v : Value) (h : isNative v = true) : badKey? v = none := by
  match v with
  | .scalar s => rfl
  | .list items => exact badKeyIn?_of_areNative items h
  | .map entries =>
      rw [isNative, Bool.and_eq_true] at h
      exact badKeyOf?_of_haveNative entries h.1

theorem badKeyIn?_of_areNative (items : List Value) (h : areNative items = true) :
    badKeyIn? items = none := by
  match items with
  | [] => rfl
  | item :: rest =>
      rw [areNative, Bool.and_eq_true] at h
      rw [badKeyIn?, badKey?_of_isNative item h.1]
      exact badKeyIn?_of_areNative rest h.2

theorem badKeyOf?_of_haveNative (entries : List (Scalar × Value))
    (h : haveNative entries = true) : badKeyOf? entries = none := by
  match entries with
  | [] => rfl
  | (.str name, value) :: rest =>
      rw [haveNative, Bool.and_eq_true] at h
      rw [badKeyOf?, badKey?_of_isNative value h.1]
      exact badKeyOf?_of_haveNative rest h.2

end

/-- A native value has a text, and the text holds that very value. -/
theorem encode_of_isNative {v : Value} (h : isNative v = true) :
    ∃ text, encode compact v = .ok text ∧ parse? text = some v := by
  refine ⟨write compact 0 v, ?_, ?_⟩
  · rw [encode, badKey?_of_isNative v h]
  · rw [parse?_write, readBack_of_isNative v h]

end Workflow.Json
