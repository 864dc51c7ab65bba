/-
# The texts that a reference may take

The language of a reference is given by the definition of its parameter alone: the members of the
enumeration, the numerals, the dates, or any text without the separator. The expression that is
compiled for the reference spells exactly this language.

## Main definitions

* `SameLetter` — equality of characters, up to the case of ASCII letters unless case counts
* `declaredLanguage` — the texts that a definition admits
* `captureLanguage` — the same, where an enumeration without members admits the empty text

## Main results

* `spells_captureRegex` — the expression for a reference spells the language of its definition
-/

import RouteTemplate.Proofs.Regex.Spelling
import RouteTemplate.Template.Capture

namespace RouteTemplate.Template

open RouteTemplate.Regex (CaseMode CharClass ClassItem Spells)

/-- The same character, up to the case of ASCII letters unless case counts. -/
def SameLetter (sensitive : Bool) (c d : Char) : Prop :=
  c = d ∨ (sensitive = false ∧ c.toLower = d.toLower)

instance (sensitive : Bool) : DecidableRel (SameLetter sensitive) :=
  fun c d => inferInstanceAs (Decidable (c = d ∨ (sensitive = false ∧ c.toLower = d.toLower)))

/-- The character, up to case. -/
def letter (sensitive : Bool) (c : Char) : Language Char :=
  {u | ∃ d, SameLetter sensitive c d ∧ u = [d]}

/-- The text, up to case. -/
def word (sensitive : Bool) (w : List Char) : Language Char :=
  {u | List.Forall₂ (SameLetter sensitive) w u}

/-- One of the texts, up to case. -/
def oneOf (sensitive : Bool) (words : List String) : Language Char :=
  {u | ∃ w ∈ words, u ∈ word sensitive w.toList}

/-- At least one decimal digit. -/
def digits : Language Char :=
  {u | u ≠ [] ∧ ∀ d ∈ u, d.isDigit}

/-- So many decimal digits. -/
def digitsOf (count : Nat) : Language Char :=
  {u | u.length = count ∧ ∀ d ∈ u, d.isDigit}

/-- An optional sign. -/
def sign : Language Char :=
  {u | u = [] ∨ u = ['-'] ∨ u = ['+']}

/-- Two digits for a number below the bound. -/
def twoDigitsBelow (bound : Nat) : Language Char :=
  {u | ∃ a b : Char, a.isDigit ∧ b.isDigit ∧
    10 * (a.toNat - '0'.toNat) + (b.toNat - '0'.toNat) < bound ∧ u = [a, b]}

/-- A date of the calendar with a time of day in universal time. -/
def dateLanguage (sensitive : Bool) : Language Char :=
  [oneOf sensitive dayNames, word sensitive [',', ' '], digitsOf 2, word sensitive [' '],
    oneOf sensitive monthNames, word sensitive [' '], digitsOf 4, word sensitive [' '],
    twoDigitsBelow 24, word sensitive [':'], twoDigitsBelow 60, word sensitive [':'],
    twoDigitsBelow 60, word sensitive [' ', 'G', 'M', 'T']].prod

/-- At least one character, none of them the excluded one. -/
def textWithout (excluded : Char) : Language Char :=
  {u | u ≠ [] ∧ ∀ c ∈ u, c ≠ excluded}

/-- The texts that a definition admits for a reference: the members of the enumeration if there is
one; otherwise the texts of the type, which for strings exclude the character before the reference,
or line feeds alone when the reference may span segments. -/
def declaredLanguage (sensitive : Bool) (definition : Definition Value) (expand : Bool)
    (lead : Option Char) : Language Char :=
  match definition.constraints.enum with
  | some members => oneOf sensitive (members.map Value.pathText)
  | none =>
    match definition.type with
    | .number => sign * digits * (1 + word sensitive ['.'] * digits)
    | .integer => sign * digits
    | .boolean => oneOf sensitive ["true", "false"]
    | .date => dateLanguage sensitive
    | .string => textWithout (if expand then '\n' else lead.getD '/')

/-- The texts that a reference takes. An enumeration without members leaves the empty text. -/
def captureLanguage (sensitive : Bool) (definition : Definition Value) (expand : Bool)
    (lead : Option Char) : Language Char :=
  match definition.constraints.enum with
  | some [] => 1
  | _ => declaredLanguage sensitive definition expand lead

/-! ## Letters -/

/-- The comparison of characters in a route. -/
def caseModeOf (sensitive : Bool) : CaseMode :=
  if sensitive then .exact else .ascii

/-- The lower case of a character is that of its code point. -/
theorem toNat_toLower (c : Char) : c.toLower.toNat = Text.asciiLowerPoint c.toNat := by
  have hrange : (c.val ≥ 'A'.val ∧ c.val ≤ 'Z'.val) ↔ (0x41 ≤ c.toNat ∧ c.toNat ≤ 0x5A) := by
    rw [ge_iff_le, UInt32.le_iff_toNat_le, UInt32.le_iff_toNat_le]
    rfl
  delta Char.toLower Text.asciiLowerPoint
  by_cases h : c.val ≥ 'A'.val ∧ c.val ≤ 'Z'.val
  · have hpoint := hrange.mp h
    rw [dif_pos h, if_pos (by simpa using hpoint)]
    change (c.val + ('a'.val - 'A'.val)).toNat = c.val.toNat + 0x20
    have hlast : c.val.toNat ≤ 0x5A := hpoint.2
    rw [UInt32.toNat_add]
    change (c.val.toNat + 0x20) % 2 ^ 32 = _
    omega
  · rw [dif_neg h, if_neg (by simpa using fun h1 => mt (fun h2 => hrange.mpr ⟨h1, h2⟩) h)]

private theorem sameLetter_ascii_iff {point : Nat} {d : Char} :
    Regex.sameLetter .ascii point d ↔
      point = d.toNat ∨ Text.asciiLowerPoint point = Text.asciiLowerPoint d.toNat := by
  -- Only the code points matter, and lower case adds a constant to some of them.
  generalize hn : d.toNat = n
  simp only [Regex.sameLetter, CaseMode.isCased, CaseMode.fold, CaseMode.kin, hn,
    Bool.or_eq_true, bne_iff_ne, List.contains_nil, Bool.or_false]
  simp only [Text.asciiLowerPoint, Text.asciiUpperPoint, Bool.and_eq_true, decide_eq_true_eq]
  repeat' split
  all_goals simp only [decide_eq_true_eq] at *
  all_goals omega

/-- A letter of a route is compared as the grammar says. -/
theorem sameLetter_iff {sensitive : Bool} {c d : Char} :
    Regex.sameLetter (caseModeOf sensitive) c.toNat d ↔ SameLetter sensitive c d := by
  rw [SameLetter, ← Char.toNat_inj, ← Char.toNat_inj, toNat_toLower, toNat_toLower]
  cases sensitive with
  | true => simp [caseModeOf, Regex.sameLetter, CaseMode.isCased, eq_comm]
  | false => simpa [caseModeOf] using sameLetter_ascii_iff

/-- A character that is no letter of ASCII has no other case. -/
theorem sameLetter_of_uncased {sensitive : Bool} {c d : Char}
    (h : CaseMode.isCased .ascii c.toNat = false) : SameLetter sensitive c d ↔ c = d := by
  rw [← sameLetter_iff, ← Char.toNat_inj]
  cases sensitive with
  | true => simp [caseModeOf, Regex.sameLetter, CaseMode.isCased, eq_comm]
  | false => simp [caseModeOf, Regex.sameLetter, h, eq_comm]

/-- Every letter of a text in a word is the same letter as one of the word. -/
theorem exists_of_mem_word {sensitive : Bool} {w v : List Char} (h : v ∈ word sensitive w)
    {d : Char} (hd : d ∈ v) : ∃ c ∈ w, SameLetter sensitive c d := by
  induction h with
  | nil => exact absurd hd List.not_mem_nil
  | @cons c d' w v hletter _ ih =>
    rcases List.mem_cons.mp hd with rfl | hd
    · exact ⟨c, List.mem_cons_self, hletter⟩
    · obtain ⟨c', hc', hsame⟩ := ih hd
      exact ⟨c', List.mem_cons_of_mem c hc', hsame⟩

theorem SameLetter.symm {sensitive : Bool} {c d : Char} (h : SameLetter sensitive c d) :
    SameLetter sensitive d c :=
  h.imp Eq.symm fun ⟨hsensitive, hlower⟩ => ⟨hsensitive, hlower.symm⟩

theorem SameLetter.refl {sensitive : Bool} (c : Char) : SameLetter sensitive c c :=
  .inl rfl

theorem SameLetter.trans {sensitive : Bool} {c d e : Char} (h : SameLetter sensitive c d)
    (h' : SameLetter sensitive d e) : SameLetter sensitive c e := by
  rcases h with rfl | ⟨hsensitive, hlower⟩
  · exact h'
  · rcases h' with rfl | ⟨-, hlower'⟩
    · exact .inr ⟨hsensitive, hlower⟩
    · exact .inr ⟨hsensitive, hlower.trans hlower'⟩

/-- Two characters that are the same letter are equal, or one is the capital letter of the other. -/
theorem SameLetter.eq_or_capital {sensitive : Bool} {c d : Char} (h : SameLetter sensitive c d) :
    c = d ∨ ((0x41 ≤ c.toNat ∧ c.toNat ≤ 0x5A) ∧ d.toNat = c.toNat + 0x20) ∨
      ((0x41 ≤ d.toNat ∧ d.toNat ≤ 0x5A) ∧ c.toNat = d.toNat + 0x20) := by
  rw [← Char.toNat_inj]
  rcases h with rfl | ⟨-, hlower⟩
  · exact .inl rfl
  · have hpoint := congrArg Char.toNat hlower
    simp only [toNat_toLower, Text.asciiLowerPoint, Bool.and_eq_true, decide_eq_true_eq] at hpoint
    split at hpoint <;> split at hpoint <;> omega

/-- Only the character itself is the same letter as one without another case. -/
theorem SameLetter.eq_of_uncased {sensitive : Bool} {c d : Char} (h : SameLetter sensitive c d)
    (hd : CaseMode.isCased .ascii d.toNat = false) : c = d :=
  ((sameLetter_of_uncased hd).mp h.symm).symm

/-- Only a slash is the same letter as a slash. -/
theorem sameLetter_slash {sensitive : Bool} {c : Char} (h : SameLetter sensitive c '/') : c = '/' :=
  h.eq_of_uncased (by decide)

/-- The same letter as one of ASCII is one of ASCII. -/
theorem SameLetter.toNat_lt {sensitive : Bool} {c d : Char} (h : SameLetter sensitive c d)
    (hc : c.toNat < 0x80) : d.toNat < 0x80 := by
  rcases h with rfl | ⟨-, hlower⟩
  · exact hc
  · have hpoint := congrArg Char.toNat hlower
    simp only [toNat_toLower, Text.asciiLowerPoint, Bool.and_eq_true, decide_eq_true_eq] at hpoint
    split at hpoint <;> split at hpoint <;> omega

/-- A decimal digit of ASCII, by its code point. -/
theorem isDigit_iff {c : Char} :
    c.isDigit ↔ '0'.toNat ≤ c.toNat ∧ c.toNat ≤ '9'.toNat := by
  rw [Char.isDigit, Bool.and_eq_true, decide_eq_true_eq, decide_eq_true_eq, ge_iff_le,
    UInt32.le_iff_toNat_le, UInt32.le_iff_toNat_le]
  rfl

variable {sensitive : Bool}

/-! ## Character classes -/

theorem holds_code_iff {c d : Char} :
    (CharClass.code (caseModeOf sensitive) false c.toNat).holds d ↔ SameLetter sensitive c d := by
  rw [CharClass.holds, Bool.bne_false]
  exact sameLetter_iff

theorem holds_digit_iff {d : Char} :
    (CharClass.set (caseModeOf sensitive) false [.property true false .digit]).holds d ↔
      d.isDigit := by
  simp [CharClass.holds, ClassItem.isCased, ClassItem.holds, Regex.Property.holds]

theorem holds_sign_iff {d : Char} :
    (CharClass.set (caseModeOf sensitive) false [.code '-'.toNat, .code '+'.toNat]).holds d ↔
      d = '-' ∨ d = '+' := by
  cases sensitive <;>
    simp [CharClass.holds, ClassItem.isCased, ClassItem.holds, caseModeOf, CaseMode.isCased,
      CaseMode.fold, CaseMode.kin, Text.asciiLowerPoint, Text.asciiUpperPoint,
      Regex.lastBasicPoint, ← Char.toNat_inj]

theorem holds_between_iff {first last d : Char} (hlast : last.toNat ≤ '9'.toNat) :
    (CharClass.set (caseModeOf sensitive) false [.range first.toNat last.toNat]).holds d ↔
      first.toNat ≤ d.toNat ∧ d.toNat ≤ last.toNat := by
  cases sensitive with
  | true =>
    simp [CharClass.holds, ClassItem.isCased, ClassItem.holds, caseModeOf, CaseMode.fold,
      Regex.rangeHolds, Regex.between]
  | false =>
    have hnine : '9'.toNat = 57 := rfl
    have hbasic : ¬ Regex.lastBasicPoint < last.toNat := by
      rw [Regex.lastBasicPoint]
      omega
    simp only [hbasic, decide_false, Bool.false_and, CharClass.holds, ClassItem.isCased,
      ClassItem.holds, caseModeOf, CaseMode.fold, Regex.rangeHolds, Regex.between, List.any_cons,
      List.any_nil, Bool.or_false, ↓reduceIte, Bool.false_eq_true, ← toNat_toLower,
      Char.ofNat_toNat, Bool.bne_false, Bool.or_eq_true, Bool.and_eq_true, decide_eq_true_eq]
    rw [toNat_toLower]
    simp only [Text.asciiLowerPoint, Text.asciiUpperPoint, Bool.and_eq_true, decide_eq_true_eq]
    repeat' split
    all_goals omega

/-! ## Letters, digits and words -/

variable (sensitive)

/-- A character of a route passes the same letter. -/
theorem spells_charRegex (c : Char) :
    (charRegex (caseModeOf sensitive) c).Spells (letter sensitive c) := by
  refine (Regex.spells_one _).congr fun u => ?_
  exact exists_congr fun d => and_congr_left fun _ => holds_code_iff

/-- A text is spelled letter by letter. -/
theorem word_cons (c : Char) (w : List Char) :
    word sensitive (c :: w) = letter sensitive c * word sensitive w := by
  ext u
  rw [Language.mem_mul]
  constructor
  · intro h
    obtain ⟨d, v, hd, hv, rfl⟩ := List.forall₂_cons_left_iff.mp h
    exact ⟨[d], ⟨d, hd, rfl⟩, v, hv, rfl⟩
  · rintro ⟨_, ⟨d, hd, rfl⟩, v, hv, rfl⟩
    exact List.Forall₂.cons hd hv

theorem word_nil : word sensitive [] = 1 := by
  ext u
  exact List.forall₂_nil_left_iff

theorem word_singleton (c : Char) : word sensitive [c] = letter sensitive c := by
  rw [word_cons sensitive, word_nil sensitive, mul_one]

private theorem forall₂_charRegexes (w : List Char) :
    List.Forall₂ Spells (charRegexes (caseModeOf sensitive) w) (w.map (letter sensitive)) := by
  induction w with
  | nil => exact .nil
  | cons c w ih => exact .cons (spells_charRegex sensitive c) ih

private theorem prod_letters (w : List Char) :
    (w.map (letter sensitive)).prod = word sensitive w := by
  induction w with
  | nil => exact (word_nil sensitive).symm
  | cons c w ih => rw [List.map_cons, List.prod_cons, ih, word_cons sensitive]

/-- A text of a route passes the same text. -/
theorem spells_textRegex (w : List Char) :
    (textRegex (caseModeOf sensitive) w).Spells (word sensitive w) := by
  rw [← prod_letters]
  exact Regex.spells_sequence (forall₂_charRegexes sensitive w)

private theorem sum_words (words : List String) :
    (words.map fun w => word sensitive w.toList).sum = oneOf sensitive words := by
  induction words with
  | nil =>
    ext u
    constructor
    · intro h
      exact absurd h (Language.notMem_zero u)
    · rintro ⟨w, hw, -⟩
      exact absurd hw List.not_mem_nil
  | cons w words ih =>
    rw [List.map_cons, List.sum_cons, ih]
    ext u
    rw [Language.mem_add]
    simp only [oneOf, List.mem_cons]
    constructor
    · rintro (h | ⟨v, hv, h⟩)
      · exact ⟨w, .inl rfl, h⟩
      · exact ⟨v, .inr hv, h⟩
    · rintro ⟨v, rfl | hv, h⟩
      · exact .inl h
      · exact .inr ⟨v, hv, h⟩

private theorem spells_wordsRegex (words : List String) (hne : words ≠ []) :
    (wordsRegex (caseModeOf sensitive) words).Spells (oneOf sensitive words) := by
  rw [← sum_words]
  refine Regex.spells_choice (by simpa using hne) ?_
  rw [List.forall₂_map_left_iff, List.forall₂_map_right_iff]
  exact List.forall₂_same.mpr fun w _ => spells_textRegex sensitive w.toList

/-- One decimal digit. -/
private def digit : Language Char :=
  {u | ∃ d : Char, d.isDigit ∧ u = [d]}

/-- One digit between two others. -/
private def digitFrom (first last : Char) : Language Char :=
  {u | ∃ d : Char, (first.toNat ≤ d.toNat ∧ d.toNat ≤ last.toNat) ∧ u = [d]}

private theorem spells_digitRegex : (digitRegex (caseModeOf sensitive)).Spells digit := by
  refine (Regex.spells_one _).congr fun u => ?_
  exact exists_congr fun d => and_congr_left fun _ => holds_digit_iff

private theorem spells_digitBetween (first last : Char) (hlast : last.toNat ≤ '9'.toNat) :
    (digitBetween (caseModeOf sensitive) first last).Spells (digitFrom first last) := by
  refine (Regex.spells_one _).congr fun u => ?_
  exact exists_congr fun d => and_congr_left fun _ => holds_between_iff hlast

private theorem spells_digitsRegex : (digitsRegex (caseModeOf sensitive)).Spells digits := by
  refine (Regex.spells_repetition_one (by simp) (by simp)).congr fun u => ?_
  constructor
  · rintro ⟨hdigits, hlength, -⟩
    exact ⟨List.ne_nil_of_length_pos hlength, fun d hd => holds_digit_iff.mp (hdigits d hd)⟩
  · rintro ⟨hne, hdigits⟩
    exact ⟨fun d hd => holds_digit_iff.mpr (hdigits d hd), List.length_pos_iff.mpr hne, by simp⟩

private theorem spells_digitsOfLength (count : Nat) :
    (digitsOfLength (caseModeOf sensitive) count).Spells (digitsOf count) := by
  refine (Regex.spells_repetition_one (by simp) (by simp)).congr fun u => ?_
  constructor
  · rintro ⟨hdigits, hleast, hmost⟩
    exact ⟨Nat.le_antisymm (hmost count rfl) hleast,
      fun d hd => holds_digit_iff.mp (hdigits d hd)⟩
  · rintro ⟨hlength, hdigits⟩
    refine ⟨fun d hd => holds_digit_iff.mpr (hdigits d hd), hlength.ge, ?_⟩
    rintro m hm
    obtain rfl := Option.some.inj hm
    exact hlength.le

private theorem spells_signRegex : (signRegex (caseModeOf sensitive)).Spells sign := by
  refine (Regex.spells_one _).optional.congr fun u => ?_
  rw [Language.mem_add, Language.mem_one]
  refine or_congr Iff.rfl ?_
  constructor
  · rintro ⟨d, hd, rfl⟩
    rcases holds_sign_iff.mp hd with rfl | rfl
    · exact .inl rfl
    · exact .inr rfl
  · rintro (rfl | rfl)
    · exact ⟨'-', holds_sign_iff.mpr (.inl rfl), rfl⟩
    · exact ⟨'+', holds_sign_iff.mpr (.inr rfl), rfl⟩

/-! ## Forms -/

private theorem spells_integerRegex :
    (integerRegex (caseModeOf sensitive)).Spells (sign * digits) :=
  (spells_signRegex sensitive).seq (spells_digitsRegex sensitive)

private theorem spells_numberRegex :
    (numberRegex (caseModeOf sensitive)).Spells
      (sign * digits * (1 + word sensitive ['.'] * digits)) := by
  rw [mul_assoc, word_singleton]
  have hfraction := ((spells_charRegex sensitive '.').seq (spells_digitsRegex sensitive)).optional
  exact (spells_signRegex sensitive).seq ((spells_digitsRegex sensitive).seq hfraction)

/-- Two digits of which the first is bounded denote a number below the next multiple of ten. -/
private theorem digitFrom_mul_digit {last : Char} (hpos : '0'.toNat ≤ last.toNat)
    (hlast : last.toNat ≤ '9'.toNat) :
    digitFrom '0' last * digit = twoDigitsBelow (10 * (last.toNat - '0'.toNat + 1)) := by
  have hzero : '0'.toNat = 48 := rfl
  have hnine : '9'.toNat = 57 := rfl
  ext u
  rw [Language.mem_mul]
  constructor
  · rintro ⟨_, ⟨a, ⟨ha, ha'⟩, rfl⟩, _, ⟨b, hb, rfl⟩, rfl⟩
    have hb' := isDigit_iff.mp hb
    refine ⟨a, b, isDigit_iff.mpr ⟨ha, Nat.le_trans ha' hlast⟩, hb, ?_, rfl⟩
    omega
  · rintro ⟨a, b, ha, hb, hlt, rfl⟩
    have ha' := isDigit_iff.mp ha
    refine ⟨[a], ⟨a, ⟨ha'.1, ?_⟩, rfl⟩, [b], ⟨b, hb, rfl⟩, rfl⟩
    omega

private theorem mem_letter_mul_digitFrom {first last : Char} {u : List Char} :
    u ∈ letter sensitive '2' * digitFrom first last ↔
      ∃ d : Char, (first.toNat ≤ d.toNat ∧ d.toNat ≤ last.toNat) ∧ u = ['2', d] := by
  rw [Language.mem_mul]
  constructor
  · rintro ⟨_, ⟨c, hc, rfl⟩, _, ⟨d, hd, rfl⟩, rfl⟩
    obtain rfl := (sameLetter_of_uncased (by decide)).mp hc
    exact ⟨d, hd, rfl⟩
  · rintro ⟨d, hd, rfl⟩
    exact ⟨['2'], ⟨'2', .inl rfl, rfl⟩, [d], ⟨d, hd, rfl⟩, rfl⟩

private theorem spells_hourRegex :
    (hourRegex (caseModeOf sensitive)).Spells (twoDigitsBelow 24) := by
  have hzero : '0'.toNat = 48 := rfl
  have hone : '1'.toNat = 49 := rfl
  have htwo : '2'.toNat = 50 := rfl
  have hthree : '3'.toNat = 51 := rfl
  have hnine : '9'.toNat = 57 := rfl
  have hearly := (spells_digitBetween sensitive '0' '1' (by decide)).seq
    (spells_digitRegex sensitive)
  have hlate := (spells_charRegex sensitive '2').seq
    (spells_digitBetween sensitive '0' '3' (by decide))
  rw [digitFrom_mul_digit (by decide) (by decide)] at hearly
  -- The hours up to nineteen and those from twenty on are spelled apart.
  refine (hearly.alt hlate).congr fun u => ?_
  rw [Language.mem_add, mem_letter_mul_digitFrom]
  constructor
  · rintro (⟨a, b, ha, hb, hlt, rfl⟩ | ⟨b, hb, rfl⟩)
    · exact ⟨a, b, ha, hb, by omega, rfl⟩
    · exact ⟨'2', b, by decide, isDigit_iff.mpr ⟨hb.1, by omega⟩, by omega, rfl⟩
  · rintro ⟨a, b, ha, hb, hlt, rfl⟩
    have ha' := isDigit_iff.mp ha
    have hb' := isDigit_iff.mp hb
    by_cases hearlier : a.toNat < '2'.toNat
    · exact .inl ⟨a, b, ha, hb, by omega, rfl⟩
    · have hsame : a = '2' := Char.toNat_inj.mp (by omega)
      exact .inr ⟨b, ⟨hb'.1, by omega⟩, by rw [hsame]⟩

private theorem spells_dateRegex :
    (dateRegex (caseModeOf sensitive)).Spells (dateLanguage sensitive) := by
  have hchar (c : Char) := spells_charRegex sensitive c
  have hdays := spells_wordsRegex sensitive dayNames (by decide)
  have hmonths := spells_wordsRegex sensitive monthNames (by decide)
  have htens := spells_digitBetween sensitive '0' '5' (by decide)
  have hdigit := spells_digitRegex sensitive
  have hcount (count : Nat) := spells_digitsOfLength sensitive count
  have hsixty : digitFrom '0' '5' * digit = twoDigitsBelow 60 :=
    digitFrom_mul_digit (by decide) (by decide)
  -- The parts in the order in which a date has them, letter by letter where it is fixed.
  have hparts : List.Forall₂ Spells _ _ :=
    .cons hdays <| .cons (hchar ',') <| .cons (hchar ' ') <| .cons (hcount 2) <|
    .cons (hchar ' ') <| .cons hmonths <| .cons (hchar ' ') <| .cons (hcount 4) <|
    .cons (hchar ' ') <| .cons (spells_hourRegex sensitive) <|
    .cons (hchar ':') <| .cons htens <| .cons hdigit <|
    .cons (hchar ':') <| .cons htens <| .cons hdigit <|
    .cons (hchar ' ') <| .cons (hchar 'G') <| .cons (hchar 'M') <| .cons (hchar 'T') .nil
  refine (Regex.spells_sequence hparts).congr fun u => ?_
  simp only [dateLanguage, List.prod_cons, List.prod_nil, word_cons, word_nil, ← hsixty, mul_assoc,
    mul_one]

private theorem spells_textWithout {cls : CharClass} {greed : Regex.Greed} {excluded : Char}
    (hgreed : greed ≠ .possessive) (hcls : ∀ c, cls.holds c ↔ c ≠ excluded) :
    (Regex.repetition greed 1 none (.one cls)).Spells (textWithout excluded) := by
  refine (Regex.spells_repetition_one hgreed (by simp)).congr fun u => ?_
  constructor
  · rintro ⟨hchars, hlength, -⟩
    exact ⟨List.ne_nil_of_length_pos hlength, fun c hc => (hcls c).mp (hchars c hc)⟩
  · rintro ⟨hne, hchars⟩
    exact ⟨fun c hc => (hcls c).mpr (hchars c hc), List.length_pos_iff.mpr hne, by simp⟩

private theorem spells_expandRegex : expandRegex.Spells (textWithout '\n') :=
  spells_textWithout (by simp) fun c => by simp [CharClass.holds]

private theorem spells_segmentRegex {separator : Char}
    (h : CaseMode.isCased .ascii separator.toNat = false) :
    (segmentRegex (caseModeOf sensitive) separator).Spells (textWithout separator) := by
  refine spells_textWithout (by simp) fun c => ?_
  have hsame : Regex.sameLetter (caseModeOf sensitive) separator.toNat c ↔ separator = c :=
    sameLetter_iff.trans (sameLetter_of_uncased h)
  rw [CharClass.holds, bne_iff_ne, Ne, hsame, ne_comm]

/-- The expression for a reference spells the language of its definition. -/
theorem spells_captureRegex (definition : Definition Value) (expand : Bool) {lead : Option Char}
    (hlead : lead = none ∨ lead = some '/' ∨ lead = some '.') :
    (captureRegex (caseModeOf sensitive) definition expand (lead.getD '/')).Spells
      (captureLanguage sensitive definition expand lead) := by
  simp only [captureRegex, captureLanguage, declaredLanguage]
  cases definition.constraints.enum with
  | some members =>
    cases members with
    -- A choice between no alternatives is the empty expression, which passes the empty text.
    | nil => exact Regex.spells_empty
    | cons v members => exact spells_wordsRegex sensitive _ (List.cons_ne_nil _ _)
  | none =>
    cases definition.type with
    | string =>
      cases expand with
      | true => exact spells_expandRegex
      | false =>
        -- Neither a slash nor a point has another case.
        refine spells_segmentRegex sensitive ?_
        rcases hlead with rfl | rfl | rfl <;> decide
    | number => exact spells_numberRegex sensitive
    | integer => exact spells_integerRegex sensitive
    | boolean => exact spells_wordsRegex sensitive _ (by simp)
    | date => exact spells_dateRegex sensitive

end RouteTemplate.Template
