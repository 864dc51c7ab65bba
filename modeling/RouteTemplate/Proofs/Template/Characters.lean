/-
# The characters of the texts that a reference may take

Most of these texts have no slash: it separates segments, and neither numerals nor dates have one.
What the characters of a language have in common is preserved by the operations that the grammar is
made of.

## Main definitions

* `AllChars` — every character of every text of a language has a property

## Main results

* `notMem_of_mem_captureLanguage` — which characters stand in no numeral, truth value or date
* `slash_notMem_of_mem_captureLanguage` — which references take no slash
* `nil_notMem_captureLanguage` — no reference takes the empty text, unless it has an enumeration
* `allChars_dateLanguage`, `notMem_of_mem_dateLanguage` — which characters stand in dates
* `eq_of_mem_word`, `map_toLower_of_mem_word` — what two texts have in common that are the same up
  to case
-/

import RouteTemplate.Proofs.Template.Language

namespace RouteTemplate.Template

open RouteTemplate.Regex (CaseMode)

/-- Every character of every text of the language has the property. -/
def AllChars (P : Char → Prop) (L : Language Char) : Prop :=
  ∀ u ∈ L, ∀ d ∈ u, P d

/-! ## The operations of the grammar -/

section Operations

variable {P : Char → Prop} {L M : Language Char} {sensitive : Bool}

theorem allChars_one : AllChars P 1 := by
  intro u hu d hd
  obtain rfl := Language.mem_one u |>.mp hu
  exact absurd hd List.not_mem_nil

theorem AllChars.mul (hL : AllChars P L) (hM : AllChars P M) : AllChars P (L * M) := by
  intro u hu d hd
  obtain ⟨v, hv, w, hw, rfl⟩ := Language.mem_mul.mp hu
  rcases List.mem_append.mp hd with hd | hd
  · exact hL v hv d hd
  · exact hM w hw d hd

theorem AllChars.add (hL : AllChars P L) (hM : AllChars P M) : AllChars P (L + M) := by
  rintro u (hu | hu)
  · exact hL u hu
  · exact hM u hu

theorem allChars_prod {Ls : List (Language Char)} (h : ∀ L ∈ Ls, AllChars P L) :
    AllChars P Ls.prod := by
  induction Ls with
  | nil => exact allChars_one
  | cons L Ls ih =>
    obtain ⟨hL, hLs⟩ := List.forall_mem_cons.mp h
    exact hL.mul (ih hLs)

theorem allChars_word {w : List Char} (hw : ∀ c ∈ w, ∀ d, SameLetter sensitive c d → P d) :
    AllChars P (word sensitive w) := by
  intro u hu d hd
  obtain ⟨c, hc, hsame⟩ := exists_of_mem_word hu hd
  exact hw c hc d hsame

theorem allChars_oneOf {words : List String}
    (hwords : ∀ w ∈ words, ∀ c ∈ w.toList, ∀ d, SameLetter sensitive c d → P d) :
    AllChars P (oneOf sensitive words) := by
  rintro u ⟨w, hw, hu⟩
  exact allChars_word (hwords w hw) u hu

theorem allChars_twoDigitsBelow (hdigit : ∀ d : Char, d.isDigit → P d) (bound : Nat) :
    AllChars P (twoDigitsBelow bound) := by
  rintro u ⟨a, b, ha, hb, -, rfl⟩ d hd
  rcases List.mem_pair.mp hd with rfl | rfl
  · exact hdigit d ha
  · exact hdigit d hb

/-- The letters of a date, apart from its digits. -/
def dateLetters : List Char :=
  (dayNames ++ monthNames).flatMap String.toList ++ [',', ' ', ':', 'G', 'M', 'T']

/-- What digits and the letters of dates have in common, the characters of every date have. -/
theorem allChars_dateLanguage (hdigit : ∀ d : Char, d.isDigit → P d)
    (hletter : ∀ c ∈ dateLetters, ∀ d, SameLetter sensitive c d → P d) :
    AllChars P (dateLanguage sensitive) := by
  have hfixed {w : List Char} (hw : w ⊆ dateLetters) : AllChars P (word sensitive w) :=
    allChars_word fun c hc => hletter c (hw hc)
  have hnames {words : List String} (hwords : words ⊆ dayNames ++ monthNames) :
      AllChars P (oneOf sensitive words) := by
    refine allChars_oneOf fun w hw c hc => hletter c ?_
    exact List.mem_append_left _ (List.mem_flatMap.mpr ⟨w, hwords hw, hc⟩)
  have hcount (count : Nat) : AllChars P (digitsOf count) :=
    fun u hu d hd => hdigit d (hu.2 d hd)
  have hbelow := allChars_twoDigitsBelow hdigit
  refine allChars_prod ?_
  simp only [List.forall_mem_cons]
  exact ⟨hnames (List.subset_append_left _ _), hfixed (by decide), hcount 2, hfixed (by decide),
    hnames (List.subset_append_right _ _), hfixed (by decide), hcount 4, hfixed (by decide),
    hbelow 24, hfixed (by decide), hbelow 60, hfixed (by decide), hbelow 60, hfixed (by decide),
    List.forall_mem_nil _⟩

/-- A character without case that is neither a digit nor a letter of dates stands in no date. -/
theorem notMem_of_mem_dateLanguage {c : Char} (hdigit : c.isDigit = false)
    (huncased : CaseMode.isCased .ascii c.toNat = false) (hletter : c ∉ dateLetters)
    {text : List Char} (h : text ∈ dateLanguage sensitive) : c ∉ text := by
  have hother : AllChars (· ≠ c) (dateLanguage sensitive) := by
    refine allChars_dateLanguage ?_ ?_
    · rintro d hd rfl
      exact Bool.false_ne_true (hdigit.symm.trans hd)
    · rintro d hd c hsame rfl
      exact hletter (hsame.eq_of_uncased huncased ▸ hd)
  exact fun hmem => hother text h c hmem rfl

end Operations

/-! ## References -/

section References

variable {sensitive : Bool} {definition : Definition Value} {expand : Bool} {lead : Option Char}

/-- The characters of the texts of a type other than string, digits apart. -/
def typedLetters : List Char :=
  ['-', '+', '.'] ++ ["true", "false"].flatMap String.toList ++ dateLetters

/-- A character without case that is neither a digit nor among those letters stands in no text of a
type other than string. -/
theorem notMem_of_mem_captureLanguage {c : Char} (hdigit : c.isDigit = false)
    (huncased : CaseMode.isCased .ascii c.toNat = false) (hletter : c ∉ typedLetters)
    (henum : definition.constraints.enum = none) (htype : definition.type ≠ .string)
    {text : List Char} (htext : text ∈ captureLanguage sensitive definition expand lead) :
    c ∉ text := by
  simp only [typedLetters, List.mem_append, not_or] at hletter
  obtain ⟨⟨hmarks, htruth⟩, hdate⟩ := hletter
  have hdigits : AllChars (· ≠ c) digits := by
    rintro u hu d hd rfl
    exact Bool.false_ne_true (hdigit.symm.trans (hu.2 d hd))
  have hnumeral : AllChars (· ≠ c) (sign * digits) := by
    refine AllChars.mul ?_ hdigits
    rintro u (rfl | rfl | rfl) d hd rfl
    · exact absurd hd List.not_mem_nil
    · exact hmarks (by simpa using Or.inl (List.mem_singleton.mp hd))
    · exact hmarks (by simpa using Or.inr (Or.inl (List.mem_singleton.mp hd)))
  have hnone {L : Language Char} (hL : AllChars (· ≠ c) L) (hmem : text ∈ L) : c ∉ text :=
    fun h => hL text hmem c h rfl
  simp only [captureLanguage, declaredLanguage, henum] at htext
  cases hkind : definition.type with
  | string => exact absurd hkind htype
  | number =>
    rw [hkind] at htext
    have hpoint : AllChars (· ≠ c) (word sensitive ['.']) := by
      refine allChars_word ?_
      rintro d hd _ hsame rfl
      obtain rfl := List.mem_singleton.mp hd
      exact hmarks (hsame.eq_of_uncased huncased ▸ by simp)
    exact hnone (hnumeral.mul (allChars_one.add (hpoint.mul hdigits))) htext
  | integer =>
    rw [hkind] at htext
    exact hnone hnumeral htext
  | boolean =>
    rw [hkind] at htext
    refine hnone (allChars_oneOf ?_) htext
    rintro w hw d hd _ hsame rfl
    exact htruth (List.mem_flatMap.mpr ⟨w, hw, hsame.eq_of_uncased huncased ▸ hd⟩)
  | date =>
    rw [hkind] at htext
    exact notMem_of_mem_dateLanguage hdigit huncased hdate htext

/-- Without an enumeration, only a string may have a slash in its text: one that may span segments,
or one that comes after a point. -/
theorem slash_notMem_of_mem_captureLanguage
    (hlead : lead = none ∨ lead = some '/' ∨ lead = some '.')
    (henum : definition.constraints.enum = none)
    (htype : definition.type = .string → expand = false ∧ lead ≠ some '.') {text : List Char}
    (htext : text ∈ captureLanguage sensitive definition expand lead) : '/' ∉ text := by
  by_cases hkind : definition.type = .string
  · obtain ⟨rfl, hpoint⟩ := htype hkind
    simp only [captureLanguage, declaredLanguage, henum, hkind] at htext
    have hseparator : lead.getD '/' = '/' := by
      rcases hlead with rfl | rfl | rfl
      · rfl
      · rfl
      · exact absurd rfl hpoint
    intro h
    exact htext.2 '/' h hseparator.symm
  · exact notMem_of_mem_captureLanguage (by decide) (by decide) (by decide) henum hkind htext

/-- Without an enumeration, every text of a reference has some character. -/
theorem nil_notMem_captureLanguage (henum : definition.constraints.enum = none) :
    [] ∉ captureLanguage sensitive definition expand lead := by
  have hmul {L M : Language Char} (h : [] ∈ L * M) : [] ∈ L ∧ [] ∈ M := by
    obtain ⟨u, hu, v, hv, hnil⟩ := Language.mem_mul.mp h
    obtain ⟨rfl, rfl⟩ := List.append_eq_nil_iff.mp hnil
    exact ⟨hu, hv⟩
  have hwords {words : List String} (hwords : ∀ w ∈ words, w.toList ≠ []) :
      [] ∉ oneOf sensitive words := by
    rintro ⟨w, hw, hnil⟩
    exact hwords w hw (List.forall₂_nil_right_iff.mp hnil)
  have hdigits : [] ∉ digits := fun h => h.1 rfl
  intro h
  simp only [captureLanguage, declaredLanguage, henum] at h
  cases hkind : definition.type with
  | string =>
    rw [hkind] at h
    exact h.1 rfl
  | number =>
    rw [hkind] at h
    exact hdigits (hmul (hmul h).1).2
  | integer =>
    rw [hkind] at h
    exact hdigits (hmul h).2
  | boolean =>
    rw [hkind] at h
    exact hwords (by decide) h
  | date =>
    rw [hkind] at h
    exact hwords (by decide) (hmul h).1

end References

/-! ## Words -/

section Words

variable {sensitive : Bool} {w u : List Char}

theorem mem_word_self (w : List Char) : w ∈ word sensitive w :=
  List.forall₂_same.mpr fun _ _ => .inl rfl

/-- What is the same as a text that is the same as a word is the same as the word. -/
theorem mem_word_trans {v : List Char} (hu : u ∈ word sensitive w)
    (hv : v ∈ word sensitive u) : v ∈ word sensitive w := by
  induction hu generalizing v with
  | nil => exact hv
  | cons hsame _ ih =>
    obtain ⟨_, _, hsame', hrest, rfl⟩ := List.forall₂_cons_left_iff.mp hv
    exact .cons (hsame.trans hsame') (ih hrest)

theorem mem_word_true : u ∈ word true w ↔ u = w := by
  have hsame : SameLetter true = Eq := by
    funext c d
    simp [SameLetter]
  change List.Forall₂ (SameLetter true) w u ↔ u = w
  rw [hsame, List.forall₂_eq_eq_eq, eq_comm]

/-- What has a percent sign up to case has a percent sign. -/
theorem percent_notMem_of_mem_word (hu : u ∈ word sensitive w) (hw : '%' ∉ w) : '%' ∉ u := by
  intro hpercent
  obtain ⟨c, hc, hsame⟩ := exists_of_mem_word hu hpercent
  obtain rfl := hsame.eq_of_uncased (by decide)
  exact hw hc

/-- What ends with a slash up to case ends with a slash. -/
theorem getLast?_of_mem_word (hu : u ∈ word sensitive w) (hw : w.getLast? ≠ some '/') :
    u.getLast? ≠ some '/' := by
  induction hu with
  | nil => simp
  | @cons c d w u hsame hu ih =>
    cases hu with
    | nil =>
      intro hd
      obtain rfl : d = '/' := by simpa using hd
      obtain rfl := sameLetter_slash hsame
      exact hw rfl
    | cons hsame' hu =>
      rw [List.getLast?_cons_cons] at hw ⊢
      exact ih hw

/-- A text in which no letter has another case is the same up to case. -/
theorem eq_of_mem_word (hu : u ∈ word sensitive w)
    (hw : ∀ c ∈ w, Regex.CaseMode.isCased .ascii c.toNat = false) : u = w := by
  induction hu with
  | nil => rfl
  | @cons c d w u hsame hu ih =>
    rw [ih fun c' hc' => hw c' (List.mem_cons_of_mem c hc'),
      hsame.symm.eq_of_uncased (hw c List.mem_cons_self)]

theorem map_toLower_of_mem_word (hu : u ∈ word sensitive w) :
    u.map Char.toLower = w.map Char.toLower := by
  induction hu with
  | nil => rfl
  | cons hsame _ ih =>
    rw [List.map_cons, List.map_cons, ih]
    rcases hsame with rfl | ⟨-, hsame⟩
    · rfl
    · rw [hsame]

end Words

/-- A digit has no other case. -/
theorem isCased_of_isDigit {c : Char} (h : c.isDigit) :
    Regex.CaseMode.isCased .ascii c.toNat = false := by
  obtain ⟨hmin, hmax⟩ := isDigit_iff.mp h
  have hmin : 48 ≤ c.toNat := hmin
  have hmax : c.toNat ≤ 57 := hmax
  simp only [Regex.CaseMode.isCased, Text.asciiLowerPoint, Text.asciiUpperPoint,
    Bool.or_eq_false_iff, bne_eq_false_iff_eq]
  constructor
  · rw [if_neg]
    simp only [Bool.and_eq_true, decide_eq_true_eq]
    omega
  · rw [if_neg]
    simp only [Bool.and_eq_true, decide_eq_true_eq]
    omega

end RouteTemplate.Template
