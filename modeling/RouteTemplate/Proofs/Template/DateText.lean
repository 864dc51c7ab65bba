/-
# The dates of a path

The text that a reference of the type date takes is a date of the grammar, with nothing in it that
is percent-encoded. Its words are short, so no number in it is too large for the calendar: reading
it may find that there is no such day, but it does not fail.

## Main definitions

* `HasLength` — every text of a language has so many characters
* `HasShortParts` — blanks part every text of a language into short words

## Main results

* `exists_read_of_mem_dateLanguage` — reading a date of the grammar does not fail
* `percentDecode?_of_mem_dateLanguage` — a date of the grammar stands for itself
-/

import RouteTemplate.Proofs.Calendar.MailDate
import RouteTemplate.Proofs.Template.Characters
import RouteTemplate.Proofs.Text.PercentEncoding

namespace RouteTemplate.Template

open Calendar.MailDate (splitWhere splitWhere_append_cons sublist_of_mem_splitWhere)

variable {sensitive : Bool}

/-! ## Lengths -/

/-- Every text of the language has so many characters. -/
def HasLength (n : Nat) (L : Language Char) : Prop :=
  ∀ u ∈ L, u.length = n

theorem HasLength.mul {m n : Nat} {L M : Language Char} (hL : HasLength m L) (hM : HasLength n M) :
    HasLength (m + n) (L * M) := by
  intro t ht
  obtain ⟨u, hu, v, hv, rfl⟩ := Language.mem_mul.mp ht
  rw [List.length_append, hL u hu, hM v hv]

theorem hasLength_word (w : List Char) : HasLength w.length (word sensitive w) :=
  fun _ hu => (List.Forall₂.length_eq hu).symm

theorem hasLength_letter (c : Char) : HasLength 1 (letter sensitive c) := by
  rintro _ ⟨d, -, rfl⟩
  rfl

theorem hasLength_oneOf {words : List String} {n : Nat} (h : ∀ w ∈ words, w.toList.length = n) :
    HasLength n (oneOf sensitive words) := by
  rintro u ⟨w, hw, hu⟩
  exact (hasLength_word w.toList u hu).trans (h w hw)

theorem hasLength_digitsOf (count : Nat) : HasLength count (digitsOf count) :=
  fun _ hu => hu.1

theorem hasLength_twoDigitsBelow (bound : Nat) : HasLength 2 (twoDigitsBelow bound) := by
  rintro _ ⟨a, b, -, -, -, rfl⟩
  rfl

/-! ## Words -/

/-- What stands between the blanks of every text of the language has at most nine characters. -/
def HasShortParts (L : Language Char) : Prop :=
  ∀ u ∈ L, ∀ part ∈ splitWhere Text.isBlank u, part.length ≤ 9

theorem HasLength.hasShortParts {n : Nat} {L : Language Char} (h : HasLength n L) (hn : n ≤ 9) :
    HasShortParts L := by
  intro u hu part hpart
  have hlength := (sublist_of_mem_splitWhere hpart).length_le
  rw [h u hu] at hlength
  exact Nat.le_trans hlength hn

theorem HasShortParts.mul_blank {L M : Language Char} (hL : HasShortParts L)
    (hM : HasShortParts M) : HasShortParts (L * (letter sensitive ' ' * M)) := by
  intro t ht
  obtain ⟨u, hu, _, hblank, rfl⟩ := Language.mem_mul.mp ht
  obtain ⟨_, ⟨d, hd, rfl⟩, v, hv, rfl⟩ := Language.mem_mul.mp hblank
  obtain rfl := hd.symm.eq_of_uncased (by decide)
  rw [List.singleton_append, splitWhere_append_cons (by decide)]
  exact List.forall_mem_append.mpr ⟨hL u hu, hM v hv⟩

/-- Blanks part a date into its day, the numbers and names of the calendar, and the time. -/
theorem hasShortParts_dateLanguage : HasShortParts (dateLanguage sensitive) := by
  have hdays : HasLength 3 (oneOf sensitive dayNames) := hasLength_oneOf (by decide)
  have hmonths : HasLength 3 (oneOf sensitive monthNames) := hasLength_oneOf (by decide)
  have hcolon := @hasLength_letter sensitive ':'
  have htime := (hasLength_twoDigitsBelow 24).mul (hcolon.mul ((hasLength_twoDigitsBelow 60).mul
    (hcolon.mul (hasLength_twoDigitsBelow 60))))
  have hzone := @hasLength_word sensitive ['G', 'M', 'T']
  have hdate : dateLanguage sensitive =
      oneOf sensitive dayNames * letter sensitive ',' * (letter sensitive ' ' *
        (digitsOf 2 * (letter sensitive ' ' *
        (oneOf sensitive monthNames * (letter sensitive ' ' *
        (digitsOf 4 * (letter sensitive ' ' *
        (twoDigitsBelow 24 * (letter sensitive ':' * (twoDigitsBelow 60 *
          (letter sensitive ':' * twoDigitsBelow 60))) * (letter sensitive ' ' *
        word sensitive ['G', 'M', 'T']))))))))) := by
    simp only [dateLanguage, List.prod_cons, List.prod_nil, word_cons, word_nil, mul_one, mul_assoc]
  rw [hdate]
  refine HasShortParts.mul_blank ((hdays.mul (hasLength_letter ',')).hasShortParts (by decide)) ?_
  refine HasShortParts.mul_blank ((hasLength_digitsOf 2).hasShortParts (by decide)) ?_
  refine HasShortParts.mul_blank (hmonths.hasShortParts (by decide)) ?_
  refine HasShortParts.mul_blank ((hasLength_digitsOf 4).hasShortParts (by decide)) ?_
  exact HasShortParts.mul_blank (htime.hasShortParts (by decide)) (hzone.hasShortParts (by decide))

/-! ## Dates -/

section Dates

variable {text : List Char}

theorem toNat_lt_of_mem_dateLanguage (h : text ∈ dateLanguage sensitive) :
    ∀ c ∈ text, c.toNat < 0x80 := by
  have hascii : AllChars (·.toNat < 0x80) (dateLanguage sensitive) := by
    refine allChars_dateLanguage ?_ ?_
    · intro d hd
      exact Nat.lt_of_le_of_lt (isDigit_iff.mp hd).2 (by decide)
    · intro c hc d hsame
      have hletters : dateLetters.all (·.toNat < 0x80) = true := by decide
      exact hsame.toNat_lt (of_decide_eq_true (List.all_eq_true.mp hletters c hc))
  exact hascii text h

theorem nil_notMem_dateLanguage : [] ∉ dateLanguage sensitive := by
  rw [dateLanguage, List.prod_cons]
  intro h
  obtain ⟨u, ⟨w, hw, hu⟩, v, -, hnil⟩ := Language.mem_mul.mp h
  obtain ⟨rfl, -⟩ := List.append_eq_nil_iff.mp hnil
  have hnames : ∀ w ∈ dayNames, w.toList ≠ [] := by decide
  exact hnames w hw (List.forall₂_nil_right_iff.mp hu)

/-- Reading a date of the grammar does not fail, though there may be no such day. -/
theorem exists_read_of_mem_dateLanguage (h : text ∈ dateLanguage sensitive) :
    ∃ date, Calendar.MailDate.read text = .ok date :=
  Calendar.MailDate.exists_read_eq_ok (toNat_lt_of_mem_dateLanguage h)
    (hasShortParts_dateLanguage text h)

/-- Nothing in a date of the grammar is percent-encoded. -/
theorem percentDecode?_of_mem_dateLanguage (h : text ∈ dateLanguage sensitive) :
    Text.percentDecode? (String.ofList text) = some (String.ofList text) := by
  have hencodes : Text.Encodes text text :=
    .refl (notMem_of_mem_dateLanguage (by decide) (by decide) (by decide) h)
      (notMem_of_mem_dateLanguage (by decide) (by decide) (by decide) h)
  refine Text.Encodes.percentDecode?_eq ?_
  rwa [String.toList_ofList]

end Dates

end RouteTemplate.Template
