/-
# Numerals with a sign

Digits after an optional sign, and with a fraction after them, are read as the number that they
denote. A plus sign makes no difference, and too many digits denote no integer.

## Main definitions

* `IsSign` — an optional sign
* `signed` — a number with its sign

## Main results

* `readInteger?_signed` — the integer that digits denote
* `readBinary?_signed` — the floating-point value that digits with a fraction denote
* `Decimal.isFinite_toBinary_eq_false_iff` — a decimal overflows, but is never undefined
-/

import RouteTemplate.Proofs.Number.Numeral

namespace RouteTemplate.Number

/-- A sign, or nothing. -/
def IsSign (cs : List Char) : Prop :=
  cs = [] ∨ cs = ['-'] ∨ cs = ['+']

/-- The number of digits in base ten, negative after a minus sign. -/
def signed (sign digits : List Char) : Int :=
  if sign = ['-'] then -(Nat.ofDigitChars 10 digits 0 : Int) else Nat.ofDigitChars 10 digits 0

/-- The fraction of a numeral: nothing, or a point and the digits of the fraction. -/
def pointChars (fraction : List Char) : List Char :=
  if fraction = [] then [] else '.' :: fraction

variable {sign digits whole fraction : List Char}

theorem IsSign.isPlain (h : IsSign sign) : IsPlain sign := by
  rcases h with rfl | rfl | rfl <;> simp [IsPlain]

/-- The sign is read where digits follow. -/
theorem IsSign.splitSign_append (h : IsSign sign) {first : Char} (hfirst : first.isDigit)
    (rest : List Char) :
    splitSign (sign ++ first :: rest) = (decide (sign = ['-']), first :: rest) := by
  have hother {c : Char} (hc : c.isDigit = false) : first ≠ c := by
    rintro rfl
    exact Bool.false_ne_true (hc.symm.trans hfirst)
  rcases h with rfl | rfl | rfl
  · exact @Number.splitSign_append false _ (by simpa using hother (by decide))
      (by simpa using hother (by decide))
  · rfl
  · rfl

/-- Digits after a sign are read as the integer that they denote, unless there are too many. -/
theorem readInteger?_signed (hsign : IsSign sign) (hdigits : ∀ c ∈ digits, c.isDigit)
    (hne : digits ≠ []) :
    readInteger? (sign ++ digits) =
      if digits.length ≤ mostIntegerDigits then some (signed sign digits) else none := by
  have hplain : IsPlain digits := isPlain_of_isDigit hdigits
  have hsplit : splitSign (sign ++ digits) = (decide (sign = ['-']), digits) := by
    obtain ⟨first, rest, rfl⟩ := List.exists_cons_of_ne_nil hne
    exact hsign.splitSign_append (hdigits first List.mem_cons_self) rest
  have hempty : digits.isEmpty = false := List.isEmpty_eq_false_iff.mpr hne
  have hall : digits.all Char.isDigit = true := List.all_eq_true.mpr hdigits
  rw [readInteger?, numeralChars_eq (hsign.isPlain.append hplain), hsplit]
  simp only [dropUnderscores_eq hplain, hempty, hall, Option.bind_eq_bind, Option.bind_some,
    Bool.not_true, Bool.or_self, Bool.false_or, decide_eq_true_eq]
  rw [signed, ← ofDigits_eq_ofDigitChars]
  by_cases hlong : mostIntegerDigits < digits.length
  · rw [if_pos hlong, if_neg (Nat.not_le.mpr hlong)]
  · rw [if_neg hlong, if_pos (Nat.not_lt.mp hlong)]
    split <;> rfl

/-- A plus sign before a numeral makes no difference. -/
theorem readBinary?_plus {first : Char} {rest : List Char} (hfirst : first.isDigit)
    (hplain : IsPlain (first :: rest)) :
    readBinary? ('+' :: first :: rest) = readBinary? (first :: rest) := by
  have hplus : IsPlain ('+' :: first :: rest) := (IsSign.isPlain (.inr (.inr rfl))).append hplain
  have hsplit : splitSign (first :: rest) = (false, first :: rest) :=
    IsSign.splitSign_append (.inl rfl) hfirst rest
  rw [readBinary?, readBinary?, numeralChars_eq hplus, numeralChars_eq hplain,
    dropUnderscores_eq hplus, dropUnderscores_eq hplain]
  dsimp only [Option.bind_eq_bind, Option.bind_some]
  rw [hsplit, splitSign]

theorem readDecimal?_pointChars (hwhole : ∀ c ∈ whole, c.isDigit) (hne : whole ≠ [])
    (hfraction : ∀ c ∈ fraction, c.isDigit) :
    readDecimal? (whole ++ pointChars fraction) =
      some ⟨Nat.ofDigitChars 10 (whole ++ fraction) 0, -(fraction.length : Int)⟩ := by
  rw [← ofDigits_eq_ofDigitChars, pointChars]
  split
  · rename_i hempty
    rw [hempty, readDecimal?_append hwhole hne (by simp) rfl, List.append_nil]
    rfl
  · have hpoint : readDecimal? (whole ++ '.' :: (fraction ++ [])) = _ :=
      readDecimal?_point hwhole hne hfraction (by simp) rfl
    rwa [List.append_nil, Int.zero_sub] at hpoint

/-- Digits after a sign, with a fraction or without, are read as the floating-point value of the
decimal that they denote. -/
theorem readBinary?_signed (hsign : IsSign sign) (hwhole : ∀ c ∈ whole, c.isDigit)
    (hne : whole ≠ []) (hfraction : ∀ c ∈ fraction, c.isDigit) :
    readBinary? (sign ++ (whole ++ pointChars fraction)) =
      some (Decimal.toBinary (sign = ['-'])
        ⟨Nat.ofDigitChars 10 (whole ++ fraction) 0, -(fraction.length : Int)⟩) := by
  have hdecimal := readDecimal?_pointChars hwhole hne hfraction
  have hplain : IsPlain (whole ++ pointChars fraction) := by
    refine (isPlain_of_isDigit hwhole).append ?_
    rw [pointChars]
    split
    · exact isPlain_nil
    · exact List.forall_mem_cons.mpr ⟨.inr (by decide), isPlain_of_isDigit hfraction⟩
  obtain ⟨first, rest, rfl⟩ := List.exists_cons_of_ne_nil hne
  have hfirst := hwhole first List.mem_cons_self
  rw [List.cons_append] at hdecimal hplain ⊢
  have hread (negative : Bool) := @readBinary?_of_decimal negative _ _ _ hfirst hplain hdecimal
  rcases hsign with rfl | rfl | rfl
  · exact hread false
  · exact hread true
  · exact (readBinary?_plus hfirst hplain).trans (hread false)

/-! ## Overflow -/

theorem Binary64.isNan_nearest (negative : Bool) (n d : Nat) :
    (Binary64.nearest negative n d).isNan = false := by
  rw [Binary64.nearest]
  split
  · rfl
  · dsimp only
    split <;> split <;> rfl

theorem Decimal.isNan_toBinary (negative : Bool) (d : Decimal) :
    (d.toBinary negative).isNan = false := by
  rw [Decimal.toBinary]
  split
  · rfl
  · split
    · rfl
    · split
      · rfl
      · exact Binary64.isNan_nearest _ _ _

/-- The value of a decimal is not finite only when it is infinite. -/
theorem Decimal.isFinite_toBinary_eq_false_iff {negative : Bool} {d : Decimal} :
    (d.toBinary negative).isFinite = false ↔ ∃ sign, d.toBinary negative = .infinite sign := by
  have hnan := d.isNan_toBinary negative
  cases hx : d.toBinary negative with
  | nan origin => exact absurd (hx ▸ hnan) (by simp [Binary64.isNan])
  | _ => simp [Binary64.isFinite]

end RouteTemplate.Number
