/-
# Decimals as rational numbers

The floating-point value of a decimal depends on its rational number alone, so zeros at the end do
not count. The digits that are written for a value read back as the value: they were found by
reading them, or are all the digits that the value has.

## Main definitions

* `Decimal.toRat` — the rational number of a decimal
* `Binary64.withSign` — a value with another sign

## Main results

* `Decimal.leadingExponent_eq` — the leading digit is where the logarithm says
* `Decimal.toBinary_congr` — equal decimals have the same nearest value
* `Decimal.toBinary_natCast` — the value of an integer
* `Binary64.toBinary_shortest` — the fewest digits read back
-/

import RouteTemplate.Number.Decimal
import RouteTemplate.Proofs.Number.Nearest

namespace RouteTemplate.Number

/-! ## Signs -/

namespace Binary64

/-- A value with the given sign. -/
def withSign (negative : Bool) : Binary64 → Binary64
  | .finite _ significand exponent => .finite negative significand exponent
  | .infinite _ => .infinite negative
  | .nan origin => .nan origin

/-- The sign has no part in rounding. -/
theorem nearest_eq_withSign (negative : Bool) (n d : Nat) :
    nearest negative n d = (nearest false n d).withSign negative := by
  rw [nearest, nearest]
  by_cases hn : n = 0
  · rw [if_pos hn, if_pos hn]
    rfl
  · rw [if_neg hn, if_neg hn]
    dsimp only
    split <;> split <;> rfl

end Binary64

namespace Decimal

variable {d : Decimal}

theorem toBinary_eq_withSign (negative : Bool) (d : Decimal) :
    d.toBinary negative = (d.toBinary false).withSign negative := by
  rw [toBinary, toBinary]
  split
  · rfl
  · split
    · rfl
    · split
      · rfl
      · exact Binary64.nearest_eq_withSign negative _ _

/-! ## Rational numbers -/

/-- The rational number of a decimal. -/
def toRat (d : Decimal) : ℚ :=
  d.digits * 10 ^ d.exponent

theorem toFraction_snd_pos (d : Decimal) : 0 < d.toFraction.2 :=
  Nat.pow_pos (by decide)

/-- A decimal is the quotient of its fraction. -/
theorem toFraction_fst_div_snd (d : Decimal) :
    (d.toFraction.1 : ℚ) / d.toFraction.2 = d.toRat := by
  have hpower : (10 : ℚ) ^ d.exponent = 10 ^ d.exponent.toNat / 10 ^ (-d.exponent).toNat := by
    rw [← zpow_natCast, ← zpow_natCast, ← zpow_sub₀ (by norm_num), Int.toNat_sub_toNat_neg]
  rw [toRat, hpower, toFraction, Nat.pow_eq, Nat.pow_eq]
  push_cast
  rw [mul_div_assoc]

theorem toRat_eq_zero_iff : d.toRat = 0 ↔ d.digits = 0 := by
  rw [toRat, mul_eq_zero_iff_right (zpow_ne_zero _ (by norm_num)), Nat.cast_eq_zero]

/-- The number of digits says between which powers of ten a number lies. -/
theorem digitsOf_bounds {n : Nat} (hn : n ≠ 0) :
    10 ^ ((digitsOf n).length - 1) ≤ n ∧ n < 10 ^ (digitsOf n).length := by
  have hiff {k : Nat} (hk : 0 < k) : (digitsOf n).length ≤ k ↔ n < 10 ^ k :=
    Nat.length_toDigits_le_iff (by decide) hk
  have hpos : 0 < (digitsOf n).length := Nat.length_toDigits_pos
  refine ⟨?_, (hiff hpos).mp (Nat.le_refl _)⟩
  by_contra hlt
  by_cases hone : (digitsOf n).length = 1
  · rw [hone, Nat.sub_self, Nat.pow_zero] at hlt
    omega
  · have hshort := (hiff (by omega)).mpr (not_le.mp hlt)
    omega

/-- The leading digit stands at the power of ten that the logarithm of the number names. -/
theorem leadingExponent_eq (h : d.digits ≠ 0) : d.leadingExponent = Int.log 10 d.toRat := by
  obtain ⟨hmin, hmax⟩ := digitsOf_bounds h
  have hpos : 0 < (digitsOf d.digits).length := Nat.length_toDigits_pos
  have hten : (0 : ℚ) < 10 ^ d.exponent := zpow_pos (by norm_num) _
  have hsplit (k : Nat) : (10 : ℚ) ^ (k + d.exponent) = (10 ^ k : Nat) * 10 ^ d.exponent := by
    rw [zpow_add₀ (by norm_num), zpow_natCast]
    push_cast
    rfl
  symm
  rw [leadingExponent]
  refine log_eq_of_le_of_lt (by decide) ?_ ?_
  · have hexponent : d.exponent + (digitsOf d.digits).length - 1 =
        ((digitsOf d.digits).length - 1 : Nat) + d.exponent := by omega
    rw [hexponent, Nat.cast_ofNat, hsplit, toRat]
    have hmin : ((10 ^ ((digitsOf d.digits).length - 1) : Nat) : ℚ) ≤ d.digits := by
      exact_mod_cast hmin
    gcongr
  · rw [sub_add_cancel, add_comm, Nat.cast_ofNat, hsplit, toRat]
    have hmax : (d.digits : ℚ) < (10 ^ (digitsOf d.digits).length : Nat) := by
      exact_mod_cast hmax
    gcongr

/-- Equal decimals have the same value. -/
theorem toBinary_congr {d' : Decimal} (negative : Bool) (h : d.toRat = d'.toRat) :
    d.toBinary negative = d'.toBinary negative := by
  have hzero : d.digits = 0 ↔ d'.digits = 0 := by
    rw [← toRat_eq_zero_iff, h, toRat_eq_zero_iff]
  by_cases hd : d.digits = 0
  · rw [toBinary, toBinary, if_pos hd, if_pos (hzero.mp hd)]
  · have hd' : d'.digits ≠ 0 := mt hzero.mpr hd
    have hleading : d.leadingExponent = d'.leadingExponent := by
      rw [leadingExponent_eq hd, leadingExponent_eq hd', h]
    have hnearest : Binary64.nearest negative d.toFraction.1 d.toFraction.2 =
        .nearest negative d'.toFraction.1 d'.toFraction.2 := by
      refine Binary64.nearest_congr negative d.toFraction_snd_pos d'.toFraction_snd_pos ?_
      rw [toFraction_fst_div_snd, toFraction_fst_div_snd, h]
    rw [toBinary, toBinary, if_neg hd, if_neg hd', hleading]
    simp only [hnearest]

/-- Where the leading digit is in range, the value is the one nearest to the decimal. -/
theorem toBinary_of_leadingExponent (negative : Bool)
    (h : d.digits ≠ 0 → -330 ≤ d.leadingExponent ∧ d.leadingExponent < 310) :
    d.toBinary negative = .nearest negative d.toFraction.1 d.toFraction.2 := by
  rw [toBinary]
  split
  · rename_i hzero
    have hfst : d.toFraction.1 = 0 := by rw [toFraction, hzero, Nat.zero_mul]
    rw [hfst, Binary64.nearest, if_pos rfl]
  · rename_i hne
    obtain ⟨hmin, hmax⟩ := h hne
    rw [if_neg (not_le.mpr hmax), if_neg (not_lt.mpr hmin)]

/-- Numbers in the range of floating-point values have a leading digit in range. -/
theorem leadingExponent_of_bounds (hmin : (2 : ℚ) ^ (-1074 : Int) ≤ d.toRat)
    (hmax : d.toRat < 2 ^ (1024 : Int)) :
    -330 ≤ d.leadingExponent ∧ d.leadingExponent < 310 := by
  have hpos : 0 < d.toRat := (zpow_pos two_pos _).trans_le hmin
  have hne : d.digits ≠ 0 := mt toRat_eq_zero_iff.mpr hpos.ne'
  have hleast : (10 : ℚ) ^ (-330 : Int) ≤ 2 ^ (-1074 : Int) := by
    have hpowers : 2 ^ 1074 ≤ 10 ^ 330 := by decide +kernel
    rw [zpow_neg, zpow_neg]
    refine inv_anti₀ (zpow_pos two_pos _) ?_
    exact_mod_cast hpowers
  have hgreatest : (2 : ℚ) ^ (1024 : Int) ≤ 10 ^ (310 : Int) := by
    have hpowers : 2 ^ 1024 ≤ 10 ^ 310 := by decide +kernel
    exact_mod_cast hpowers
  rw [leadingExponent_eq hne]
  constructor
  · refine (Int.zpow_le_iff_le_log (by decide) hpos).mp ?_
    rw [Nat.cast_ofNat]
    exact hleast.trans hmin
  · refine (Int.lt_zpow_iff_log_lt (by decide) hpos).mp ?_
    rw [Nat.cast_ofNat]
    exact hmax.trans_le hgreatest

/-- A decimal with the number of a regular value has that value. -/
theorem toBinary_of_regular {negative : Bool} {m : Nat} {e : Int}
    (h : Binary64.IsRegular (.finite negative m e)) (hd : d.toRat = m * 2 ^ e) :
    d.toBinary negative = .finite negative m e := by
  have hquotient := (toFraction_fst_div_snd d).trans hd
  rw [toBinary_of_leadingExponent, Binary64.nearest_of_regular h d.toFraction_snd_pos hquotient]
  intro hne
  obtain ⟨⟨hmax, hleast, -⟩, hgreatest⟩ := h
  have hm : 0 < m := by
    refine Nat.pos_of_ne_zero fun hm => ?_
    rw [hm, Nat.cast_zero, zero_mul] at hd
    exact hne (toRat_eq_zero_iff.mp hd)
  have hone : (1 : ℚ) ≤ m := by exact_mod_cast hm
  have hbelow : (m : ℚ) < 2 ^ (53 : Int) := by exact_mod_cast hmax
  refine leadingExponent_of_bounds ?_ ?_
  · rw [hd, ← one_mul ((2 : ℚ) ^ (-1074 : Int))]
    have hpower : (2 : ℚ) ^ (-1074 : Int) ≤ 2 ^ e := zpow_le_zpow_right₀ one_le_two hleast
    gcongr
  · have hsplit : (2 : ℚ) ^ (1024 : Int) = 2 ^ (53 : Int) * 2 ^ (971 : Int) := by
      rw [← zpow_add₀ two_ne_zero]
      rfl
    have hpower : (2 : ℚ) ^ e ≤ 2 ^ (971 : Int) := zpow_le_zpow_right₀ one_le_two hgreatest
    rw [hd, hsplit]
    calc (m : ℚ) * 2 ^ e < 2 ^ (53 : Int) * 2 ^ e :=
          mul_lt_mul_of_pos_right hbelow (zpow_pos two_pos e)
      _ ≤ 2 ^ (53 : Int) * 2 ^ (971 : Int) :=
          mul_le_mul_of_nonneg_left hpower (zpow_nonneg two_pos.le _)

/-- The value of an integer that is not too large is the one nearest to it. -/
theorem toBinary_natCast (negative : Bool) {n : Nat} (h : (n : ℚ) < 2 ^ (1023 : Int)) :
    (Decimal.mk n 0).toBinary negative = .nearest negative n 1 := by
  have hrat : (Decimal.mk n 0).toRat = n := by simp [toRat]
  rw [toBinary_of_leadingExponent]
  · refine Binary64.nearest_congr negative (toFraction_snd_pos _) one_pos ?_
    rw [toFraction_fst_div_snd, hrat, Nat.cast_one, div_one]
  · intro hne
    have hone : (1 : ℚ) ≤ n := by exact_mod_cast Nat.pos_of_ne_zero hne
    refine leadingExponent_of_bounds ?_ ?_
    · rw [hrat]
      exact (zpow_le_one_of_nonpos₀ one_le_two (by decide)).trans hone
    · rw [hrat]
      exact h.trans_le (zpow_le_zpow_right₀ one_le_two (by decide))

/-! ## Zeros at the end -/

private theorem toRat_go (count : Nat) (d : Decimal) : (trim.go count d).toRat = d.toRat := by
  induction count generalizing d with
  | zero => rfl
  | succ count ih =>
    rw [trim.go]
    split
    · rename_i hzero
      simp only [Bool.and_eq_true, decide_eq_true_eq] at hzero
      have hdigits : (d.digits : ℚ) = 10 * (d.digits / 10 : Nat) := by
        have hmul : d.digits = 10 * (d.digits / 10) := by omega
        exact_mod_cast hmul
      rw [ih, toRat, toRat, zpow_add₀ (by norm_num), zpow_one, hdigits]
      ring
    · rfl

theorem toRat_trim (d : Decimal) : d.trim.toRat = d.toRat :=
  toRat_go _ d

end Decimal

/-! ## The fewest digits -/

namespace Binary64

variable {negative : Bool} {m : Nat} {e : Int}

/-- All the digits of a value. -/
private theorem toRat_exact (m : Nat) (e : Int) :
    (Decimal.mk ((scaled m e).1 * Nat.pow 5 (-e).toNat) (min e 0)).toRat = m * 2 ^ e := by
  rw [Decimal.toRat, scaled, Nat.shiftLeft_eq, Nat.pow_eq]
  rcases Int.eq_nat_or_neg e with ⟨k, rfl | rfl⟩
  · have hmin : min (k : Int) 0 = 0 := min_eq_right (Int.natCast_nonneg k)
    rw [hmin, Int.toNat_natCast, Int.toNat_neg_natCast]
    simp
  · have hmin : min (-(k : Int)) 0 = -k := min_eq_left (by omega)
    have hten : (10 : ℚ) ^ k = 2 ^ k * 5 ^ k := by
      rw [← mul_pow]
      norm_num
    rw [hmin, neg_neg, Int.toNat_natCast, Int.toNat_neg_natCast, zpow_neg, zpow_neg, zpow_natCast,
      zpow_natCast, hten]
    push_cast
    field_simp

/-- The fewest digits that are found for a value read back as the value. -/
theorem toBinary_shortest (h : IsRegular (.finite negative m e)) :
    (shortest m e).toBinary negative = .finite negative m e := by
  -- The equation of the definition would evaluate the search for the digits.
  delta shortest
  dsimp only
  split
  · rename_i d hfound
    obtain ⟨count, -, hgrid⟩ := List.exists_of_findSome?_eq_some hfound
    have htest := List.find?_some hgrid
    rw [Decimal.toBinary_congr negative d.toRat_trim, Decimal.toBinary_eq_withSign,
      of_decide_eq_true htest]
    rfl
  · -- Without a decimal that reads back, all digits are kept.
    refine Decimal.toBinary_of_regular h ?_
    rw [Decimal.toRat_trim, toRat_exact]

end Binary64

end RouteTemplate.Number
