/-
# Floating-point values as rational numbers

A finite value is a rational number. Comparing two values, or a value and an integer, compares these
numbers, and whether a value is an integer depends on its number alone. In the canonical form, where
the significand has 53 bits or the exponent is the least one, a number other than zero has one form
only.

## Main definitions

* `Binary64.toRat?` — the rational number that a finite value is
* `Binary64.IsCanonical` — the canonical form

## Main results

* `Binary64.compare?_of_toRat?`, `Binary64.compareInt?_of_toRat?` — comparing compares the numbers
* `Binary64.toInt?_eq_some_iff` — the integer that a value is
* `Binary64.eq_of_toRat?_eq` — equal numbers other than zero have the same canonical form
-/

import Mathlib.Algebra.Order.Field.Power
import Mathlib.Data.Rat.Cast.Order
import Mathlib.Order.Compare
import Mathlib.Tactic.NormNum
import RouteTemplate.Number.Binary64

namespace RouteTemplate.Number.Binary64

/-- The rational number that a finite value is. -/
def toRat? : Binary64 → Option ℚ
  | .finite negative significand exponent =>
    some ((if negative then -1 else 1) * significand * 2 ^ exponent)
  | _ => none

/-- The canonical form of a value: a finite one has a significand of 53 bits, or of fewer bits and
the least exponent. -/
def IsCanonical : Binary64 → Prop
  | .finite _ significand exponent => significand < 2 ^ 53 ∧ leastExponent ≤ exponent ∧
      (2 ^ 52 ≤ significand ∨ exponent = leastExponent)
  | _ => True

/-! ## Fractions -/

private theorem two_zpow_eq (exponent : Int) :
    (2 : ℚ) ^ exponent = 2 ^ exponent.toNat / 2 ^ (-exponent).toNat := by
  rw [← zpow_natCast, ← zpow_natCast, ← zpow_sub₀ two_ne_zero, Int.toNat_sub_toNat_neg]

theorem scaled_snd_pos (n : Nat) (exponent : Int) : 0 < (scaled n exponent).2 := by
  simp [scaled, Nat.shiftLeft_eq]

/-- A scaled number is a fraction with the value of the scaled number. -/
theorem scaled_fst_div_snd (n : Nat) (exponent : Int) :
    ((scaled n exponent).1 : ℚ) / (scaled n exponent).2 = n * 2 ^ exponent := by
  rw [two_zpow_eq]
  simp [scaled, Nat.shiftLeft_eq, mul_div_assoc]

theorem toFraction_snd_pos (negative : Bool) (significand : Nat) (exponent : Int) :
    0 < (toFraction negative significand exponent).2 :=
  scaled_snd_pos significand exponent

/-- A finite value is the quotient of its fraction. -/
theorem toRat?_eq_toFraction (negative : Bool) (significand : Nat) (exponent : Int) :
    toRat? (.finite negative significand exponent) =
      some (((toFraction negative significand exponent).1 : ℚ) /
        (toFraction negative significand exponent).2) := by
  rw [toRat?, toFraction, mul_assoc, ← scaled_fst_div_snd]
  cases negative with
  | true => simp [neg_div]
  | false => simp

/-- Fractions are compared by multiplying across. -/
theorem compare_mul_eq {a c : Int} {b d : Nat} (hb : 0 < b) (hd : 0 < d) :
    compare (a * d) (c * b) = compare ((a : ℚ) / b) ((c : ℚ) / d) := by
  have hb : (0 : ℚ) < b := by exact_mod_cast hb
  have hd : (0 : ℚ) < d := by exact_mod_cast hd
  have hlt : a * d < c * b ↔ (a : ℚ) / b < c / d := by
    rw [div_lt_div_iff₀ hb hd]
    exact_mod_cast Iff.rfl
  have hgt : c * b < a * d ↔ (c : ℚ) / d < a / b := by
    rw [div_lt_div_iff₀ hd hb]
    exact_mod_cast Iff.rfl
  rcases lt_trichotomy ((a : ℚ) / b) (c / d) with h | h | h
  · rw [compare_lt_iff_lt.mpr h, compare_lt_iff_lt.mpr (hlt.mpr h)]
  · rw [compare_eq_iff_eq.mpr h, compare_eq_iff_eq.mpr]
    exact le_antisymm (not_lt.mp (mt hgt.mp h.not_gt)) (not_lt.mp (mt hlt.mp h.not_lt))
  · rw [compare_gt_iff_gt.mpr h, compare_gt_iff_gt.mpr (hgt.mpr h)]

/-! ## Comparison -/

variable {x y : Binary64} {p q : ℚ}

/-- A value with a rational number is finite. -/
theorem exists_of_toRat? (h : x.toRat? = some p) :
    ∃ negative significand exponent, x = .finite negative significand exponent := by
  cases x with
  | finite negative significand exponent => exact ⟨_, _, _, rfl⟩
  | infinite negative => exact absurd h (by simp [toRat?])
  | nan origin => exact absurd h (by simp [toRat?])

theorem toRat?_of_isZero (h : x.isZero = true) : x.toRat? = some 0 := by
  cases x with
  | finite negative significand exponent =>
    obtain rfl : significand = 0 := of_decide_eq_true h
    rw [toRat?, Nat.cast_zero, mul_zero, zero_mul]
  | infinite negative => exact absurd h Bool.false_ne_true
  | nan origin => exact absurd h Bool.false_ne_true

theorem compare?_of_toRat? (hx : x.toRat? = some p) (hy : y.toRat? = some q) :
    x.compare? y = some (compare p q) := by
  obtain ⟨s, m, e, rfl⟩ := exists_of_toRat? hx
  obtain ⟨t, n, f, rfl⟩ := exists_of_toRat? hy
  rw [toRat?_eq_toFraction] at hx hy
  rw [← Option.some.inj hx, ← Option.some.inj hy,
    ← compare_mul_eq (toFraction_snd_pos s m e) (toFraction_snd_pos t n f)]
  rfl

theorem compareInt?_of_toRat? (hx : x.toRat? = some p) (k : Int) :
    x.compareInt? k = some (compare p k) := by
  obtain ⟨s, m, e, rfl⟩ := exists_of_toRat? hx
  rw [toRat?_eq_toFraction] at hx
  have hone : (k : ℚ) = (k : ℚ) / (1 : Nat) := by simp
  rw [← Option.some.inj hx, hone, ← compare_mul_eq (toFraction_snd_pos s m e) Nat.one_pos]
  simp [compareInt?]

/-! ## Integers -/

/-- A fraction is an integer when the numerator is a multiple of the denominator. -/
theorem toInt?_finite_eq_some_iff {negative : Bool} {significand : Nat} {exponent k : Int} :
    toInt? (.finite negative significand exponent) = some k ↔
      (toFraction negative significand exponent).1 =
        k * (toFraction negative significand exponent).2 := by
  rw [toInt?, toFraction]
  have hpos := scaled_snd_pos significand exponent
  generalize scaled significand exponent = fraction at hpos ⊢
  obtain ⟨n, d⟩ := fraction
  dsimp only at hpos ⊢
  have hd : (d : Int) ≠ 0 := by exact_mod_cast hpos.ne'
  split
  · rename_i hmod
    obtain ⟨q, rfl⟩ := Nat.dvd_of_mod_eq_zero hmod
    rw [Nat.mul_div_cancel_left q hpos, Option.some.injEq]
    have hmul : ((d * q : Nat) : Int) = q * d := by
      push_cast
      exact mul_comm _ _
    cases negative with
    | true =>
      simp only [↓reduceIte, hmul, ← neg_mul]
      exact (mul_left_inj' hd).symm
    | false =>
      simp only [Bool.false_eq_true, ↓reduceIte, hmul]
      exact (mul_left_inj' hd).symm
  · rename_i hmod
    refine iff_of_false (by simp) fun h => hmod ?_
    have hdvd : (d : Int) ∣ n := by
      cases negative with
      | true => exact (dvd_neg.mp ⟨k, by rw [mul_comm]; exact h⟩)
      | false => exact ⟨k, by rw [mul_comm]; exact h⟩
    exact Nat.mod_eq_zero_of_dvd (Int.natCast_dvd_natCast.mp hdvd)

/-- A value is an integer when its number is. -/
theorem toInt?_eq_some_iff {k : Int} : x.toInt? = some k ↔ x.toRat? = some (k : ℚ) := by
  cases x with
  | infinite negative => simp [toInt?, toRat?]
  | nan origin => simp [toInt?, toRat?]
  | finite negative significand exponent =>
    have hpos : ((toFraction negative significand exponent).2 : ℚ) ≠ 0 :=
      Nat.cast_ne_zero.mpr (toFraction_snd_pos negative significand exponent).ne'
    rw [toInt?_finite_eq_some_iff, toRat?_eq_toFraction, Option.some.injEq, div_eq_iff hpos]
    exact_mod_cast Iff.rfl

/-! ## Canonical forms -/

/-- The significand of a canonical form that has the greater exponent is the smaller one. -/
private theorem exponent_le_of_canonical {m n : Nat} {e f : Int} (hm : m < 2 ^ 53)
    (hn : 2 ^ 52 ≤ n ∨ f = leastExponent) (he : leastExponent ≤ e)
    (h : (m : ℚ) * 2 ^ e = n * 2 ^ f) : f ≤ e := by
  by_contra hlt
  rw [not_le] at hlt
  have hn : 2 ^ 52 ≤ n := hn.resolve_right (by omega)
  -- A greater exponent makes the other significand at least twice as large.
  obtain ⟨k, hk⟩ := Int.eq_ofNat_of_zero_le (sub_nonneg.mpr hlt.le)
  have hk' : f = k + e := by omega
  rw [hk', zpow_add₀ two_ne_zero, ← mul_assoc] at h
  have hmul := mul_right_cancel₀ (zpow_ne_zero e two_ne_zero) h
  rw [zpow_natCast] at hmul
  have hnat : m = n * 2 ^ k := by exact_mod_cast hmul
  have hpow : 2 ^ 1 ≤ 2 ^ k := Nat.pow_le_pow_right (by decide) (by omega)
  have hbound : 2 ^ 52 * 2 ^ 1 ≤ n * 2 ^ k := Nat.mul_le_mul hn hpow
  omega

/-- Equal numbers other than zero have the same canonical form. -/
theorem eq_of_toRat?_eq (hx : x.IsCanonical) (hy : y.IsCanonical) (hp : x.toRat? = some p)
    (hq : y.toRat? = some p) (hne : p ≠ 0) : x = y := by
  obtain ⟨s, m, e, rfl⟩ := exists_of_toRat? hp
  obtain ⟨t, n, f, rfl⟩ := exists_of_toRat? hq
  obtain ⟨hm, he, hm'⟩ := hx
  obtain ⟨hn, hf, hn'⟩ := hy
  rw [toRat?, Option.some.injEq] at hp hq
  have habs : (m : ℚ) * 2 ^ e = n * 2 ^ f := by
    have h := congrArg abs (hp.trans hq.symm)
    have hsign (s : Bool) : |if s then (-1 : ℚ) else 1| = 1 := by cases s <;> simp
    rwa [abs_mul, abs_mul, hsign, one_mul, abs_mul, abs_mul, hsign, one_mul, Nat.abs_cast,
      Nat.abs_cast, abs_of_pos (zpow_pos two_pos e), abs_of_pos (zpow_pos two_pos f)] at h
  obtain rfl : e = f := le_antisymm (exponent_le_of_canonical hn hm' hf habs.symm)
    (exponent_le_of_canonical hm hn' he habs)
  obtain rfl : m = n := by exact_mod_cast mul_right_cancel₀ (zpow_ne_zero e two_ne_zero) habs
  have hsign : s = t := by
    have hvalue : (m : ℚ) * 2 ^ e ≠ 0 := by
      rintro hzero
      rw [mul_assoc, hzero, mul_zero] at hp
      exact hne hp.symm
    have h := hp.trans hq.symm
    rw [mul_assoc, mul_assoc] at h
    have h := mul_right_cancel₀ hvalue h
    cases s <;> cases t <;> first | rfl | exact absurd h (by norm_num)
  rw [hsign]

end RouteTemplate.Number.Binary64
