/-
# The value nearest to a quotient

The value nearest to a quotient depends on the rational number alone: so does the exponent, by the
length of the number in bits, and so does the rounding of the significand. A number that a value
holds exactly is nearest to that value, and no number below a power of two that is small enough is
rounded to an infinity.

## Main definitions

* `Binary64.IsRegular` — the finite values of the interchange format

## Main results

* `Binary64.exponentOf_eq` — the exponent of a quotient
* `Binary64.nearest_congr` — equal quotients have the same nearest value
* `Binary64.nearest_of_regular` — a value is nearest to its own number
* `Binary64.toRat?_nearest_of_lt` — so is a number of 53 bits
* `Binary64.isFinite_nearest` — what is small enough has a finite nearest value
-/

import Mathlib.Data.Int.Log
import Mathlib.Data.Rat.Floor
import Mathlib.Tactic.Ring
import RouteTemplate.Proofs.Number.Binary64

namespace RouteTemplate.Number

/-! ## Rounding -/

theorem roundedQuotient_mul_left {k : Nat} (hk : 0 < k) (a b : Nat) :
    roundedQuotient (k * a) (k * b) = roundedQuotient a b := by
  have hquotient : k * a / (k * b) = a / b := Nat.mul_div_mul_left a b hk
  have hremainder : 2 * (k * a % (k * b)) = k * (2 * (a % b)) := by
    rw [Nat.mul_mod_mul_left, Nat.mul_left_comm]
  have hlt (x y : Nat) : k * x < k * y ↔ x < y := Nat.mul_lt_mul_left hk
  simp only [roundedQuotient, hquotient, hremainder, hlt]

/-- Equal quotients are rounded to the same number. -/
theorem roundedQuotient_congr {a b c d : Nat} (hb : 0 < b) (hd : 0 < d)
    (h : (a : ℚ) / b = c / d) : roundedQuotient a b = roundedQuotient c d := by
  have hcross : a * d = c * b := by
    have hb : (b : ℚ) ≠ 0 := by exact_mod_cast hb.ne'
    have hd : (d : ℚ) ≠ 0 := by exact_mod_cast hd.ne'
    exact_mod_cast (div_eq_div_iff hb hd).mp h
  calc roundedQuotient a b = roundedQuotient (d * a) (d * b) :=
        (roundedQuotient_mul_left hd a b).symm
    _ = roundedQuotient (b * c) (b * d) := by
        rw [Nat.mul_comm d a, hcross, Nat.mul_comm c b, Nat.mul_comm d b]
    _ = roundedQuotient c d := roundedQuotient_mul_left hb c d

/-- A natural number is rounded to itself. -/
theorem roundedQuotient_one (n : Nat) : roundedQuotient n 1 = n := by
  simp [roundedQuotient, Nat.mod_one]

/-! ## Exponents -/

/-- The exponent of the greatest power that is not above a number. -/
theorem log_eq_of_le_of_lt {b : Nat} (hb : 1 < b) {q : ℚ} {k : Int} (hle : (b : ℚ) ^ k ≤ q)
    (hlt : q < (b : ℚ) ^ (k + 1)) : Int.log b q = k := by
  have hpos : 0 < q := (zpow_pos (by exact_mod_cast Nat.zero_lt_of_lt hb) k).trans_le hle
  have hmin : k ≤ Int.log b q := (Int.zpow_le_iff_le_log hb hpos).mp hle
  have hmax : Int.log b q < k + 1 := (Int.lt_zpow_iff_log_lt hb hpos).mp hlt
  omega

namespace Binary64

/-- The finite values of the interchange format, in canonical form. -/
def IsRegular (x : Binary64) : Prop :=
  x.IsCanonical ∧ match x with
    | .finite _ _ exponent => exponent ≤ greatestExponent
    | _ => False

theorem IsRegular.exists_finite {x : Binary64} (h : x.IsRegular) :
    ∃ negative m e, x = .finite negative m e := by
  cases x with
  | finite negative m e => exact ⟨_, _, _, rfl⟩
  | infinite negative => exact h.2.elim
  | nan origin => exact h.2.elim

/-- An integer that is a finite value has at most 1024 bits. -/
theorem IsRegular.natAbs_lt {x : Binary64} (h : x.IsRegular) {n : Int} (hn : x.toInt? = some n) :
    n.natAbs < 2 ^ 1024 := by
  obtain ⟨negative, m, e, rfl⟩ := h.exists_finite
  have hrat := Option.some.inj (toInt?_eq_some_iff.mp hn)
  have habs : (n.natAbs : ℚ) = m * 2 ^ e := by
    rw [Nat.cast_natAbs, Int.cast_abs, ← hrat]
    cases negative <;> simp [abs_mul]
  have hm : (m : ℚ) < 2 ^ 53 := by exact_mod_cast h.1.1
  have he : (2 : ℚ) ^ e ≤ 2 ^ (971 : Int) := zpow_le_zpow_right₀ one_le_two h.2
  have hpower : (2 : ℚ) ^ 53 * 2 ^ (971 : Int) = 2 ^ (1024 : Int) := by
    rw [← zpow_natCast, ← zpow_add₀ two_ne_zero]
    congr 1
  have hlt : (n.natAbs : ℚ) < 2 ^ (1024 : Int) :=
    calc (n.natAbs : ℚ) = m * 2 ^ e := habs
      _ < 2 ^ 53 * 2 ^ e := mul_lt_mul_of_pos_right hm (by positivity)
      _ ≤ 2 ^ 53 * 2 ^ (971 : Int) := mul_le_mul_of_nonneg_left he (by positivity)
      _ = 2 ^ (1024 : Int) := hpower
  exact_mod_cast hlt

/-- The lengths in bits leave the logarithm of a quotient open by one. -/
private theorem log2_bounds {n d : Nat} (hn : 0 < n) (hd : 0 < d) :
    (2 : ℚ) ^ ((n.log2 : Int) - d.log2 - 1) ≤ n / d ∧
      (n : ℚ) / d < 2 ^ ((n.log2 : Int) - d.log2 + 1) := by
  have hd' : (0 : ℚ) < d := by exact_mod_cast hd
  have hnmin : ((2 ^ n.log2 : Nat) : ℚ) ≤ n := by exact_mod_cast Nat.log2_self_le hn.ne'
  have hnmax : (n : ℚ) < (2 ^ (n.log2 + 1) : Nat) := by exact_mod_cast Nat.lt_log2_self
  have hdmin : ((2 ^ d.log2 : Nat) : ℚ) ≤ d := by exact_mod_cast Nat.log2_self_le hd.ne'
  have hdmax : (d : ℚ) < (2 ^ (d.log2 + 1) : Nat) := by exact_mod_cast Nat.lt_log2_self
  push_cast at hnmin hnmax hdmin hdmax
  rw [le_div_iff₀ hd', div_lt_iff₀ hd']
  constructor
  · calc (2 : ℚ) ^ ((n.log2 : Int) - d.log2 - 1) * d
        ≤ 2 ^ ((n.log2 : Int) - d.log2 - 1) * 2 ^ (d.log2 + 1) := by gcongr
      _ = 2 ^ n.log2 := by
        rw [← zpow_natCast, ← zpow_natCast, ← zpow_add₀ two_ne_zero]
        congr 1
        push_cast
        ring
      _ ≤ n := hnmin
  · calc (n : ℚ) < 2 ^ (n.log2 + 1) := hnmax
      _ = 2 ^ ((n.log2 : Int) - d.log2 + 1) * 2 ^ d.log2 := by
        rw [← zpow_natCast, ← zpow_natCast, ← zpow_add₀ two_ne_zero]
        congr 1
        push_cast
        ring
      _ ≤ 2 ^ ((n.log2 : Int) - d.log2 + 1) * d := by gcongr

/-- The exponent of a quotient is the one at which its significand has 53 bits. -/
theorem exponentOf_eq {n d : Nat} (hn : 0 < n) (hd : 0 < d) :
    exponentOf n d = max (Int.log 2 ((n : ℚ) / d) - 52) leastExponent := by
  obtain ⟨hmin, hmax⟩ := log2_bounds hn hd
  generalize hk : (n.log2 : Int) - d.log2 = k at hmin hmax
  have hpos : (0 : ℚ) < (scaled n (-(k - 52))).2 := by exact_mod_cast scaled_snd_pos n _
  -- The scaled fraction falls short of 53 bits when the quotient lies below the estimate.
  have htest : (scaled n (-(k - 52))).1 < (d * (scaled n (-(k - 52))).2) <<< 52 ↔
      (n : ℚ) / d < 2 ^ k := by
    have hd' : (0 : ℚ) < d := by exact_mod_cast hd
    have hsplit : (2 : ℚ) ^ k = 2 ^ 52 * 2 ^ (k - 52) := by
      rw [← zpow_natCast, ← zpow_add₀ two_ne_zero, Nat.cast_ofNat, add_sub_cancel]
    rw [Nat.shiftLeft_eq, ← @Nat.cast_lt ℚ, Nat.cast_mul, Nat.cast_mul, Nat.cast_pow,
      Nat.cast_ofNat, mul_right_comm, ← div_lt_iff₀ hpos, scaled_fst_div_snd, zpow_neg,
      ← div_eq_mul_inv, div_lt_iff₀ (zpow_pos two_pos _), div_lt_iff₀ hd', hsplit, mul_assoc,
      mul_comm (d : ℚ)]
  rw [exponentOf]
  dsimp only
  rw [hk]
  split
  · rename_i hshort
    have hlog : Int.log 2 ((n : ℚ) / d) = k - 1 := by
      refine log_eq_of_le_of_lt one_lt_two (by exact_mod_cast hmin) ?_
      rw [sub_add_cancel]
      exact_mod_cast htest.mp hshort
    rw [hlog]
    congr 1
    ring
  · rename_i hlong
    have hlog : Int.log 2 ((n : ℚ) / d) = k :=
      log_eq_of_le_of_lt one_lt_two (by exact_mod_cast not_lt.mp (mt htest.mpr hlong))
        (by exact_mod_cast hmax)
    rw [hlog]

/-! ## Values -/

variable {negative : Bool} {n d m : Nat} {e : Int}

private theorem quotient_eq_zero_iff (hd : 0 < d) : (n : ℚ) / d = 0 ↔ n = 0 := by
  simp [hd.ne']

/-- The quotient that is rounded to the significand. -/
private theorem quotient_eq (n d : Nat) (e : Int) :
    ((scaled n (-e)).1 : ℚ) / (d * (scaled n (-e)).2 : Nat) = n / d * 2 ^ (-e) := by
  rw [Nat.cast_mul, mul_comm, ← div_div, scaled_fst_div_snd, div_mul_eq_mul_div]

/-- Equal quotients have the same nearest value. -/
theorem nearest_congr {a b : Nat} (negative : Bool) (hd : 0 < d) (hb : 0 < b)
    (h : (n : ℚ) / d = a / b) : nearest negative n d = nearest negative a b := by
  have hzero : n = 0 ↔ a = 0 := by
    rw [← quotient_eq_zero_iff hd, h, quotient_eq_zero_iff hb]
  by_cases hn : n = 0
  · rw [nearest, nearest, if_pos hn, if_pos (hzero.mp hn)]
  · have ha : a ≠ 0 := mt hzero.mpr hn
    have hexponent : exponentOf n d = exponentOf a b := by
      rw [exponentOf_eq (Nat.pos_of_ne_zero hn) hd, exponentOf_eq (Nat.pos_of_ne_zero ha) hb, h]
    have hsignificand (e : Int) :
        roundedQuotient (scaled n (-e)).1 (d * (scaled n (-e)).2) =
          roundedQuotient (scaled a (-e)).1 (b * (scaled a (-e)).2) := by
      refine roundedQuotient_congr (Nat.mul_pos hd (scaled_snd_pos n _))
        (Nat.mul_pos hb (scaled_snd_pos a _)) ?_
      rw [quotient_eq, quotient_eq, h]
    rw [nearest, nearest, if_neg hn, if_neg ha]
    simp only [hexponent, hsignificand]

/-- The exponent of a regular value is the one that its number gives. -/
theorem IsRegular.exponentOf_eq (h : IsRegular (.finite negative m e)) (hm : 0 < m) (hn : 0 < n)
    (hd : 0 < d) (hquotient : (n : ℚ) / d = m * 2 ^ e) : exponentOf n d = e := by
  obtain ⟨⟨hmax, hleast, hform⟩, -⟩ := h
  have hmpos : (0 : ℚ) < m := by exact_mod_cast hm
  have hpower : (0 : ℚ) < 2 ^ e := zpow_pos two_pos e
  have hpos : (0 : ℚ) < m * 2 ^ e := mul_pos hmpos hpower
  have hbelow : Int.log 2 ((m : ℚ) * 2 ^ e) < 53 + e := by
    refine (Int.lt_zpow_iff_log_lt one_lt_two hpos).mp ?_
    rw [Nat.cast_ofNat, zpow_add₀ two_ne_zero]
    have hbound : (m : ℚ) < 2 ^ (53 : Int) := by exact_mod_cast hmax
    gcongr
  rw [Binary64.exponentOf_eq hn hd, hquotient]
  by_cases hfull : 2 ^ 52 ≤ m
  · have habove : 52 + e ≤ Int.log 2 ((m : ℚ) * 2 ^ e) := by
      refine (Int.zpow_le_iff_le_log one_lt_two hpos).mp ?_
      rw [Nat.cast_ofNat, zpow_add₀ two_ne_zero]
      have hbound : (2 : ℚ) ^ (52 : Int) ≤ m := by exact_mod_cast hfull
      gcongr
    omega
  · have hshort : Int.log 2 ((m : ℚ) * 2 ^ e) < 52 + e := by
      refine (Int.lt_zpow_iff_log_lt one_lt_two hpos).mp ?_
      rw [Nat.cast_ofNat, zpow_add₀ two_ne_zero]
      have hbound : (m : ℚ) < 2 ^ (52 : Int) := by exact_mod_cast not_le.mp hfull
      gcongr
    have he := hform.resolve_left hfull
    omega

/-- A regular value is nearest to its own number. -/
theorem nearest_of_regular (h : IsRegular (.finite negative m e)) (hd : 0 < d)
    (hquotient : (n : ℚ) / d = m * 2 ^ e) : nearest negative n d = .finite negative m e := by
  have hzero : n = 0 ↔ m = 0 := by
    rw [← quotient_eq_zero_iff hd, hquotient, mul_eq_zero_iff_right (zpow_ne_zero e two_ne_zero),
      Nat.cast_eq_zero]
  by_cases hn : n = 0
  · obtain rfl := hzero.mp hn
    obtain rfl : e = leastExponent := h.1.2.2.resolve_left (by omega)
    rw [nearest, if_pos hn, signedZero]
  · have hm : 0 < m := Nat.pos_of_ne_zero (mt hzero.mpr hn)
    have hexponent := h.exponentOf_eq hm (Nat.pos_of_ne_zero hn) hd hquotient
    have hsignificand : roundedQuotient (scaled n (-e)).1 (d * (scaled n (-e)).2) = m := by
      rw [← roundedQuotient_one m]
      refine roundedQuotient_congr (Nat.mul_pos hd (scaled_snd_pos n _)) one_pos ?_
      rw [quotient_eq, hquotient, mul_assoc, ← zpow_add₀ two_ne_zero, add_neg_cancel, zpow_zero,
        mul_one, Nat.cast_one, div_one]
    have hbound : m ≠ significandBound := h.1.1.ne
    rw [nearest, if_neg hn]
    simp only [hexponent, hsignificand, hbound, ↓reduceIte]
    rw [if_neg (not_lt.mpr h.2)]

/-- A number of at most 53 bits is not rounded. -/
theorem toRat?_nearest_of_lt (negative : Bool) (h : n < 2 ^ 53) :
    (nearest negative n 1).toRat? = some ((if negative then -1 else 1) * (n : ℚ)) := by
  by_cases hn : n = 0
  · rw [nearest, if_pos hn, signedZero, toRat?, hn, Nat.cast_zero, mul_zero, zero_mul]
  · -- The value has all 53 bits, and the exponent takes back what was shifted in.
    obtain ⟨k, hk⟩ := Nat.exists_eq_add_of_le (Nat.le_of_lt_succ ((Nat.log2_lt hn).mpr h))
    have hpower : (2 : ℚ) ^ k * 2 ^ (-(k : Int)) = 1 := by
      rw [← zpow_natCast, ← zpow_add₀ two_ne_zero, add_neg_cancel, zpow_zero]
    have hvalue : (n : ℚ) = (n * 2 ^ k : Nat) * 2 ^ (-(k : Int)) := by
      rw [Nat.cast_mul, Nat.cast_pow, Nat.cast_ofNat, mul_assoc, hpower, mul_one]
    have hregular : IsRegular (.finite negative (n * 2 ^ k) (-k)) := by
      refine ⟨⟨?_, ?_, .inl ?_⟩, ?_⟩
      · have hsplit : 2 ^ 53 = 2 ^ (n.log2 + 1) * 2 ^ k := by
          rw [← Nat.pow_add, add_right_comm, ← hk]
        rw [hsplit]
        exact Nat.mul_lt_mul_of_pos_right Nat.lt_log2_self (Nat.two_pow_pos k)
      · rw [leastExponent]
        omega
      · rw [hk, Nat.pow_add]
        exact Nat.mul_le_mul_right _ (Nat.log2_self_le hn)
      · change -(k : Int) ≤ greatestExponent
        rw [greatestExponent]
        omega
    rw [nearest_of_regular hregular one_pos (by rwa [Nat.cast_one, div_one]), toRat?, mul_assoc,
      ← hvalue]

/-- What lies below a power of two that is small enough is not rounded to an infinity. -/
theorem isFinite_nearest (negative : Bool) (hd : 0 < d) (h : (n : ℚ) / d < 2 ^ (1023 : Int)) :
    (nearest negative n d).isFinite = true := by
  by_cases hn : n = 0
  · rw [nearest, if_pos hn]
    rfl
  · have hpos : (0 : ℚ) < n / d :=
      div_pos (by exact_mod_cast Nat.pos_of_ne_zero hn) (by exact_mod_cast hd)
    have hlog : Int.log 2 ((n : ℚ) / d) < 1023 :=
      (Int.lt_zpow_iff_log_lt one_lt_two hpos).mp (by rwa [Nat.cast_ofNat])
    have hexponent : exponentOf n d + 1 ≤ greatestExponent := by
      rw [exponentOf_eq (Nat.pos_of_ne_zero hn) hd, leastExponent, greatestExponent]
      omega
    rw [nearest, if_neg hn]
    -- Rounding up may add one to the exponent, which leaves it in range.
    dsimp only
    split
    · rw [if_neg (not_lt.mpr hexponent)]
      rfl
    · rw [if_neg (by omega)]
      rfl

end Binary64

end RouteTemplate.Number
