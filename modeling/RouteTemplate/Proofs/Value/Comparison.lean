/-
# Equal numbers

Numbers that compare as equal, of whichever kinds, lie on the same side of every other number and
are the same as the same values. As members of an enumeration they also stand in a path by the same
text: an integer, or a floating-point value that is one, by the integer, and any other
floating-point value by its digits, which its canonical form determines.

## Main definitions

* `Value.Numeric.rat?` — the rational number that a number is

## Main results

* `Value.Numeric.compare?_congr` — equal numbers compare alike
* `Value.compare?_congr` — so do values that are equal numbers
* `Value.same_congr` — values that are equal numbers are the same as the same values
* `Value.pathText_float_congr`, `Value.pathText_int_eq_float` — they have the same text in a path
* `Value.isWritable_congr` — and both can be written, or neither can
-/

import RouteTemplate.Proofs.Number.Binary64
import RouteTemplate.Value.Equality
import RouteTemplate.Value.Rendering

namespace RouteTemplate.Value

open RouteTemplate.Number (Binary64)

namespace Numeric

/-- The rational number that a number is, unless it is infinite or undefined. -/
def rat? : Numeric → Option ℚ
  | .whole n => some n
  | .binary x => x.toRat?

variable {a b : Numeric} {p q : ℚ}

/-- A number is rational, infinite or undefined. -/
theorem rat?_or_infinite_or_nan (a : Numeric) :
    (∃ p, a.rat? = some p) ∨ (∃ negative, a = .binary (.infinite negative)) ∨
      ∃ origin, a = .binary (.nan origin) := by
  cases a with
  | whole n => exact .inl ⟨n, rfl⟩
  | binary x =>
    cases x with
    | finite negative significand exponent => exact .inl ⟨_, rfl⟩
    | infinite negative => exact .inr (.inl ⟨negative, rfl⟩)
    | nan origin => exact .inr (.inr ⟨origin, rfl⟩)

theorem compare?_of_rat? (ha : a.rat? = some p) (hb : b.rat? = some q) :
    a.compare? b = some (compare p q) := by
  cases a with
  | whole m =>
    obtain rfl := Option.some.inj ha
    cases b with
    | whole n =>
      obtain rfl := Option.some.inj hb
      have hcast := (Int.cast_strictMono (R := ℚ)).cmp_map_eq m n
      rw [cmp_eq_compare, cmp_eq_compare] at hcast
      rw [compare?, hcast]
    | binary y =>
      rw [compare?, Binary64.compareInt?_of_toRat? hb, Option.map_some, ← cmp_eq_compare, cmp_swap,
        cmp_eq_compare]
  | binary x =>
    cases b with
    | whole n =>
      obtain rfl := Option.some.inj hb
      exact Binary64.compareInt?_of_toRat? ha n
    | binary y => exact Binary64.compare?_of_toRat? ha hb

theorem infinite_compare? (negative : Bool) (ha : a.rat? = some p) :
    compare? (.binary (.infinite negative)) a = some (if negative then .lt else .gt) := by
  cases a with
  | whole n => rfl
  | binary x =>
    obtain ⟨_, _, _, rfl⟩ := Binary64.exists_of_toRat? ha
    rfl

theorem compare?_infinite (negative : Bool) (ha : a.rat? = some p) :
    a.compare? (.binary (.infinite negative)) = some (if negative then .gt else .lt) := by
  cases a with
  | whole n => cases negative <;> rfl
  | binary x =>
    obtain ⟨_, _, _, rfl⟩ := Binary64.exists_of_toRat? ha
    rfl

theorem nan_compare? (origin : Option Nat) (a : Numeric) :
    compare? (.binary (.nan origin)) a = none := by
  cases a with
  | whole n => rfl
  | binary x => cases x <;> rfl

theorem compare?_nan (origin : Option Nat) (a : Numeric) :
    a.compare? (.binary (.nan origin)) = none := by
  cases a with
  | whole n => rfl
  | binary x => cases x <;> rfl

/-- Equal numbers are the same rational number, or the same infinity. -/
theorem rat?_eq_or_eq_of_compare? (h : a.compare? b = some .eq) :
    (∃ p, a.rat? = some p ∧ b.rat? = some p) ∨
      ∃ negative, a = .binary (.infinite negative) ∧ b = .binary (.infinite negative) := by
  rcases a.rat?_or_infinite_or_nan with ⟨p, ha⟩ | ⟨s, rfl⟩ | ⟨origin, rfl⟩
  · rcases b.rat?_or_infinite_or_nan with ⟨q, hb⟩ | ⟨t, rfl⟩ | ⟨origin, rfl⟩
    · rw [compare?_of_rat? ha hb] at h
      obtain rfl := compare_eq_iff_eq.mp (Option.some.inj h)
      exact .inl ⟨p, ha, hb⟩
    · rw [compare?_infinite t ha] at h
      cases t <;> exact absurd (Option.some.inj h) (by simp)
    · exact absurd ((compare?_nan origin a).symm.trans h) (by simp)
  · rcases b.rat?_or_infinite_or_nan with ⟨q, hb⟩ | ⟨t, rfl⟩ | ⟨origin, rfl⟩
    · rw [infinite_compare? s hb] at h
      cases s <;> exact absurd (Option.some.inj h) (by simp)
    · cases s <;> cases t <;> first | exact .inr ⟨_, rfl, rfl⟩ | exact absurd h (by decide)
    · exact absurd ((compare?_nan origin _).symm.trans h) (by simp)
  · exact absurd ((nan_compare? origin b).symm.trans h) (by simp)

/-- Equal numbers compare alike. -/
theorem compare?_congr (h : a.compare? b = some .eq) (c : Numeric) :
    c.compare? a = c.compare? b := by
  rcases rat?_eq_or_eq_of_compare? h with ⟨p, ha, hb⟩ | ⟨negative, rfl, rfl⟩
  · rcases c.rat?_or_infinite_or_nan with ⟨r, hc⟩ | ⟨s, rfl⟩ | ⟨origin, rfl⟩
    · rw [compare?_of_rat? hc ha, compare?_of_rat? hc hb]
    · rw [infinite_compare? s ha, infinite_compare? s hb]
    · rw [nan_compare?, nan_compare?]
  · rfl

theorem compare?_symm (h : a.compare? b = some .eq) : b.compare? a = some .eq := by
  rcases rat?_eq_or_eq_of_compare? h with ⟨p, ha, hb⟩ | ⟨negative, rfl, rfl⟩
  · rw [compare?_of_rat? hb ha, compare_eq_iff_eq.mpr rfl]
  · exact h

/-- Unless two numbers are one and the same undefined value, they are the same when they are
equal. -/
theorem same_eq (h : ∀ origin, b ≠ .binary (.nan origin)) :
    a.same b = (a.compare? b == some .eq) := by
  unfold same
  split
  · exact absurd rfl (h _)
  · rfl

/-- A number that is equal to another one is not undefined. -/
theorem ne_nan_of_compare? (h : a.compare? b = some .eq) (origin : Option Nat) :
    a ≠ .binary (.nan origin) ∧ b ≠ .binary (.nan origin) := by
  constructor
  · rintro rfl
    exact absurd ((nan_compare? origin b).symm.trans h) (by simp)
  · rintro rfl
    exact absurd ((compare?_nan origin a).symm.trans h) (by simp)

/-- Equal numbers are the same as the same numbers. -/
theorem same_congr (h : a.compare? b = some .eq) (c : Numeric) : c.same a = c.same b := by
  rw [same_eq fun origin => (ne_nan_of_compare? h origin).1,
    same_eq fun origin => (ne_nan_of_compare? h origin).2, compare?_congr h]

end Numeric

/-! ## Values -/

variable {v w : Value} {a b : Numeric}

theorem same_of_numeric? (hv : v.numeric? = some a) (w : Value) :
    v.same w = w.numeric?.any a.same := by
  cases v with
  | bool => rw [same, Option.some.inj hv]
  | int => rw [same, Option.some.inj hv]
  | float => rw [same, Option.some.inj hv]
  | _ => exact absurd hv (by simp [numeric?])

/-- What is no number is not the same as a number. -/
theorem same_eq_false_of_numeric? (hv : v.numeric? = none) (hw : w.numeric? = some b) :
    v.same w = false := by
  cases v with
  | definition d =>
    obtain ⟨name, type, required, constraints⟩ := d
    cases w <;> simp_all [same, numeric?]
  | _ => cases w <;> simp_all [same, numeric?, text?, isNull]

/-- Numbers that count as one are equal, unless undefined. -/
theorem compare?_eq_of_same (hv : v.numeric? = some a) (hw : w.numeric? = some b)
    (hnan : ∀ origin, b ≠ .binary (.nan origin)) (h : v.same w = true) :
    a.compare? b = some .eq := by
  rw [same_of_numeric? hv, hw, Option.any_some, Numeric.same_eq hnan] at h
  exact beq_iff_eq.mp h

/-- Values with the same rational number count as one. -/
theorem same_of_rat? {p : ℚ} (hv : v.numeric? = some a) (hw : w.numeric? = some b)
    (ha : a.rat? = some p) (hb : b.rat? = some p) : v.same w = true := by
  have hequal : a.compare? b = some .eq := by
    rw [Numeric.compare?_of_rat? ha hb, compare_eq_iff_eq.mpr rfl]
  rw [same_of_numeric? hv, hw, Option.any_some,
    Numeric.same_eq fun origin => (Numeric.ne_nan_of_compare? hequal origin).2, hequal]
  rfl

/-- Equal numbers compare alike with every value. -/
theorem compare?_congr (hv : v.numeric? = some a) (hw : w.numeric? = some b)
    (h : a.compare? b = some .eq) (u : Value) : u.compare? v = u.compare? w := by
  rw [compare?, compare?, hv, hw]
  cases u.numeric? with
  | none => rfl
  | some c => exact congrArg some (Numeric.compare?_congr h c)

/-- Equal numbers are the same as the same values. -/
theorem same_congr (hv : v.numeric? = some a) (hw : w.numeric? = some b)
    (h : a.compare? b = some .eq) (u : Value) : u.same v = u.same w := by
  cases hu : u.numeric? with
  | none => rw [same_eq_false_of_numeric? hu hv, same_eq_false_of_numeric? hu hw]
  | some c =>
    rw [same_of_numeric? hu, same_of_numeric? hu, hv, hw]
    exact Numeric.same_congr h c

/-! ## Texts in a path -/

theorem pathText_int (n : Int) : (Value.int n).pathText = toString n := by
  simp [pathText, displayText, shown]

/-- The text of a floating-point value that is an integer is that of the integer. -/
theorem pathText_float_of_toRat? {x : Binary64} {n : Int} (h : x.toRat? = some (n : ℚ)) :
    (Value.float x).pathText = toString n := by
  rw [pathText, Binary64.toInt?_eq_some_iff.mpr h]

/-- Floating-point values in canonical form that are equal have the same text. -/
theorem pathText_float_congr {x y : Binary64} (hx : x.IsCanonical) (hy : y.IsCanonical)
    (h : Numeric.compare? (.binary x) (.binary y) = some .eq) :
    (Value.float x).pathText = (Value.float y).pathText := by
  rcases Numeric.rat?_eq_or_eq_of_compare? h with ⟨p, hp, hq⟩ | ⟨negative, hinfinite, hinfinite'⟩
  · by_cases hzero : p = 0
    · -- Zero has two canonical forms, but both are the integer.
      have hcast : p = ((0 : Int) : ℚ) := by rw [hzero, Int.cast_zero]
      rw [hcast] at hp hq
      rw [pathText_float_of_toRat? hp, pathText_float_of_toRat? hq]
    · rw [Binary64.eq_of_toRat?_eq hx hy hp hq hzero]
  · rw [Numeric.binary.inj hinfinite, Numeric.binary.inj hinfinite']

/-- An integer and a floating-point value that are equal have the same text. -/
theorem pathText_int_eq_float {n : Int} {x : Binary64}
    (h : Numeric.compare? (.whole n) (.binary x) = some .eq) :
    (Value.int n).pathText = (Value.float x).pathText := by
  rcases Numeric.rat?_eq_or_eq_of_compare? h with ⟨p, hp, hq⟩ | ⟨_, hinfinite, -⟩
  · obtain rfl : (n : ℚ) = p := Option.some.inj hp
    rw [pathText_int, pathText_float_of_toRat? hq]
  · exact absurd hinfinite (by simp)

/-- A number can be written unless it is an integer of too many digits. -/
theorem isWritable_iff_of_numeric? (hv : v.numeric? = some a) :
    v.isWritable = true ↔ ∀ n : Int, a.rat? = some (n : ℚ) → Number.isShort n = true := by
  cases v with
  | bool b =>
    obtain rfl := Option.some.inj hv
    refine iff_of_true rfl fun n hn => ?_
    obtain rfl : (if b then 1 else 0) = n := Int.cast_inj.mp (Option.some.inj hn)
    cases b <;> decide
  | int m =>
    obtain rfl := Option.some.inj hv
    refine ⟨fun h n hn => ?_, fun h => h m rfl⟩
    obtain rfl : m = n := Int.cast_inj.mp (Option.some.inj hn)
    exact h
  | float x =>
    obtain rfl := Option.some.inj hv
    simp only [isWritable, Option.all_eq_true, Binary64.toInt?_eq_some_iff, Numeric.rat?]
  | _ => exact absurd hv (by simp [numeric?])

/-- Equal numbers can both be written, or neither. -/
theorem isWritable_congr (hv : v.numeric? = some a) (hw : w.numeric? = some b)
    (h : a.compare? b = some .eq) : v.isWritable = w.isWritable := by
  rw [Bool.eq_iff_iff, isWritable_iff_of_numeric? hv, isWritable_iff_of_numeric? hw]
  rcases Numeric.rat?_eq_or_eq_of_compare? h with ⟨p, ha, hb⟩ | ⟨_, rfl, rfl⟩
  · rw [ha, hb]
  · rfl

end RouteTemplate.Value
