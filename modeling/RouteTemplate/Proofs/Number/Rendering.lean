/-
# Reading what is written

The text of a finite value, in positional notation or with a power of ten, denotes the decimal of
its fewest digits, so it is read as the value itself. An integer is read as the value nearest to it.

## Main definitions

* `IsNumeralOf` — a numeral without a sign denotes a rational number

## Main results

* `isNumeralOf_renderPositional`, `isNumeralOf_renderScientific` — both notations denote the decimal
* `readBinary?_render` — a value is read back from its text
* `readBinary?_toString_of_lt` — an integer is read as its nearest value
-/

import RouteTemplate.Proofs.Number.Decimal
import RouteTemplate.Proofs.Number.Numeral

namespace RouteTemplate.Number

/-! ## Numerals -/

/-- A numeral that begins with a digit, and what it denotes. -/
structure IsNumeralOf (cs : List Char) (q : ℚ) : Prop where
  isDigit_head : ∀ c ∈ cs.head?, c.isDigit
  ne_nil : cs ≠ []
  plain : IsPlain cs
  exists_decimal : ∃ d, readDecimal? cs = some d ∧ d.toRat = q

/-- A numeral is read as the value of any decimal with its number. -/
theorem IsNumeralOf.readBinary?_eq {cs : List Char} {d : Decimal} (h : IsNumeralOf cs d.toRat)
    (negative : Bool) : readBinary? (signChars negative ++ cs) = some (d.toBinary negative) := by
  obtain ⟨first, rest, rfl⟩ := List.exists_cons_of_ne_nil h.ne_nil
  obtain ⟨d', hd', hrat⟩ := h.exists_decimal
  rw [readBinary?_of_decimal (h.isDigit_head first rfl) h.plain hd', Decimal.toBinary_congr _ hrat]

section Notations

variable {whole fraction rest : List Char} {power : Int}

/-- Digits on both sides of a point, and a power of ten. -/
theorem isNumeralOf_point (hwhole : ∀ c ∈ whole, c.isDigit) (hne : whole ≠ [])
    (hfraction : ∀ c ∈ fraction, c.isDigit) (hplain : IsPlain rest)
    (hrest : ∀ c ∈ rest.head?, c.isDigit = false) (hpower : readPower? rest = some power) :
    IsNumeralOf (whole ++ '.' :: (fraction ++ rest))
      (ofDigits (whole ++ fraction) * 10 ^ (power - fraction.length)) where
  isDigit_head c hc := by
    rw [List.head?_append_of_ne_nil _ hne] at hc
    exact hwhole c (List.mem_of_head? hc)
  ne_nil := List.append_ne_nil_of_left_ne_nil hne _
  plain := by
    have hpoint : IsPlain ['.'] := by
      intro c hc
      rw [List.mem_singleton.mp hc]
      decide
    have hdigits := (isPlain_of_isDigit hfraction).append hplain
    exact (isPlain_of_isDigit hwhole).append (hpoint.append hdigits)
  exists_decimal := ⟨_, readDecimal?_point hwhole hne hfraction hrest hpower, rfl⟩

/-- Digits, and a power of ten. -/
theorem isNumeralOf_append (hwhole : ∀ c ∈ whole, c.isDigit) (hne : whole ≠ [])
    (hplain : IsPlain rest) (hrest : ∀ c ∈ rest.head?, c.isDigit = false ∧ c ≠ '.')
    (hpower : readPower? rest = some power) :
    IsNumeralOf (whole ++ rest) (ofDigits whole * 10 ^ power) where
  isDigit_head c hc := by
    rw [List.head?_append_of_ne_nil _ hne] at hc
    exact hwhole c (List.mem_of_head? hc)
  ne_nil := List.append_ne_nil_of_left_ne_nil hne _
  plain := (isPlain_of_isDigit hwhole).append hplain
  exists_decimal := ⟨_, readDecimal?_append hwhole hne hrest hpower, rfl⟩

end Notations

/-! ## Positional notation -/

/-- Digits on both sides of a point denote the digits, divided by a power of ten. -/
theorem isNumeralOf_places {whole fraction : List Char} (hwhole : ∀ c ∈ whole, c.isDigit)
    (hne : whole ≠ []) (hfraction : ∀ c ∈ fraction, c.isDigit) :
    IsNumeralOf (whole ++ '.' :: fraction)
      (ofDigits (whole ++ fraction) * 10 ^ (-(fraction.length : Int))) := by
  have hnumeral := isNumeralOf_point hwhole hne hfraction isPlain_nil (by simp) rfl
  rwa [List.append_nil, zero_sub] at hnumeral

/-- Positional notation denotes the decimal. -/
theorem isNumeralOf_renderPositional (d : Decimal) :
    IsNumeralOf (renderPositional (digitsOf d.digits) d.exponent).toList d.toRat := by
  have hdigits : ∀ c ∈ digitsOf d.digits, c.isDigit := fun c hc => isDigit_of_mem_digitsOf hc
  rw [renderPositional]
  dsimp only
  split
  · -- Zeros fill up to the point, and one more stands behind it.
    rename_i hexponent
    obtain ⟨k, hk⟩ := Int.eq_ofNat_of_zero_le hexponent
    have hnumeral := isNumeralOf_places
      (List.forall_mem_append.mpr ⟨hdigits, fun c => @isDigit_of_mem_replicate k c⟩)
      (List.append_ne_nil_of_left_ne_nil (digitsOf_ne_nil _) _)
      (fun c => @isDigit_of_mem_replicate 1 c)
    have hrat : d.toRat = ofDigits (digitsOf d.digits ++ List.replicate k '0' ++
        List.replicate 1 '0') * 10 ^ (-((List.replicate 1 '0').length : Int)) := by
      rw [ofDigits_append_replicate, ofDigits_append_replicate, ofDigits_digitsOf, Decimal.toRat,
        hk]
      simp
    rw [hrat]
    simpa [zeros, hk] using hnumeral
  · rename_i hexponent
    generalize hplaces : (-d.exponent).toNat = places
    have hpower : d.exponent = -places := by omega
    split
    · -- The point stands among the digits.
      rename_i hshort
      generalize hcount : (digitsOf d.digits).length - places = count
      have hwhole : (digitsOf d.digits).take count ≠ [] := by
        intro hnil
        have hlength := congrArg List.length hnil
        rw [List.length_take, List.length_nil] at hlength
        omega
      have hnumeral := isNumeralOf_places (fun c hc => hdigits c (List.mem_of_mem_take hc)) hwhole
        (fun c (hc : c ∈ (digitsOf d.digits).drop count) => hdigits c (List.mem_of_mem_drop hc))
      have hlength : (digitsOf d.digits).length - count = places := by omega
      rw [List.take_append_drop, ofDigits_digitsOf, List.length_drop, hlength, ← hpower,
        ← Decimal.toRat] at hnumeral
      simpa using hnumeral
    · -- Zeros stand on both sides of the point, before the digits.
      rename_i hlong
      have hnumeral := isNumeralOf_places (fun c => @isDigit_of_mem_replicate 1 c)
        (List.cons_ne_nil _ _)
        (@isDigit_of_mem_padded (places - (digitsOf d.digits).length) d.digits)
      have hvalue : ofDigits (List.replicate 1 '0' ++
          (List.replicate (places - (digitsOf d.digits).length) '0' ++ digitsOf d.digits)) =
            d.digits := by
        rw [ofDigits_replicate_append, ofDigits_replicate_append, ofDigits_digitsOf]
      have hlength : ((List.replicate (places - (digitsOf d.digits).length) '0' ++
          digitsOf d.digits).length : Int) = places := by
        rw [List.length_append, List.length_replicate]
        omega
      rw [hvalue, hlength, ← hpower, ← Decimal.toRat] at hnumeral
      simpa [zeros] using hnumeral

/-! ## Powers of ten -/

/-- One digit before the point and a power of ten denote the decimal. -/
theorem isNumeralOf_renderScientific (d : Decimal) :
    IsNumeralOf (renderScientific (digitsOf d.digits) d.leadingExponent).toList d.toRat := by
  have hdigits : ∀ c ∈ digitsOf d.digits, c.isDigit := fun c hc => isDigit_of_mem_digitsOf hc
  have hvalue := ofDigits_digitsOf d.digits
  obtain ⟨leading, hleading⟩ : ∃ leading, d.leadingExponent = leading := ⟨_, rfl⟩
  have hexponent := hleading
  rw [Decimal.leadingExponent] at hexponent
  have hplain := isPlain_powerChars leading (2 - (digitsOf leading.natAbs).length)
  have hpower := readPower?_powerChars leading (2 - (digitsOf leading.natAbs).length)
  have hmark : ∀ c ∈ (powerChars leading (2 - (digitsOf leading.natAbs).length)).head?,
      c.isDigit = false ∧ c ≠ '.' := by
    rintro c ⟨⟩
    decide
  have hsign : (if leading < 0 then "-" else "+").toList = [if leading < 0 then '-' else '+'] := by
    split <;> rfl
  rw [hleading]
  cases hcases : digitsOf d.digits with
  | nil => exact absurd hcases (digitsOf_ne_nil _)
  | cons first others =>
    rw [hcases] at hdigits hvalue hexponent
    cases others with
    | nil =>
      have hnumeral := isNumeralOf_append hdigits (List.cons_ne_nil _ _) hplain hmark hpower
      have hpowers : leading = d.exponent := by
        rw [← hexponent, List.length_singleton]
        omega
      -- A single digit stands without a point.
      rw [hvalue, hpowers, ← Decimal.toRat, ← hpowers] at hnumeral
      simpa [renderScientific, powerChars, zeros, hsign] using hnumeral
    | cons second others =>
      have hnumeral := isNumeralOf_point
        (fun c hc => hdigits c (List.mem_singleton.mp hc ▸ List.mem_cons_self))
        (List.cons_ne_nil first []) (fun c hc => hdigits c (List.mem_cons_of_mem _ hc)) hplain
        (fun c hc => (hmark c hc).1) hpower
      have hpowers : leading - ((second :: others).length : Int) = d.exponent := by
        rw [← hexponent, List.length_cons]
        omega
      have hvalue : ofDigits ([first] ++ second :: others) = d.digits := hvalue
      rw [hvalue, hpowers, ← Decimal.toRat] at hnumeral
      simpa [renderScientific, powerChars, zeros, hsign] using hnumeral

/-! ## Floating-point values -/

namespace Binary64

/-- The text of a value is its sign and a numeral of its number. -/
private theorem exists_isNumeralOf_render {negative : Bool} {m : Nat} {e : Int}
    (h : IsRegular (.finite negative m e)) : ∃ (cs : List Char) (d : Decimal),
      (render (.finite negative m e)).toList = signChars negative ++ cs ∧
        IsNumeralOf cs d.toRat ∧ d.toBinary negative = .finite negative m e := by
  have hsign : (if negative then "-" else "").toList = signChars negative := by
    cases negative <;> rfl
  rw [render]
  dsimp only
  split
  · rename_i hm
    subst hm
    rw [String.toList_append, hsign]
    exact ⟨_, ⟨0, 0⟩, rfl, isNumeralOf_renderPositional ⟨0, 0⟩,
      Decimal.toBinary_of_regular h (by simp [Decimal.toRat])⟩
  · rw [String.toList_append, hsign]
    refine ⟨_, shortest m e, rfl, ?_, toBinary_shortest h⟩
    split
    · exact isNumeralOf_renderPositional _
    · exact isNumeralOf_renderScientific _

variable {x : Binary64} (h : x.IsRegular)

include h

/-- A value is read back from its text. -/
theorem readBinary?_render : readBinary? x.render.toList = some x := by
  obtain ⟨negative, m, e, rfl⟩ := h.exists_finite
  obtain ⟨cs, d, htext, hnumeral, hd⟩ := exists_isNumeralOf_render h
  rw [htext, hnumeral.readBinary?_eq, hd]

theorem isPlain_render : IsPlain x.render.toList := by
  obtain ⟨negative, m, e, rfl⟩ := h.exists_finite
  obtain ⟨cs, d, htext, hnumeral, -⟩ := exists_isNumeralOf_render h
  rw [htext]
  exact (isPlain_signChars negative).append hnumeral.plain

/-- A value that is an integer is read back from the text of the integer, but for the sign of
zero. -/
theorem readBinary?_toString_of_toInt? {n : Int} (hn : x.toInt? = some n) :
    readBinary? (toString n).toList = some (if x.isZero then signedZero false else x) := by
  have hrat := toInt?_eq_some_iff.mp hn
  obtain ⟨negative, m, e, rfl⟩ := exists_of_toRat? hrat
  have hvalue : (if negative then -1 else 1) * (m : ℚ) * 2 ^ e = n := Option.some.inj hrat
  have hpower : (0 : ℚ) < 2 ^ e := zpow_pos two_pos e
  have hmagnitude : (n.natAbs : ℚ) = m * 2 ^ e := by
    have hnonneg : (0 : ℚ) ≤ m * 2 ^ e := mul_nonneg (Nat.cast_nonneg m) hpower.le
    rw [Nat.cast_natAbs, Int.cast_abs, ← hvalue, mul_assoc, abs_mul, abs_of_nonneg hnonneg]
    cases negative <;> simp
  rw [readBinary?_toString]
  by_cases hm : m = 0
  · subst hm
    obtain rfl : n = 0 := by simpa using hmagnitude
    rfl
  · have hsign : decide (n < 0) = negative := by
      have hpos : (0 : ℚ) < m * 2 ^ e :=
        mul_pos (by exact_mod_cast Nat.pos_of_ne_zero hm) hpower
      have hiff : n < 0 ↔ negative = true := by
        rw [← @Int.cast_lt_zero ℚ, ← hvalue, mul_assoc]
        cases negative with
        | true => simpa using hpos
        | false => simpa using hpos.le
      rw [← Bool.coe_iff_coe, decide_eq_true_eq, hiff]
    have hrat : (Decimal.mk n.natAbs 0).toRat = m * 2 ^ e := by
      rw [Decimal.toRat, zpow_zero, mul_one, hmagnitude]
    rw [hsign, Decimal.toBinary_of_regular h hrat, isZero, decide_eq_false hm]
    rfl

end Binary64

/-- An integer that is not too large is read as the value nearest to it. -/
theorem readBinary?_toString_of_lt {n : Int} (h : n.natAbs < 2 ^ 1023) :
    readBinary? (toString n).toList = some (.nearest (n < 0) n.natAbs 1) := by
  have hrat : (n.natAbs : ℚ) < 2 ^ (1023 : Int) := by exact_mod_cast h
  rw [readBinary?_toString, Decimal.toBinary_natCast _ hrat]

end RouteTemplate.Number
