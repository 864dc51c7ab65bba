/-
# Reading numerals

What is written of digits, signs, points and a letter for a power of ten is read character by
character: there are no blanks around it, and no underscores in it. An integer is read back from its
digits, and a floating-point value is read as the decimal that its digits denote.

## Main definitions

* `IsPlain` — a numeral without blanks and underscores
* `signChars` — the sign before a numeral
* `powerChars` — the power of ten after a numeral

## Main results

* `ofDigits_append`, `ofDigits_digitsOf` — the number of digits
* `readInteger?_toString` — an integer is read back from its text
* `readDecimal?_append`, `readDecimal?_point` — digits, a point and a power of ten
* `readBinary?_toString` — an integer as a floating-point value
-/

import Mathlib.Algebra.Group.Nat.Defs
import RouteTemplate.Number.Numeral

namespace RouteTemplate.Number

/-! ## Characters -/

/-- The characters are those of numerals in ASCII, without blanks and underscores. -/
def IsPlain (cs : List Char) : Prop :=
  ∀ c ∈ cs, c.isDigit ∨ c ∈ ['-', '+', '.', 'e']

theorem IsPlain.append {cs ds : List Char} (hc : IsPlain cs) (hd : IsPlain ds) :
    IsPlain (cs ++ ds) :=
  fun c hmem => (List.mem_append.mp hmem).elim (hc c) (hd c)

theorem isPlain_nil : IsPlain [] :=
  fun _ hc => absurd hc List.not_mem_nil

theorem isPlain_of_isDigit {cs : List Char} (h : ∀ c ∈ cs, c.isDigit) : IsPlain cs :=
  fun c hc => .inl (h c hc)

/-- A decimal digit of ASCII lies between the code points of the first and the last one. -/
private theorem toNat_of_isDigit {c : Char} (h : c.isDigit) : 0x30 ≤ c.toNat ∧ c.toNat ≤ 0x39 := by
  rw [Char.isDigit, Bool.and_eq_true, decide_eq_true_eq, decide_eq_true_eq] at h
  exact ⟨UInt32.le_iff_toNat_le.mp h.1, UInt32.le_iff_toNat_le.mp h.2⟩

theorem numeralChars_eq {cs : List Char} (h : IsPlain cs) : numeralChars cs = cs := by
  have hchar {c : Char} (hc : c ∈ cs) : toAscii c = c ∧ Text.isAsciiBlank c = false := by
    rcases h c hc with hdigit | hother
    · obtain ⟨hmin, hmax⟩ := toNat_of_isDigit hdigit
      constructor
      · rw [toAscii, if_pos (by omega)]
      · simp only [Text.isAsciiBlank, Bool.or_eq_false_iff, Bool.and_eq_false_iff,
          decide_eq_false_iff_not]
        omega
    · simp only [List.mem_cons, List.not_mem_nil, or_false] at hother
      rcases hother with rfl | rfl | rfl | rfl <;> exact ⟨rfl, rfl⟩
  have hascii : cs.map toAscii = cs :=
    (List.map_congr_left fun c hc => (hchar hc).1).trans (List.map_id cs)
  have hkeep {ds : List Char} (hds : ∀ c ∈ ds, c ∈ cs) : ds.dropWhile Text.isAsciiBlank = ds := by
    cases ds with
    | nil => rfl
    | cons d ds =>
      rw [List.dropWhile_cons, (hchar (hds d List.mem_cons_self)).2, if_neg Bool.false_ne_true]
  rw [numeralChars, hascii, strip, hkeep fun c hc => hc, hkeep fun c hc => List.mem_reverse.mp hc,
    List.reverse_reverse]

theorem dropUnderscores_eq {cs : List Char} (h : IsPlain cs) : dropUnderscores cs = some cs := by
  have hother {c : Char} {ds : List Char} (hplain : IsPlain (c :: ds)) : c ≠ '_' := by
    rintro rfl
    exact absurd (hplain '_' List.mem_cons_self) (by decide)
  induction cs with
  | nil => rfl
  | cons c cs ih =>
    have hcs : IsPlain cs := fun d hd => h d (List.mem_cons_of_mem c hd)
    cases cs with
    | nil => simp [dropUnderscores, hother h]
    | cons d cs =>
      have hnext : d ≠ '_' := hother hcs
      rw [dropUnderscores, ih hcs, Option.map_some]
      · exact hother h
      · rintro e rest heq
        exact hnext (List.cons.inj heq).1

/-! ## Digits -/

theorem isDigit_of_mem_digitsOf {n : Nat} {c : Char} (h : c ∈ digitsOf n) : c.isDigit :=
  Nat.isDigit_of_mem_toDigits (by decide) (by decide) h

theorem digitsOf_ne_nil (n : Nat) : digitsOf n ≠ [] :=
  Nat.toDigits_ne_nil

theorem ofDigits_eq_ofDigitChars (digits : List Char) :
    ofDigits digits = Nat.ofDigitChars 10 digits 0 := by
  rw [ofDigits, Nat.ofDigitChars_eq_foldl]
  congr
  funext n c
  rw [Nat.mul_comm]

/-- A number is read back from its digits. -/
theorem ofDigits_digitsOf (n : Nat) : ofDigits (digitsOf n) = n := by
  rw [ofDigits_eq_ofDigitChars]
  exact Nat.ofDigitChars_ten_toDigits

theorem ofDigits_append (first second : List Char) :
    ofDigits (first ++ second) = ofDigits first * 10 ^ second.length + ofDigits second := by
  simp only [ofDigits_eq_ofDigitChars]
  rw [Nat.ofDigitChars_append, Nat.ofDigitChars_eq_ofDigitChars_zero, Nat.mul_comm]

theorem isDigit_of_mem_replicate {count : Nat} {c : Char} (h : c ∈ List.replicate count '0') :
    c.isDigit := by
  rw [List.eq_of_mem_replicate h]
  decide

theorem ofDigits_replicate (count : Nat) : ofDigits (List.replicate count '0') = 0 := by
  rw [ofDigits_eq_ofDigitChars, Nat.ofDigitChars_replicate_zero, Nat.mul_zero]

/-- Zeros before other digits do not count. -/
theorem ofDigits_replicate_append (count : Nat) (digits : List Char) :
    ofDigits (List.replicate count '0' ++ digits) = ofDigits digits := by
  rw [ofDigits_append, ofDigits_replicate, Nat.zero_mul, Nat.zero_add]

/-- Zeros after other digits multiply by a power of ten. -/
theorem ofDigits_append_replicate (digits : List Char) (count : Nat) :
    ofDigits (digits ++ List.replicate count '0') = ofDigits digits * 10 ^ count := by
  rw [ofDigits_append, ofDigits_replicate, List.length_replicate, Nat.add_zero]

/-- The number of digits of a number below a power of ten. -/
theorem length_digitsOf_le {n k : Nat} (h : n < 10 ^ k) (hk : 0 < k) :
    (digitsOf n).length ≤ k :=
  (Nat.length_toDigits_le_iff (by decide) hk).mpr h

/-- An integer within the range of the floating-point values can be written. -/
theorem isShort_of_natAbs_lt {n : Int} (h : n.natAbs < 2 ^ 1024) : isShort n = true := by
  have hbound : 2 ^ 1024 ≤ 10 ^ 309 := by decide +kernel
  have hlength := length_digitsOf_le (Nat.lt_of_lt_of_le h hbound) (by decide)
  exact decide_eq_true (Nat.le_trans hlength (by decide))

/-! ## Signs -/

/-- The sign before a numeral, none for numbers that are not negative. -/
def signChars (negative : Bool) : List Char :=
  if negative then ['-'] else []

theorem isPlain_signChars (negative : Bool) : IsPlain (signChars negative) := by
  cases negative with
  | true => exact fun c hc => .inr (List.mem_singleton.mp hc ▸ List.mem_cons_self)
  | false => exact isPlain_nil

/-- The sign is read where no other one follows. -/
theorem splitSign_append {negative : Bool} {cs : List Char} (hminus : cs.head? ≠ some '-')
    (hplus : cs.head? ≠ some '+') : splitSign (signChars negative ++ cs) = (negative, cs) := by
  cases negative with
  | true => rfl
  | false =>
    cases cs with
    | nil => rfl
    | cons c cs =>
      change splitSign (c :: cs) = _
      exact splitSign.eq_3 (c :: cs) (fun rest heq => hminus (congrArg List.head? heq))
        (fun rest heq => hplus (congrArg List.head? heq))

/-- Digits begin with no sign. -/
theorem head?_ne_of_isDigit {cs : List Char} (h : ∀ c ∈ cs, c.isDigit) {c : Char}
    (hc : c.isDigit = false) : cs.head? ≠ some c := by
  intro hhead
  exact absurd (h c (List.mem_of_head? hhead)) (by simp [hc])

/-- The text of an integer is its sign and the digits of its magnitude. -/
theorem toList_toString (n : Int) :
    (toString n).toList = signChars (n < 0) ++ digitsOf n.natAbs := by
  cases n with
  | ofNat n =>
    change n.repr.toList = _
    rw [Nat.toList_repr]
    rfl
  | negSucc n =>
    change ("-" ++ (n + 1).repr).toList = _
    rw [String.toList_append, Nat.toList_repr, decide_eq_true (Int.negSucc_lt_zero n)]
    rfl

theorem isPlain_toString (n : Int) : IsPlain (toString n).toList := by
  rw [toList_toString]
  exact (isPlain_signChars _).append (isPlain_of_isDigit fun c hc => isDigit_of_mem_digitsOf hc)

/-- An integer is read back from its text, if it does not have too many digits. -/
theorem readInteger?_toString {n : Int} (h : isShort n = true) :
    readInteger? (toString n).toList = some n := by
  have hdigits : ∀ c ∈ digitsOf n.natAbs, c.isDigit := fun c hc => isDigit_of_mem_digitsOf hc
  have hplain : IsPlain (digitsOf n.natAbs) := isPlain_of_isDigit hdigits
  have hsplit : splitSign (signChars (n < 0) ++ digitsOf n.natAbs) = _ :=
    splitSign_append (head?_ne_of_isDigit hdigits (by decide))
      (head?_ne_of_isDigit hdigits (by decide))
  have hempty : (digitsOf n.natAbs).isEmpty = false :=
    List.isEmpty_eq_false_iff.mpr (digitsOf_ne_nil _)
  have hall : (digitsOf n.natAbs).all Char.isDigit = true := List.all_eq_true.mpr hdigits
  have hlong : ¬ mostIntegerDigits < (digitsOf n.natAbs).length :=
    Nat.not_lt.mpr (of_decide_eq_true h)
  rw [toList_toString, readInteger?, numeralChars_eq ((isPlain_signChars _).append hplain), hsplit]
  simp only [dropUnderscores_eq hplain, hempty, hall, hlong, ofDigits_digitsOf, Option.bind_eq_bind,
    Option.bind_some, Bool.not_true, Bool.or_self, decide_false, decide_eq_true_eq,
    Bool.false_eq_true, ↓reduceIte]
  split
  · exact congrArg some (by omega)
  · exact congrArg some (by omega)

/-! ## Decimals -/

section Decimals

variable {whole fraction rest : List Char} {power : Int}

private theorem splitDigits_append (hwhole : ∀ c ∈ whole, c.isDigit)
    (hrest : ∀ c ∈ rest.head?, c.isDigit = false) :
    splitDigits (whole ++ rest) = (whole, rest) := by
  have hnone : rest.takeWhile Char.isDigit = [] ∧ rest.dropWhile Char.isDigit = rest := by
    cases rest with
    | nil => exact ⟨rfl, rfl⟩
    | cons c rest => simp [hrest c rfl]
  rw [splitDigits, List.takeWhile_append_of_pos hwhole, List.dropWhile_append_of_pos hwhole,
    hnone.1, hnone.2, List.append_nil]

/-- Digits are read as a decimal, with the power of ten after them. -/
theorem readDecimal?_append (hwhole : ∀ c ∈ whole, c.isDigit) (hne : whole ≠ [])
    (hrest : ∀ c ∈ rest.head?, c.isDigit = false ∧ c ≠ '.')
    (hpower : readPower? rest = some power) :
    readDecimal? (whole ++ rest) = some ⟨ofDigits whole, power⟩ := by
  have hempty : whole.isEmpty = false := List.isEmpty_eq_false_iff.mpr hne
  rw [readDecimal?, splitDigits_append hwhole fun c hc => (hrest c hc).1]
  cases rest with
  | nil => simp [hpower, hempty]
  | cons c rest =>
    have hpoint : c ≠ '.' := (hrest c rfl).2
    simp [hpower, hempty, hpoint]

/-- Digits on both sides of a point are read as a decimal, with the power of ten after them. -/
theorem readDecimal?_point (hwhole : ∀ c ∈ whole, c.isDigit) (hne : whole ≠ [])
    (hfraction : ∀ c ∈ fraction, c.isDigit) (hrest : ∀ c ∈ rest.head?, c.isDigit = false)
    (hpower : readPower? rest = some power) :
    readDecimal? (whole ++ '.' :: (fraction ++ rest)) =
      some ⟨ofDigits (whole ++ fraction), power - fraction.length⟩ := by
  have hempty : whole.isEmpty = false := List.isEmpty_eq_false_iff.mpr hne
  have hpoint : ∀ c ∈ ('.' :: (fraction ++ rest)).head?, c.isDigit = false := by
    rintro c ⟨⟩
    decide
  rw [readDecimal?, splitDigits_append hwhole hpoint]
  simp [splitDigits_append hfraction hrest, hpower, hempty]

/-- The text of a power of ten: a letter, the sign, and the digits after some zeros. -/
def powerChars (power : Int) (count : Nat) : List Char :=
  'e' :: (if power < 0 then '-' else '+') ::
    (List.replicate count '0' ++ digitsOf power.natAbs)

theorem isDigit_of_mem_padded {count n : Nat} :
    ∀ c ∈ List.replicate count '0' ++ digitsOf n, c.isDigit :=
  List.forall_mem_append.mpr
    ⟨fun _ hc => isDigit_of_mem_replicate hc, fun _ hc => isDigit_of_mem_digitsOf hc⟩

theorem isPlain_powerChars (power : Int) (count : Nat) : IsPlain (powerChars power count) := by
  have hmark : IsPlain ['e', if power < 0 then '-' else '+'] := by
    split <;> simp [IsPlain]
  exact hmark.append (isPlain_of_isDigit isDigit_of_mem_padded)

/-- A power of ten is read back from its text. -/
theorem readPower?_powerChars (power : Int) (count : Nat) :
    readPower? (powerChars power count) = some power := by
  have hempty : (List.replicate count '0' ++ digitsOf power.natAbs).isEmpty = false :=
    List.isEmpty_eq_false_iff.mpr (List.append_ne_nil_of_right_ne_nil _ (digitsOf_ne_nil _))
  have hall : (List.replicate count '0' ++ digitsOf power.natAbs).all Char.isDigit = true :=
    List.all_eq_true.mpr isDigit_of_mem_padded
  have hvalue : ofDigits (List.replicate count '0' ++ digitsOf power.natAbs) = power.natAbs := by
    rw [ofDigits_replicate_append, ofDigits_digitsOf]
  rw [powerChars, readPower?, if_pos (by decide)]
  by_cases hnegative : power < 0
  · rw [if_pos hnegative, splitSign]
    dsimp only
    rw [hempty, hall, hvalue, if_neg (by decide), if_pos rfl,
      ← Int.eq_neg_natAbs_of_nonpos (Int.le_of_lt hnegative)]
  · rw [if_neg hnegative, splitSign]
    dsimp only
    rw [hempty, hall, hvalue, if_neg (by decide), if_neg (by decide),
      Int.natAbs_of_nonneg (Int.not_lt.mp hnegative)]

end Decimals

/-! ## Floating-point values -/

private theorem toLower_of_isDigit {c : Char} (h : c.isDigit) : c.toLower = c := by
  obtain ⟨-, hmax⟩ := toNat_of_isDigit h
  delta Char.toLower
  rw [dif_neg]
  rintro ⟨hletter, -⟩
  have hletter : 0x41 ≤ c.toNat := UInt32.le_iff_toNat_le.mp hletter
  omega

/-- What begins with a digit, after its sign, is read as a decimal. -/
theorem readBinary?_of_decimal {negative : Bool} {first : Char} {rest : List Char} {d : Decimal}
    (hfirst : first.isDigit) (hplain : IsPlain (first :: rest))
    (hd : readDecimal? (first :: rest) = some d) :
    readBinary? (signChars negative ++ first :: rest) = some (d.toBinary negative) := by
  have hother {c : Char} (hc : c.isDigit = false) : first ≠ c := by
    rintro rfl
    exact Bool.false_ne_true (hc.symm.trans hfirst)
  -- It is none of the words for infinities and undefined values.
  have hword {c : Char} {cs : List Char} (hc : c.isDigit = false) :
      String.ofList ((first :: rest).map Char.toLower) ≠ String.ofList (c :: cs) := by
    intro heq
    have hchars := String.ofList_injective heq
    rw [List.map_cons, toLower_of_isDigit hfirst] at hchars
    exact hother hc (List.cons.inj hchars).1
  have hinf : String.ofList ((first :: rest).map Char.toLower) ≠ "inf" := by
    exact hword (by decide)
  have hinfinity : String.ofList ((first :: rest).map Char.toLower) ≠ "infinity" := by
    exact hword (by decide)
  have hnan : String.ofList ((first :: rest).map Char.toLower) ≠ "nan" := by
    exact hword (by decide)
  have hsplit : splitSign (signChars negative ++ first :: rest) = (negative, first :: rest) :=
    splitSign_append (by simpa using hother (by decide)) (by simpa using hother (by decide))
  have hplain := (isPlain_signChars negative).append hplain
  rw [readBinary?, numeralChars_eq hplain, dropUnderscores_eq hplain]
  simp only [hsplit, hinf, hinfinity, hnan, hd, Option.bind_eq_bind, Option.bind_some,
    Option.pure_def, decide_false, Bool.or_self, Bool.false_eq_true, ↓reduceIte]

/-- An integer is read as the floating-point value of its digits. -/
theorem readBinary?_toString (n : Int) :
    readBinary? (toString n).toList = some ((Decimal.mk n.natAbs 0).toBinary (n < 0)) := by
  have hdigits : ∀ c ∈ digitsOf n.natAbs, c.isDigit := fun c hc => isDigit_of_mem_digitsOf hc
  have hread : readDecimal? (digitsOf n.natAbs) = some ⟨n.natAbs, 0⟩ := by
    have happend : readDecimal? (digitsOf n.natAbs ++ []) = _ :=
      readDecimal?_append hdigits (digitsOf_ne_nil _) (by simp) rfl
    rwa [List.append_nil, ofDigits_digitsOf] at happend
  rw [toList_toString]
  obtain ⟨first, rest, hcons⟩ := List.exists_cons_of_ne_nil (digitsOf_ne_nil n.natAbs)
  rw [hcons] at hdigits hread ⊢
  exact readBinary?_of_decimal (hdigits first List.mem_cons_self) (isPlain_of_isDigit hdigits) hread

end RouteTemplate.Number
