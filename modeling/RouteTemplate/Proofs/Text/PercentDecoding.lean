/-
# What decodes

A text decodes exactly when it is a percent-encoding, and then it gives the one text that it
encodes. It is no percent-encoding for one of two reasons: a percent sign begins no escape, or the
escapes that follow one another somewhere are not those of a text, because the bytes stop within a
character or encode none.

## Main definitions

* `HasLoneSign` — a percent sign without two hexadecimal digits after it
* `HasInvalidRun` — escapes of bytes that encode no text

## Main results

* `percentDecodeFrom?_eq_some_iff` — decoding gives the text that is encoded
* `PercentEncodes.unique` — an encoding encodes one text only
* `isSome_malformedEscape?_iff` — looking for a lone sign finds one
* `not_exists_percentEncodes_iff` — why a text is no percent-encoding
* `decodeText_strict` — the texts that decode, and the fault of the others
-/

import RouteTemplate.Proofs.Text.PercentEncoding
import RouteTemplate.Template.Route

namespace RouteTemplate.Text

/-- Some percent sign is not followed by two hexadecimal digits. -/
def HasLoneSign (encoding : List Char) : Prop :=
  ∃ before after, encoding = before ++ '%' :: after ∧
    ¬ ∃ high low rest, after = high :: low :: rest ∧ isHexDigit high ∧ isHexDigit low

/-- After some beginning that is a percent-encoding, all the escapes that follow one another are
those of bytes that encode no text. -/
def HasInvalidRun (encoding : List Char) : Prop :=
  ∃ before bytes escapes after, encoding = before ++ escapes ++ after ∧
    (∃ text, PercentEncodes text before) ∧ Escapes bytes escapes ∧ after.head? ≠ some '%' ∧
    ¬ bytes.toByteArray.IsValidUTF8

/-! ## Escapes at the front -/

theorem isSome_hexByte?_iff {high low : Char} :
    (hexByte? high low).isSome ↔ isHexDigit high ∧ isHexDigit low := by
  rw [hexByte?, isHexDigit, isHexDigit]
  cases hexDigit? high <;> cases hexDigit? low <;> simp

private theorem hexDigit?_lt {c : Char} {n : Nat} (h : hexDigit? c = some n) : n < 16 := by
  have hnine : '9'.toNat = 57 := rfl
  have hzero : '0'.toNat = 48 := rfl
  have hf : 'f'.toNat = 102 := rfl
  have ha : 'a'.toNat = 97 := rfl
  have hf' : 'F'.toNat = 70 := rfl
  have ha' : 'A'.toNat = 65 := rfl
  have hle {d e : Char} : d ≤ e ↔ d.toNat ≤ e.toNat := UInt32.le_iff_toNat_le
  simp only [hexDigit?, Char.isDigit, Bool.and_eq_true, decide_eq_true_eq, hle] at h
  split at h
  · rename_i hdigit
    have hlast : c.toNat ≤ '9'.toNat := UInt32.le_iff_toNat_le.mp hdigit.2
    obtain rfl := Option.some.inj h
    omega
  · split at h
    · obtain rfl := Option.some.inj h
      omega
    · split at h
      · obtain rfl := Option.some.inj h
        omega
      · exact absurd h (by simp)

/-- Two hexadecimal digits denote a byte. -/
theorem hexByte?_lt {high low : Char} {n : Nat} (h : hexByte? high low = some n) : n < 256 := by
  rw [hexByte?] at h
  split at h
  · rename_i hhigh hlow
    have := hexDigit?_lt hhigh
    have := hexDigit?_lt hlow
    obtain rfl := Option.some.inj h
    omega
  · exact absurd h (by simp)

/-- What is read as an escape is the escape of a byte. -/
theorem exists_of_splitEscape? {text rest : List Char} {n : Nat}
    (h : splitEscape? text = some (n, rest)) :
    ∃ (byte : UInt8) (high low : Char), byte.toNat = n ∧ text = '%' :: high :: low :: rest ∧
      hexByte? high low = some byte.toNat := by
  rw [splitEscape?.eq_def] at h
  split at h
  · rename_i high low rest'
    obtain ⟨n', hbyte, hpair⟩ := Option.map_eq_some_iff.mp h
    obtain ⟨rfl, rfl⟩ := Prod.mk.inj hpair
    have htoNat : (UInt8.ofNat n').toNat = n' := by
      rw [UInt8.toNat_ofNat', Nat.mod_eq_of_lt (hexByte?_lt hbyte)]
    exact ⟨UInt8.ofNat n', high, low, htoNat, rfl, by rw [htoNat, hbyte]⟩
  · exact absurd h (by simp)

/-! ## Bytes that are read as a character -/

private theorem toNat_ofNat_of_isValidChar {n : Nat} (h : n.isValidChar) :
    (Char.ofNat n).toNat = n := by
  rw [Char.ofNat, dif_pos h]
  rfl

private theorem toNat_of_charFrom? {least point : Nat} {c : Char}
    (h : charFrom? least point = some c) : c.toNat = point ∧ least ≤ point := by
  rw [charFrom?] at h
  split at h
  · rename_i hvalid
    rw [Bool.and_eq_true, decide_eq_true_eq, decide_eq_true_eq] at hvalid
    obtain rfl := Option.some.inj h
    exact ⟨toNat_ofNat_of_isValidChar hvalid.2, hvalid.1⟩
  · exact absurd h (by simp)

private theorem isContinuation_iff {n : Nat} : isContinuation n ↔ 0x80 ≤ n ∧ n < 0xC0 := by
  rw [isContinuation, Bool.and_eq_true, decide_eq_true_eq, decide_eq_true_eq]

section Bytes

variable {a b d e : UInt8} {c : Char}

private theorem eq_ofNat {n : Nat} (h : a.toNat = n) : UInt8.ofNat n = a := by
  rw [← h, UInt8.ofNat_toNat]

private theorem utf8EncodeChar_of_one (ha : a.toNat < 0x80) :
    String.utf8EncodeChar (Char.ofNat a.toNat) = [a] := by
  have hpoint : (Char.ofNat a.toNat).val.toNat = a.toNat :=
    toNat_ofNat_of_isValidChar (.inl (by omega))
  rw [String.utf8EncodeChar, hpoint, if_pos (by omega), UInt8.ofNat_toNat]

private theorem utf8EncodeChar_of_two (hmin : 0xC0 ≤ a.toNat) (hmax : a.toNat < 0xE0)
    (h : charOfTwo? a.toNat b.toNat = some c) : String.utf8EncodeChar c = [a, b] := by
  rw [charOfTwo?] at h
  split at h
  · rename_i hb
    rw [isContinuation_iff] at hb
    obtain ⟨hpoint, hleast⟩ := toNat_of_charFrom? h
    have hpoint : c.val.toNat = _ := hpoint
    rw [String.utf8EncodeChar, hpoint, if_neg (by omega), if_pos (by omega), eq_ofNat (a := a),
      eq_ofNat (a := b)]
    all_goals omega
  · exact absurd h (by simp)

private theorem utf8EncodeChar_of_three (hmin : 0xE0 ≤ a.toNat) (hmax : a.toNat < 0xF0)
    (h : charOfThree? a.toNat b.toNat d.toNat = some c) :
    String.utf8EncodeChar c = [a, b, d] := by
  rw [charOfThree?] at h
  split at h
  · rename_i hcontinue
    rw [Bool.and_eq_true, isContinuation_iff, isContinuation_iff] at hcontinue
    obtain ⟨hpoint, hleast⟩ := toNat_of_charFrom? h
    have hpoint : c.val.toNat = _ := hpoint
    rw [String.utf8EncodeChar, hpoint, if_neg (by omega), if_neg (by omega), if_pos (by omega),
      eq_ofNat (a := a), eq_ofNat (a := b), eq_ofNat (a := d)]
    all_goals omega
  · exact absurd h (by simp)

private theorem utf8EncodeChar_of_four (hmin : 0xF0 ≤ a.toNat) (hmax : a.toNat < 0xF8)
    (h : charOfFour? a.toNat b.toNat d.toNat e.toNat = some c) :
    String.utf8EncodeChar c = [a, b, d, e] := by
  rw [charOfFour?] at h
  split at h
  · rename_i hcontinue
    rw [Bool.and_eq_true, Bool.and_eq_true, isContinuation_iff, isContinuation_iff,
      isContinuation_iff] at hcontinue
    obtain ⟨hpoint, hleast⟩ := toNat_of_charFrom? h
    have hpoint : c.val.toNat = _ := hpoint
    rw [String.utf8EncodeChar, hpoint, if_neg (by omega), if_neg (by omega), if_neg (by omega),
      eq_ofNat (a := a), eq_ofNat (a := b), eq_ofNat (a := d), eq_ofNat (a := e)]
    all_goals omega
  · exact absurd h (by simp)

end Bytes

/-- What is read as a character is the escapes of its bytes. -/
theorem exists_of_splitEncoded? {text : List Char} {c : Char} {count : Nat}
    (h : splitEncoded? text = some (c, count)) :
    ∃ escapes rest, text = escapes ++ rest ∧ Escapes (String.utf8EncodeChar c) escapes := by
  rw [splitEncoded?] at h
  obtain ⟨⟨_, rest⟩, hsplit, hone⟩ := Option.bind_eq_some_iff.mp h
  obtain ⟨a, a₁, a₂, rfl, rfl, ha⟩ := exists_of_splitEscape? hsplit
  dsimp only at hone
  split at hone
  · rename_i hmax
    obtain ⟨rfl, -⟩ := Prod.mk.inj (Option.some.inj hone)
    rw [utf8EncodeChar_of_one hmax]
    exact ⟨['%', a₁, a₂], rest, rfl, .cons ha .nil⟩
  split at hone
  · exact absurd hone (by simp)
  obtain ⟨⟨_, rest'⟩, hsplit, htwo⟩ := Option.bind_eq_some_iff.mp hone
  obtain ⟨b, b₁, b₂, rfl, rfl, hb⟩ := exists_of_splitEscape? hsplit
  dsimp only at htwo
  split at htwo
  · obtain ⟨c', hchar, htwo⟩ := Option.bind_eq_some_iff.mp htwo
    obtain ⟨rfl, -⟩ := Prod.mk.inj (Option.some.inj htwo)
    rw [utf8EncodeChar_of_two (by omega) (by omega) hchar]
    exact ⟨['%', a₁, a₂, '%', b₁, b₂], rest', rfl, .cons ha (.cons hb .nil)⟩
  obtain ⟨⟨_, rest''⟩, hsplit, hthree⟩ := Option.bind_eq_some_iff.mp htwo
  obtain ⟨d, d₁, d₂, rfl, rfl, hd⟩ := exists_of_splitEscape? hsplit
  dsimp only at hthree
  split at hthree
  · obtain ⟨c', hchar, hthree⟩ := Option.bind_eq_some_iff.mp hthree
    obtain ⟨rfl, -⟩ := Prod.mk.inj (Option.some.inj hthree)
    rw [utf8EncodeChar_of_three (by omega) (by omega) hchar]
    exact ⟨['%', a₁, a₂, '%', b₁, b₂, '%', d₁, d₂], rest'', rfl,
      .cons ha (.cons hb (.cons hd .nil))⟩
  split at hthree
  · obtain ⟨⟨_, after⟩, hsplit, hfour⟩ := Option.bind_eq_some_iff.mp hthree
    obtain ⟨e, e₁, e₂, rfl, rfl, he⟩ := exists_of_splitEscape? hsplit
    obtain ⟨c', hchar, hfour⟩ := Option.bind_eq_some_iff.mp hfour
    obtain ⟨rfl, -⟩ := Prod.mk.inj (Option.some.inj hfour)
    rw [utf8EncodeChar_of_four (by omega) (by omega) hchar]
    exact ⟨['%', a₁, a₂, '%', b₁, b₂, '%', d₁, d₂, '%', e₁, e₂], after, rfl,
      .cons ha (.cons hb (.cons hd (.cons he .nil)))⟩
  · exact absurd hthree (by simp)

/-! ## Texts that decode -/

private theorem length_lt_of_escapes {c : Char} {escapes rest : List Char}
    (h : Escapes (String.utf8EncodeChar c) escapes) :
    rest.length < (escapes ++ rest).length := by
  have hpos := List.length_pos_iff.mpr (@String.utf8EncodeChar_ne_nil c)
  rw [List.length_append, h.length_eq]
  omega

/-- What decodes is an encoding of the text that it gives. -/
theorem percentEncodes_of_percentDecodeFrom? {text encoding : List Char}
    (h : percentDecodeFrom? 0 encoding = some text) : PercentEncodes text encoding := by
  -- By the length, since the escapes of a character are taken off as a whole.
  induction hn : encoding.length using Nat.strongRecOn generalizing text encoding with
  | _ n ih =>
    subst hn
    cases encoding with
    | nil =>
      obtain rfl := Option.some.inj h
      exact .nil
    | cons c rest =>
      by_cases hpercent : c = '%'
      · subst hpercent
        cases hsplit : splitEncoded? ('%' :: rest) with
        | none =>
          rw [percentDecodeFrom?, if_pos rfl, hsplit] at h
          exact absurd h (by simp)
        | some encoded =>
          obtain ⟨d, count⟩ := encoded
          obtain ⟨escapes, more, hencoding, hescapes⟩ := exists_of_splitEncoded? hsplit
          rw [hencoding, percentDecodeFrom?_escapes hescapes] at h
          obtain ⟨tail, htail, rfl⟩ := Option.map_eq_some_iff.mp h
          rw [hencoding]
          refine .escaped hescapes (ih more.length ?_ htail rfl)
          rw [hencoding]
          exact length_lt_of_escapes hescapes
      · rw [percentDecodeFrom?, if_neg hpercent] at h
        obtain ⟨tail, htail, rfl⟩ := Option.map_eq_some_iff.mp h
        exact .raw hpercent (ih rest.length (Nat.lt_succ_self _) htail rfl)

/-- Decoding gives the text that is encoded. -/
theorem percentDecodeFrom?_eq_some_iff {text encoding : List Char} :
    percentDecodeFrom? 0 encoding = some text ↔ PercentEncodes text encoding :=
  ⟨percentEncodes_of_percentDecodeFrom?, PercentEncodes.percentDecodeFrom?_eq⟩

theorem percentDecode?_eq_some_iff {text encoding : String} :
    percentDecode? encoding = some text ↔ PercentEncodes text.toList encoding.toList := by
  rw [← percentDecodeFrom?_eq_some_iff, percentDecode?, Option.map_eq_some_iff]
  constructor
  · rintro ⟨text, h, rfl⟩
    rwa [String.toList_ofList]
  · intro h
    exact ⟨text.toList, h, String.ofList_toList⟩

/-- An encoding encodes one text only. -/
theorem PercentEncodes.unique {text text' encoding : List Char} (h : PercentEncodes text encoding)
    (h' : PercentEncodes text' encoding) : text = text' :=
  Option.some.inj (h.percentDecodeFrom?_eq.symm.trans h'.percentDecodeFrom?_eq)

/-! ## Texts that do not decode -/

theorem not_hasLoneSign_nil : ¬ HasLoneSign [] := by
  rintro ⟨before, after, hsplit, -⟩
  exact absurd (congrArg List.length hsplit) (by simp)

theorem hasLoneSign_cons_iff {c : Char} {rest : List Char} :
    HasLoneSign (c :: rest) ↔
      (c = '%' ∧ ¬ ∃ high low more, rest = high :: low :: more ∧ isHexDigit high ∧ isHexDigit low) ∨
        HasLoneSign rest := by
  constructor
  · rintro ⟨before, after, hsplit, hlone⟩
    cases before with
    | nil =>
      obtain ⟨rfl, rfl⟩ := List.cons.inj hsplit
      exact .inl ⟨rfl, hlone⟩
    | cons _ before =>
      obtain ⟨rfl, rfl⟩ := List.cons.inj hsplit
      exact .inr ⟨before, after, rfl, hlone⟩
  · rintro (⟨rfl, hlone⟩ | ⟨before, after, rfl, hlone⟩)
    · exact ⟨[], rest, rfl, hlone⟩
    · exact ⟨c :: before, after, rfl, hlone⟩

private theorem isSome_splitEscape?_iff {rest : List Char} :
    (splitEscape? ('%' :: rest)).isSome ↔
      ∃ high low more, rest = high :: low :: more ∧ isHexDigit high ∧ isHexDigit low := by
  rcases rest with _ | ⟨high, _ | ⟨low, more⟩⟩
  · simp [splitEscape?]
  · simp [splitEscape?]
  · simp only [splitEscape?, Option.isSome_map, isSome_hexByte?_iff, List.cons.injEq]
    constructor
    · rintro ⟨hhigh, hlow⟩
      exact ⟨high, low, more, ⟨rfl, rfl, rfl⟩, hhigh, hlow⟩
    · rintro ⟨_, _, _, ⟨rfl, rfl, rfl⟩, hdigits⟩
      exact hdigits

/-- Looking for a percent sign that begins no escape finds one if there is one. -/
theorem isSome_malformedEscape?_iff {encoding : List Char} :
    (malformedEscape? encoding).isSome ↔ HasLoneSign encoding := by
  induction encoding with
  | nil => simp [malformedEscape?, not_hasLoneSign_nil]
  | cons c rest ih =>
    rw [malformedEscape?, hasLoneSign_cons_iff, ← ih]
    by_cases hpercent : c = '%'
    · subst hpercent
      rw [← isSome_splitEscape?_iff]
      cases splitEscape? ('%' :: rest) <;> simp
    · simp [hpercent]

private theorem ne_percent_of_isHexDigit {c : Char} (h : isHexDigit c = true) : c ≠ '%' := by
  rintro rfl
  exact absurd h (by decide)

/-- No escape has a lone sign. -/
theorem Escapes.not_hasLoneSign_append {bytes : List UInt8} {escapes rest : List Char}
    (h : Escapes bytes escapes) (hrest : ¬ HasLoneSign rest) : ¬ HasLoneSign (escapes ++ rest) := by
  induction h with
  | nil => exact hrest
  | @cons byte high low bytes escapes hbyte _ ih =>
    obtain ⟨hhigh, hlow⟩ := isSome_hexByte?_iff.mp (Option.isSome_of_eq_some hbyte)
    simp only [List.cons_append, hasLoneSign_cons_iff, ne_percent_of_isHexDigit hhigh,
      ne_percent_of_isHexDigit hlow, false_and, ih, or_false, true_and, Classical.not_not]
    exact ⟨high, low, escapes ++ rest, rfl, hhigh, hlow⟩

theorem PercentEncodes.not_hasLoneSign {text encoding : List Char}
    (h : PercentEncodes text encoding) : ¬ HasLoneSign encoding := by
  induction h with
  | nil => exact not_hasLoneSign_nil
  | raw hpercent _ ih => exact mt hasLoneSign_cons_iff.mp (by simp [hpercent, ih])
  | escaped hescapes _ ih => exact hescapes.not_hasLoneSign_append ih

/-- Without lone signs, a text begins with escapes, maybe none, after which no percent sign
follows. -/
theorem exists_escapes_append {encoding : List Char} (h : ¬ HasLoneSign encoding) :
    ∃ bytes escapes after, encoding = escapes ++ after ∧ Escapes bytes escapes ∧
      after.head? ≠ some '%' ∧ ¬ HasLoneSign after := by
  induction hn : encoding.length using Nat.strongRecOn generalizing encoding with
  | _ n ih =>
    subst hn
    cases encoding with
    | nil => exact ⟨[], [], [], rfl, .nil, by simp, h⟩
    | cons c rest =>
      by_cases hpercent : c = '%'
      · subst hpercent
        rw [hasLoneSign_cons_iff, not_or] at h
        obtain ⟨high, low, more, rfl, hhigh, hlow⟩ :=
          Classical.not_not.mp fun hlone => h.1 ⟨rfl, hlone⟩
        obtain ⟨n, hbyte⟩ := Option.isSome_iff_exists.mp (isSome_hexByte?_iff.mpr ⟨hhigh, hlow⟩)
        have hmore : ¬ HasLoneSign more := by
          rw [hasLoneSign_cons_iff, not_or, hasLoneSign_cons_iff, not_or] at h
          exact h.2.2.2
        obtain ⟨bytes, escapes, after, rfl, hescapes, hafter, hlone⟩ :=
          ih more.length (by simp only [List.length_cons]; omega) hmore rfl
        have htoNat : (UInt8.ofNat n).toNat = n := by
          rw [UInt8.toNat_ofNat', Nat.mod_eq_of_lt (hexByte?_lt hbyte)]
        exact ⟨UInt8.ofNat n :: bytes, '%' :: high :: low :: escapes, after, rfl,
          .cons (by rw [htoNat, hbyte]) hescapes, hafter, hlone⟩
      · exact ⟨[], [], c :: rest, rfl, .nil, by simpa using hpercent, h⟩

/-- The bytes encode a text. -/
theorem isValidUTF8_toByteArray_iff {bytes : List UInt8} :
    bytes.toByteArray.IsValidUTF8 ↔
      ∃ text : List Char, text.flatMap String.utf8EncodeChar = bytes := by
  constructor
  · rintro ⟨text, h⟩
    rw [List.utf8Encode, List.toByteArray_inj] at h
    exact ⟨text, h.symm⟩
  · rintro ⟨text, rfl⟩
    exact ⟨text, rfl⟩

theorem Escapes.exists_of_append {bytes bytes' : List UInt8} {escapes : List Char}
    (h : Escapes (bytes ++ bytes') escapes) :
    ∃ first second, escapes = first ++ second ∧ Escapes bytes first ∧ Escapes bytes' second := by
  induction bytes generalizing escapes with
  | nil => exact ⟨[], escapes, rfl, .nil, h⟩
  | cons byte bytes ih =>
    cases h with
    | @cons _ high low _ more hbyte hmore =>
      obtain ⟨first, second, rfl, hfirst, hsecond⟩ := ih hmore
      exact ⟨'%' :: high :: low :: first, second, rfl, .cons hbyte hfirst, hsecond⟩

/-- The escapes of all the bytes of a text are an encoding of it. -/
theorem percentEncodes_of_escapes {text escapes : List Char}
    (h : Escapes (text.flatMap String.utf8EncodeChar) escapes) : PercentEncodes text escapes := by
  induction text generalizing escapes with
  | nil =>
    cases h
    exact .nil
  | cons c text ih =>
    rw [List.flatMap_cons] at h
    obtain ⟨first, second, rfl, hfirst, hsecond⟩ := h.exists_of_append
    exact .escaped hfirst (ih hsecond)

theorem PercentEncodes.append {text text' encoding encoding' : List Char}
    (h : PercentEncodes text encoding) (h' : PercentEncodes text' encoding') :
    PercentEncodes (text ++ text') (encoding ++ encoding') := by
  induction h with
  | nil => exact h'
  | raw hpercent _ ih => exact .raw hpercent ih
  | escaped hescapes _ ih =>
    rw [List.append_assoc]
    exact .escaped hescapes ih

/-- Where no percent sign follows them, escapes are the first of all the escapes at the front. -/
private theorem Escapes.exists_of_append_eq {bytes bytes' : List UInt8}
    {escapes escapes' rest rest' : List Char} (h : Escapes bytes escapes)
    (h' : Escapes bytes' escapes') (heq : escapes ++ rest = escapes' ++ rest')
    (hrest : rest'.head? ≠ some '%') :
    ∃ bytes'' escapes'', bytes' = bytes ++ bytes'' ∧ rest = escapes'' ++ rest' ∧
      Escapes bytes'' escapes'' := by
  induction h generalizing bytes' escapes' with
  | nil => exact ⟨bytes', escapes', rfl, heq, h'⟩
  | cons hbyte _ ih =>
    cases h' with
    | nil => exact absurd (congrArg List.head? heq).symm hrest
    | cons hbyte' hmore' =>
      simp only [List.cons_append, List.cons.injEq, true_and] at heq
      obtain ⟨rfl, rfl, heq⟩ := heq
      obtain ⟨bytes'', escapes'', rfl, hafter, hescapes''⟩ := ih hmore' heq
      obtain rfl := UInt8.toNat_inj.mp (Option.some.inj (hbyte.symm.trans hbyte'))
      exact ⟨bytes'', escapes'', rfl, hafter, hescapes''⟩

/-- All the escapes at the front of an encoding are those of the bytes of a text. -/
theorem PercentEncodes.exists_flatMap_eq {text encoding : List Char}
    (h : PercentEncodes text encoding) {bytes : List UInt8} {escapes after : List Char}
    (hencoding : encoding = escapes ++ after) (hescapes : Escapes bytes escapes)
    (hafter : after.head? ≠ some '%') :
    ∃ front : List Char, front.flatMap String.utf8EncodeChar = bytes := by
  induction h generalizing bytes escapes with
  | nil =>
    cases hescapes with
    | nil => exact ⟨[], rfl⟩
    | cons => exact absurd hencoding (by simp)
  | raw hpercent _ _ =>
    cases hescapes with
    | nil => exact ⟨[], rfl⟩
    | cons => exact absurd (List.cons.inj hencoding).1 hpercent
  | @escaped c first _ _ hfirst _ ih =>
    obtain ⟨bytes', escapes', rfl, hrest, hescapes'⟩ :=
      hfirst.exists_of_append_eq hescapes hencoding hafter
    obtain ⟨front, rfl⟩ := ih hrest hescapes'
    exact ⟨c :: front, List.flatMap_cons⟩

theorem PercentEncodes.not_hasInvalidRun {text encoding : List Char}
    (h : PercentEncodes text encoding) : ¬ HasInvalidRun encoding := by
  rintro ⟨before, bytes, escapes, after, rfl, ⟨front, hbefore⟩, hescapes, hafter, hinvalid⟩
  have hdecode := h.percentDecodeFrom?_eq
  rw [List.append_assoc, hbefore.percentDecodeFrom?_append] at hdecode
  obtain ⟨rest, hrest, -⟩ := Option.map_eq_some_iff.mp hdecode
  exact hinvalid (isValidUTF8_toByteArray_iff.mpr
    ((percentEncodes_of_percentDecodeFrom? hrest).exists_flatMap_eq rfl hescapes hafter))

/-- What is no encoding stays none after an encoding, and for the same reason. -/
private theorem HasInvalidRun.append {text encoding rest : List Char}
    (hencoding : PercentEncodes text encoding) (h : HasInvalidRun rest) :
    HasInvalidRun (encoding ++ rest) := by
  obtain ⟨before, bytes, escapes, after, rfl, ⟨front, hbefore⟩, hrun⟩ := h
  exact ⟨encoding ++ before, bytes, escapes, after, by simp only [List.append_assoc],
    ⟨text ++ front, hencoding.append hbefore⟩, hrun⟩

/-- Without lone signs, a text is an encoding or has an invalid run. -/
theorem exists_percentEncodes_or_hasInvalidRun {encoding : List Char}
    (h : ¬ HasLoneSign encoding) :
    (∃ text, PercentEncodes text encoding) ∨ HasInvalidRun encoding := by
  -- By the length, since a whole run of escapes is taken off the front.
  induction hn : encoding.length using Nat.strongRecOn generalizing encoding with
  | _ n ih =>
    subst hn
    obtain ⟨bytes, escapes, after, rfl, hescapes, hafter, hlone⟩ := exists_escapes_append h
    by_cases hvalid : bytes.toByteArray.IsValidUTF8
    · obtain ⟨front, rfl⟩ := isValidUTF8_toByteArray_iff.mp hvalid
      have hfront := percentEncodes_of_escapes hescapes
      cases after with
      | nil =>
        rw [List.append_nil]
        exact .inl ⟨front, hfront⟩
      | cons c rest =>
        have hpercent : c ≠ '%' := fun hc => hafter (congrArg some hc)
        rw [hasLoneSign_cons_iff, not_or] at hlone
        have hlength : rest.length < (escapes ++ c :: rest).length := by
          rw [List.length_append, List.length_cons]
          omega
        have hfrontc : PercentEncodes (front ++ [c]) (escapes ++ [c]) :=
          hfront.append (.raw hpercent .nil)
        rw [List.append_cons]
        rcases ih rest.length hlength hlone.2 rfl with ⟨text, htext⟩ | hrun
        · exact .inl ⟨(front ++ [c]) ++ text, hfrontc.append htext⟩
        · exact .inr (hrun.append hfrontc)
    · exact .inr ⟨[], bytes, escapes, after, rfl, ⟨[], .nil⟩, hescapes, hafter, hvalid⟩

/-- A text is no percent-encoding for one of two reasons. -/
theorem not_exists_percentEncodes_iff {encoding : List Char} :
    (¬ ∃ text, PercentEncodes text encoding) ↔ HasLoneSign encoding ∨ HasInvalidRun encoding := by
  constructor
  · intro h
    by_cases hlone : HasLoneSign encoding
    · exact .inl hlone
    · exact .inr ((exists_percentEncodes_or_hasInvalidRun hlone).resolve_left h)
  · rintro (hlone | hrun) ⟨text, htext⟩
    · exact htext.not_hasLoneSign hlone
    · exact htext.not_hasInvalidRun hrun

end RouteTemplate.Text

namespace RouteTemplate.Template

open Text

variable {text : String}

/-- Decoding first looks for a lone sign. What is found then would not decode either. -/
theorem decodeText_eq (text : String) :
    decodeText text = match percentDecode? text with
      | some decoded => .ok decoded
      | none => .error (.malformedEncoding text) := by
  rw [decodeText]
  split
  · rename_i hmalformed
    have hlone := isSome_malformedEscape?_iff.mp hmalformed
    cases hdecode : percentDecode? text with
    | none => rfl
    | some decoded =>
      exact absurd hlone (percentDecode?_eq_some_iff.mp hdecode).not_hasLoneSign
  · rfl

theorem decodeText_eq_ok_iff {name : String} :
    decodeText text = .ok name ↔ percentDecode? text = some name := by
  rw [decodeText_eq]
  cases percentDecode? text <;> simp

theorem decodeText_eq_error_iff {fault : Fault} :
    decodeText text = .error fault ↔
      percentDecode? text = none ∧ fault = .malformedEncoding text := by
  rw [decodeText_eq]
  cases percentDecode? text <;> simp [eq_comm]

/-- Without percent signs a text stands for itself. -/
theorem decodeText_of_percent_notMem (h : '%' ∉ text.toList) :
    decodeText text = .ok text := by
  rw [decodeText_eq_ok_iff, percentDecode?_eq_some_iff]
  exact PercentEncodes.refl h

/-- Decoding is exactly strict percent-decoding. It gives the text that is encoded, and for what is
no percent-encoding the fault that names it, because of a lone sign or an invalid run. -/
theorem decodeText_strict (encoding : String) :
    (∀ text : String,
      decodeText encoding = .ok text ↔ PercentEncodes text.toList encoding.toList) ∧
    (∀ fault, decodeText encoding = .error fault ↔
      fault = .malformedEncoding encoding ∧
        ¬ ∃ text : String, PercentEncodes text.toList encoding.toList) ∧
    ((¬ ∃ text : String, PercentEncodes text.toList encoding.toList) ↔
      HasLoneSign encoding.toList ∨ HasInvalidRun encoding.toList) := by
  have hok (text : String) :
      decodeText encoding = .ok text ↔ PercentEncodes text.toList encoding.toList := by
    rw [decodeText_eq_ok_iff, percentDecode?_eq_some_iff]
  refine ⟨hok, fun fault => ?_, ?_⟩
  · rw [decodeText_eq_error_iff, and_comm, Option.eq_none_iff_forall_ne_some, not_exists]
    simp only [ne_eq, percentDecode?_eq_some_iff]
  · have htexts : (∃ text : String, PercentEncodes text.toList encoding.toList) ↔
        ∃ text, PercentEncodes text encoding.toList :=
      ⟨fun ⟨text, h⟩ => ⟨text.toList, h⟩,
        fun ⟨text, h⟩ => ⟨String.ofList text, by rwa [String.toList_ofList]⟩⟩
    rw [htexts, not_exists_percentEncodes_iff]

end RouteTemplate.Template
