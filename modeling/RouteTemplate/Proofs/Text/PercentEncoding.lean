/-
# Percent-encodings of a text

A percent-encoding of a text leaves a character as it is or puts the escapes of its bytes in its
place. Percent signs must be escaped; slashes may be escaped as well, so that an encoding lies
within one segment of a path. Decoding gives the text back.

## Main definitions

* `Escapes` — the escapes of bytes
* `PercentEncodes` — a percent-encoding of a text
* `Encodes` — a percent-encoding of a text, without slashes

## Main results

* `splitEncoded?_escapes` — the escapes of a character's bytes are read as that character
* `PercentEncodes.percentDecodeFrom?_append` — decoding goes through what encodes a text as a whole
* `Encodes.percentDecode?_eq` — decoding is the inverse of every encoding
-/

import RouteTemplate.Text.PercentEncoding

namespace RouteTemplate.Text

/-- Each byte as a percent sign and two hexadecimal digits, in either case. -/
inductive Escapes : List UInt8 → List Char → Prop
  | nil : Escapes [] []
  | cons {byte : UInt8} {high low : Char} {bytes escapes} :
      hexByte? high low = some byte.toNat → Escapes bytes escapes →
      Escapes (byte :: bytes) ('%' :: high :: low :: escapes)

/-- A percent-encoding of a text: each character as it is, unless it is a percent sign, or as the
escapes of the bytes that encode it. -/
inductive PercentEncodes : List Char → List Char → Prop
  | nil : PercentEncodes [] []
  | raw {c : Char} {text encoding} : c ≠ '%' → PercentEncodes text encoding →
      PercentEncodes (c :: text) (c :: encoding)
  | escaped {c : Char} {escapes text encoding} : Escapes (String.utf8EncodeChar c) escapes →
      PercentEncodes text encoding → PercentEncodes (c :: text) (escapes ++ encoding)

/-- A percent-encoding of a text: each character as it is, unless it is a percent sign or a slash,
or as the escapes of the bytes that encode it. -/
inductive Encodes : List Char → List Char → Prop
  | nil : Encodes [] []
  | raw {c : Char} {text encoding} : c ≠ '%' → c ≠ '/' → Encodes text encoding →
      Encodes (c :: text) (c :: encoding)
  | escaped {c : Char} {escapes text encoding} : Escapes (String.utf8EncodeChar c) escapes →
      Encodes text encoding → Encodes (c :: text) (escapes ++ encoding)

/-! ## Escapes -/

theorem Escapes.length_eq {bytes : List UInt8} {escapes : List Char} (h : Escapes bytes escapes) :
    escapes.length = 3 * bytes.length := by
  induction h with
  | nil => rfl
  | cons _ _ ih =>
    simp only [List.length_cons, ih]
    omega

/-- The first of several escapes is read as its byte. -/
private theorem Escapes.splitEscape?_append {byte : UInt8} {bytes : List UInt8}
    {escapes : List Char} (h : Escapes (byte :: bytes) escapes) (rest : List Char) :
    ∃ more, splitEscape? (escapes ++ rest) = some (byte.toNat, more ++ rest) ∧
      Escapes bytes more := by
  cases h with
  | @cons _ high low _ more hbyte hmore =>
    refine ⟨more, ?_, hmore⟩
    rw [List.cons_append, List.cons_append, List.cons_append, splitEscape?, hbyte, Option.map_some]

private theorem splitEncoded?_one {a : Nat} {text rest : List Char}
    (ha : splitEscape? text = some (a, rest)) (hmax : a < 0x80) :
    splitEncoded? text = some (Char.ofNat a, 1) := by
  simp [splitEncoded?, ha, hmax]

private theorem splitEncoded?_two {a b : Nat} {text rest rest' : List Char}
    (ha : splitEscape? text = some (a, rest)) (hb : splitEscape? rest = some (b, rest'))
    (hmin : 0xC0 ≤ a) (hmax : a < 0xE0) :
    splitEncoded? text = (charOfTwo? a b).map (·, 2) := by
  have hone : ¬ a < 0x80 := by omega
  have hnone : ¬ a < 0xC0 := by omega
  simp only [splitEncoded?, ha, hb, Option.bind_eq_bind, Option.bind_some, if_neg hone,
    if_neg hnone, if_pos hmax]
  cases charOfTwo? a b <;> rfl

private theorem splitEncoded?_three {a b c : Nat} {text rest rest' after : List Char}
    (ha : splitEscape? text = some (a, rest)) (hb : splitEscape? rest = some (b, rest'))
    (hc : splitEscape? rest' = some (c, after)) (hmin : 0xE0 ≤ a) (hmax : a < 0xF0) :
    splitEncoded? text = (charOfThree? a b c).map (·, 3) := by
  have hone : ¬ a < 0x80 := by omega
  have hnone : ¬ a < 0xC0 := by omega
  have htwo : ¬ a < 0xE0 := by omega
  simp only [splitEncoded?, ha, hb, hc, Option.bind_eq_bind, Option.bind_some, if_neg hone,
    if_neg hnone, if_neg htwo, if_pos hmax]
  cases charOfThree? a b c <;> rfl

private theorem splitEncoded?_four {a b c d : Nat} {text rest rest' after after' : List Char}
    (ha : splitEscape? text = some (a, rest)) (hb : splitEscape? rest = some (b, rest'))
    (hc : splitEscape? rest' = some (c, after)) (hd : splitEscape? after = some (d, after'))
    (hmin : 0xF0 ≤ a) (hmax : a < 0xF8) :
    splitEncoded? text = (charOfFour? a b c d).map (·, 4) := by
  have hone : ¬ a < 0x80 := by omega
  have hnone : ¬ a < 0xC0 := by omega
  have htwo : ¬ a < 0xE0 := by omega
  have hthree : ¬ a < 0xF0 := by omega
  simp only [splitEncoded?, ha, hb, hc, hd, Option.bind_eq_bind, Option.bind_some, if_neg hone,
    if_neg hnone, if_neg htwo, if_neg hthree, if_pos hmax]
  cases charOfFour? a b c d <;> rfl

/-! ## Bytes of a character -/

private theorem charFrom?_eq_some {c : Char} {least point : Nat} (hpoint : point = c.toNat)
    (hleast : least ≤ c.toNat) : charFrom? least point = some c := by
  subst hpoint
  have hvalid : c.toNat.isValidChar := c.valid
  simp [charFrom?, hleast, hvalid]

/-- A byte that continues a sequence holds six bits. -/
private theorem isContinuation_mod (n : Nat) : isContinuation (n % 64 + 128) = true := by
  rw [isContinuation, Bool.and_eq_true, decide_eq_true_iff, decide_eq_true_iff]
  omega

private theorem charOfTwo?_eq {c : Char} (hmin : 0x80 ≤ c.toNat) (hmax : c.toNat < 0x800) :
    charOfTwo? (c.toNat / 64 % 32 + 192) (c.toNat % 64 + 128) = some c := by
  simp only [charOfTwo?, isContinuation_mod, ↓reduceIte]
  exact charFrom?_eq_some (by omega) hmin

private theorem charOfThree?_eq {c : Char} (hmin : 0x800 ≤ c.toNat) (hmax : c.toNat < 0x10000) :
    charOfThree? (c.toNat / 4096 % 16 + 224) (c.toNat / 64 % 64 + 128) (c.toNat % 64 + 128) =
      some c := by
  simp only [charOfThree?, isContinuation_mod, Bool.and_self, ↓reduceIte]
  exact charFrom?_eq_some (by omega) hmin

private theorem charOfFour?_eq {c : Char} (hmin : 0x10000 ≤ c.toNat) :
    charOfFour? (c.toNat / 262144 % 8 + 240) (c.toNat / 4096 % 64 + 128)
      (c.toNat / 64 % 64 + 128) (c.toNat % 64 + 128) = some c := by
  have hmax : c.toNat < 0x110000 := by
    have hvalid : c.toNat.isValidChar := c.valid
    rw [Nat.isValidChar] at hvalid
    omega
  simp only [charOfFour?, isContinuation_mod, Bool.and_self, ↓reduceIte]
  exact charFrom?_eq_some (by omega) hmin

private theorem toNat_ofNat {n : Nat} (h : n < 256) : (UInt8.ofNat n).toNat = n := by
  rw [UInt8.toNat_ofNat', Nat.mod_eq_of_lt h]

/-- The escapes of the bytes of a character are read as that character, whatever follows. -/
theorem splitEncoded?_escapes {c : Char} {escapes : List Char}
    (h : Escapes (String.utf8EncodeChar c) escapes) (rest : List Char) :
    splitEncoded? (escapes ++ rest) = some (c, (String.utf8EncodeChar c).length) := by
  have htoNat : c.val.toNat = c.toNat := rfl
  -- By the number of bytes. The first one says how many there are.
  rw [String.utf8EncodeChar, htoNat] at h ⊢
  by_cases hone : c.toNat ≤ 0x7f
  · rw [if_pos hone] at h ⊢
    obtain ⟨_, ha, h⟩ := h.splitEscape?_append rest
    rw [toNat_ofNat (by omega)] at ha
    rw [splitEncoded?_one ha (by omega), Char.ofNat_toNat]
    rfl
  by_cases htwo : c.toNat ≤ 0x7ff
  · rw [if_neg hone, if_pos htwo] at h ⊢
    obtain ⟨_, ha, h⟩ := h.splitEscape?_append rest
    obtain ⟨_, hb, h⟩ := h.splitEscape?_append rest
    rw [toNat_ofNat (by omega)] at ha hb
    rw [splitEncoded?_two ha hb (by omega) (by omega), charOfTwo?_eq (by omega) (by omega)]
    rfl
  by_cases hthree : c.toNat ≤ 0xffff
  · rw [if_neg hone, if_neg htwo, if_pos hthree] at h ⊢
    obtain ⟨_, ha, h⟩ := h.splitEscape?_append rest
    obtain ⟨_, hb, h⟩ := h.splitEscape?_append rest
    obtain ⟨_, hc, h⟩ := h.splitEscape?_append rest
    rw [toNat_ofNat (by omega)] at ha hb hc
    rw [splitEncoded?_three ha hb hc (by omega) (by omega),
      charOfThree?_eq (by omega) (by omega)]
    rfl
  · rw [if_neg hone, if_neg htwo, if_neg hthree] at h ⊢
    obtain ⟨_, ha, h⟩ := h.splitEscape?_append rest
    obtain ⟨_, hb, h⟩ := h.splitEscape?_append rest
    obtain ⟨_, hc, h⟩ := h.splitEscape?_append rest
    obtain ⟨_, hd, h⟩ := h.splitEscape?_append rest
    rw [toNat_ofNat (by omega)] at ha hb hc hd
    rw [splitEncoded?_four ha hb hc hd (by omega) (by omega), charOfFour?_eq (by omega)]
    rfl

/-! ## Whole texts -/

private theorem percentDecodeFrom?_skipped (skipped rest : List Char) :
    percentDecodeFrom? skipped.length (skipped ++ rest) = percentDecodeFrom? 0 rest := by
  induction skipped with
  | nil => rfl
  | cons c skipped ih => exact ih

/-- Decoding takes the escapes of a character as a whole. -/
theorem percentDecodeFrom?_escapes {c : Char} {escapes : List Char}
    (h : Escapes (String.utf8EncodeChar c) escapes) (rest : List Char) :
    percentDecodeFrom? 0 (escapes ++ rest) = (percentDecodeFrom? 0 rest).map (c :: ·) := by
  have hsplit := splitEncoded?_escapes h rest
  have hne : String.utf8EncodeChar c ≠ [] := String.utf8EncodeChar_ne_nil
  revert h hsplit hne
  generalize String.utf8EncodeChar c = bytes
  intro h hsplit hne
  -- The characters after the first percent sign are skipped, three for each byte in all.
  have hlength := h.length_eq
  cases h with
  | nil => exact (hne rfl).elim
  | cons hbyte hmore =>
    rw [List.cons_append, percentDecodeFrom?, if_pos rfl, ← List.cons_append, hsplit]
    dsimp only
    rw [← hlength]
    exact congrArg _ (percentDecodeFrom?_skipped _ rest)

/-- Decoding goes through an encoding of a text as a whole, whatever follows. -/
theorem PercentEncodes.percentDecodeFrom?_append {text encoding : List Char}
    (h : PercentEncodes text encoding) (rest : List Char) :
    percentDecodeFrom? 0 (encoding ++ rest) = (percentDecodeFrom? 0 rest).map (text ++ ·) := by
  induction h with
  | nil => simp
  | raw hpercent _ ih =>
    rw [List.cons_append, percentDecodeFrom?, if_neg hpercent, ih, Option.map_map]
    rfl
  | escaped hescapes _ ih =>
    rw [List.append_assoc, percentDecodeFrom?_escapes hescapes, ih, Option.map_map]
    rfl

theorem PercentEncodes.percentDecodeFrom?_eq {text encoding : List Char}
    (h : PercentEncodes text encoding) : percentDecodeFrom? 0 encoding = some text := by
  have happend := h.percentDecodeFrom?_append []
  rwa [List.append_nil, percentDecodeFrom?, Option.map_some, List.append_nil] at happend

/-- A text without percent signs is an encoding of itself. -/
theorem PercentEncodes.refl {text : List Char} (hpercent : '%' ∉ text) :
    PercentEncodes text text := by
  induction text with
  | nil => exact .nil
  | cons c text ih =>
    rw [List.mem_cons, not_or] at hpercent
    exact .raw (Ne.symm hpercent.1) (ih hpercent.2)

/-- An encoding without slashes is an encoding. -/
theorem Encodes.percentEncodes {text encoding : List Char} (h : Encodes text encoding) :
    PercentEncodes text encoding := by
  induction h with
  | nil => exact .nil
  | raw hpercent _ _ ih => exact .raw hpercent ih
  | escaped hescapes _ ih => exact .escaped hescapes ih

/-- Decoding is the inverse of every encoding. -/
theorem Encodes.percentDecodeFrom?_eq {text encoding : List Char} (h : Encodes text encoding) :
    percentDecodeFrom? 0 encoding = some text :=
  h.percentEncodes.percentDecodeFrom?_eq

theorem Encodes.percentDecode?_eq {text : String} {encoding : List Char}
    (h : Encodes text.toList encoding) : percentDecode? (String.ofList encoding) = some text := by
  rw [percentDecode?, String.toList_ofList, h.percentDecodeFrom?_eq, Option.map_some,
    String.ofList_toList]

/-- A text without percent signs and slashes is an encoding of itself. -/
theorem Encodes.refl {text : List Char} (hpercent : '%' ∉ text) (hslash : '/' ∉ text) :
    Encodes text text := by
  induction text with
  | nil => exact .nil
  | cons c text ih =>
    rw [List.mem_cons, not_or] at hpercent hslash
    exact .raw (Ne.symm hpercent.1) (Ne.symm hslash.1) (ih hpercent.2 hslash.2)

private theorem ne_slash_of_hexDigit? {c : Char} {n : Nat} (h : hexDigit? c = some n) :
    c ≠ '/' := by
  rintro rfl
  have hnone : hexDigit? '/' = none := by decide
  exact absurd (hnone.symm.trans h) (by simp)

/-- An encoding lies within one segment of a path. -/
theorem Encodes.slash_notMem {text encoding : List Char} (h : Encodes text encoding) :
    '/' ∉ encoding := by
  have hescapes {bytes : List UInt8} {escapes : List Char} (h : Escapes bytes escapes) :
      '/' ∉ escapes := by
    induction h with
    | nil => exact List.not_mem_nil
    | cons hbyte _ ih =>
      rw [hexByte?] at hbyte
      split at hbyte
      · rename_i hhigh hlow
        simp [ih, (ne_slash_of_hexDigit? hhigh).symm, (ne_slash_of_hexDigit? hlow).symm]
      · exact absurd hbyte (by simp)
  induction h with
  | nil => exact List.not_mem_nil
  | raw _ hslash _ ih => exact List.not_mem_cons_of_ne_of_not_mem hslash.symm ih
  | escaped h _ ih => exact List.not_mem_append (hescapes h) ih

/-- Only the empty text is encoded as such. -/
theorem Encodes.ne_nil {text encoding : List Char} (h : Encodes text encoding)
    (hne : text ≠ []) : encoding ≠ [] := by
  rintro rfl
  exact hne (Option.some.inj h.percentDecodeFrom?_eq).symm

end RouteTemplate.Text
