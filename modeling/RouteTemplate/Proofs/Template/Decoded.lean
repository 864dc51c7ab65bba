/-
# Decoding texts of different case

The hexadecimal digits of an escape may have either case, and any other letter stands for itself. So
two texts that differ in the case of letters of ASCII alone are both percent-encodings, of texts
that differ in this way as well, or neither is one.

## Main definitions

* `FaultLike` — the same fault, or malformed encodings that differ in case

## Main results

* `hexDigit?_of_sameLetter` — a hexadecimal digit denotes the same number in either case
* `exists_percentEncodes_of_forall₂` — what texts of different case encode
* `rel_decodeText` — texts of different case are decoded alike
-/

import RouteTemplate.Proofs.Except
import RouteTemplate.Proofs.Template.Blind
import RouteTemplate.Proofs.Template.Resolution
import RouteTemplate.Proofs.Text.PercentDecoding

namespace RouteTemplate.Template

open Text (Escapes PercentEncodes hexDigit? hexByte?)

variable {sensitive : Bool}

/-- What is like two texts, one after the other, is two texts that are like them. -/
theorem exists_of_forall₂_append {α β : Type} {R : α → β → Prop} {l₁ l₂ : List α} {l : List β}
    (h : List.Forall₂ R (l₁ ++ l₂) l) :
    ∃ l₁' l₂', List.Forall₂ R l₁ l₁' ∧ List.Forall₂ R l₂ l₂' ∧ l = l₁' ++ l₂' :=
  ⟨l.take l₁.length, l.drop l₁.length, (List.forall₂_take_append _ _ _ h.flip).flip,
    (List.forall₂_drop_append _ _ _ h.flip).flip, (List.take_append_drop _ l).symm⟩

/-! ## Escapes -/

/-- A hexadecimal digit denotes the same number in either case. -/
theorem hexDigit?_of_sameLetter {c d : Char} (h : SameLetter sensitive c d) :
    hexDigit? c = hexDigit? d := by
  -- The digits of either case are a capital and the small letter behind it.
  have hcapital {c d : Char} (hc : 0x41 ≤ c.toNat ∧ c.toNat ≤ 0x5A)
      (hd : d.toNat = c.toNat + 0x20) : hexDigit? c = hexDigit? d := by
    have hletters : ∀ n ∈ List.range' 0x41 26,
        hexDigit? (Char.ofNat n) = hexDigit? (Char.ofNat (n + 0x20)) := by decide
    rw [← Char.ofNat_toNat c, ← Char.ofNat_toNat d, hd]
    exact hletters _ (List.mem_range'_1.mpr (by omega))
  rcases h.eq_or_capital with rfl | ⟨hc, hd⟩ | ⟨hd, hc⟩
  · rfl
  · exact hcapital hc hd
  · exact (hcapital hd hc).symm

theorem ne_percent_of_sameLetter {c d : Char} (h : SameLetter sensitive c d) (hc : c ≠ '%') :
    d ≠ '%' := by
  rintro rfl
  exact hc (h.eq_of_uncased (by decide))

theorem escapes_of_forall₂ {bytes : List UInt8} {escapes escapes' : List Char}
    (h : Escapes bytes escapes) (hlike : List.Forall₂ (SameLetter sensitive) escapes escapes') :
    Escapes bytes escapes' := by
  induction h generalizing escapes' with
  | nil =>
    obtain rfl := List.forall₂_nil_left_iff.mp hlike
    exact .nil
  | cons hbyte _ ih =>
    cases hlike with
    | cons hmark hlike =>
      cases hlike with
      | cons hhigh hlike =>
        cases hlike with
        | cons hlow hlike =>
          obtain rfl := hmark.symm.eq_of_uncased (by decide)
          refine .cons ?_ (ih hlike)
          rwa [hexByte?, ← hexDigit?_of_sameLetter hhigh, ← hexDigit?_of_sameLetter hlow,
            ← hexByte?]

/-- Texts of different case encode texts that differ in the same way. -/
theorem exists_percentEncodes_of_forall₂ {text encoding encoding' : List Char}
    (h : PercentEncodes text encoding)
    (hlike : List.Forall₂ (SameLetter sensitive) encoding encoding') :
    ∃ text', PercentEncodes text' encoding' ∧ List.Forall₂ (SameLetter sensitive) text text' := by
  induction h generalizing encoding' with
  | nil =>
    obtain rfl := List.forall₂_nil_left_iff.mp hlike
    exact ⟨[], .nil, .nil⟩
  | raw hc _ ih =>
    cases hlike with
    | cons hd hlike =>
      obtain ⟨text', hencodes, htext⟩ := ih hlike
      exact ⟨_, .raw (ne_percent_of_sameLetter hd hc) hencodes, .cons hd htext⟩
  | @escaped c _ _ _ hescapes _ ih =>
    obtain ⟨escapes', rest, hescapes', hrest, rfl⟩ := exists_of_forall₂_append hlike
    obtain ⟨text', hencodes, htext⟩ := ih hrest
    exact ⟨c :: text', .escaped (escapes_of_forall₂ hescapes hescapes') hencodes,
      .cons (.refl c) htext⟩

/-! ## Decoding -/

/-- The same fault, or two malformed encodings that differ in case. -/
inductive FaultLike (sensitive : Bool) : Fault → Fault → Prop
  | refl (fault : Fault) : FaultLike sensitive fault fault
  | malformedEncoding {s t : String} (h : IsLike sensitive s t) :
      FaultLike sensitive (.malformedEncoding s) (.malformedEncoding t)

theorem IsLike.symm {s t : String} (h : IsLike sensitive s t) : IsLike sensitive t s :=
  (h.imp fun _ _ hcd => hcd.symm).flip

/-- Texts of different case are decoded alike. -/
theorem rel_decodeText {s t : String} (h : IsLike sensitive s t) :
    Except.Rel (FaultLike sensitive) (IsLike sensitive) (decodeText s) (decodeText t) := by
  -- If either text is an encoding, so is the other.
  have hdecode {s t decoded : String} (h : IsLike sensitive s t)
      (hs : Text.percentDecode? s = some decoded) :
      ∃ decoded', Text.percentDecode? t = some decoded' ∧ IsLike sensitive decoded decoded' := by
    obtain ⟨text, hencodes, htext⟩ :=
      exists_percentEncodes_of_forall₂ (Text.percentDecode?_eq_some_iff.mp hs) h
    refine ⟨String.ofList text, Text.percentDecode?_eq_some_iff.mpr ?_, ?_⟩
    · rwa [String.toList_ofList]
    · rwa [IsLike, String.toList_ofList]
  rw [decodeText_eq, decodeText_eq]
  cases hs : Text.percentDecode? s with
  | some decoded =>
    obtain ⟨decoded', ht, hlike⟩ := hdecode h hs
    rw [ht]
    exact .ok hlike
  | none =>
    cases ht : Text.percentDecode? t with
    | none => exact .error (.malformedEncoding h)
    | some decoded' =>
      obtain ⟨decoded, hs', -⟩ := hdecode h.symm ht
      exact absurd (hs.symm.trans hs') (by simp)

end RouteTemplate.Template
