/-
# What the scan of a template yields

A special character is never read as a plain one, and a reference has a name and no other
character before its braces than a slash or a point. No reference goes on over a slash or over the
beginning of another one, so the parts of a template before and after it are read independently of
each other.

## Main definitions

* `Piece.IsWellFormed` — a piece as the scan yields it

## Main results

* `isWellFormed_of_mem_scan` — the scan yields well-formed pieces
* `readReference?_eq_some_iff` — a reference is read where a well-formed one stands
* `scan_append_slash`, `scan_append_reference` — a template is read on both sides of a slash or a
  reference separately
* `scan_slash_reference`, `scan_slash_of_notMem` — the pieces of one segment
-/

import RouteTemplate.Template.Piece

namespace RouteTemplate.Template

/-- A name of word characters and percent-escapes. -/
def IsName (name : List Char) : Prop :=
  name ≠ [] ∧ splitName name = (name, [])

/-- A piece as the scan yields it. -/
def Piece.IsWellFormed : Piece → Prop
  | .reference r => (r.lead = none ∨ r.lead = some '/' ∨ r.lead = some '.') ∧ IsName r.rawName
  | .special c => isSpecial c
  | .plain c => isSpecial c = false

/-! ## Well-formed pieces -/

/-- The longest name at the front of a text is a name as a whole. -/
theorem splitName_splitName (cs : List Char) :
    splitName (splitName cs).1 = ((splitName cs).1, []) := by
  fun_induction splitName cs with
  | case1 => rfl
  | case2 a b rest h name after hsplit ih =>
    rw [hsplit] at ih
    simp only [splitName, h, ↓reduceIte, ih]
  | case3 a b rest h => rfl
  | case4 c rest hnot h name after hsplit ih =>
    rw [hsplit] at ih
    rw [splitName]
    · simp only [h, ↓reduceIte, ih]
    · -- A percent sign is no word character.
      rintro a b rest' rfl -
      exact absurd h (by decide +kernel)
  | case5 c rest hnot h => rfl

private theorem eq_of_readBraces? {lead : Option Char} {cs : List Char} {r : Reference}
    (h : readBraces? lead cs = some r) : r.lead = lead ∧ IsName r.rawName := by
  cases cs with
  | nil => simp [readBraces?] at h
  | cons c rest =>
    simp only [readBraces?, Option.ite_none_right_eq_some, Bool.and_eq_true, Bool.not_eq_true',
      Option.some.injEq] at h
    obtain ⟨-, ⟨hname, -⟩, rfl⟩ := h
    exact ⟨rfl, List.isEmpty_eq_false_iff.mp hname, splitName_splitName _⟩

/-- A reference that is read is well formed. -/
theorem isWellFormed_of_readReference? {cs : List Char} {r : Reference}
    (h : readReference? cs = some r) : (Piece.reference r).IsWellFormed := by
  cases cs with
  | nil => simp [readReference?] at h
  | cons c rest =>
    rw [readReference?] at h
    split at h
    · rename_i hc
      obtain ⟨hlead, hname⟩ := eq_of_readBraces? h
      rcases Bool.or_eq_true _ _ |>.mp hc with hslash | hpoint
      · exact ⟨.inr (.inl (hlead.trans (congrArg some (of_decide_eq_true hslash)))), hname⟩
      · exact ⟨.inr (.inr (hlead.trans (congrArg some (of_decide_eq_true hpoint)))), hname⟩
    · obtain ⟨hlead, hname⟩ := eq_of_readBraces? h
      exact ⟨.inl hlead, hname⟩

/-- Every piece that the scan yields is well formed. -/
theorem isWellFormed_of_mem_scan {template : List Char} {piece : Piece}
    (h : piece ∈ scan template) : piece.IsWellFormed := by
  have hfrom (n : Nat) (cs : List Char) : ∀ piece ∈ scanFrom n cs, piece.IsWellFormed := by
    fun_induction scanFrom n cs with
    | case1 => simp
    | case2 n c rest ih => exact ih
    | case3 c rest r hread ih =>
      exact List.forall_mem_cons.mpr ⟨isWellFormed_of_readReference? hread, ih⟩
    | case4 c rest hread ih =>
      refine List.forall_mem_cons.mpr ⟨?_, ih⟩
      by_cases hc : isSpecial c <;> simp [hc, Piece.IsWellFormed]
  exact hfrom 0 template piece h

/-! ## The end of a name -/

private theorem splitName_cons_of_ne {c : Char} (hc : c ≠ '%') (cs : List Char) :
    splitName (c :: cs) =
      if Text.isWordChar c then (c :: (splitName cs).1, (splitName cs).2) else ([], c :: cs) := by
  rw [splitName]
  rintro _ _ _ rfl
  exact absurd rfl hc

/-- The character stands neither in a name nor in an escape. -/
private def EndsName (c : Char) : Prop :=
  c ≠ '%' ∧ Text.isWordChar c = false ∧ Text.isHexDigit c = false

private theorem endsName_closeBrace : EndsName closeBrace := by
  refine ⟨by decide, by decide +kernel, by decide +kernel⟩

/-- A name ends before a character that cannot stand in it. -/
private theorem splitName_append_cons {stop : Char} (hstop : EndsName stop) (cs rest : List Char) :
    splitName (cs ++ stop :: rest) = ((splitName cs).1, (splitName cs).2 ++ stop :: rest) := by
  obtain ⟨hpercent, hword, hhex⟩ := hstop
  fun_induction splitName cs with
  | case1 => rw [List.nil_append, splitName_cons_of_ne hpercent, hword]; rfl
  | case2 a b more h name after hsplit ih =>
    rw [hsplit] at ih
    simp only [List.cons_append, splitName, h, ↓reduceIte, ih]
  | case3 a b more h =>
    simp only [List.cons_append, splitName, h, ↓reduceIte, Bool.false_eq_true]
  | case4 c more hnot h name after hsplit ih =>
    rw [hsplit] at ih
    have hc : c ≠ '%' := by
      rintro rfl
      exact absurd h (by decide +kernel)
    rw [List.cons_append, splitName_cons_of_ne hc, if_pos h, ih]
  | case5 c more hnot h =>
    by_cases hc : c = '%'
    · -- Fewer than two characters of the text follow the percent sign.
      subst hc
      match more, hnot with
      | [], _ =>
        cases rest with
        | nil => simp [splitName, h]
        | cons b tail => simp [splitName, hhex]
      | [a], _ => simp [splitName, hhex]
      | a :: b :: tail, hnot => exact (hnot a b tail rfl rfl).elim
    · rw [List.cons_append, splitName_cons_of_ne hc, if_neg h]

/-! ## References -/

private theorem splitExpand_name {name : List Char} (h : IsName name) (rest : List Char) :
    splitExpand (name ++ rest) = (false, name ++ rest) := by
  rw [splitExpand]
  intro more hplus
  cases name with
  | nil => exact h.1 rfl
  | cons c cs =>
    obtain rfl : c = '+' := (List.cons.inj hplus).1
    -- A plus sign is no word character, so the name would be empty.
    have hword : Text.isWordChar '+' = false := by decide +kernel
    have hsplit := h.2
    rw [splitName_cons_of_ne (by decide), hword] at hsplit
    exact absurd (Prod.mk.inj hsplit).1 (by simp)

private theorem readBraces?_chars (lead : Option Char) (expand : Bool) {name : List Char}
    (h : IsName name) (rest : List Char) :
    readBraces? lead (openBrace :: ((if expand then ['+'] else []) ++ name ++ closeBrace :: rest)) =
      some ⟨lead, expand, name⟩ := by
  have hexpand : splitExpand ((if expand then ['+'] else []) ++ name ++ closeBrace :: rest) =
      (expand, name ++ closeBrace :: rest) := by
    cases expand with
    | true => rfl
    | false => exact splitExpand_name h _
  -- The name ends at the brace, which is no word character.
  have hname : splitName (name ++ closeBrace :: rest) = (name, closeBrace :: rest) := by
    rw [splitName_append_cons endsName_closeBrace, h.2, List.nil_append]
  have hne : name.isEmpty = false := List.isEmpty_eq_false_iff.mpr h.1
  simp only [readBraces?, ↓reduceIte, hexpand, hname, hne, List.head?_cons, beq_self_eq_true,
    Bool.not_false, Bool.and_self]

/-- A reference is read where a well-formed one stands. -/
theorem readReference?_eq_some_iff {cs : List Char} {r : Reference} :
    readReference? cs = some r ↔ (Piece.reference r).IsWellFormed ∧ r.chars <+: cs := by
  constructor
  · intro h
    exact ⟨isWellFormed_of_readReference? h, prefix_of_readReference? h⟩
  · rintro ⟨⟨hlead, hname⟩, rest, rfl⟩
    have hread := readBraces?_chars r.lead r.expand hname rest
    obtain ⟨lead, expand, name⟩ := r
    have hchars : Reference.chars ⟨lead, expand, name⟩ ++ rest = lead.toList ++
        openBrace :: ((if expand then ['+'] else []) ++ name ++ closeBrace :: rest) := by
      simp [Reference.chars]
    rw [hchars]
    rcases hlead with rfl | rfl | rfl
    · exact hread
    · exact hread
    · exact hread

/-! ## Reading two texts separately -/

/-- A slash or a point, as it may stand before the braces of a reference. -/
def isLead (c : Char) : Bool :=
  c = '/' || c = '.'

/-- The character stands in no reference but at its beginning. -/
private structure Begins (c : Char) : Prop where
  endsName : EndsName c
  ne_plus : c ≠ '+'
  ne_closeBrace : c ≠ closeBrace

private theorem begins_slash : Begins '/' :=
  ⟨⟨by decide, by decide +kernel, by decide +kernel⟩, by decide, by decide⟩

private theorem begins_point : Begins '.' :=
  ⟨⟨by decide, by decide +kernel, by decide +kernel⟩, by decide, by decide⟩

private theorem begins_openBrace : Begins openBrace :=
  ⟨⟨by decide, by decide +kernel, by decide +kernel⟩, by decide, by decide⟩

private theorem forall_mem_getLast?_tail {P : Char → Prop} {d : Char} {cs : List Char}
    (h : ∀ c ∈ (d :: cs).getLast?, P c) : ∀ c ∈ cs.getLast?, P c := by
  intro c hc
  exact h c (by simp [List.getLast?_cons, Option.mem_def.mp hc])

section Begins

variable {stop : Char} (hstop : Begins stop) {cs : List Char} (rest : List Char)

include hstop

private theorem splitExpand_append_cons :
    splitExpand (cs ++ stop :: rest) =
      ((splitExpand cs).1, (splitExpand cs).2 ++ stop :: rest) := by
  fun_cases splitExpand cs with
  | case1 more => rfl
  | case2 cs hnot =>
    rw [splitExpand]
    intro more h
    cases cs with
    | nil => exact absurd (List.cons.inj h).1 hstop.ne_plus
    | cons c cs => exact hnot cs (by rw [(List.cons.inj h).1])

private theorem readBraces?_append_cons (lead : Option Char) (hcs : stop = openBrace → cs ≠ []) :
    readBraces? lead (cs ++ stop :: rest) = readBraces? lead cs := by
  cases cs with
  | nil =>
    have hne : stop ≠ openBrace := fun h => hcs h rfl
    simp [readBraces?, hne]
  | cons c cs =>
    simp only [List.cons_append, readBraces?, splitExpand_append_cons hstop,
      splitName_append_cons hstop.endsName]
    -- A name that the text ends is followed by the character, which is no closing brace either.
    cases (splitName (splitExpand cs).2).2 <;> simp [hstop.ne_closeBrace]

/-- A reference ends before a character that can only begin one. A brace may follow a slash or a
point in the same reference. -/
private theorem readReference?_append_cons (hne : cs ≠ [])
    (hlast : stop = openBrace → ∀ c ∈ cs.getLast?, isLead c = false) :
    readReference? (cs ++ stop :: rest) = readReference? cs := by
  cases cs with
  | nil => exact absurd rfl hne
  | cons c cs =>
    have hnone : readBraces? none (c :: cs ++ stop :: rest) = readBraces? none (c :: cs) :=
      readBraces?_append_cons hstop rest none fun _ => List.cons_ne_nil c cs
    rw [List.cons_append] at hnone
    rw [List.cons_append, readReference?, readReference?, hnone]
    split
    · rename_i hc
      refine readBraces?_append_cons hstop rest (some c) ?_
      rintro hbrace rfl
      exact absurd ((hlast hbrace c rfl).symm.trans hc) Bool.false_ne_true
    · rfl

private theorem scanFrom_append_cons (n : Nat) (hn : n ≤ cs.length)
    (hlast : stop = openBrace → ∀ c ∈ cs.getLast?, isLead c = false) :
    scanFrom n (cs ++ stop :: rest) = scanFrom n cs ++ scan (stop :: rest) := by
  -- A reference that was begun before the character ends before it, so the skipping does, too.
  fun_induction scanFrom n cs with
  | case1 n =>
    obtain rfl := Nat.le_zero.mp hn
    rfl
  | case2 n c cs ih =>
    exact ih (Nat.le_of_succ_le_succ hn) fun h => forall_mem_getLast?_tail (hlast h)
  | case3 c cs r hread ih =>
    have hlength : r.chars.length - 1 ≤ cs.length := by
      have := (prefix_of_readReference? hread).length_le
      rw [List.length_cons] at this
      omega
    rw [← readReference?_append_cons hstop rest (List.cons_ne_nil c cs) hlast] at hread
    rw [List.cons_append, scanFrom, ← List.cons_append, hread]
    exact congrArg (Piece.reference r :: ·) (ih hlength fun h => forall_mem_getLast?_tail (hlast h))
  | case4 c cs hread ih =>
    rw [← readReference?_append_cons hstop rest (List.cons_ne_nil c cs) hlast] at hread
    rw [List.cons_append, scanFrom, ← List.cons_append, hread]
    exact congrArg (_ :: ·) (ih (Nat.zero_le _) fun h => forall_mem_getLast?_tail (hlast h))

end Begins

/-- A template is read on both sides of a slash separately. -/
theorem scan_append_slash (cs rest : List Char) :
    scan (cs ++ '/' :: rest) = scan cs ++ scan ('/' :: rest) :=
  scanFrom_append_cons begins_slash rest 0 (Nat.zero_le _) fun h => absurd h (by decide)

/-- A slash that ends a template is a special character. -/
theorem scan_concat_slash (cs : List Char) : scan (cs ++ ['/']) = scan cs ++ [.special '/'] :=
  scan_append_slash cs []

private theorem scanFrom_length_append (u rest : List Char) :
    scanFrom u.length (u ++ rest) = scan rest := by
  induction u with
  | nil => rfl
  | cons c u ih => exact ih

private theorem scan_chars_append {r : Reference} (h : (Piece.reference r).IsWellFormed)
    (rest : List Char) : scan (r.chars ++ rest) = .reference r :: scan rest := by
  have hread : readReference? (r.chars ++ rest) = some r :=
    readReference?_eq_some_iff.mpr ⟨h, r.chars.prefix_append rest⟩
  cases hchars : r.chars with
  | nil => exact absurd (length_chars_pos r) (by simp [hchars])
  | cons c u =>
    rw [hchars, List.cons_append] at hread
    rw [List.cons_append, scan, scanFrom, hread]
    simp only [hchars]
    exact congrArg (Piece.reference r :: ·) (scanFrom_length_append u rest)

/-- A template is read on both sides of a reference separately, when the character before the
reference is no slash or point that belongs to it. -/
theorem scan_append_reference {r : Reference} (h : (Piece.reference r).IsWellFormed)
    {cs : List Char} (hlast : r.lead = none → ∀ c ∈ cs.getLast?, isLead c = false)
    (rest : List Char) :
    scan (cs ++ (r.chars ++ rest)) = scan cs ++ .reference r :: scan rest := by
  rw [← scan_chars_append h]
  obtain ⟨lead, expand, name⟩ := r
  rcases h.1 with rfl | rfl | rfl
  · exact scanFrom_append_cons begins_openBrace _ 0 (Nat.zero_le _) fun _ => hlast rfl
  · exact scanFrom_append_cons begins_slash _ 0 (Nat.zero_le _) fun h => absurd h (by decide)
  · exact scanFrom_append_cons begins_point _ 0 (Nat.zero_le _) fun h => absurd h (by decide)

/-! ## Segments -/

/-- A slash and a name between braces are one reference. -/
theorem scan_slash_reference {name : List Char} (h : IsName name) :
    scan ('/' :: (openBrace :: name ++ [closeBrace])) =
      [.reference ⟨some '/', false, name⟩] := by
  have hscan := scan_chars_append (r := ⟨some '/', false, name⟩) ⟨.inr (.inl rfl), h⟩ []
  rw [List.append_nil] at hscan
  exact hscan

/-- A slash before a text that does not begin with a reference is a special character. -/
theorem scan_slash_of_notMem {text : List Char} (h : ∀ r, .reference r ∉ scan text) :
    scan ('/' :: text) = .special '/' :: scan text := by
  -- A reference after the slash would be one without it as well.
  have hread : readReference? ('/' :: text) = none := by
    cases text with
    | nil => rfl
    | cons c cs =>
      change readBraces? (some '/') (c :: cs) = none
      by_cases hc : c = openBrace
      · subst hc
        have hnone : readReference? (openBrace :: cs) = none := by
          cases hr : readReference? (openBrace :: cs) with
          | none => rfl
          | some r =>
            refine absurd ?_ (h r)
            rw [scan, scanFrom, hr]
            exact List.mem_cons_self
        change readBraces? none (openBrace :: cs) = none at hnone
        simpa [readBraces?] using hnone
      · simp [readBraces?, hc]
  change scanFrom 0 ('/' :: text) = _
  rw [scanFrom, hread]
  rfl

end RouteTemplate.Template
