/-
# The references and special characters of a template

The references and the special characters of a template are its marks; the text between them stands
for itself. The scan finds every reference that stands in the template, with the slash or point
before it, and there is no other way to divide the template into such marks and text without
special characters.

## Main definitions

* `marks` — the references and special characters that the scan finds, with their positions
* `gaps`, `weave` — the text between marks, and the text that marks make up with it
* `Divides` — the marks are those of a text

## Main results

* `divides_marks` — the scan finds the marks of a template
* `Divides.eq` — a text has its marks at the same places, however they are found
-/

import Mathlib.Data.List.Pairwise
import Mathlib.Data.List.Sort
import RouteTemplate.Proofs.Template.Scan

namespace RouteTemplate.Template

/-! ## Names -/

/-- Any number of word characters and percent-escapes. -/
inductive NameChars : List Char → Prop
  | nil : NameChars []
  | word {c : Char} {cs : List Char} : Text.isWordChar c → NameChars cs → NameChars (c :: cs)
  | escape {a b : Char} {cs : List Char} : Text.isHexDigit a → Text.isHexDigit b →
      NameChars cs → NameChars ('%' :: a :: b :: cs)

private theorem nameChars_splitName (cs : List Char) : NameChars (splitName cs).1 := by
  fun_induction splitName cs with
  | case1 => exact .nil
  | case2 a b rest h name after hsplit ih =>
    rw [hsplit] at ih
    obtain ⟨ha, hb⟩ := Bool.and_eq_true _ _ |>.mp h
    exact .escape ha hb ih
  | case3 a b rest h => exact .nil
  | case4 c rest hnot h name after hsplit ih =>
    rw [hsplit] at ih
    exact .word h ih
  | case5 c rest hnot h => exact .nil

private theorem NameChars.splitName_eq {name : List Char} (h : NameChars name) :
    splitName name = (name, []) := by
  induction h with
  | nil => rfl
  | @word c cs hc _ ih =>
    rw [splitName]
    · simp only [hc, ↓reduceIte, ih]
    · -- A percent sign is no word character.
      rintro a b rest rfl -
      exact absurd hc (by decide +kernel)
  | @escape a b cs ha hb _ ih => simp only [splitName, ha, hb, Bool.and_self, ↓reduceIte, ih]

/-- A name is made up of word characters and percent-escapes, of at least one. -/
theorem isName_iff {name : List Char} : IsName name ↔ name ≠ [] ∧ NameChars name := by
  constructor
  · rintro ⟨hne, hsplit⟩
    have hchars := nameChars_splitName name
    rw [hsplit] at hchars
    exact ⟨hne, hchars⟩
  · rintro ⟨hne, hchars⟩
    exact ⟨hne, hchars.splitName_eq⟩

/-! ## Marks -/

/-- The piece stands for itself. -/
def Piece.isPlain : Piece → Bool
  | .reference _ | .special _ => false
  | .plain _ => true

/-- The piece is exactly one special character, or a reference: a slash, a point or nothing, an
opening brace, perhaps a plus sign, a name and a closing brace. -/
def Piece.IsMark : Piece → Prop
  | .reference r => (r.lead = none ∨ r.lead = some '/' ∨ r.lead = some '.') ∧
      r.rawName ≠ [] ∧ NameChars r.rawName
  | .special c => isSpecial c
  | .plain _ => False

/-- The position behind a piece. -/
def stop (m : Nat × Piece) : Nat :=
  m.1 + m.2.chars.length

/-- The references and special characters among pieces, with the position at which each begins when
the first piece begins at the given one. -/
def marksFrom (start : Nat) (pieces : List Piece) : List (Nat × Piece) :=
  (locate start pieces).filter fun m => !m.2.isPlain

/-- The references and special characters of a template, with the position at which each begins. -/
def marks (template : List Char) : List (Nat × Piece) :=
  marksFrom 0 (scan template)

/-- The text from the given position to the first mark, the text between one mark and the next, and
the text behind the last one. -/
def gaps (text : List Char) : Nat → List (Nat × Piece) → List (List Char)
  | start, [] => [text.drop start]
  | start, m :: found => (text.take m.1).drop start :: gaps text (stop m) found

/-- Texts one after another with the marks between them. -/
def weave : List (List Char) → List (Nat × Piece) → List Char
  | gap :: rest, m :: found => gap ++ m.2.chars ++ weave rest found
  | rest, _ => rest.flatten

/-- The slash or point that ends a text. -/
def leadAfter (text : List Char) : Option Char :=
  text.getLast?.filter isLead

/-- The given marks divide a text. -/
structure Divides (text : List Char) (found : List (Nat × Piece)) : Prop where
  /-- No mark begins before the end of an earlier one. -/
  ordered : found.Pairwise fun m n => stop m ≤ n.1
  /-- The marks stand in the text at their positions. -/
  stands : ∀ m ∈ found, m.2.chars <+: text.drop m.1
  /-- Nothing is lost: the marks and the text between them make up the text. -/
  lossless : weave (gaps text 0 found) found = text
  /-- The text between the marks has no special characters. -/
  between : ∀ gap ∈ gaps text 0 found, ∀ c ∈ gap, isSpecial c = false
  /-- Each mark is a special character or a reference. -/
  isMark : ∀ m ∈ found, m.2.IsMark
  /-- Every name between braces is found, with the slash or point before it. -/
  complete : ∀ before expand name after, name ≠ [] → NameChars name →
    text = before ++ ((⟨none, expand, name⟩ : Reference).chars ++ after) →
    (before.length - (leadAfter before).toList.length,
      .reference ⟨leadAfter before, expand, name⟩) ∈ found

/-! ## Pieces with their positions -/

theorem length_chars_piece_pos (piece : Piece) : 0 < piece.chars.length := by
  cases piece with
  | reference r => exact length_chars_pos r
  | special c => exact Nat.one_pos
  | plain c => exact Nat.one_pos

theorem lt_stop (m : Nat × Piece) : m.1 < stop m :=
  Nat.lt_add_of_pos_right (length_chars_piece_pos m.2)

theorem locate_append (start : Nat) (pieces more : List Piece) :
    locate start (pieces ++ more) =
      locate start pieces ++ locate (start + (pieces.flatMap Piece.chars).length) more := by
  induction pieces generalizing start with
  | nil => rfl
  | cons piece pieces ih =>
    simp only [List.cons_append, locate, ih, List.flatMap_cons, List.length_append, Nat.add_assoc]

/-- A piece stands behind the pieces before it. -/
theorem mem_locate_iff {start i : Nat} {piece : Piece} {pieces : List Piece} :
    (i, piece) ∈ locate start pieces ↔ ∃ before after,
      pieces = before ++ piece :: after ∧ i = start + (before.flatMap Piece.chars).length := by
  constructor
  · intro h
    induction pieces generalizing start with
    | nil => simp [locate] at h
    | cons first pieces ih =>
      rcases List.mem_cons.mp h with heq | hmem
      · obtain ⟨rfl, rfl⟩ := Prod.mk.inj heq
        exact ⟨[], pieces, rfl, rfl⟩
      · obtain ⟨before, after, rfl, rfl⟩ := ih hmem
        exact ⟨first :: before, after, rfl, by simp [Nat.add_assoc]⟩
  · rintro ⟨before, after, rfl, rfl⟩
    rw [locate_append, locate]
    exact List.mem_append_right _ List.mem_cons_self

theorem pairwise_locate (start : Nat) (pieces : List Piece) :
    (locate start pieces).Pairwise fun m n => stop m ≤ n.1 := by
  induction pieces generalizing start with
  | nil => exact .nil
  | cons piece pieces ih =>
    refine List.pairwise_cons.mpr ⟨?_, ih _⟩
    rintro ⟨i, next⟩ hnext
    obtain ⟨before, after, -, rfl⟩ := mem_locate_iff.mp hnext
    exact Nat.le_add_right _ _

/-! ## What the scan finds -/

theorem marksFrom_cons (start : Nat) (piece : Piece) (pieces : List Piece) :
    marksFrom start (piece :: pieces) =
      if piece.isPlain then marksFrom (start + piece.chars.length) pieces
      else (start, piece) :: marksFrom (start + piece.chars.length) pieces := by
  rw [marksFrom, locate, List.filter_cons]
  cases piece.isPlain <;> rfl

theorem mem_marks_iff {template : List Char} {i : Nat} {piece : Piece} :
    (i, piece) ∈ marks template ↔ (∃ before after, scan template = before ++ piece :: after ∧
      i = (before.flatMap Piece.chars).length) ∧ piece.isPlain = false := by
  rw [marks, marksFrom, List.mem_filter, mem_locate_iff]
  simp

/-- A piece as the scan yields it is a mark unless it is plain. -/
theorem Piece.IsWellFormed.isMark {piece : Piece} (h : piece.IsWellFormed)
    (hplain : piece.isPlain = false) : piece.IsMark := by
  cases piece with
  | reference r => exact ⟨h.1, isName_iff.mp h.2⟩
  | special c => exact h
  | plain c => exact absurd hplain (by simp [isPlain])

/-- A plain piece as the scan yields it has no special character. -/
theorem Piece.IsWellFormed.isSpecial_eq_false {piece : Piece} (h : piece.IsWellFormed)
    (hplain : piece.isPlain) : ∀ c ∈ piece.chars, isSpecial c = false := by
  cases piece with
  | reference r => exact absurd hplain (by simp [isPlain])
  | special c => exact absurd hplain (by simp [isPlain])
  | plain c => exact List.forall_mem_singleton.mpr h

/-- Some text and the marks of the pieces after it make up what these make up themselves, with gaps
that have no special characters when the text has none. -/
private theorem gaps_marksFrom {text : List Char} (before gap : List Char) (pieces : List Piece)
    (htext : text = before ++ gap ++ pieces.flatMap Piece.chars)
    (hgap : ∀ c ∈ gap, isSpecial c = false) (hpieces : ∀ piece ∈ pieces, piece.IsWellFormed) :
    weave (gaps text before.length (marksFrom (before.length + gap.length) pieces))
        (marksFrom (before.length + gap.length) pieces) = gap ++ pieces.flatMap Piece.chars ∧
      ∀ part ∈ gaps text before.length (marksFrom (before.length + gap.length) pieces),
        ∀ c ∈ part, isSpecial c = false := by
  -- A plain piece makes the gap before it longer, and a mark begins a new one.
  induction pieces generalizing before gap with
  | nil =>
    have hdrop : text.drop before.length = gap := by simp [htext]
    simp only [marksFrom, locate, List.filter_nil, gaps, weave, hdrop, List.flatMap_nil]
    exact ⟨by simp, by simpa using hgap⟩
  | cons piece pieces ih =>
    obtain ⟨hpiece, hrest⟩ := List.forall_mem_cons.mp hpieces
    rw [marksFrom_cons]
    cases hplain : piece.isPlain with
    | true =>
      have hlonger : ∀ c ∈ gap ++ piece.chars, isSpecial c = false :=
        List.forall_mem_append.mpr ⟨hgap, hpiece.isSpecial_eq_false hplain⟩
      have hnext := ih before (gap ++ piece.chars) (by simp [htext]) hlonger hrest
      rw [List.length_append, ← Nat.add_assoc, List.append_assoc] at hnext
      exact hnext
    | false =>
      have htake : (text.take (before.length + gap.length)).drop before.length = gap := by
        simp [htext, List.take_append]
      obtain ⟨hweave, hparts⟩ := ih (before ++ gap ++ piece.chars) [] (by simp [htext]) (by simp)
        hrest
      simp only [List.length_append, List.length_nil, Nat.add_zero] at hweave hparts
      simp only [Bool.false_eq_true, ↓reduceIte, gaps, weave, stop, htake]
      refine ⟨by rw [hweave]; simp, ?_⟩
      exact List.forall_mem_cons.mpr ⟨hgap, hparts⟩

/-- A text ends with the slash or point that may belong to a reference after it. -/
private theorem exists_append_leadAfter (text : List Char) :
    ∃ front, text = front ++ (leadAfter text).toList ∧
      (leadAfter text = none ∨ leadAfter text = some '/' ∨ leadAfter text = some '.') ∧
      (leadAfter text = none → ∀ c ∈ front.getLast?, isLead c = false) := by
  cases hlead : leadAfter text with
  | none =>
    refine ⟨text, (List.append_nil text).symm, .inl rfl, fun _ c hc => ?_⟩
    rw [leadAfter, Option.filter_eq_none_iff] at hlead
    exact Bool.not_eq_true _ |>.mp (hlead c hc)
  | some c =>
    obtain ⟨hlast, hc⟩ := Option.filter_eq_some_iff.mp hlead
    obtain ⟨front, rfl⟩ := List.getLast?_eq_some_iff.mp hlast
    refine ⟨front, rfl, .inr ?_, fun h => absurd h (by simp)⟩
    rcases Bool.or_eq_true _ _ |>.mp hc with hslash | hpoint
    · exact .inl (congrArg some (of_decide_eq_true hslash))
    · exact .inr (congrArg some (of_decide_eq_true hpoint))

/-- The scan finds the marks of a template. -/
theorem divides_marks (template : List Char) : Divides template (marks template) := by
  have hgaps := gaps_marksFrom [] [] (scan template) (flatMap_chars_scan template).symm (by simp)
    fun piece hpiece => isWellFormed_of_mem_scan hpiece
  rw [flatMap_chars_scan] at hgaps
  constructor
  case ordered => exact (pairwise_locate 0 _).filter _
  case stands =>
    rintro ⟨i, piece⟩ hm
    obtain ⟨⟨before, after, hscan, rfl⟩, -⟩ := mem_marks_iff.mp hm
    refine ⟨after.flatMap Piece.chars, ?_⟩
    rw [← flatMap_chars_scan template, hscan, List.flatMap_append, List.flatMap_cons,
      List.drop_left]
  case lossless => exact hgaps.1
  case between => exact hgaps.2
  case isMark =>
    rintro ⟨i, piece⟩ hm
    obtain ⟨⟨before, after, hscan, -⟩, hplain⟩ := mem_marks_iff.mp hm
    have hmem : piece ∈ scan template := hscan ▸ List.mem_append_right _ List.mem_cons_self
    exact (isWellFormed_of_mem_scan hmem).isMark hplain
  case complete =>
    intro before expand name after hne hname htext
    -- The slash or point before the braces belongs to the reference.
    obtain ⟨front, hbefore, hlead, hlast⟩ := exists_append_leadAfter before
    generalize leadAfter before = lead at hbefore hlead hlast ⊢
    subst hbefore
    have hscan := scan_append_reference (r := ⟨lead, expand, name⟩)
      ⟨hlead, isName_iff.mpr ⟨hne, hname⟩⟩ hlast after
    have htemplate : template =
        front ++ ((⟨lead, expand, name⟩ : Reference).chars ++ after) := by
      rw [htext]
      simp [Reference.chars]
    refine mem_marks_iff.mpr ⟨⟨scan front, scan after, htemplate ▸ hscan, ?_⟩, rfl⟩
    rw [flatMap_chars_scan, List.length_append, Nat.add_sub_cancel]

/-! ## There is no other way -/

section Unique

variable {text : List Char} {found found' : List (Nat × Piece)}

/-- Marks that share a position are the same. -/
private theorem Divides.eq_of_overlap (h : Divides text found) {m n : Nat × Piece} (hm : m ∈ found)
    (hn : n ∈ found) (hmn : m.1 < stop n) (hnm : n.1 < stop m) : m = n := by
  by_contra hne
  have hsymm : Std.Symm fun m n : Nat × Piece => stop m ≤ n.1 ∨ stop n ≤ m.1 :=
    ⟨fun _ _ => Or.symm⟩
  rcases (h.ordered.imp (S := fun m n => stop m ≤ n.1 ∨ stop n ≤ m.1) Or.inl).forall hm hn hne with
    hle | hle
  · exact Nat.lt_irrefl _ (Nat.lt_of_lt_of_le hnm hle)
  · exact Nat.lt_irrefl _ (Nat.lt_of_lt_of_le hmn hle)

/-- A special character behind the given position belongs to a mark. -/
private theorem exists_covering {start i : Nat} {c : Char}
    (hgaps : ∀ gap ∈ gaps text start found, ∀ d ∈ gap, isSpecial d = false) (hstart : start ≤ i)
    (hget : text[i]? = some c) (hc : isSpecial c) : ∃ m ∈ found, m.1 ≤ i ∧ i < stop m := by
  induction found generalizing start with
  | nil =>
    have hmem : c ∈ text.drop start := by
      refine List.mem_of_getElem? (i := i - start) ?_
      rw [List.getElem?_drop, Nat.add_sub_cancel' hstart, hget]
    exact absurd (hgaps _ List.mem_cons_self c hmem) (by simp [hc])
  | cons m found ih =>
    obtain ⟨hgap, hgaps⟩ := List.forall_mem_cons.mp hgaps
    by_cases hbefore : i < m.1
    · have hmem : c ∈ (text.take m.1).drop start := by
        refine List.mem_of_getElem? (i := i - start) ?_
        rw [List.getElem?_drop, Nat.add_sub_cancel' hstart, List.getElem?_take_of_lt hbefore, hget]
      exact absurd (hgap c hmem) (by simp [hc])
    · by_cases hinside : i < stop m
      · exact ⟨m, List.mem_cons_self, Nat.not_lt.mp hbefore, hinside⟩
      · obtain ⟨n, hn, hcovers⟩ := ih hgaps (Nat.not_lt.mp hinside)
        exact ⟨n, List.mem_cons_of_mem m hn, hcovers⟩

/-- A reference among the marks of a text is found however they are found. -/
private theorem Divides.mem_of_reference (h : Divides text found) (h' : Divides text found')
    {i : Nat} {r : Reference} (hm : (i, .reference r) ∈ found) :
    (i, .reference r) ∈ found' := by
  obtain ⟨-, hne, hname⟩ := h.isMark _ hm
  obtain ⟨after, hafter⟩ := h.stands _ hm
  have hi : i < text.length := by
    have := congrArg List.length hafter
    have := length_chars_pos r
    simp only [Piece.chars, List.length_append, List.length_drop] at *
    omega
  -- Both lists have the reference whose braces stand at this place.
  let before := text.take i ++ r.lead.toList
  have htext : text =
      before ++ ((⟨none, r.expand, r.rawName⟩ : Reference).chars ++ after) := by
    conv_lhs => rw [← List.take_append_drop i text, ← hafter]
    simp [before, Piece.chars, Reference.chars]
  have hlength : before.length = i + r.lead.toList.length := by
    simp [before, Nat.min_eq_left hi.le]
  have hfound := h.complete before r.expand r.rawName after hne hname htext
  have heq := h.eq_of_overlap hm hfound
    (by simp only [stop, Piece.chars, Reference.chars, List.length_append, List.length_cons]; omega)
    (by simp only [stop, Piece.chars, Reference.chars, List.length_append, List.length_cons]; omega)
  rw [heq]
  exact h'.complete before r.expand r.rawName after hne hname htext

/-- A text has its marks at the same places, however they are found. -/
private theorem Divides.subset (h : Divides text found) (h' : Divides text found')
    {m : Nat × Piece} (hm : m ∈ found) : m ∈ found' := by
  obtain ⟨i, piece⟩ := m
  cases piece with
  | plain c => exact (h.isMark _ hm).elim
  | reference r => exact h.mem_of_reference h' hm
  | special c =>
    have hget {d : Char} {found : List (Nat × Piece)} (h : Divides text found)
        (hd : (i, .special d) ∈ found) : text[i]? = some d := by
      obtain ⟨rest, hrest⟩ := h.stands _ hd
      have hhead := congrArg List.head? hrest
      rwa [List.head?_drop, eq_comm] at hhead
    -- The character belongs to a mark, and to no reference.
    obtain ⟨⟨j, other⟩, hn, hle, hlt⟩ := exists_covering h'.between (Nat.zero_le i) (hget h hm)
      (h.isMark _ hm)
    cases other with
    | plain d => exact (h'.isMark _ hn).elim
    | reference r =>
      have heq := h.eq_of_overlap hm (h'.mem_of_reference h hn) hlt (Nat.lt_succ_of_le hle)
      exact absurd (Prod.mk.inj heq).2 (by simp)
    | special d =>
      obtain rfl : i = j := Nat.le_antisymm (Nat.le_of_lt_succ hlt) hle
      obtain rfl := Option.some.inj ((hget h hm).symm.trans (hget h' hn))
      exact hn

/-- The marks of a text are determined by the text. -/
theorem Divides.eq (h : Divides text found) (h' : Divides text found') : found = found' := by
  have hirrefl : Std.Irrefl fun m n : Nat × Piece => m.1 < n.1 := ⟨fun m => Nat.lt_irrefl m.1⟩
  have hantisymm : Std.Antisymm fun m n : Nat × Piece => m.1 < n.1 :=
    ⟨fun _ _ hmn hnm => absurd hmn (Nat.lt_asymm hnm)⟩
  have hsorted {found : List (Nat × Piece)} (h : Divides text found) :
      found.Pairwise fun m n => m.1 < n.1 :=
    h.ordered.imp fun hle => Nat.lt_of_lt_of_le (lt_stop _) hle
  exact (hsorted h).eq_of_mem_iff (hsorted h') fun m => ⟨h.subset h', h'.subset h⟩

end Unique

end RouteTemplate.Template
