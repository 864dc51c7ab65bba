/-
# The expression for the marks of a template

The references and special characters of a template are given by a regular expression as well. A
search that goes on behind each match finds the marks that the scan finds, with the slash or point,
the plus sign and the name of a reference in groups of their own.

## Main definitions

* `markText`, `markRegex` — the expression for a mark, as text and as expression
* `Regex.findAll` — the matches of an expression from left to right

## Main results

* `parse_markText` — reading the text gives the expression
* `findAll_markRegex` — the expression finds the marks of a template
-/

import RouteTemplate.Proofs.Regex.Passing
import RouteTemplate.Proofs.Template.Language
import RouteTemplate.Proofs.Template.Marks
import RouteTemplate.Regex.Reader

namespace RouteTemplate

namespace Regex

/-! ## All matches -/

/-- The matches from a position on, each as the position where it begins and the one to which it
leads. The search goes on behind a match, of which the given number of characters is still to be
passed. What the expression matches is taken to have a character at least. -/
def findAllFrom (r : Regex) : Nat → List Char → Cursor → List (Cursor × Cursor)
  | _, [], _ => []
  | n + 1, c :: rest, p => findAllFrom r n rest (p.pass [c] rest)
  | 0, c :: rest, p =>
    match r.run p some with
    | some q => (p, q) :: findAllFrom r (q.offset - p.offset - 1) rest (p.pass [c] rest)
    | none => findAllFrom r 0 rest (p.pass [c] rest)

/-- The matches in a text from left to right, none of which overlap. -/
def findAll (r : Regex) (text : List Char) : List (Cursor × Cursor) :=
  findAllFrom r 0 text (Cursor.start text)

end Regex

namespace Template

open RouteTemplate.Regex (CharClass ClassItem Cursor Spells)

/-! ## The expression -/

/-- The text of the expression for a reference or a special character. -/
def markText : String :=
  "(?P<prefix>[./])?\\\x7b(?P<expand>\\+)?(?P<name>(?:\\w|%[0-9a-fA-F]\x7b2\x7d)+)\\\x7d" ++
    "|(?P<escape>[.*+?=^!:$\x7b\x7d()|\\[\\]/\\\\])"

/-- One of the characters. -/
def anyOf (cs : List Char) : Regex :=
  .one (.set .exact false (cs.map fun c => .code c.toNat))

/-- A word character of any script. -/
def wordRegex : Regex :=
  .one (.set .exact false [.property false false .word])

/-- A hexadecimal digit. -/
def hexDigitRegex : Regex :=
  .one (.set .exact false [.range '0'.toNat '9'.toNat, .range 'a'.toNat 'f'.toNat,
    .range 'A'.toNat 'F'.toNat])

/-- A name of word characters and percent-escapes. -/
def nameRegex : Regex :=
  .repetition .greedy 1 none
    (.alt wordRegex (.seq (charRegex .exact '%') (.repetition .greedy 2 (some 2) hexDigitRegex)))

/-- A reference, with groups for what stands before the brace, the plus sign and the name. -/
def referenceRegex : Regex :=
  Regex.sequence [optional (.group 1 (anyOf ['.', '/'])), charRegex .exact openBrace,
    optional (.group 2 (charRegex .exact '+')), .group 3 nameRegex, charRegex .exact closeBrace]

/-- The special characters. -/
def specials : List Char :=
  ['.', '*', '+', '?', '=', '^', '!', ':', '$', openBrace, closeBrace, '(', ')', '|', '[', ']',
    '/', '\\']

private theorem isSpecial_iff {c : Char} : isSpecial c ↔ c ∈ specials := by
  rw [isSpecial, List.contains_eq_mem, decide_eq_true_iff]
  rfl

/-- A reference or else a special character. -/
def markRegex : Regex :=
  .alt referenceRegex (.group 4 (anyOf specials))

/-- Reading the text of the expression gives the expression. -/
theorem parse_markText : Regex.parse [] markText = .ok markRegex := by
  decide +kernel

/-! ## What the parts of the expression spell -/

/-- The characters with a property, each as a text. -/
private def charsWith (P : Char → Prop) : Language Char :=
  {u | ∃ c, P c ∧ u = [c]}

/-- A word character or a percent-escape. -/
private def nameUnit : Language Char :=
  {u | (∃ c, Text.isWordChar c ∧ u = [c]) ∨
    ∃ a b, Text.isHexDigit a ∧ Text.isHexDigit b ∧ u = ['%', a, b]}

private theorem nil_notMem_charsWith (P : Char → Prop) : [] ∉ charsWith P := by
  rintro ⟨c, -, h⟩
  exact List.cons_ne_nil c [] h.symm

private theorem nil_notMem_nameUnit : [] ∉ nameUnit := by
  rintro (⟨c, -, h⟩ | ⟨a, b, -, -, h⟩)
  · exact List.cons_ne_nil c [] h.symm
  · exact List.cons_ne_nil '%' [a, b] h.symm

private theorem holds_set_exact (items : List ClassItem) (c : Char) :
    (CharClass.set .exact false items).holds c = items.any (·.holds .exact c) := by
  have hfold : Char.ofNat (Regex.CaseMode.exact.fold c.toNat) = c := Char.ofNat_toNat c
  rw [CharClass.holds, hfold, ite_self, Bool.bne_false]

private theorem spells_anyOf (cs : List Char) : (anyOf cs).Spells (charsWith (· ∈ cs)) := by
  refine (Regex.spells_one _).congr fun u => exists_congr fun c => and_congr_left fun _ => ?_
  have hcode (d : Char) : (ClassItem.code d.toNat).holds .exact c ↔ c = d := by
    simp [ClassItem.holds, Regex.CaseMode.fold, Regex.CaseMode.kin, Char.toNat_inj]
  rw [holds_set_exact, List.any_map, List.any_eq_true]
  simp [hcode]

private theorem spells_charRegex_exact (c : Char) :
    (charRegex .exact c).Spells (charsWith (· = c)) := by
  refine (Regex.spells_one _).congr fun u => exists_congr fun d => and_congr_left fun _ => ?_
  simp [CharClass.holds, Regex.sameLetter, Regex.CaseMode.isCased, Char.toNat_inj]

private theorem spells_wordRegex : wordRegex.Spells (charsWith (Text.isWordChar ·)) := by
  refine (Regex.spells_one _).congr fun u => exists_congr fun c => and_congr_left fun _ => ?_
  rw [holds_set_exact]
  simp [ClassItem.holds, Regex.Property.holds]

private theorem spells_hexDigitRegex :
    hexDigitRegex.Spells (charsWith (Text.isHexDigit ·)) := by
  refine (Regex.spells_one _).congr fun u => exists_congr fun c => and_congr_left fun _ => ?_
  have hle {d e : Char} : d ≤ e ↔ d.toNat ≤ e.toNat := UInt32.le_iff_toNat_le
  change _ ↔ Text.isHexDigit c
  rw [holds_set_exact, Text.isHexDigit, Text.hexDigit?]
  simp only [List.any_cons, List.any_nil, ClassItem.holds, Regex.rangeHolds, Regex.between,
    Bool.or_eq_true, Bool.and_eq_true, decide_eq_true_eq, Bool.false_eq_true, or_false, hle,
    ← isDigit_iff]
  split
  · rename_i hdigit
    exact iff_of_true (.inl hdigit) rfl
  · rename_i hdigit
    split
    · rename_i hsmall
      exact iff_of_true (.inr (.inl hsmall)) rfl
    · rename_i hsmall
      split
      · rename_i hcapital
        exact iff_of_true (.inr (.inr hcapital)) rfl
      · rename_i hcapital
        exact iff_of_false (not_or_intro hdigit (not_or_intro hsmall hcapital)) Bool.false_ne_true

private theorem spells_nameUnit :
    (Regex.alt wordRegex (.seq (charRegex .exact '%')
      (.repetition .greedy 2 (some 2) hexDigitRegex))).Spells nameUnit := by
  have hdigits : (Regex.repetition .greedy 2 (some 2) hexDigitRegex).Spells
      (Regex.iterated (charsWith (Text.isHexDigit ·)) 2 (some 2)) :=
    spells_hexDigitRegex.repetition (nil_notMem_charsWith _) (by simp) (by simp)
  refine (spells_wordRegex.alt ((spells_charRegex_exact '%').seq hdigits)).congr fun u => ?_
  rw [Language.mem_add, Language.mem_mul]
  refine or_congr Iff.rfl ?_
  constructor
  · rintro ⟨_, ⟨_, rfl, rfl⟩, _, ⟨us, rfl, hus, hleast, hmost⟩, rfl⟩
    match us, hleast, hmost 2 rfl with
    | [v, w], _, _ =>
      obtain ⟨a, ha, rfl⟩ := hus v List.mem_cons_self
      obtain ⟨b, hb, rfl⟩ := hus w (List.mem_cons_of_mem _ List.mem_cons_self)
      exact ⟨a, b, ha, hb, rfl⟩
  · rintro ⟨a, b, ha, hb, rfl⟩
    refine ⟨['%'], ⟨'%', rfl, rfl⟩, [a, b], ⟨[[a], [b]], rfl, ?_, Nat.le_refl 2, by simp⟩, rfl⟩
    simpa using ⟨⟨a, ha, rfl⟩, ⟨b, hb, rfl⟩⟩

private theorem nameChars_iff {name : List Char} :
    NameChars name ↔ ∃ us : List (List Char), us.flatten = name ∧ ∀ u ∈ us, u ∈ nameUnit := by
  constructor
  · intro h
    induction h with
    | nil => exact ⟨[], rfl, by simp⟩
    | @word c cs hc _ ih =>
      obtain ⟨us, rfl, hus⟩ := ih
      exact ⟨[c] :: us, rfl, List.forall_mem_cons.mpr ⟨.inl ⟨c, hc, rfl⟩, hus⟩⟩
    | @escape a b cs ha hb _ ih =>
      obtain ⟨us, rfl, hus⟩ := ih
      exact ⟨['%', a, b] :: us, rfl,
        List.forall_mem_cons.mpr ⟨.inr ⟨a, b, ha, hb, rfl⟩, hus⟩⟩
  · rintro ⟨us, rfl, hus⟩
    induction us with
    | nil => exact .nil
    | cons u us ih =>
      obtain ⟨hu, hrest⟩ := List.forall_mem_cons.mp hus
      rcases hu with ⟨c, hc, rfl⟩ | ⟨a, b, ha, hb, rfl⟩
      · exact .word hc (ih hrest)
      · exact .escape ha hb (ih hrest)

/-- The expression for names spells the names. -/
private theorem spells_nameRegex : nameRegex.Spells {u | u ≠ [] ∧ NameChars u} := by
  have hrepeated : nameRegex.Spells (Regex.iterated nameUnit 1 none) :=
    spells_nameUnit.repetition nil_notMem_nameUnit (by simp) (by simp)
  refine hrepeated.congr fun u => ?_
  constructor
  · rintro ⟨us, rfl, hus, hleast, -⟩
    refine ⟨fun hnil => ?_, nameChars_iff.mpr ⟨us, rfl, hus⟩⟩
    obtain ⟨v, hv⟩ := List.exists_mem_of_length_pos hleast
    exact nil_notMem_nameUnit (List.flatten_eq_nil_iff.mp hnil v hv ▸ hus v hv)
  · rintro ⟨hne, hchars⟩
    obtain ⟨us, rfl, hus⟩ := nameChars_iff.mp hchars
    refine ⟨us, rfl, hus, List.length_pos_iff.mpr ?_, by simp⟩
    rintro rfl
    exact hne rfl

/-! ## One mark -/

/-- The texts that the groups of the expression capture in a mark, absent for those that take no
part. -/
def Piece.groups : Piece → List (Option (List Char))
  | .reference r =>
    [r.lead.map ([·]), if r.expand then some ['+'] else none, some r.rawName, none]
  | .special c => [none, none, none, some [c]]
  | .plain _ => [none, none, none, none]

/-- What the groups of the expression have captured. -/
def groupsOf (q : Cursor) : List (Option (List Char)) :=
  [1, 2, 3, 4].map q.captured?

/-- What the expression for references leads over is a reference. -/
private theorem exists_of_mem_outcomes {p q : Cursor} (hp : p.captures = [])
    (h : q ∈ referenceRegex.outcomes p) :
    ∃ r, readReference? p.after = some r ∧ q.offset = p.offset + r.chars.length ∧
      groupsOf q = (Piece.reference r).groups := by
  rw [referenceRegex] at h
  obtain ⟨s₁, hlead, h⟩ := Regex.mem_outcomes_sequence_cons.mp h
  obtain ⟨s₂, hopen, h⟩ := Regex.mem_outcomes_sequence_cons.mp h
  obtain ⟨s₃, hplus, h⟩ := Regex.mem_outcomes_sequence_cons.mp h
  obtain ⟨s₄, hname, h⟩ := Regex.mem_outcomes_sequence_cons.mp h
  obtain ⟨s₅, hclose, h⟩ := Regex.mem_outcomes_sequence_cons.mp h
  obtain rfl := List.mem_singleton.mp h
  obtain ⟨lead, hlead, h₁⟩ :=
    (Cursor.passes_nil hp).optional_group (spells_anyOf ['.', '/']) rfl hlead
  obtain ⟨_, ⟨_, rfl, rfl⟩, h₂⟩ := h₁.spells (spells_charRegex_exact openBrace) hopen
  obtain ⟨plus, hplus, h₃⟩ := h₂.optional_group (spells_charRegex_exact '+') rfl hplus
  obtain ⟨name, hname, h₄⟩ := h₃.group spells_nameRegex hname
  obtain ⟨_, ⟨_, rfl, rfl⟩, h₅⟩ := h₄.spells (spells_charRegex_exact closeBrace) hclose
  have hlead' : ∃ c : Option Char, lead = c.map ([·]) ∧
      (c = none ∨ c = some '/' ∨ c = some '.') := by
    cases lead with
    | none => exact ⟨none, rfl, .inl rfl⟩
    | some w =>
      obtain ⟨c, hc, rfl⟩ := hlead w rfl
      refine ⟨some c, rfl, ?_⟩
      simpa [or_comm] using hc
  have hplus' : ∃ expand : Bool, plus = if expand then some ['+'] else none := by
    cases plus with
    | none => exact ⟨false, rfl⟩
    | some w =>
      obtain ⟨_, rfl, rfl⟩ := hplus w rfl
      exact ⟨true, rfl⟩
  obtain ⟨c, rfl, hc⟩ := hlead'
  obtain ⟨expand, rfl⟩ := hplus'
  have hchars : [] ++ (c.map ([·])).getD [] ++ [openBrace] ++
      (if expand then some ['+'] else none).getD [] ++ name ++ [closeBrace] =
      (⟨c, expand, name⟩ : Reference).chars := by
    cases c <;> cases expand <;> simp [Reference.chars]
  rw [hchars] at h₅
  refine ⟨⟨c, expand, name⟩, ?_, h₅.offset, ?_⟩
  · rw [readReference?_eq_some_iff]
    exact ⟨⟨hc, isName_iff.mpr hname⟩, h₅.after ▸ List.prefix_append _ _⟩
  · rw [groupsOf, h₅.captured?]
    rfl

/-- The expression for references leads on where a reference stands. -/
private theorem exists_mem_outcomes {p : Cursor} {r : Reference}
    (h : readReference? p.after = some r) : ∃ q, q ∈ referenceRegex.outcomes p := by
  obtain ⟨⟨hlead, hname⟩, rest, hafter⟩ := readReference?_eq_some_iff.mp h
  have hadmits := Regex.admits_sequence (.cons ((spells_anyOf ['.', '/']).admits.group 1).optional
    (.cons (spells_charRegex_exact openBrace).admits
      (.cons ((spells_charRegex_exact '+').admits.group 2).optional
        (.cons (spells_nameRegex.admits.group 3)
          (.cons (spells_charRegex_exact closeBrace).admits .nil)))))
  have hmem : r.chars ∈ [1 + charsWith (· ∈ ['.', '/']), charsWith (· = openBrace),
      1 + charsWith (· = '+'), {u | u ≠ [] ∧ NameChars u}, charsWith (· = closeBrace)].prod := by
    have hchars : r.chars = r.lead.toList ++ ([openBrace] ++
        ((if r.expand then ['+'] else []) ++ (r.rawName ++ ([closeBrace] ++ [])))) := by
      simp [Reference.chars]
    have hlead : r.lead.toList ∈ 1 + charsWith (· ∈ ['.', '/']) := by
      rcases hlead with hlead | hlead | hlead
      · exact .inl (by rw [hlead]; rfl)
      · exact .inr ⟨'/', by simp, by rw [hlead]; rfl⟩
      · exact .inr ⟨'.', by simp, by rw [hlead]; rfl⟩
    have hplus : (if r.expand then ['+'] else []) ∈ 1 + charsWith (· = '+') := by
      cases r.expand with
      | true => exact .inr ⟨'+', rfl, rfl⟩
      | false => exact .inl rfl
    rw [hchars]
    exact Language.append_mem_mul hlead <| Language.append_mem_mul ⟨openBrace, rfl, rfl⟩ <|
      Language.append_mem_mul hplus <| Language.append_mem_mul (isName_iff.mp hname) <|
      Language.append_mem_mul ⟨closeBrace, rfl, rfl⟩ rfl
  obtain ⟨q, hq, -⟩ := hadmits p r.chars rest hmem hafter.symm
  exact ⟨q, hq⟩

/-- The mark at the front of a text. -/
def markAt? (cs : List Char) : Option Piece :=
  match readReference? cs with
  | some r => some (.reference r)
  | none => cs.head?.bind fun c => if isSpecial c then some (.special c) else none

/-- The scan reads the mark at the front of a text or else its first character, and goes on behind
it. -/
theorem scanFrom_zero_cons (c : Char) (rest : List Char) :
    scanFrom 0 (c :: rest) = (markAt? (c :: rest)).getD (.plain c) ::
      scanFrom (((markAt? (c :: rest)).getD (.plain c)).chars.length - 1) rest := by
  rw [scanFrom, markAt?]
  cases readReference? (c :: rest) with
  | some r => rfl
  | none => cases hc : isSpecial c <;> simp [hc, Piece.chars]

theorem isPlain_of_markAt? {cs : List Char} {piece : Piece} (h : markAt? cs = some piece) :
    piece.isPlain = false := by
  rw [markAt?] at h
  split at h
  · rw [← Option.some.inj h]
    rfl
  · obtain ⟨c, -, hc⟩ := Option.bind_eq_some_iff.mp h
    rw [← Option.some.inj (Option.ite_none_right_eq_some.mp hc).2]
    rfl

/-- The expression matches a mark at the front of a text, and nothing else. -/
private theorem run_markRegex {p : Cursor} (hp : p.captures = []) :
    (markRegex.run p some).map (fun q => (q.offset, groupsOf q)) =
      (markAt? p.after).map fun piece => (p.offset + piece.chars.length, piece.groups) := by
  rw [Regex.run_some_eq_head?, markRegex, Regex.outcomes, List.head?_append, markAt?]
  cases hread : readReference? p.after with
  | some r =>
    cases hhead : (referenceRegex.outcomes p).head? with
    | none =>
      obtain ⟨q, hq⟩ := exists_mem_outcomes hread
      exact absurd hq (by simp [List.head?_eq_none_iff.mp hhead])
    | some q =>
      obtain ⟨r', hr', hoffset, hgroups⟩ := exists_of_mem_outcomes hp (List.mem_of_head? hhead)
      obtain rfl := Option.some.inj (hread.symm.trans hr')
      simp [hoffset, hgroups, Piece.chars]
  | none =>
    have hnil : referenceRegex.outcomes p = [] := by
      refine List.eq_nil_iff_forall_not_mem.mpr fun q hq => ?_
      obtain ⟨r, hr, -⟩ := exists_of_mem_outcomes hp hq
      exact absurd (hread.symm.trans hr) (by simp)
    rw [hnil, List.head?_nil, Option.none_or]
    cases hhead : ((Regex.group 4 (anyOf specials)).outcomes p).head? with
    | none =>
      cases hafter : p.after with
      | nil => rfl
      | cons c rest =>
        have hspecial : isSpecial c = false := by
          by_contra hspecial
          have hc : [c] ∈ charsWith (· ∈ specials) :=
            ⟨c, isSpecial_iff.mp (Bool.not_eq_false _ |>.mp hspecial), rfl⟩
          obtain ⟨q, hq, -⟩ := (spells_anyOf specials).admits.group 4 p [c] rest hc hafter
          exact absurd hq (List.head?_eq_none_iff.mp hhead ▸ List.not_mem_nil)
        simp [hspecial]
    | some q =>
      obtain ⟨_, ⟨c, hc, rfl⟩, hpasses⟩ := (Cursor.passes_nil hp).group
        (spells_anyOf specials) (List.mem_of_head? hhead)
      have hspecial : isSpecial c = true := isSpecial_iff.mpr hc
      simp [hpasses.after, hspecial, hpasses.offset, groupsOf, hpasses.captured?, Piece.groups,
        Piece.chars]

/-- What a match shows: where it begins and ends, and the captures. -/
def rowOf (m : Cursor × Cursor) : Nat × Nat × List (Option (List Char)) :=
  (m.1.offset, m.2.offset, groupsOf m.2)

private theorem findAllFrom_markRegex (n : Nat) {cs : List Char} {p : Cursor}
    (hafter : p.after = cs) (hp : p.captures = []) :
    (Regex.findAllFrom markRegex n cs p).map rowOf =
      (marksFrom (p.offset + n) (scanFrom n cs)).map fun m => (m.1, stop m, m.2.groups) := by
  induction cs generalizing n p with
  | nil => cases n <;> rfl
  | cons c rest ih =>
    have hstep (n : Nat) := ih n (p := p.pass [c] rest) rfl hp
    have hoffset (n : Nat) : (p.pass [c] rest).offset + n = p.offset + (n + 1) := by
      change p.offset + 1 + n = _
      omega
    cases n with
    | succ n =>
      rw [Regex.findAllFrom, scanFrom, hstep, hoffset]
    | zero =>
      have hrun := run_markRegex hp
      rw [hafter] at hrun
      rw [Regex.findAllFrom, scanFrom_zero_cons, marksFrom_cons, Nat.add_zero]
      cases hmark : markAt? (c :: rest) with
      | none =>
        obtain hnone : markRegex.run p some = none := by simpa [hmark] using hrun
        rw [hnone]
        exact hstep 0
      | some piece =>
        rw [hmark, Option.map_some, Option.map_eq_some_iff] at hrun
        obtain ⟨q, hq, heq⟩ := hrun
        obtain ⟨hqoffset, hgroups⟩ := Prod.mk.inj heq
        have hskip : q.offset - p.offset - 1 = piece.chars.length - 1 := by omega
        have hlength : p.offset + (piece.chars.length - 1 + 1) = p.offset + piece.chars.length := by
          rw [Nat.sub_add_cancel (length_chars_piece_pos piece)]
        simp only [hq, Option.getD_some, isPlain_of_markAt? hmark, Bool.false_eq_true, ↓reduceIte,
          List.map_cons, hskip, hstep, hoffset, hlength]
        rw [rowOf, hqoffset, hgroups]
        rfl

/-- The expression finds the marks of a template: the matches begin and end where the marks do, and
their groups capture the parts of references and the special characters. -/
theorem findAll_markRegex (template : List Char) :
    (Regex.findAll markRegex template).map rowOf =
      (marks template).map fun m => (m.1, stop m, m.2.groups) :=
  findAllFrom_markRegex 0 rfl rfl

end Template

end RouteTemplate
