/-
# The languages that expressions spell

Many expressions neither capture anything nor look around: what they do is to move on over one of
a set of texts. Such an expression spells a language, and the operations on languages follow the
operations on expressions.

## Main definitions

* `Cursor.pass` — the position after a text
* `Regex.Spells` — an expression leads to the positions after the texts of a language, and to no
  others

## Main results

* `Spells.seq`, `Spells.alt`, `Spells.optional` — sequences, alternatives and options
* `Spells.repetition`, `spells_repetition_one` — repetitions of an expression, and of one character
* `pairwise_outcomes_lazy_one` — the order in which a lazy repetition tries texts
-/

import Mathlib.Computability.Language
import RouteTemplate.Proofs.Regex.Outcomes

namespace RouteTemplate.Regex

/-- The position after a text, which the given text follows. -/
def Cursor.pass (p : Cursor) (u rest : List Char) : Cursor :=
  ⟨p.offset + u.length, u.reverse ++ p.before, rest, p.captures⟩

@[simp]
theorem Cursor.pass_nil (p : Cursor) : p.pass [] p.after = p := rfl

@[simp]
theorem Cursor.after_pass (p : Cursor) (u rest : List Char) : (p.pass u rest).after = rest := rfl

@[simp]
theorem Cursor.captures_pass (p : Cursor) (u rest : List Char) :
    (p.pass u rest).captures = p.captures := rfl

/-- Passing one text and then another is passing both. -/
@[simp]
theorem Cursor.pass_pass (p : Cursor) (u v rest rest' : List Char) :
    (p.pass u rest).pass v rest' = p.pass (u ++ v) rest' := by
  simp [pass, Nat.add_assoc]

/-- The expression leads from any position to the positions after those texts of the language
that come next, and to no others. -/
def Spells (r : Regex) (L : Language Char) : Prop :=
  ∀ p q, q ∈ r.outcomes p ↔ ∃ u ∈ L, ∃ rest, p.after = u ++ rest ∧ q = p.pass u rest

theorem spells_empty : Spells .empty 1 := by
  intro p q
  rw [outcomes, List.mem_singleton]
  constructor
  · rintro rfl
    exact ⟨[], rfl, q.after, rfl, rfl⟩
  · rintro ⟨u, hu, rest, hafter, rfl⟩
    obtain rfl := Language.mem_one u |>.mp hu
    rw [List.nil_append] at hafter
    rw [← hafter, Cursor.pass_nil]

/-- One character leads to the position after it. -/
theorem mem_outcomes_one {cls : CharClass} {p q : Cursor} :
    q ∈ (Regex.one cls).outcomes p ↔
      ∃ c rest, p.after = c :: rest ∧ cls.holds c ∧ q = p.pass [c] rest := by
  rw [outcomes, Option.mem_toList, Cursor.step?]
  cases h : p.after with
  | nil => simp
  | cons c rest =>
    simp only [Option.ite_none_right_eq_some, Option.some.injEq, List.cons.injEq]
    constructor
    · rintro ⟨hc, rfl⟩
      exact ⟨c, rest, ⟨rfl, rfl⟩, hc, rfl⟩
    · rintro ⟨_, _, ⟨rfl, rfl⟩, hc, rfl⟩
      exact ⟨hc, rfl⟩

/-- One character of a class. -/
def CharClass.texts (cls : CharClass) : Language Char :=
  {u | ∃ c, cls.holds c ∧ u = [c]}

theorem spells_one (cls : CharClass) : Spells (.one cls) cls.texts := by
  intro p q
  rw [mem_outcomes_one]
  constructor
  · rintro ⟨c, rest, hafter, hc, rfl⟩
    exact ⟨[c], ⟨c, hc, rfl⟩, rest, hafter, rfl⟩
  · rintro ⟨_, ⟨c, hc, rfl⟩, rest, hafter, rfl⟩
    exact ⟨c, rest, hafter, hc, rfl⟩

variable {a b : Regex} {L M : Language Char}

/-- An expression spells every language with the same texts. -/
theorem Spells.congr (ha : a.Spells L) (h : ∀ u, u ∈ L ↔ u ∈ M) : a.Spells M := by
  intro p q
  rw [ha p q]
  exact exists_congr fun u => and_congr_left fun _ => h u

/-- What comes first is passed first. -/
theorem Spells.seq (ha : a.Spells L) (hb : b.Spells M) : (Regex.seq a b).Spells (L * M) := by
  intro p q
  rw [outcomes, List.mem_flatMap]
  constructor
  · rintro ⟨s, hs, hq⟩
    obtain ⟨u, hu, rest, hafter, rfl⟩ := (ha p s).mp hs
    obtain ⟨v, hv, rest', hafter', rfl⟩ := (hb _ q).mp hq
    rw [Cursor.after_pass] at hafter'
    subst hafter'
    exact ⟨u ++ v, Language.append_mem_mul hu hv, rest', by simp [hafter], by simp⟩
  · rintro ⟨w, hw, rest, hafter, rfl⟩
    obtain ⟨u, hu, v, hv, rfl⟩ := Language.mem_mul.mp hw
    refine ⟨p.pass u (v ++ rest), (ha p _).mpr ⟨u, hu, v ++ rest, by simp [hafter], rfl⟩, ?_⟩
    exact (hb _ _).mpr ⟨v, hv, rest, rfl, by simp⟩

theorem Spells.alt (ha : a.Spells L) (hb : b.Spells M) : (Regex.alt a b).Spells (L + M) := by
  intro p q
  rw [outcomes, List.mem_append, ha p q, hb p q]
  simp only [Language.mem_add, or_and_right, exists_or]

/-! ## Repetitions -/

/-- A repetition that may be the last one ends there, and one that may go on does. A repetition
that took nothing does not begin again where it began. -/
theorem mem_repeats_succ {ends : Cursor → List Cursor} {greed : Greed}
    (hgreed : greed ≠ .possessive) {least : Nat} {most : Option Nat} {fuel count : Nat}
    {last : Option Nat} {p q : Cursor} (hlast : last ≠ some p.offset) :
    q ∈ repeats ends greed least most (fuel + 1) count last p ↔
      (least ≤ count ∧ q = p) ∨
        ((count < least ∨ admits most count) ∧ ∃ s ∈ ends p,
          q ∈ repeats ends greed least most fuel (count + 1)
            (if count < least then last else some p.offset) s) := by
  have hlast : (last != some p.offset) = true := bne_iff_ne.mpr hlast
  by_cases hcount : count < least
  · have hnot : ¬ least ≤ count := Nat.not_le.mpr hcount
    cases greed <;> simp_all [repeats]
  · have hle : least ≤ count := Nat.not_lt.mp hcount
    cases hadmits : admits most count with
    | false => cases greed <;> simp [repeats, hcount, hadmits, hle]
    | true =>
      cases greed with
      | greedy => simp [repeats, hcount, hadmits, hlast, hle, or_comm]
      | lazy => simp [repeats, hcount, hadmits, hlast, hle]
      | possessive => exact absurd rfl hgreed

/-- An option leads to where the expression leads and, failing that, nowhere else. -/
theorem outcomes_optional (a : Regex) (p : Cursor) :
    (Regex.repetition .greedy 0 (some 1) a).outcomes p = a.outcomes p ++ [p] := by
  -- The repetition ends after the first time, whether it took a character or not.
  have hone : repeats a.outcomes .greedy 0 (some 1) (p.after.length + 1) 1 (some p.offset) =
      fun s => [s] := by
    funext s
    simp [repeats, admits]
  rw [outcomes, repetitionBound, repeats]
  simp [hone, admits]

theorem mem_outcomes_optional {p q : Cursor} :
    q ∈ (Regex.repetition .greedy 0 (some 1) a).outcomes p ↔ q = p ∨ q ∈ a.outcomes p := by
  rw [outcomes_optional, List.mem_append, List.mem_singleton, or_comm]

/-- Nothing or a text of the expression. -/
theorem Spells.optional (ha : a.Spells L) :
    (Regex.repetition .greedy 0 (some 1) a).Spells (1 + L) := by
  intro p q
  have hempty := spells_empty p q
  rw [outcomes, List.mem_singleton] at hempty
  rw [mem_outcomes_optional, hempty, ha p q]
  simp only [Language.mem_add, or_and_right, exists_or]

/-- One more repetition is tried when its number is admitted. -/
private theorem tries_succ_iff {least count : Nat} {most : Option Nat}
    (hbounds : ∀ m ∈ most, least ≤ m) :
    (count < least ∨ admits most count) ↔ ∀ m ∈ most, count + 1 ≤ m := by
  cases most with
  | none => simp [admits]
  | some m =>
    have hle := hbounds m rfl
    simp only [admits, decide_eq_true_eq, Option.mem_def, Option.some.injEq, forall_eq']
    omega

/-- Repetitions of an expression that takes characters pass texts of its language one after another,
of an admitted number. -/
theorem Spells.mem_repeats (ha : a.Spells L) (hnil : [] ∉ L) {greed : Greed}
    (hgreed : greed ≠ .possessive) {least : Nat} {most : Option Nat} {fuel count : Nat}
    {last : Option Nat} {p q : Cursor} (hbounds : ∀ m ∈ most, least ≤ m)
    (hcount : ∀ m ∈ most, count ≤ m) (hfuel : p.after.length < fuel)
    (hlast : ∀ start ∈ last, start < p.offset) :
    q ∈ repeats a.outcomes greed least most fuel count last p ↔
      ∃ (us : List (List Char)) (rest : List Char), p.after = us.flatten ++ rest ∧
        q = p.pass us.flatten rest ∧ (∀ u ∈ us, u ∈ L) ∧
        least ≤ count + us.length ∧ ∀ m ∈ most, count + us.length ≤ m := by
  -- Each repetition takes a character, so the bound outlasts the text and none begins where the
  -- last one began.
  induction fuel generalizing count last p with
  | zero => exact absurd hfuel (Nat.not_lt_zero _)
  | succ fuel ih =>
    have hnot : last ≠ some p.offset := fun h => Nat.lt_irrefl _ (hlast _ h)
    have hpos {u : List Char} (hu : u ∈ L) : 0 < u.length :=
      List.length_pos_iff.mpr fun h => hnil (h ▸ hu)
    have hfuel' {u rest : List Char} (hu : u ∈ L) (hafter : p.after = u ++ rest) :
        rest.length < fuel := by
      have := hpos hu
      rw [hafter, List.length_append] at hfuel
      omega
    have hlast' {u rest : List Char} (hu : u ∈ L) :
        ∀ start ∈ (if count < least then last else some p.offset),
          start < (p.pass u rest).offset := by
      have hlt : p.offset < (p.pass u rest).offset := Nat.lt_add_of_pos_right (hpos hu)
      intro start hstart
      split at hstart
      · exact Nat.lt_trans (hlast start hstart) hlt
      · obtain rfl := Option.some.inj hstart
        exact hlt
    have hlength (u : List Char) (us : List (List Char)) :
        count + (u :: us).length = count + 1 + us.length := by
      rw [List.length_cons]
      omega
    rw [mem_repeats_succ hgreed hnot, tries_succ_iff hbounds]
    constructor
    · rintro (⟨hle, rfl⟩ | ⟨hcount', s, hs, hq⟩)
      -- Either the repetition ends here, or one more text is taken.
      · exact ⟨[], q.after, rfl, rfl, by simp, by simpa using hle, by simpa using hcount⟩
      · obtain ⟨u, hu, rest, hafter, rfl⟩ := (ha p s).mp hs
        obtain ⟨us, rest', hrest, rfl, hus, hnumber⟩ :=
          (ih hcount' (hfuel' hu hafter) (hlast' hu)).mp hq
        rw [Cursor.after_pass] at hrest
        refine ⟨u :: us, rest', by simp [hafter, hrest], by simp, ?_, ?_⟩
        · exact List.forall_mem_cons.mpr ⟨hu, hus⟩
        · rwa [hlength]
    · rintro ⟨us, rest, hafter, rfl, hus, hleast, hmost⟩
      cases us with
      | nil =>
        rw [List.flatten_nil, List.nil_append] at hafter
        exact .inl ⟨by simpa using hleast, by rw [← hafter, List.flatten_nil, Cursor.pass_nil]⟩
      | cons u us =>
        obtain ⟨hu, hus⟩ := List.forall_mem_cons.mp hus
        rw [List.flatten_cons, List.append_assoc] at hafter
        rw [hlength] at hleast hmost
        have hcount' : ∀ m ∈ most, count + 1 ≤ m := fun m hm =>
          Nat.le_trans (Nat.le_add_right _ _) (hmost m hm)
        refine .inr ⟨hcount', p.pass u (us.flatten ++ rest), ?_, ?_⟩
        · exact (ha p _).mpr ⟨u, hu, us.flatten ++ rest, hafter, rfl⟩
        · exact (ih hcount' (hfuel' hu hafter) (hlast' hu)).mpr
            ⟨us, rest, rfl, by simp, hus, hleast, hmost⟩

/-- Texts of a language one after another, of an admitted number. -/
def iterated (L : Language Char) (least : Nat) (most : Option Nat) : Language Char :=
  {u | ∃ us : List (List Char), us.flatten = u ∧ (∀ w ∈ us, w ∈ L) ∧ least ≤ us.length ∧
    ∀ m ∈ most, us.length ≤ m}

/-- Repetitions of an expression that takes characters spell the texts of its language one after
another. -/
theorem Spells.repetition (ha : a.Spells L) (hnil : [] ∉ L) {greed : Greed}
    (hgreed : greed ≠ .possessive) {least : Nat} {most : Option Nat}
    (hbounds : ∀ m ∈ most, least ≤ m) :
    (Regex.repetition greed least most a).Spells (iterated L least most) := by
  intro p q
  rw [outcomes, ha.mem_repeats hnil hgreed hbounds (by simp) (by simp [repetitionBound]; omega)
    (by simp)]
  simp only [Nat.zero_add]
  constructor
  · rintro ⟨us, rest, hafter, rfl, hus, hlength⟩
    exact ⟨us.flatten, ⟨us, rfl, hus, hlength⟩, rest, hafter, rfl⟩
  · rintro ⟨_, ⟨us, rfl, hus, hlength⟩, rest, hafter, rfl⟩
    exact ⟨us, rest, hafter, rfl, hus, hlength⟩

/-- Characters of a class, of an admitted number. -/
def CharClass.repeated (cls : CharClass) (least : Nat) (most : Option Nat) : Language Char :=
  {u | (∀ c ∈ u, cls.holds c) ∧ least ≤ u.length ∧ ∀ m ∈ most, u.length ≤ m}

/-- Repetitions of one character spell the texts of such characters of an admitted length. -/
theorem spells_repetition_one {cls : CharClass} {greed : Greed} (hgreed : greed ≠ .possessive)
    {least : Nat} {most : Option Nat} (hbounds : ∀ m ∈ most, least ≤ m) :
    (Regex.repetition greed least most (.one cls)).Spells (cls.repeated least most) := by
  refine ((spells_one cls).repetition ?_ hgreed hbounds).congr fun u => ?_
  · rintro ⟨c, -, hc⟩
    exact absurd hc (by simp)
  · constructor
    · rintro ⟨us, rfl, hus, hlength⟩
      have hlengths : us.flatten.length = us.length := by
        have hone : us.map List.length = us.map fun _ => 1 := by
          refine List.map_congr_left fun w hw => ?_
          obtain ⟨c, -, rfl⟩ := hus w hw
          rfl
        rw [List.length_flatten, hone]
        simp
      refine ⟨fun c hc => ?_, hlengths ▸ hlength⟩
      obtain ⟨w, hw, hmem⟩ := List.mem_flatten.mp hc
      obtain ⟨d, hd, rfl⟩ := hus w hw
      exact List.mem_singleton.mp hmem ▸ hd
    · rintro ⟨hu, hlength⟩
      refine ⟨u.map ([·]), by simp [← List.flatMap_def], ?_, by rwa [List.length_map]⟩
      intro w hw
      obtain ⟨c, hc, rfl⟩ := List.mem_map.mp hw
      exact ⟨c, hu c hc, rfl⟩

/-- Lazy repetitions of one character lead to the nearest position first, and never back. -/
private theorem pairwise_repeats_lazy_one (cls : CharClass) {least : Nat} {most : Option Nat}
    {fuel count : Nat} {last : Option Nat} {p : Cursor} :
    (∀ q ∈ repeats (Regex.one cls).outcomes .lazy least most fuel count last p,
        p.offset ≤ q.offset) ∧
      (repeats (Regex.one cls).outcomes .lazy least most fuel count last p).Pairwise
        (·.offset < ·.offset) := by
  induction fuel generalizing count last p with
  | zero => exact ⟨by simp [repeats], .nil⟩
  | succ fuel ih =>
    -- Going on takes a character, so it leads beyond the position.
    have hmore (last : Option Nat) :
        (∀ q ∈ ((Regex.one cls).outcomes p).flatMap
            (repeats (Regex.one cls).outcomes .lazy least most fuel (count + 1) last),
          p.offset < q.offset) ∧
        (((Regex.one cls).outcomes p).flatMap
            (repeats (Regex.one cls).outcomes .lazy least most fuel (count + 1) last)).Pairwise
          (·.offset < ·.offset) := by
      rw [outcomes]
      cases hstep : p.step? cls.holds with
      | none => exact ⟨by simp, .nil⟩
      | some s =>
        obtain ⟨c, rest, -, -, rfl⟩ := mem_outcomes_one.mp (Option.mem_toList.mpr hstep)
        rw [Option.toList_some, List.flatMap_singleton]
        obtain ⟨hoffset, hpairwise⟩ := @ih (count + 1) last (p.pass [c] rest)
        exact ⟨hoffset, hpairwise⟩
    obtain ⟨hoffset, hpairwise⟩ := hmore (if count < least then last else some p.offset)
    simp only [repeats]
    split
    · rename_i hcount
      rw [if_pos hcount] at hoffset hpairwise
      exact ⟨fun q hq => Nat.le_of_lt (hoffset q hq), hpairwise⟩
    · rename_i hcount
      rw [if_neg hcount] at hoffset hpairwise
      split
      · exact ⟨by simp, List.pairwise_singleton _ _⟩
      · refine ⟨?_, List.pairwise_cons.mpr ⟨hoffset, hpairwise⟩⟩
        exact List.forall_mem_cons.mpr
          ⟨Nat.le_refl _, fun q hq => Nat.le_of_lt (hoffset q hq)⟩

/-- A lazy repetition of one character tries shorter texts first. -/
theorem pairwise_outcomes_lazy_one (cls : CharClass) (least : Nat) (most : Option Nat)
    (p : Cursor) :
    ((Regex.repetition .lazy least most (.one cls)).outcomes p).Pairwise (·.offset < ·.offset) :=
  (pairwise_repeats_lazy_one cls).2

/-! ## Sequences and choices -/

theorem outcomes_sequence_cons (r : Regex) (rs : List Regex) (p : Cursor) :
    (sequence (r :: rs)).outcomes p = (r.outcomes p).flatMap (sequence rs).outcomes := by
  cases rs with
  | nil => exact (List.flatMap_singleton' _).symm
  | cons r' rs => rfl

/-- Two sequences lead to where the second leads from where the first leads. -/
theorem outcomes_sequence_append (rs rs' : List Regex) (p : Cursor) :
    (sequence (rs ++ rs')).outcomes p =
      ((sequence rs).outcomes p).flatMap (sequence rs').outcomes := by
  induction rs generalizing p with
  | nil => exact (List.flatMap_singleton _ _).symm
  | cons r rs ih =>
    rw [List.cons_append, outcomes_sequence_cons, outcomes_sequence_cons, List.flatMap_assoc]
    exact List.flatMap_congr fun s _ => ih s

theorem mem_outcomes_sequence_cons {r : Regex} {rs : List Regex} {p q : Cursor} :
    q ∈ (sequence (r :: rs)).outcomes p ↔
      ∃ s ∈ r.outcomes p, q ∈ (sequence rs).outcomes s := by
  rw [outcomes_sequence_cons, List.mem_flatMap]

theorem mem_outcomes_sequence_append {rs rs' : List Regex} {p q : Cursor} :
    q ∈ (sequence (rs ++ rs')).outcomes p ↔
      ∃ s ∈ (sequence rs).outcomes p, q ∈ (sequence rs').outcomes s := by
  rw [outcomes_sequence_append, List.mem_flatMap]

/-- Expressions in sequence pass a text of each of their languages in turn. -/
theorem spells_sequence {rs : List Regex} {Ls : List (Language Char)}
    (h : List.Forall₂ Spells rs Ls) : (sequence rs).Spells Ls.prod := by
  induction h with
  | nil => exact spells_empty
  | @cons r L rs Ls hr hrs ih =>
    -- The last expression is not followed by an empty one.
    cases hrs with
    | nil => simpa [sequence] using hr
    | cons hr' hrs' =>
      rw [List.prod_cons]
      exact hr.seq ih

/-- A choice between expressions passes a text of one of their languages. -/
theorem spells_choice {rs : List Regex} {Ls : List (Language Char)} (hne : rs ≠ [])
    (h : List.Forall₂ Spells rs Ls) : (choice rs).Spells Ls.sum := by
  induction h with
  | nil => exact absurd rfl hne
  | @cons r L rs Ls hr hrs ih =>
    cases hrs with
    | nil => simpa [choice] using hr
    | cons hr' hrs' =>
      rw [List.sum_cons]
      exact hr.alt (ih (List.cons_ne_nil _ _))

/-! ## Conditions on the position -/

/-- A condition on the position leads nowhere else. -/
theorem mem_outcomes_anchor {condition : Anchor} {p q : Cursor} :
    q ∈ (Regex.anchor condition).outcomes p ↔ p.satisfies condition ∧ q = p := by
  rw [outcomes]
  split <;> simp_all

/-- Looking ahead over an expression that captures nothing leads nowhere else. -/
theorem mem_outcomes_ahead {p q : Cursor}
    (hcaptures : ∀ s ∈ a.outcomes p, s.captures = p.captures) :
    q ∈ (Regex.look .ahead false a).outcomes p ↔ (∃ s, s ∈ a.outcomes p) ∧ q = p := by
  cases h : a.outcomes p with
  | nil => simp [outcomes, h]
  | cons s rest =>
    have hs : s.captures = p.captures := hcaptures s (by simp [h])
    have hsame : { p with captures := s.captures } = p := by rw [hs]
    simp only [outcomes, h, hsame, List.mem_singleton]
    exact ⟨fun hq => ⟨⟨s, List.mem_cons_self⟩, hq⟩, fun hq => hq.2⟩

/-! ## Captures -/

/-- A group captures the text that its expression passes, and leaves the other groups as they
were. -/
theorem captured?_capture_pass (p : Cursor) (u rest : List Char) (hafter : p.after = u ++ rest)
    (number other : Nat) :
    ((p.pass u rest).capture number p).captured? other =
      if other = number then some u else p.captured? other := by
  rw [Cursor.captured?, Cursor.captured?, Cursor.capture, Cursor.captures_pass, List.lookup_cons]
  by_cases h : other = number
  · subst h
    simp [Cursor.pass, Span.chars, hafter]
  · simp [h, beq_eq_false_iff_ne.mpr h]

/-- A group leads to where its expression leads, with what it passed as its capture. -/
theorem Spells.mem_outcomes_group (ha : a.Spells L) {number : Nat} {p q : Cursor} :
    q ∈ (Regex.group number a).outcomes p ↔
      ∃ u ∈ L, ∃ rest, p.after = u ++ rest ∧ q = (p.pass u rest).capture number p := by
  rw [outcomes, List.mem_map]
  constructor
  · rintro ⟨s, hs, rfl⟩
    obtain ⟨u, hu, rest, hafter, rfl⟩ := (ha p s).mp hs
    exact ⟨u, hu, rest, hafter, rfl⟩
  · rintro ⟨u, hu, rest, hafter, rfl⟩
    exact ⟨p.pass u rest, (ha p _).mpr ⟨u, hu, rest, hafter, rfl⟩, rfl⟩

end RouteTemplate.Regex
