/-
# Expressions at the beginning of a longer text

An expression without conditions on the position reads a text from the left. Whether the text ends
or goes on matters to it only where it takes the last character, so what it does to a text it does
to the same text with one more character at the end: it leads to the same positions, in the same
order, and besides them only to the new end.

## Main definitions

* `Cursor.extend` — the position in the text with one more character at its end
* `Cursor.LeadsTo` — a position further on, with texts that were passed as captures
* `ReadsForward` — outcomes lead forward, and are the same in a longer text up to its end

## Main results

* `ReadsForward.seq`, `ReadsForward.alt`, `ReadsForward.group`, `ReadsForward.repetition` — the
  constructs keep reading forward
* `Cursor.captured?_extend` — the captures are the same texts in a longer text
-/

import RouteTemplate.Proofs.Regex.Spelling

namespace RouteTemplate.Regex

/-! ## Positions in a longer text -/

namespace Cursor

/-- The position in the text with one more character at its end. -/
def extend (c : Char) (p : Cursor) : Cursor :=
  { p with
    after := p.after ++ [c]
    captures := p.captures.map fun (number, s) => (number, ⟨s.text ++ [c], s.length⟩) }

/-- The position is not the end of the text. -/
def isInside (p : Cursor) : Bool :=
  !p.after.isEmpty

/-- No capture is longer than the text in which it begins. -/
def CapturesWithin (p : Cursor) : Prop :=
  ∀ entry ∈ p.captures, entry.2.length ≤ entry.2.text.length

/-- The second position is the first one or further on, and what has been captured on the way lies
within the text. -/
structure LeadsTo (p q : Cursor) : Prop where
  passes : ∃ u, p.after = u ++ q.after ∧ q.offset = p.offset + u.length
  within : p.CapturesWithin → q.CapturesWithin

variable {p q s : Cursor} {c : Char}

theorem start_concat (text : List Char) (c : Char) : start (text ++ [c]) = (start text).extend c :=
  rfl

@[simp]
theorem after_extend : (p.extend c).after = p.after ++ [c] := rfl

@[simp]
theorem isInside_extend : (p.extend c).isInside = true := by
  simp [isInside]

theorem isInside_eq_false_iff : p.isInside = false ↔ p.after = [] := by
  simp [isInside]

theorem capturesWithin_start (text : List Char) : (start text).CapturesWithin := by
  intro entry hentry
  exact absurd hentry List.not_mem_nil

/-- The captures are the same texts in a longer text. -/
theorem captured?_extend (h : p.CapturesWithin) (number : Nat) :
    (p.extend c).captured? number = p.captured? number := by
  have hlookup (captures : List (Nat × Span))
      (hcaptures : ∀ entry ∈ captures, entry.2.length ≤ entry.2.text.length) :
      ((captures.map fun (n, s) => (n, (⟨s.text ++ [c], s.length⟩ : Span))).lookup number).map
          Span.chars = (captures.lookup number).map Span.chars := by
    induction captures with
    | nil => rfl
    | cons entry captures ih =>
      obtain ⟨n, s⟩ := entry
      obtain ⟨hs, hcaptures⟩ := List.forall_mem_cons.mp hcaptures
      rw [List.map_cons, List.lookup_cons, List.lookup_cons]
      cases number == n with
      | true =>
        have hs : s.length ≤ s.text.length := hs
        simp [Span.chars, List.take_append_of_le_length hs]
      | false => exact ih hcaptures
  exact hlookup p.captures h

theorem LeadsTo.refl (p : Cursor) : p.LeadsTo p :=
  ⟨⟨[], rfl, rfl⟩, id⟩

theorem LeadsTo.trans (h : p.LeadsTo q) (h' : q.LeadsTo s) : p.LeadsTo s := by
  obtain ⟨u, hu, hoffset⟩ := h.passes
  obtain ⟨v, hv, hoffset'⟩ := h'.passes
  refine ⟨⟨u ++ v, ?_, ?_⟩, h'.within ∘ h.within⟩
  · rw [hu, hv, List.append_assoc]
  · rw [hoffset', hoffset, List.length_append, Nat.add_assoc]

theorem LeadsTo.after_eq_nil (h : p.LeadsTo q) (hp : p.after = []) : q.after = [] := by
  obtain ⟨u, hu, -⟩ := h.passes
  rw [hp] at hu
  exact (List.append_eq_nil_iff.mp hu.symm).2

/-- A position further on has fewer characters ahead, unless it is the same position. -/
theorem LeadsTo.length_after (h : p.LeadsTo q) :
    p.offset ≤ q.offset ∧ q.after.length + (q.offset - p.offset) = p.after.length := by
  obtain ⟨u, hu, hoffset⟩ := h.passes
  rw [hu, hoffset, List.length_append]
  omega

/-- What a group captures lies within the text. -/
theorem LeadsTo.capture (h : p.LeadsTo q) (number : Nat) : p.LeadsTo (q.capture number p) := by
  refine ⟨h.passes, ?_⟩
  intro hp
  have hspan : q.offset - p.offset ≤ p.after.length := by
    have := h.length_after
    omega
  exact List.forall_mem_cons.mpr ⟨hspan, h.within hp⟩

end Cursor

/-! ## Reading forward -/

/-- Outcomes lead forward, and in a text with one more character at its end they are the same, in
the same order, besides those that take this character. -/
structure ReadsForward (ends : Cursor → List Cursor) : Prop where
  leads : ∀ p q, q ∈ ends p → p.LeadsTo q
  inside : ∀ p c, (ends (p.extend c)).filter Cursor.isInside = (ends p).map (Cursor.extend c)

/-- Going on from positions that are the same up to the end of a longer text leads to positions that
are the same up to its end. -/
private theorem filter_flatMap_extend {c : Char} {starts starts' : List Cursor}
    {f f' : Cursor → List Cursor}
    (hstarts : starts'.filter Cursor.isInside = starts.map (Cursor.extend c))
    (hleads : ∀ s q, q ∈ f' s → s.LeadsTo q)
    (hf : ∀ s ∈ starts, (f' (s.extend c)).filter Cursor.isInside = (f s).map (Cursor.extend c)) :
    (starts'.flatMap f').filter Cursor.isInside = (starts.flatMap f).map (Cursor.extend c) := by
  -- From the end of the text nothing leads inside it.
  have hinside : (starts'.flatMap f').filter Cursor.isInside =
      (starts'.filter Cursor.isInside).flatMap fun s => (f' s).filter Cursor.isInside := by
    rw [List.filter_flatMap]
    clear hstarts
    induction starts' with
    | nil => rfl
    | cons s starts' ih =>
      rw [List.flatMap_cons, ih, List.filter_cons]
      cases hs : s.isInside with
      | true => rfl
      | false =>
        have hnil : (f' s).filter Cursor.isInside = [] := by
          rw [List.filter_eq_nil_iff]
          intro q hq
          have hafter := (hleads s q hq).after_eq_nil (Cursor.isInside_eq_false_iff.mp hs)
          rw [Cursor.isInside_eq_false_iff.mpr hafter]
          exact Bool.false_ne_true
        rw [hnil]
        rfl
  rw [hinside, hstarts, List.flatMap_map, List.map_flatMap]
  exact List.flatMap_congr hf

variable {a b : Regex} {ends : Cursor → List Cursor}

theorem readsForward_empty : ReadsForward Regex.empty.outcomes := by
  constructor
  · intro p q hq
    obtain rfl := List.mem_singleton.mp hq
    exact .refl q
  · intro p c
    simp [outcomes]

theorem readsForward_one (cls : CharClass) : ReadsForward (Regex.one cls).outcomes := by
  constructor
  · intro p q hq
    obtain ⟨c, rest, hafter, -, rfl⟩ := mem_outcomes_one.mp hq
    exact ⟨⟨[c], hafter, rfl⟩, id⟩
  · intro p c
    simp only [outcomes, Cursor.step?, Cursor.after_extend]
    cases p.after with
    | nil =>
      -- Either the new character is taken, which leads to the end, or nothing is.
      cases hc : cls.holds c <;> simp [hc, Cursor.isInside]
    | cons d rest => cases hd : cls.holds d <;> simp [hd, Cursor.isInside, Cursor.extend]

theorem ReadsForward.seq (ha : ReadsForward a.outcomes) (hb : ReadsForward b.outcomes) :
    ReadsForward (Regex.seq a b).outcomes := by
  constructor
  · intro p q hq
    obtain ⟨s, hs, hq⟩ := List.mem_flatMap.mp hq
    exact (ha.leads p s hs).trans (hb.leads s q hq)
  · intro p c
    exact filter_flatMap_extend (ha.inside p c) hb.leads fun s _ => hb.inside s c

theorem ReadsForward.alt (ha : ReadsForward a.outcomes) (hb : ReadsForward b.outcomes) :
    ReadsForward (Regex.alt a b).outcomes := by
  constructor
  · intro p q hq
    rcases List.mem_append.mp hq with hq | hq
    · exact ha.leads p q hq
    · exact hb.leads p q hq
  · intro p c
    rw [outcomes, outcomes, List.filter_append, List.map_append, ha.inside, hb.inside]

theorem ReadsForward.group (ha : ReadsForward a.outcomes) (number : Nat) :
    ReadsForward (Regex.group number a).outcomes := by
  constructor
  · intro p q hq
    obtain ⟨s, hs, rfl⟩ := List.mem_map.mp hq
    exact (ha.leads p s hs).capture number
  · intro p c
    -- Capturing does not move, and what is captured goes on with the text.
    have hinside : Cursor.isInside ∘ (·.capture number (p.extend c)) = Cursor.isInside := rfl
    rw [outcomes, outcomes, List.filter_map, hinside, ha.inside, List.map_map, List.map_map]
    rfl

/-! ## Repetitions -/

private theorem ReadsForward.leads_repeats (h : ReadsForward ends) {greed : Greed} {least : Nat}
    {most : Option Nat} {fuel count : Nat} {last : Option Nat} {p q : Cursor}
    (hq : q ∈ repeats ends greed least most fuel count last p) : p.LeadsTo q := by
  induction fuel generalizing count last p with
  | zero => exact absurd hq List.not_mem_nil
  | succ fuel ih =>
    have hmore {starts : List Cursor} {last : Option Nat} (hstarts : ∀ s ∈ starts, s ∈ ends p)
        (hq : q ∈ starts.flatMap (repeats ends greed least most fuel (count + 1) last)) :
        p.LeadsTo q := by
      obtain ⟨s, hs, hq⟩ := List.mem_flatMap.mp hq
      exact (h.leads p s (hstarts s hs)).trans (ih hq)
    have hstop (hq : q ∈ [p]) : p.LeadsTo q := by
      obtain rfl := List.mem_singleton.mp hq
      exact .refl q
    simp only [repeats] at hq
    split at hq
    · refine hmore ?_ hq
      intro s hs
      split at hs
      · exact List.mem_of_mem_take hs
      · exact hs
    · split at hq
      · exact hstop hq
      · cases greed with
        | greedy => exact (List.mem_append.mp hq).elim (hmore fun _ => id) hstop
        | lazy =>
          rcases List.mem_cons.mp hq with rfl | hq
          · exact .refl q
          · exact hmore (fun _ => id) hq
        | possessive =>
          cases hends : ends p with
          | nil =>
            rw [hends] at hq
            exact hstop hq
          | cons s rest =>
            rw [hends] at hq
            refine hmore (fun s' hs' => ?_) hq
            rw [hends, List.mem_singleton.mp hs']
            exact List.mem_cons_self

/-- A bound on the repetitions from a position on: the obligatory ones that are left, one for each
character, and one that takes none, unless the last one took none. -/
private def repetitionsLeft (least count : Nat) (last : Option Nat) (p : Cursor) : Nat :=
  (least - count) + p.after.length + if last = some p.offset then 1 else 2

/-- The bound decreases with each repetition, obligatory or not. -/
private theorem repetitionsLeft_lt {least count : Nat} {last : Option Nat} {p s : Cursor}
    (hleads : p.LeadsTo s) (hmay : count < least ∨ last ≠ some p.offset) :
    repetitionsLeft least (count + 1) (if count < least then last else some p.offset) s <
      repetitionsLeft least count last p := by
  obtain ⟨hoffset, hlength⟩ := hleads.length_after
  rw [repetitionsLeft, repetitionsLeft]
  by_cases hcount : count < least
  · rw [if_pos hcount]
    by_cases hlast : last = some p.offset
    · rw [if_pos hlast, hlast]
      by_cases hstay : some p.offset = some s.offset
      · rw [if_pos hstay]
        omega
      · have hne : p.offset ≠ s.offset := fun heq => hstay (congrArg some heq)
        rw [if_neg hstay]
        omega
    · rw [if_neg hlast]
      split <;> omega
  · have hlast := hmay.resolve_left hcount
    rw [if_neg hcount, if_neg hlast]
    by_cases hstay : some p.offset = some s.offset
    · rw [if_pos hstay]
      omega
    · have hne : p.offset ≠ s.offset := fun heq => hstay (congrArg some heq)
      rw [if_neg hstay]
      omega

/-- Repetitions in a longer text go along with those in the text, as long as both have enough of
them left: in the longer text it takes one more. -/
private theorem ReadsForward.inside_repeats (h : ReadsForward ends) {greed : Greed}
    (hgreed : greed ≠ .possessive) {least : Nat} {most : Option Nat} {fuel fuel' count : Nat}
    {last : Option Nat} {p : Cursor} {c : Char} (hfuel : repetitionsLeft least count last p ≤ fuel)
    (hfuel' : repetitionsLeft least count last p < fuel') :
    (repeats ends greed least most fuel' count last (p.extend c)).filter Cursor.isInside =
      (repeats ends greed least most fuel count last p).map (Cursor.extend c) := by
  induction fuel generalizing fuel' count last p with
  | zero =>
    rw [repetitionsLeft] at hfuel
    split at hfuel <;> omega
  | succ fuel ih =>
    cases fuel' with
    | zero => exact absurd hfuel' (Nat.not_lt_zero _)
    | succ fuel' =>
      have hstop : [p.extend c].filter Cursor.isInside = [p.extend c] :=
        List.filter_cons_of_pos Cursor.isInside_extend
      -- One more repetition leads to the same positions inside, and from there the bounds hold.
      have hmore (hmay : count < least ∨ last ≠ some p.offset) {last' : Option Nat}
          (hlast' : last' = if count < least then last else some p.offset) :
          ((ends (p.extend c)).flatMap
              (repeats ends greed least most fuel' (count + 1) last')).filter Cursor.isInside =
            ((ends p).flatMap (repeats ends greed least most fuel (count + 1) last')).map
              (Cursor.extend c) := by
        refine filter_flatMap_extend (h.inside p c) (fun s q hq => h.leads_repeats hq) ?_
        intro s hs
        have hlt := repetitionsLeft_lt (h.leads p s hs) hmay
        rw [← hlast'] at hlt
        apply ih
        · exact Nat.le_of_lt_succ (Nat.lt_of_lt_of_le hlt hfuel)
        · exact Nat.lt_of_lt_of_le hlt (Nat.le_of_lt_succ hfuel')
      have hoffset : (p.extend c).offset = p.offset := rfl
      simp only [repeats, hoffset]
      by_cases hcount : count < least
      · rw [if_pos hcount, if_pos hcount, if_neg hgreed, if_neg hgreed]
        exact hmore (.inl hcount) (if_pos hcount).symm
      · rw [if_neg hcount, if_neg hcount]
        by_cases hrepeat : (admits most count && last != some p.offset) = true
        · have hlast : last ≠ some p.offset := bne_iff_ne.mp (Bool.and_eq_true _ _ |>.mp hrepeat).2
          have hmore := hmore (.inr hlast) (if_neg hcount).symm
          rw [hrepeat]
          cases greed with
          | greedy => simp [hmore, hstop]
          | lazy => simp [hmore]
          | possessive => exact absurd rfl hgreed
        · rw [Bool.eq_false_iff.mpr hrepeat]
          exact hstop

/-- Repetitions keep reading forward when none is possessive. -/
theorem ReadsForward.repetition (ha : ReadsForward a.outcomes) {greed : Greed}
    (hgreed : greed ≠ .possessive) (least : Nat) (most : Option Nat) :
    ReadsForward (Regex.repetition greed least most a).outcomes := by
  constructor
  · intro p q hq
    exact ha.leads_repeats hq
  · intro p c
    refine ha.inside_repeats hgreed ?_ ?_
    · rw [repetitionsLeft, repetitionBound]
      simp
    · rw [repetitionsLeft, repetitionBound]
      simp

/-! ## Sequences and choices -/

theorem ReadsForward.sequence {rs : List Regex} (h : ∀ r ∈ rs, ReadsForward r.outcomes) :
    ReadsForward (Regex.sequence rs).outcomes := by
  induction rs with
  | nil => exact readsForward_empty
  | cons r rs ih =>
    obtain ⟨hr, hrs⟩ := List.forall_mem_cons.mp h
    cases rs with
    | nil => exact hr
    | cons r' rs => exact hr.seq (ih hrs)

theorem ReadsForward.choice {rs : List Regex} (h : ∀ r ∈ rs, ReadsForward r.outcomes) :
    ReadsForward (Regex.choice rs).outcomes := by
  induction rs with
  | nil => exact readsForward_empty
  | cons r rs ih =>
    obtain ⟨hr, hrs⟩ := List.forall_mem_cons.mp h
    cases rs with
    | nil => exact hr
    | cons r' rs => exact hr.alt (ih hrs)

end RouteTemplate.Regex
