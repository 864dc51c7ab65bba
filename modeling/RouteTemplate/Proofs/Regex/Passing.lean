/-
# What groups capture on the way

An expression with groups spells no language, for the position to which it leads holds what the
groups have captured. Such an expression is followed part by part: each part passes a text, and a
part that is a group also captures it. That there is a way at all over a text depends on the
languages of the parts alone.

## Main definitions

* `Cursor.Passes` — the text and the captures that lie between two positions
* `Regex.Admits` — an expression leads on over each text of a language

## Main results

* `Cursor.Passes.spells`, `Cursor.Passes.group`, `Cursor.Passes.optional_group` — one more part
* `admits_sequence` — a sequence of expressions leads on over texts of their languages in turn
-/

import RouteTemplate.Proofs.Regex.Spelling

namespace RouteTemplate.Regex

/-! ## One part after another -/

/-- The second position is the one after the text, and the groups have captured these texts by
then. -/
structure Cursor.Passes (p : Cursor) (u : List Char) (captured : Nat → Option (List Char))
    (q : Cursor) : Prop where
  after : p.after = u ++ q.after
  offset : q.offset = p.offset + u.length
  captured? : q.captured? = captured

variable {a : Regex} {L : Language Char} {p q s : Cursor} {u : List Char}
  {captured : Nat → Option (List Char)} {number : Nat}

namespace Cursor

theorem passes_nil (h : p.captures = []) : p.Passes [] (fun _ => none) p := by
  refine ⟨rfl, rfl, funext fun n => ?_⟩
  rw [captured?, h]
  rfl

/-- Two texts are passed one after the other. -/
theorem Passes.append {w : List Char} {captured' : Nat → Option (List Char)}
    (h : p.Passes u captured q) (h' : q.Passes w captured' s) :
    p.Passes (u ++ w) captured' s where
  after := by rw [h.after, h'.after, List.append_assoc]
  offset := by rw [h'.offset, h.offset, List.length_append, Nat.add_assoc]
  captured? := h'.captured?

theorem Passes.spells (h : p.Passes u captured q) (ha : a.Spells L) (hs : s ∈ a.outcomes q) :
    ∃ w ∈ L, p.Passes (u ++ w) captured s := by
  obtain ⟨w, hw, rest, hafter, rfl⟩ := (ha q s).mp hs
  exact ⟨w, hw, h.append ⟨hafter, rfl, h.captured?⟩⟩

theorem Passes.group (h : p.Passes u captured q) (ha : a.Spells L)
    (hs : s ∈ (Regex.group number a).outcomes q) :
    ∃ w ∈ L, p.Passes (u ++ w) (Function.update captured number (some w)) s := by
  obtain ⟨w, hw, rest, hafter, rfl⟩ := ha.mem_outcomes_group.mp hs
  refine ⟨w, hw, h.append ⟨hafter, rfl, funext fun n => ?_⟩⟩
  rw [captured?_capture_pass q w rest hafter, h.captured?, Function.update_apply]

theorem Passes.optional_group (h : p.Passes u captured q) (ha : a.Spells L)
    (hnone : captured number = none)
    (hs : s ∈ (Regex.repetition .greedy 0 (some 1) (.group number a)).outcomes q) :
    ∃ w : Option (List Char), (∀ v ∈ w, v ∈ L) ∧
      p.Passes (u ++ w.getD []) (Function.update captured number w) s := by
  rcases mem_outcomes_optional.mp hs with rfl | hs
  · refine ⟨none, by simp, ?_⟩
    rwa [Option.getD_none, List.append_nil, ← hnone, Function.update_eq_self]
  · obtain ⟨w, hw, hpasses⟩ := h.group ha hs
    exact ⟨some w, by simpa using hw, hpasses⟩

end Cursor

/-! ## Texts that an expression passes -/

/-- The expression leads on over each text of the language. -/
def Admits (r : Regex) (L : Language Char) : Prop :=
  ∀ p u rest, u ∈ L → p.after = u ++ rest → ∃ q ∈ r.outcomes p, q.after = rest

theorem Spells.admits (ha : a.Spells L) : a.Admits L := by
  intro p u rest hu hafter
  exact ⟨p.pass u rest, (ha p _).mpr ⟨u, hu, rest, hafter, rfl⟩, rfl⟩

theorem Admits.group (ha : a.Admits L) (number : Nat) : (Regex.group number a).Admits L := by
  intro p u rest hu hafter
  obtain ⟨q, hq, hrest⟩ := ha p u rest hu hafter
  exact ⟨q.capture number p, List.mem_map.mpr ⟨q, hq, rfl⟩, hrest⟩

theorem Admits.optional (ha : a.Admits L) :
    (Regex.repetition .greedy 0 (some 1) a).Admits (1 + L) := by
  intro p u rest hu hafter
  rcases (Language.mem_add _ _ _).mp hu with hu | hu
  · obtain rfl := (Language.mem_one u).mp hu
    exact ⟨p, mem_outcomes_optional.mpr (.inl rfl), hafter⟩
  · obtain ⟨q, hq, hrest⟩ := ha p u rest hu hafter
    exact ⟨q, mem_outcomes_optional.mpr (.inr hq), hrest⟩

/-- Expressions in sequence lead on over texts of their languages in turn. -/
theorem admits_sequence {rs : List Regex} {Ls : List (Language Char)}
    (h : List.Forall₂ Admits rs Ls) : (sequence rs).Admits Ls.prod := by
  induction h with
  | nil => exact spells_empty.admits
  | @cons r L rs Ls hr hrs ih =>
    intro p u rest hu hafter
    rw [List.prod_cons] at hu
    obtain ⟨v, hv, w, hw, rfl⟩ := Language.mem_mul.mp hu
    rw [List.append_assoc] at hafter
    obtain ⟨s, hs, hafter'⟩ := hr p v (w ++ rest) hv hafter
    obtain ⟨q, hq, hrest⟩ := ih s w rest hw hafter'
    exact ⟨q, mem_outcomes_sequence_cons.mpr ⟨s, hs, hq⟩, hrest⟩

end RouteTemplate.Regex
