/-
# Expressions that do not tell characters apart

A relation on characters says which of them count as alike. When no class of an expression tells
alike characters apart, the expression does the same to two texts whose characters are alike, one by
one: it leads to the same positions, in the same order, and captures alike texts on the way.

## Main definitions

* `Span.Alike`, `Cursor.Alike` — the same place in texts whose characters are alike
* `IsBlind` — an expression whose classes tell no alike characters apart

## Main results

* `IsBlind.forall₂_outcomes` — such an expression does the same to alike texts
* `IsBlind.sequence`, `IsBlind.choice` — composed expressions
-/

import Mathlib.Data.List.Forall2
import RouteTemplate.Proofs.Regex.Outcomes

namespace RouteTemplate.Regex

variable {R : Char → Char → Prop}

/-! ## Places in alike texts -/

/-- The same number of characters, which are alike. -/
structure Span.Alike (R : Char → Char → Prop) (s t : Span) : Prop where
  text : List.Forall₂ R s.text t.text
  length : s.length = t.length

namespace Cursor

/-- The same place in texts whose characters are alike, with the same groups captured. -/
structure Alike (R : Char → Char → Prop) (p q : Cursor) : Prop where
  offset : p.offset = q.offset
  before : List.Forall₂ R p.before q.before
  after : List.Forall₂ R p.after q.after
  captures : List.Forall₂ (fun a b => a.1 = b.1 ∧ Span.Alike R a.2 b.2) p.captures q.captures

variable {p q : Cursor}

theorem alike_start {text text' : List Char} (h : List.Forall₂ R text text') :
    Alike R (start text) (start text') :=
  ⟨rfl, .nil, h, .nil⟩

theorem Alike.capture (h : Alike R p q) (number : Nat) {since since' : Cursor}
    (hsince : Alike R since since') :
    Alike R (p.capture number since) (q.capture number since') where
  offset := h.offset
  before := h.before
  after := h.after
  captures := by
    refine .cons ⟨rfl, hsince.after, ?_⟩ h.captures
    rw [h.offset, hsince.offset]

/-- What a group has captured is alike. -/
theorem Alike.captured? (h : Alike R p q) (number : Nat) :
    Option.Rel (List.Forall₂ R) (p.captured? number) (q.captured? number) := by
  have hlookup {captures captures' : List (Nat × Span)}
      (hcaptures : List.Forall₂ (fun a b => a.1 = b.1 ∧ Span.Alike R a.2 b.2) captures captures') :
      Option.Rel (List.Forall₂ R) ((captures.lookup number).map Span.chars)
        ((captures'.lookup number).map Span.chars) := by
    induction hcaptures with
    | nil => exact .none
    | @cons a b _ _ hentry _ ih =>
      obtain ⟨n, s⟩ := a
      obtain ⟨n', t⟩ := b
      obtain ⟨rfl, hspan⟩ := hentry
      rw [List.lookup_cons, List.lookup_cons]
      cases number == n with
      | true =>
        refine .some ?_
        rw [Span.chars, Span.chars, hspan.length]
        exact List.forall₂_take _ hspan.text
      | false => exact ih
  exact hlookup h.captures

end Cursor

/-! ## Blind expressions -/

/-- No class of the expression tells alike characters apart. Besides, it asks for the position only
at the start and the end of the text, and does not refer back. -/
inductive IsBlind (R : Char → Char → Prop) : Regex → Prop
  | empty : IsBlind R .empty
  | one {cls : CharClass} (h : ∀ c d, R c d → cls.holds c = cls.holds d) : IsBlind R (.one cls)
  | textStart : IsBlind R (.anchor .textStart)
  | textEnd : IsBlind R (.anchor .textEnd)
  | seq {a b : Regex} (ha : IsBlind R a) (hb : IsBlind R b) : IsBlind R (.seq a b)
  | alt {a b : Regex} (ha : IsBlind R a) (hb : IsBlind R b) : IsBlind R (.alt a b)
  | repetition (greed : Greed) (least : Nat) (most : Option Nat) {a : Regex} (ha : IsBlind R a) :
      IsBlind R (.repetition greed least most a)
  | group (number : Nat) {a : Regex} (ha : IsBlind R a) : IsBlind R (.group number a)
  | ahead (negated : Bool) {a : Regex} (ha : IsBlind R a) : IsBlind R (.look .ahead negated a)

/-- From alike positions, the ends are alike. -/
def LeadsAlike (R : Char → Char → Prop) (ends : Cursor → List Cursor) : Prop :=
  ∀ ⦃p q⦄, Cursor.Alike R p q → List.Forall₂ (Cursor.Alike R) (ends p) (ends q)

theorem isEmpty_eq_of_forall₂ {α β : Type} {S : α → β → Prop} {l : List α} {l' : List β}
    (h : List.Forall₂ S l l') : l.isEmpty = l'.isEmpty := by
  cases h <;> rfl

/-- Repetitions of what leads to alike ends lead to alike ends. -/
theorem LeadsAlike.repeats {ends : Cursor → List Cursor} (h : LeadsAlike R ends) (greed : Greed)
    (least : Nat) (most : Option Nat) (fuel count : Nat) (last : Option Nat) :
    LeadsAlike R (repeats ends greed least most fuel count last) := by
  -- Whether to go on is decided by the count and the offset, which are the same in both texts.
  induction fuel generalizing count last with
  | zero => exact fun _ _ _ => .nil
  | succ fuel ih =>
    intro p q hpq
    have hmore {starts starts' : List Cursor} (last : Option Nat)
        (hstarts : List.Forall₂ (Cursor.Alike R) starts starts') :
        List.Forall₂ (Cursor.Alike R)
          (starts.flatMap (Regex.repeats ends greed least most fuel (count + 1) last))
          (starts'.flatMap (Regex.repeats ends greed least most fuel (count + 1) last)) :=
      List.rel_flatMap hstarts (ih (count + 1) last)
    have hstop : List.Forall₂ (Cursor.Alike R) [p] [q] := .cons hpq .nil
    have hends := h hpq
    simp only [Regex.repeats, ← hpq.offset]
    split
    · refine hmore last ?_
      split
      · exact List.forall₂_take 1 hends
      · exact hends
    · split
      · exact hstop
      · cases greed with
        | greedy => exact List.rel_append (hmore _ hends) hstop
        | lazy => exact .cons hpq (hmore _ hends)
        | possessive =>
          generalize ends p = found at hends ⊢
          generalize ends q = found' at hends ⊢
          cases hends with
          | nil => exact hstop
          | cons hfirst _ => exact hmore _ (.cons hfirst .nil)

/-- An expression that tells no alike characters apart does the same to alike texts. -/
theorem IsBlind.forall₂_outcomes {r : Regex} (h : IsBlind R r) : LeadsAlike R r.outcomes := by
  induction h with
  | empty => exact fun p q hpq => .cons hpq .nil
  | @one cls hcls =>
    intro p q hpq
    have hafter := hpq.after
    simp only [outcomes, Cursor.step?]
    generalize p.after = after at hafter ⊢
    generalize q.after = after' at hafter ⊢
    cases hafter with
    | nil => exact .nil
    | @cons c d _ _ hc hrest =>
      simp only [hcls c d hc]
      cases cls.holds d with
      | false => exact .nil
      | true => exact .cons ⟨by rw [hpq.offset], .cons hc hpq.before, hrest, hpq.captures⟩ .nil
  | textStart =>
    intro p q hpq
    rw [outcomes, outcomes, Cursor.satisfies, Cursor.satisfies, isEmpty_eq_of_forall₂ hpq.before]
    split
    · exact .cons hpq .nil
    · exact .nil
  | textEnd =>
    intro p q hpq
    rw [outcomes, outcomes, Cursor.satisfies, Cursor.satisfies, isEmpty_eq_of_forall₂ hpq.after]
    split
    · exact .cons hpq .nil
    · exact .nil
  | seq _ _ iha ihb => exact fun p q hpq => List.rel_flatMap (iha hpq) ihb
  | alt _ _ iha ihb => exact fun p q hpq => List.rel_append (iha hpq) (ihb hpq)
  | repetition greed least most _ ih =>
    intro p q hpq
    -- As much is left of one text as of the other, so there is the same fuel.
    rw [outcomes, outcomes, repetitionBound, repetitionBound, hpq.after.length_eq]
    exact ih.repeats greed least most _ 0 none hpq
  | group number _ ih =>
    intro p q hpq
    exact List.rel_map (fun _ _ h => h.capture number hpq) (ih hpq)
  | @ahead negated a _ ih =>
    intro p q hpq
    have hfound := ih hpq
    simp only [outcomes]
    generalize a.outcomes p = found at hfound ⊢
    generalize a.outcomes q = found' at hfound ⊢
    cases hfound with
    | nil =>
      cases negated with
      | false => exact .nil
      | true => exact .cons hpq .nil
    | cons hfirst _ =>
      cases negated with
      | false => exact .cons ⟨hpq.offset, hpq.before, hpq.after, hfirst.captures⟩ .nil
      | true => exact .nil

/-- The first match is found at alike ends, or in neither text. -/
theorem IsBlind.matchStart {r : Regex} (h : IsBlind R r) {text text' : List Char}
    (htext : List.Forall₂ R text text') :
    Option.Rel (Cursor.Alike R) (r.matchStart text) (r.matchStart text') := by
  have hends := h.forall₂_outcomes (Cursor.alike_start htext)
  rw [matchStart_eq_head?, matchStart_eq_head?]
  generalize r.outcomes (Cursor.start text) = ends at hends ⊢
  generalize r.outcomes (Cursor.start text') = ends' at hends ⊢
  cases hends with
  | nil => exact .none
  | cons hfirst _ => exact .some hfirst

/-! ## Sequences and choices -/

theorem IsBlind.sequence {rs : List Regex} (h : ∀ r ∈ rs, IsBlind R r) :
    IsBlind R (Regex.sequence rs) := by
  induction rs with
  | nil => exact .empty
  | cons r rs ih =>
    obtain ⟨hr, hrs⟩ := List.forall_mem_cons.mp h
    cases rs with
    | nil => exact hr
    | cons r' rs => exact .seq hr (ih hrs)

theorem IsBlind.choice {rs : List Regex} (h : ∀ r ∈ rs, IsBlind R r) :
    IsBlind R (Regex.choice rs) := by
  induction rs with
  | nil => exact .empty
  | cons r rs ih =>
    obtain ⟨hr, hrs⟩ := List.forall_mem_cons.mp h
    cases rs with
    | nil => exact hr
    | cons r' rs => exact .alt hr (ih hrs)

end RouteTemplate.Regex
