/-
# Texts that fit a template

A text fits the pieces of a template when it consists of their letters and, in place of each
reference, of the character before its braces and a text of its language; a reference that is not
required may be left out. The expression that is compiled for the pieces passes exactly the texts
that fit, and its groups capture what the references take.

## Main definitions

* `Fits` — a text fits pieces, with what their references take
* `AllowedRest` — what may follow the body of a template in a path

## Main results

* `fits_of_mem_outcomes`, `Fits.exists_mem_outcomes` — the expression passes the texts that fit
* `Route.exists_mem_outcomes_regex_iff` — a route matches a path when its beginning fits and its
  rest is allowed
-/

import RouteTemplate.Proofs.Template.Language
import RouteTemplate.Proofs.Template.Resolution

namespace RouteTemplate

/-- What consecutive groups have captured. -/
def Regex.Cursor.groupsFrom (p : Regex.Cursor) (number count : Nat) : List (Option String) :=
  (List.range' number count).map fun i => (p.captured? i).map String.ofList

namespace Template

open RouteTemplate.Regex (Cursor)

/-- What the references of a template take, absent for those that are left out. -/
abbrev Taken := List (Slot × Option String)

/-- The text fits the pieces, and their references take the given texts. -/
inductive Fits (language : Definition Value → Bool → Option Char → Language Char)
    (sensitive : Bool) (declarations : Declarations) : List Piece → Taken → List Char → Prop
  | nil : Fits language sensitive declarations [] [] []
  | special {c d : Char} {pieces taken u} : SameLetter sensitive c d →
      Fits language sensitive declarations pieces taken u →
      Fits language sensitive declarations (.special c :: pieces) taken (d :: u)
  | plain {c d : Char} {pieces taken u} : SameLetter sensitive c d →
      Fits language sensitive declarations pieces taken u →
      Fits language sensitive declarations (.plain c :: pieces) taken (d :: u)
  | present {r : Reference} {name definition} {text : List Char} {pieces taken u} :
      r.RefersTo declarations name definition → text ∈ language definition r.expand r.lead →
      Fits language sensitive declarations pieces taken u →
      Fits language sensitive declarations (.reference r :: pieces)
        ((r.slot name, some (String.ofList text)) :: taken) (r.lead.toList ++ text ++ u)
  | absent {r : Reference} {name definition pieces taken u} :
      r.RefersTo declarations name definition → definition.required = false →
      Fits language sensitive declarations pieces taken u →
      Fits language sensitive declarations (.reference r :: pieces) ((r.slot name, none) :: taken) u

/-- What may follow the body of a template in a path: nothing, or a slash unless the match is
strict. If the match need not reach the end, anything may follow that begins with a slash, and
anything at all after a slash that counts. -/
def AllowedRest (template : List Char) (options : Options) (rest : List Char) : Prop :=
  if options.toEnd then rest = [] ∨ (options.strict = false ∧ rest = ['/'])
  else rest = [] ∨ rest.head? = some '/' ∨
    (options.strict = true ∧ template.getLast? = some '/')

/-! ## Parts -/

variable {sensitive : Bool} {p q : Cursor}

private theorem isCased_slash : Regex.CaseMode.isCased .ascii '/'.toNat = false := by decide

private theorem mem_word_lead {lead : Option Char}
    (hlead : lead = none ∨ lead = some '/' ∨ lead = some '.') {u : List Char} :
    u ∈ word sensitive lead.toList ↔ u = lead.toList := by
  have hletter {c d : Char} (hc : Regex.CaseMode.isCased .ascii c.toNat = false) :
      [d] ∈ word sensitive [c] ↔ d = c := by
    rw [word_singleton]
    constructor
    · rintro ⟨_, hd, heq⟩
      obtain rfl := (List.cons.inj heq).1
      exact ((sameLetter_of_uncased hc).mp hd).symm
    · rintro rfl
      exact ⟨d, .inl rfl, rfl⟩
  have hone {c : Char} (hc : Regex.CaseMode.isCased .ascii c.toNat = false) :
      u ∈ word sensitive [c] ↔ u = [c] := by
    constructor
    · intro hu
      obtain ⟨d, hd⟩ := List.length_eq_one_iff.mp (List.Forall₂.length_eq hu).symm
      subst hd
      rw [(hletter hc).mp hu]
    · rintro rfl
      exact (hletter hc).mpr rfl
  rcases hlead with rfl | rfl | rfl
  · simp [word_nil]
  · exact hone isCased_slash
  · exact hone (by decide)

/-- The expressions of a character lead over the same letter. -/
theorem mem_outcomes_char {c : Char} :
    q ∈ (charRegex (caseModeOf sensitive) c).outcomes p ↔
      ∃ d rest, SameLetter sensitive c d ∧ p.after = d :: rest ∧ q = p.pass [d] rest := by
  rw [spells_charRegex sensitive c p q]
  constructor
  · rintro ⟨_, ⟨d, hd, rfl⟩, rest, hafter, hq⟩
    exact ⟨d, rest, hd, hafter, hq⟩
  · rintro ⟨d, rest, hd, hafter, hq⟩
    exact ⟨[d], ⟨d, hd, rfl⟩, rest, hafter, hq⟩

/-- The expressions of a reference lead over the character before its braces and a text of its
language, which the group captures. -/
theorem mem_outcomes_group {number : Nat} {lead : Option Char}
    (hlead : lead = none ∨ lead = some '/' ∨ lead = some '.') {expand : Bool}
    {definition : Definition Value} :
    q ∈ (Regex.sequence (charRegexes (caseModeOf sensitive) lead.toList ++
        [.group number
          (captureRegex (caseModeOf sensitive) definition expand (lead.getD '/'))])).outcomes p ↔
      ∃ text ∈ captureLanguage sensitive definition expand lead, ∃ rest,
        p.after = lead.toList ++ text ++ rest ∧
        q = (p.pass (lead.toList ++ text) rest).capture number
          (p.pass lead.toList (text ++ rest)) := by
  have hspells := spells_captureRegex sensitive definition expand hlead
  rw [Regex.mem_outcomes_sequence_append]
  constructor
  · rintro ⟨s, hs, hq⟩
    obtain ⟨u, hu, rest, hafter, rfl⟩ := (spells_textRegex sensitive lead.toList p s).mp hs
    obtain rfl := (mem_word_lead hlead).mp hu
    obtain ⟨text, htext, rest', hafter', rfl⟩ := hspells.mem_outcomes_group.mp hq
    rw [Cursor.after_pass] at hafter'
    subst hafter'
    exact ⟨text, htext, rest', by rw [hafter, List.append_assoc], by rw [Cursor.pass_pass]⟩
  · rintro ⟨text, htext, rest, hafter, rfl⟩
    refine ⟨p.pass lead.toList (text ++ rest), ?_, ?_⟩
    · exact (spells_textRegex sensitive lead.toList p _).mpr
        ⟨lead.toList, (mem_word_lead hlead).mpr rfl, text ++ rest,
          by rw [hafter, List.append_assoc], rfl⟩
    · exact hspells.mem_outcomes_group.mpr
        ⟨text, htext, rest, rfl, by rw [Cursor.pass_pass]⟩

/-- A reference that is not required leads nowhere else, too. -/
private theorem mem_outcomes_required {required : Bool} {items : List Regex} :
    q ∈ (Regex.sequence
        (if required then items else [optional (Regex.sequence items)])).outcomes p ↔
      (required = false ∧ q = p) ∨ q ∈ (Regex.sequence items).outcomes p := by
  cases required with
  | true => simp
  | false =>
    change q ∈ (optional (Regex.sequence items)).outcomes p ↔ _
    rw [optional, Regex.mem_outcomes_optional]
    simp only [true_and]

/-- A group captures the text that a reference takes. -/
theorem captured?_present (number other : Nat) (lead text rest : List Char) :
    ((p.pass (lead ++ text) rest).capture number (p.pass lead (text ++ rest))).captured? other =
      if other = number then some text else p.captured? other := by
  have hpass := Regex.captured?_capture_pass (p.pass lead (text ++ rest)) text rest rfl number other
  rw [Cursor.pass_pass] at hpass
  exact hpass

/-! ## Pieces -/

variable {declarations : Declarations}

theorem groupsFrom_succ (p : Cursor) (number count : Nat) :
    p.groupsFrom number (count + 1) =
      (p.captured? number).map String.ofList :: p.groupsFrom (number + 1) count := by
  rw [Cursor.groupsFrom, List.range'_succ, List.map_cons]
  rfl

/-- Where the expressions of pieces lead, the text that was passed fits the pieces. The groups
from the first number on have captured what the references take, and no others have changed. -/
theorem fits_of_mem_outcomes {pieces : List Piece} {parts : List Part} {slots : List Slot}
    (h : Resolves declarations pieces parts slots)
    (hpieces : ∀ piece ∈ pieces, piece.IsWellFormed) {number : Nat}
    (hfree : ∀ i, number ≤ i → p.captured? i = none)
    (hq : q ∈ (Regex.sequence
      (Route.partRegexes (caseModeOf sensitive) number parts)).outcomes p) :
    ∃ u, Fits (captureLanguage sensitive) sensitive declarations pieces
        (slots.zip (q.groupsFrom number slots.length)) u ∧
      p.after = u ++ q.after ∧ q.before = u.reverse ++ p.before ∧
      ∀ i < number, q.captured? i = p.captured? i := by
  -- By the pieces from the left. The captures made so far are kept, since every later group has a
  -- higher number.
  induction h generalizing number p with
  | nil =>
    obtain rfl := List.mem_singleton.mp hq
    exact ⟨[], .nil, rfl, rfl, fun _ _ => rfl⟩
  | special c hresolves ih =>
    obtain ⟨s, hs, hq⟩ := Regex.mem_outcomes_sequence_cons.mp hq
    obtain ⟨d, rest, hd, hafter, rfl⟩ := mem_outcomes_char.mp hs
    obtain ⟨u, hu, hrest, hbefore, hsame⟩ :=
      ih (p := p.pass [d] rest) (List.forall_mem_cons.mp hpieces).2 hfree hq
    rw [Cursor.after_pass] at hrest
    exact ⟨d :: u, .special hd hu, by rw [hafter, hrest]; rfl, by simp [hbefore, Cursor.pass],
      hsame⟩
  | plain c hresolves ih =>
    obtain ⟨s, hs, hq⟩ := Regex.mem_outcomes_sequence_cons.mp hq
    obtain ⟨d, rest, hd, hafter, rfl⟩ := mem_outcomes_char.mp hs
    obtain ⟨u, hu, hrest, hbefore, hsame⟩ :=
      ih (p := p.pass [d] rest) (List.forall_mem_cons.mp hpieces).2 hfree hq
    rw [Cursor.after_pass] at hrest
    exact ⟨d :: u, .plain hd hu, by rw [hafter, hrest]; rfl, by simp [hbefore, Cursor.pass], hsame⟩
  | @reference r name definition pieces parts slots hrefers hresolves ih =>
    obtain ⟨⟨hlead, -⟩, hpieces⟩ := List.forall_mem_cons.mp hpieces
    obtain ⟨s, hs, hlater⟩ := Regex.mem_outcomes_sequence_append.mp hq
    rw [List.length_cons, groupsFrom_succ, List.zip_cons_cons]
    rcases mem_outcomes_required.mp hs with ⟨hrequired, rfl⟩ | hs
    · -- The reference is left out, and its group stays without a capture.
      obtain ⟨u, hu, hrest, hbefore, hsame⟩ :=
        ih hpieces (fun i hi => hfree i (Nat.le_of_succ_le hi)) hlater
      have hnone : q.captured? number = none :=
        (hsame number (Nat.lt_succ_self _)).trans (hfree number (Nat.le_refl _))
      rw [hnone]
      exact ⟨u, .absent hrefers hrequired hu, hrest, hbefore,
        fun i hi => hsame i (Nat.lt_succ_of_lt hi)⟩
    · obtain ⟨text, htext, rest, hafter, rfl⟩ := (mem_outcomes_group hlead).mp hs
      -- The group captures the text alone, without the character before the braces.
      have hcaptured := fun i => captured?_present (p := p) number i r.lead.toList text rest
      obtain ⟨u, hu, hrest, hbefore, hsame⟩ := ih hpieces (fun i hi => by
        rw [hcaptured, if_neg (Nat.ne_of_gt hi)]
        exact hfree i (Nat.le_of_succ_le hi)) hlater
      have hsome : q.captured? number = some text := by
        rw [hsame number (Nat.lt_succ_self _), hcaptured, if_pos rfl]
      rw [hsome]
      refine ⟨r.lead.toList ++ text ++ u, .present hrefers htext hu, ?_, ?_, fun i hi => ?_⟩
      · have hrest : rest = u ++ q.after := hrest
        rw [hafter, hrest, List.append_assoc, List.append_assoc, List.append_assoc]
      · rw [hbefore]
        simp [Cursor.capture, Cursor.pass]
      · rw [hsame i (Nat.lt_succ_of_lt hi), hcaptured, if_neg (Nat.ne_of_lt hi)]

/-- What is taken is what a reference takes, a text of its language if anything. -/
theorem Fits.exists_of_mem {language : Definition Value → Bool → Option Char → Language Char}
    {pieces : List Piece} {taken : Taken} {u : List Char}
    (h : Fits language sensitive declarations pieces taken u) {slot : Slot} {group : Option String}
    (hmem : (slot, group) ∈ taken) :
    ∃ (r : Reference) (name : String) (definition : Definition Value),
      r.RefersTo declarations name definition ∧ slot = r.slot name ∧
      ∀ text ∈ group, text.toList ∈ language definition r.expand r.lead := by
  induction h with
  | nil => exact absurd hmem List.not_mem_nil
  | special _ _ ih => exact ih hmem
  | plain _ _ ih => exact ih hmem
  | @present r name definition text _ _ _ hrefers htext _ ih =>
    rcases List.mem_cons.mp hmem with hfirst | hmem
    · obtain ⟨rfl, rfl⟩ := Prod.mk.inj hfirst
      refine ⟨r, name, definition, hrefers, rfl, ?_⟩
      rintro _ ⟨⟩
      rwa [String.toList_ofList]
    · exact ih hmem
  | @absent r name definition _ _ _ hrefers _ _ ih =>
    rcases List.mem_cons.mp hmem with hfirst | hmem
    · obtain ⟨rfl, rfl⟩ := Prod.mk.inj hfirst
      exact ⟨r, name, definition, hrefers, rfl, by simp⟩
    · exact ih hmem

/-- The expressions of pieces lead over every text that fits the pieces. -/
theorem Fits.exists_mem_outcomes {pieces : List Piece} {taken : Taken} {u : List Char}
    (hu : Fits (captureLanguage sensitive) sensitive declarations pieces taken u)
    {parts : List Part} {slots : List Slot} (h : Resolves declarations pieces parts slots)
    (hpieces : ∀ piece ∈ pieces, piece.IsWellFormed) (number : Nat) {rest : List Char}
    (hafter : p.after = u ++ rest) :
    ∃ q ∈ (Regex.sequence
      (Route.partRegexes (caseModeOf sensitive) number parts)).outcomes p, q.after = rest := by
  induction hu generalizing number p parts slots with
  | nil =>
    cases h
    exact ⟨p, List.mem_singleton.mpr rfl, hafter⟩
  | @special c d pieces taken u hd hu ih =>
    cases h with
    | special c hresolves =>
      obtain ⟨q, hq, hrest⟩ := ih (p := p.pass [d] (u ++ rest)) hresolves
        (List.forall_mem_cons.mp hpieces).2 number rfl
      exact ⟨q, Regex.mem_outcomes_sequence_cons.mpr
        ⟨_, mem_outcomes_char.mpr ⟨d, u ++ rest, hd, hafter, rfl⟩, hq⟩, hrest⟩
  | @plain c d pieces taken u hd hu ih =>
    cases h with
    | plain c hresolves =>
      obtain ⟨q, hq, hrest⟩ := ih (p := p.pass [d] (u ++ rest)) hresolves
        (List.forall_mem_cons.mp hpieces).2 number rfl
      exact ⟨q, Regex.mem_outcomes_sequence_cons.mpr
        ⟨_, mem_outcomes_char.mpr ⟨d, u ++ rest, hd, hafter, rfl⟩, hq⟩, hrest⟩
  | @present r name definition text pieces taken u hrefers htext hu ih =>
    obtain ⟨⟨hlead, -⟩, hpieces⟩ := List.forall_mem_cons.mp hpieces
    cases h with
    | reference hrefers' hresolves =>
      -- The route and the text speak of the same definition.
      obtain ⟨rfl, rfl⟩ := hrefers'.eq hrefers
      obtain ⟨q, hq, hrest⟩ := ih (p := (p.pass (r.lead.toList ++ text) (u ++ rest)).capture number
        (p.pass r.lead.toList (text ++ (u ++ rest)))) hresolves hpieces (number + 1) rfl
      refine ⟨q, Regex.mem_outcomes_sequence_append.mpr ⟨_, ?_, hq⟩, hrest⟩
      exact mem_outcomes_required.mpr (.inr ((mem_outcomes_group hlead).mpr
        ⟨text, htext, u ++ rest, by rw [hafter, List.append_assoc], rfl⟩))
  | @absent r name definition pieces taken u hrefers hrequired hu ih =>
    cases h with
    | reference hrefers' hresolves =>
      obtain ⟨rfl, rfl⟩ := hrefers'.eq hrefers
      obtain ⟨q, hq, hrest⟩ := ih hresolves (List.forall_mem_cons.mp hpieces).2 (number + 1) hafter
      refine ⟨q, Regex.mem_outcomes_sequence_append.mpr ⟨p, ?_, hq⟩, hrest⟩
      exact mem_outcomes_required.mpr (.inl ⟨hrequired, rfl⟩)

/-! ## Routes -/

namespace Route

variable {template : String} {options : Options} {route : Route} {contents : Contents}

/-- The rest of a path at which a route may end. -/
def EndsBefore (route : Route) (rest : List Char) : Prop :=
  if route.options.toEnd then rest = []
  else rest = [] ∨ rest.head? = some '/' ∨
    (route.options.strict = true ∧ route.endsWithSlash = true)

private theorem mem_outcomes_textEnd :
    q ∈ (Regex.anchor .textEnd).outcomes p ↔ p.after = [] ∧ q = p := by
  rw [Regex.mem_outcomes_anchor, Cursor.satisfies, List.isEmpty_iff]

private theorem mem_outcomes_slash :
    q ∈ (charRegex route.caseMode '/').outcomes p ↔
      ∃ rest, p.after = '/' :: rest ∧ q = p.pass ['/'] rest := by
  constructor
  · intro hq
    obtain ⟨d, rest, hd, hafter, hq⟩ := mem_outcomes_char.mp hq
    obtain rfl := (sameLetter_of_uncased isCased_slash).mp hd
    exact ⟨rest, hafter, hq⟩
  · rintro ⟨rest, hafter, hq⟩
    exact mem_outcomes_char.mpr ⟨'/', rest, .inl rfl, hafter, hq⟩

/-- A slash that ends the path may be passed unless the match is strict. -/
private theorem mem_outcomes_closing :
    q ∈ (Regex.sequence (if route.options.strict then []
      else [optional (Regex.sequence
        [charRegex route.caseMode '/', .look .ahead false (.anchor .textEnd)])])).outcomes p ↔
      ∃ slash rest, (slash = [] ∨ (route.options.strict = false ∧ slash = ['/'] ∧ rest = [])) ∧
        p.after = slash ++ rest ∧ q = p.pass slash rest := by
  have hstay : q = p → ∃ slash rest,
      (slash = [] ∨ (route.options.strict = false ∧ slash = ['/'] ∧ rest = [])) ∧
        p.after = slash ++ rest ∧ q = p.pass slash rest := by
    rintro rfl
    exact ⟨[], q.after, .inl rfl, rfl, rfl⟩
  have hlook (s : Cursor) : q ∈ (Regex.look .ahead false (.anchor .textEnd)).outcomes s ↔
      s.after = [] ∧ q = s := by
    rw [Regex.mem_outcomes_ahead (by simp +contextual [mem_outcomes_textEnd])]
    simp [mem_outcomes_textEnd]
  cases hstrict : route.options.strict with
  | true =>
    simp only [Bool.true_eq_false, false_and, or_false, ↓reduceIte]
    constructor
    · intro hq
      obtain rfl := List.mem_singleton.mp hq
      exact ⟨[], q.after, rfl, rfl, rfl⟩
    · rintro ⟨_, rest, rfl, hafter, rfl⟩
      rw [List.nil_append] at hafter
      rw [← hafter, Cursor.pass_nil]
      exact List.mem_singleton.mpr rfl
  | false =>
    rw [hstrict] at hstay
    change q ∈ (optional _).outcomes p ↔ _
    rw [optional, Regex.mem_outcomes_optional, Regex.mem_outcomes_sequence_cons]
    constructor
    · rintro (hq | ⟨s, hs, hq⟩)
      · exact hstay hq
      · obtain ⟨rest, hafter, rfl⟩ := mem_outcomes_slash.mp hs
        obtain ⟨hrest, rfl⟩ := (hlook _).mp hq
        exact ⟨['/'], rest, .inr ⟨rfl, rfl, hrest⟩, hafter, rfl⟩
    · rintro ⟨slash, rest, rfl | ⟨-, rfl, rfl⟩, hafter, rfl⟩
      · rw [List.nil_append] at hafter
        rw [← hafter, Cursor.pass_nil]
        exact .inl rfl
      · exact .inr ⟨_, mem_outcomes_slash.mpr ⟨[], hafter, rfl⟩, (hlook _).mpr ⟨rfl, rfl⟩⟩

/-- The end of a route is where it may end. -/
private theorem mem_outcomes_boundary :
    q ∈ (Regex.sequence (if route.options.toEnd then [.anchor .textEnd]
      else if route.options.strict && route.endsWithSlash then []
      else [.look .ahead false
        (Regex.choice [charRegex route.caseMode '/', .anchor .textEnd])])).outcomes p ↔
      route.EndsBefore p.after ∧ q = p := by
  rw [EndsBefore]
  by_cases hend : route.options.toEnd = true
  · rw [if_pos hend, if_pos hend]
    exact mem_outcomes_textEnd
  · rw [if_neg hend, if_neg hend]
    by_cases hslash : (route.options.strict && route.endsWithSlash) = true
    · rw [if_pos hslash]
      simp only [Bool.and_eq_true] at hslash
      simp [hslash, Regex.sequence, Regex.outcomes]
    · rw [if_neg hslash]
      simp only [Bool.and_eq_true] at hslash
      have hends (s : Cursor) :
          s ∈ (Regex.choice [charRegex route.caseMode '/', .anchor .textEnd]).outcomes p ↔
            (∃ rest, p.after = '/' :: rest ∧ s = p.pass ['/'] rest) ∨ (p.after = [] ∧ s = p) := by
        change s ∈ (Regex.alt _ _).outcomes p ↔ _
        rw [Regex.outcomes, List.mem_append, mem_outcomes_slash, Regex.choice, mem_outcomes_textEnd]
      change q ∈ (Regex.look .ahead false _).outcomes p ↔ _
      rw [Regex.mem_outcomes_ahead]
      · refine and_congr_left fun _ => ?_
        rw [or_iff_left hslash, List.head?_eq_some_iff]
        constructor
        · rintro ⟨s, hs⟩
          rcases (hends s).mp hs with ⟨rest, hafter, -⟩ | ⟨hafter, -⟩
          · exact .inr ⟨rest, hafter⟩
          · exact .inl hafter
        · rintro (hafter | ⟨rest, hafter⟩)
          · exact ⟨p, (hends p).mpr (.inr ⟨hafter, rfl⟩)⟩
          · exact ⟨_, (hends _).mpr (.inl ⟨rest, hafter, rfl⟩)⟩
      · intro s hs
        rcases (hends s).mp hs with ⟨rest, -, rfl⟩ | ⟨-, rfl⟩
        · rfl
        · rfl

/-- The end of a route passes a slash that ends the path, or nothing. -/
theorem mem_outcomes_endRegexes :
    q ∈ (Regex.sequence route.endRegexes).outcomes p ↔
      ∃ slash rest, (slash = [] ∨ (route.options.strict = false ∧ slash = ['/'] ∧ rest = [])) ∧
        p.after = slash ++ rest ∧ route.EndsBefore rest ∧ q = p.pass slash rest := by
  rw [endRegexes, Regex.mem_outcomes_sequence_append]
  simp only [mem_outcomes_closing, mem_outcomes_boundary]
  constructor
  · rintro ⟨_, ⟨slash, rest, hslash, hafter, rfl⟩, hends, rfl⟩
    exact ⟨slash, rest, hslash, hafter, hends, rfl⟩
  · rintro ⟨slash, rest, hslash, hafter, hends, rfl⟩
    exact ⟨_, ⟨slash, rest, hslash, hafter, rfl⟩, hends, rfl⟩

theorem mem_outcomes_regex {path : List Char} :
    q ∈ route.regex.outcomes (Cursor.start path) ↔
      ∃ s ∈ (Regex.sequence (partRegexes route.caseMode 1 route.required)).outcomes
        (Cursor.start path), q ∈ (Regex.sequence route.endRegexes).outcomes s := by
  rw [regex, List.cons_append, Regex.mem_outcomes_sequence_cons]
  simp only [Regex.mem_outcomes_anchor, Regex.mem_outcomes_sequence_append]
  constructor
  · rintro ⟨_, ⟨-, rfl⟩, hq⟩
    exact hq
  · rintro hq
    exact ⟨_, ⟨rfl, rfl⟩, hq⟩

theorem options_of_ofTemplate
    (h : ofTemplate template declarations options = .ok (route, contents)) :
    route.options = options ∧ route.endsWithSlash = (template.toList.getLast? == some '/') := by
  obtain ⟨-, rfl⟩ := ofTemplate_eq_ok_iff.mp h
  exact ⟨rfl, rfl⟩

/-- Where the expression of a route leads, the text that was passed fits the body of its template,
up to a slash that ends the path, and its groups have captured what the references take. -/
theorem fits_of_mem_outcomes_regex
    (h : ofTemplate template declarations options = .ok (route, contents)) {path : List Char}
    (hq : q ∈ route.regex.outcomes (Cursor.start path)) :
    ∃ u slash, Fits (captureLanguage options.sensitive) options.sensitive declarations
        (scan (bodyText template.toList options))
        (contents.slots.zip (q.groupsFrom 1 contents.slots.length)) u ∧
      (slash = [] ∨ (options.strict = false ∧ slash = ['/'] ∧ q.after = [])) ∧
      path = u ++ slash ++ q.after ∧ q.before.reverse = u ++ slash ∧ route.EndsBefore q.after := by
  obtain ⟨hoptions, -⟩ := options_of_ofTemplate h
  obtain ⟨s, hs, hq⟩ := mem_outcomes_regex.mp hq
  obtain ⟨slash, rest, hslash, hafter, hends, rfl⟩ := mem_outcomes_endRegexes.mp hq
  rw [caseMode, hoptions] at hs
  obtain ⟨u, hu, hpath, hbefore, -⟩ := fits_of_mem_outcomes (resolves_required h)
    (fun piece hpiece => isWellFormed_of_mem_scan hpiece) (fun _ _ => rfl) hs
  refine ⟨u, slash, hu, ?_, ?_, ?_, hends⟩
  · rwa [hoptions] at hslash
  · have hpath : path = u ++ s.after := hpath
    rw [hpath, hafter, List.append_assoc]
    rfl
  · have hbefore : s.before = u.reverse := by simpa [Cursor.start] using hbefore
    simp [Cursor.pass, hbefore]

/-- A route matches a path when its beginning fits the body of the template and its rest is
allowed. -/
theorem exists_mem_outcomes_regex_iff
    (h : ofTemplate template declarations options = .ok (route, contents)) {path : List Char} :
    (∃ q, q ∈ route.regex.outcomes (Cursor.start path)) ↔
      ∃ u rest taken, path = u ++ rest ∧
        Fits (captureLanguage options.sensitive) options.sensitive declarations
          (scan (bodyText template.toList options)) taken u ∧
        AllowedRest template.toList options rest := by
  obtain ⟨hoptions, hslash⟩ := options_of_ofTemplate h
  have hends (rest : List Char) : route.EndsBefore rest ↔
      if options.toEnd then rest = [] else rest = [] ∨ rest.head? = some '/' ∨
        (options.strict = true ∧ template.toList.getLast? = some '/') := by
    rw [EndsBefore, hoptions, hslash, beq_iff_eq]
  constructor
  · rintro ⟨q, hq⟩
    obtain ⟨u, slash, hu, hslash, hpath, -, hafter⟩ := fits_of_mem_outcomes_regex h hq
    refine ⟨u, slash ++ q.after, _, by rw [hpath, List.append_assoc], hu, ?_⟩
    rw [hends] at hafter
    rw [AllowedRest]
    by_cases hend : options.toEnd = true
    · rw [if_pos hend] at hafter ⊢
      rw [hafter, List.append_nil]
      exact hslash.imp_right fun ⟨hstrict, hslash, _⟩ => ⟨hstrict, hslash⟩
    · rw [if_neg hend] at hafter ⊢
      rcases hslash with rfl | ⟨-, rfl, -⟩
      · exact hafter
      · exact .inr (.inl rfl)
  · rintro ⟨u, rest, taken, rfl, hu, hrest⟩
    obtain ⟨s, hs, hafter⟩ := hu.exists_mem_outcomes (p := Cursor.start (u ++ rest))
      (resolves_required h) (fun piece hpiece => isWellFormed_of_mem_scan hpiece) 1 rfl
    have hs : s ∈ (Regex.sequence (partRegexes route.caseMode 1 route.required)).outcomes
        (Cursor.start (u ++ rest)) := by rwa [caseMode, hoptions]
    -- Wherever the end of the route leads on from there, the whole expression leads.
    have hexists {slash rest' : List Char} (hslash : slash = [] ∨ (route.options.strict = false ∧
        slash = ['/'] ∧ rest' = [])) (hrest' : rest = slash ++ rest')
        (hbefore : route.EndsBefore rest') :
        ∃ q, q ∈ route.regex.outcomes (Cursor.start (u ++ rest)) :=
      ⟨_, mem_outcomes_regex.mpr ⟨s, hs, mem_outcomes_endRegexes.mpr
        ⟨slash, rest', hslash, hafter.trans hrest', hbefore, rfl⟩⟩⟩
    rw [AllowedRest] at hrest
    by_cases hend : options.toEnd = true
    · rw [if_pos hend] at hrest
      rcases hrest with rfl | ⟨hstrict, rfl⟩
      · exact hexists (.inl rfl) rfl ((hends _).mpr (by rw [if_pos hend]))
      · exact hexists (.inr ⟨by rw [hoptions, hstrict], rfl, rfl⟩) rfl
          ((hends _).mpr (by rw [if_pos hend]))
    · rw [if_neg hend] at hrest
      exact hexists (.inl rfl) rfl ((hends _).mpr (by rwa [if_neg hend]))

end Route

end Template

end RouteTemplate
