/-
# A slash at the end of a path

Unless a match is strict, a slash that ends the path may be left to the end of the route. With this
slash at its end, a path is matched as it is without it, unless the template takes the slash itself.
Only a slash of the template takes it, or a reference whose texts admit it: one with an enumeration,
one that excludes points alone, or one that may span segments. The latter takes as little as
possible, so it takes the slash only when there is nothing else that it could take.

## Main definitions

* `Piece.MayTakeSlash` — a piece that may take a text with a slash at its end
* `TakesFinalSlash` — pieces that fit a text with a slash at its end, which one of them takes

## Main results

* `takesFinalSlash_of_find?` — what takes the slash, when it is not left to the end of the route
* `Route.matchStart_concat_slash` — a path with a slash at its end is matched as it is without
-/

import RouteTemplate.Proofs.Template.Characters
import RouteTemplate.Proofs.Template.Forward
import RouteTemplate.Proofs.Template.Segments

namespace RouteTemplate

/-- The position is the end of the text, or only a slash follows. -/
def Regex.Cursor.canClose (p : Regex.Cursor) : Bool :=
  p.after == [] || p.after == ['/']

namespace Template

open RouteTemplate.Regex (Cursor)

/-! ## The piece that takes the slash -/

/-- A piece that may take a text with a slash at its end: a slash itself, a reference with an
enumeration, one to a string after a point, or one to a string that may span segments. The latter
takes nothing but the slash, and does not come after a slash. -/
def Piece.MayTakeSlash (declarations : Declarations) (u : List Char) : Piece → Prop
  | .special c | .plain c => c = '/' ∧ u = []
  | .reference r => ∃ name definition, r.RefersTo declarations name definition ∧
      (definition.constraints.enum.isSome ∨ definition.type = .string ∧
        if r.expand then r.lead ≠ some '/' ∧ u = r.lead.toList else r.lead = some '.')

/-- The pieces fit the text with a slash at its end, and one of them takes the slash. The pieces
after it take nothing. -/
def TakesFinalSlash (sensitive : Bool) (declarations : Declarations) (pieces : List Piece)
    (taken : Taken) (u : List Char) : Prop :=
  ∃ before piece after first own rest v w, pieces = before ++ piece :: after ∧
    taken = first ++ own ++ rest ∧ u = v ++ w ∧
    Fits (captureLanguage sensitive) sensitive declarations before first v ∧
    Fits (captureLanguage sensitive) sensitive declarations [piece] own (w ++ ['/']) ∧
    Fits (captureLanguage sensitive) sensitive declarations after rest [] ∧
    piece.MayTakeSlash declarations w

section Pieces

variable {sensitive : Bool} {declarations : Declarations} {piece : Piece} {pieces : List Piece}
  {own taken : Taken} {u v : List Char}

/-- The first piece takes the slash when it takes all of the text, and leaves it to the others when
it does not. -/
private theorem TakesFinalSlash.cons {rest : List Char}
    (h : Fits (captureLanguage sensitive) sensitive declarations [piece] own v)
    (hsplit : u ++ ['/'] = v ++ rest) (hu : ¬ ['/'] <:+ u)
    (hend : rest = [] → v = u ++ ['/'] →
      Fits (captureLanguage sensitive) sensitive declarations pieces taken [] ∧
        piece.MayTakeSlash declarations u)
    (hmore : ∀ u', rest = u' ++ ['/'] → ¬ ['/'] <:+ u' →
      TakesFinalSlash sensitive declarations pieces taken u') :
    TakesFinalSlash sensitive declarations (piece :: pieces) (own ++ taken) u := by
  rcases List.eq_nil_or_concat' rest with rfl | ⟨u', c, rfl⟩
  · have hv : v = u ++ ['/'] := by rw [hsplit, List.append_nil]
    obtain ⟨hpieces, hpiece⟩ := hend rfl hv
    rw [hv] at h
    exact ⟨[], piece, pieces, [], own, taken, [], u, rfl, rfl, rfl, .nil, h, hpieces, hpiece⟩
  · rw [← List.append_assoc] at hsplit
    obtain ⟨rfl, hslash⟩ := List.append_inj' hsplit rfl
    obtain ⟨rfl, -⟩ := List.cons.inj hslash
    obtain ⟨before, piece', after, first, own', rest, v', w, rfl, rfl, rfl, hbefore, hrest⟩ :=
      hmore u' rfl fun hsuffix => hu (hsuffix.trans (List.suffix_append v u'))
    refine ⟨piece :: before, piece', after, own ++ first, own', rest, v ++ v', w, rfl, ?_, ?_, ?_⟩
    · simp only [List.append_assoc]
    · exact (List.append_assoc v v' w).symm
    · exact ⟨h.append hbefore, hrest⟩

end Pieces

/-! ## The first outcome -/

section Outcomes

variable {sensitive : Bool} {declarations : Declarations} {p q : Cursor} {number : Nat}

/-- The expressions of a reference that may span segments try shorter texts first. -/
private theorem pairwise_outcomes_expand (mode : Regex.CaseMode) (number : Nat)
    (lead : Option Char) (p : Cursor) :
    ((Regex.sequence (charRegexes mode lead.toList ++ [.group number expandRegex])).outcomes
      p).Pairwise (·.offset < ·.offset) := by
  have hgroup (s : Cursor) :
      ((Regex.sequence [.group number expandRegex]).outcomes s).Pairwise (·.offset < ·.offset) := by
    rw [Regex.sequence, Regex.outcomes, List.pairwise_map]
    exact Regex.pairwise_outcomes_lazy_one _ 1 none s
  rw [Regex.outcomes_sequence_append]
  cases lead with
  | none =>
    change ([p].flatMap _).Pairwise _
    rw [List.flatMap_singleton]
    exact hgroup p
  | some c =>
    change ((p.step? _).toList.flatMap _).Pairwise _
    cases p.step? _ with
    | none => exact .nil
    | some s =>
      rw [Option.toList_some, List.flatMap_singleton]
      exact hgroup s

/-- A reference that is not required is left out only when nothing that it could take is
accepted. -/
private theorem findSome?_required {required : Bool} {items : List Regex}
    {f : Cursor → Option Cursor}
    (h : ((Regex.sequence (if required then items
      else [optional (Regex.sequence items)])).outcomes p).findSome? f = some q) :
    (required = false ∧ f p = some q) ∨
      ((Regex.sequence items).outcomes p).findSome? f = some q := by
  cases required with
  | true => exact .inr h
  | false =>
    change ((optional (Regex.sequence items)).outcomes p).findSome? f = some q at h
    rw [optional, Regex.outcomes_optional, List.findSome?_append, Option.or_eq_some_iff] at h
    rcases h with h | ⟨-, h⟩
    · exact .inr h
    · refine .inl ⟨rfl, ?_⟩
      cases hp : f p with
      | none => simp [hp] at h
      | some s => simpa [hp] using h

/-- A reference that takes a text with a slash at its end may do so, provided that one that may
span segments takes nothing else. -/
private theorem mayTakeSlash_of_present {r : Reference} {name : String}
    {definition : Definition Value} {text u : List Char}
    (hlead : r.lead = none ∨ r.lead = some '/' ∨ r.lead = some '.')
    (hrefers : r.RefersTo declarations name definition)
    (htext : text ∈ captureLanguage sensitive definition r.expand r.lead)
    (htake : r.lead.toList ++ text = u ++ ['/']) (hu : ¬ ['/'] <:+ u)
    (hshortest : definition.constraints.enum = none → definition.type = .string →
      r.expand = true → ∀ t, text = t ++ ['/'] → t = []) :
    (Piece.reference r).MayTakeSlash declarations u := by
  refine ⟨name, definition, hrefers, ?_⟩
  cases henum : definition.constraints.enum with
  | some members => exact .inl rfl
  | none =>
    have hlast : '/' ∈ text := by
      rcases List.eq_nil_or_concat' text with rfl | ⟨t, c, rfl⟩
      · exact absurd htext (nil_notMem_captureLanguage henum)
      · rw [← List.append_assoc] at htake
        obtain ⟨-, hc⟩ := List.append_inj' htake rfl
        rw [hc]
        exact List.mem_append_right t List.mem_cons_self
    have hstring : definition.type = .string := by
      by_contra hne
      exact slash_notMem_of_mem_captureLanguage hlead henum (fun h => absurd h hne) htext hlast
    refine .inr ⟨hstring, ?_⟩
    cases hexpand : r.expand with
    | false =>
      -- The text is free of the separator, which is therefore no slash.
      by_contra hpoint
      exact slash_notMem_of_mem_captureLanguage hlead henum (fun _ => ⟨hexpand, hpoint⟩) htext hlast
    | true =>
      rcases List.eq_nil_or_concat' text with rfl | ⟨t, c, rfl⟩
      · exact absurd hlast List.not_mem_nil
      · rw [← List.append_assoc] at htake
        obtain ⟨rfl, hc⟩ := List.append_inj' htake rfl
        obtain rfl := hshortest henum hstring hexpand t (by rw [hc])
        rw [List.append_nil] at hu ⊢
        refine ⟨?_, rfl⟩
        rintro hslash
        rw [hslash] at hu
        exact hu (List.suffix_refl _)

/-- A letter that stands for a slash at the end of a text is a slash, and the text has no other. -/
private theorem eq_slash_of_sameLetter {c d : Char} {u : List Char} (h : SameLetter sensitive c d)
    (hu : [d] = u ++ ['/']) : c = '/' ∧ u = [] := by
  have hu : [] ++ [d] = u ++ ['/'] := hu
  obtain ⟨rfl, hslash⟩ := List.append_inj' hu rfl
  obtain ⟨rfl, -⟩ := List.cons.inj hslash
  exact ⟨sameLetter_slash h, rfl⟩

/-- From the end of a text, the expressions of pieces lead only to where the pieces take nothing. -/
private theorem fits_nil_of_mem_outcomes {pieces : List Piece} {parts : List Part}
    {slots : List Slot} (h : Resolves declarations pieces parts slots)
    (hpieces : ∀ piece ∈ pieces, piece.IsWellFormed)
    (hfree : ∀ i, number ≤ i → p.captured? i = none)
    (hq : q ∈ (Regex.sequence
      (Route.partRegexes (caseModeOf sensitive) number parts)).outcomes p) (hp : p.after = []) :
    Fits (captureLanguage sensitive) sensitive declarations pieces
      (slots.zip (q.groupsFrom number slots.length)) [] := by
  obtain ⟨u, hu, hafter, -, -⟩ := fits_of_mem_outcomes h hpieces hfree hq
  rw [hp] at hafter
  obtain ⟨rfl, -⟩ := List.append_eq_nil_iff.mp hafter.symm
  exact hu

/-- The first of a reference's outcomes after which the rest is accepted takes as little as
possible, if the reference may span segments: with nothing left but a slash it takes nothing but the
slash. -/
private theorem eq_nil_of_shortest {r : Reference} {definition : Definition Value} {t : List Char}
    {f : Cursor → Option Cursor} {first later : List Cursor} {s : Cursor}
    (hlead : r.lead = none ∨ r.lead = some '/' ∨ r.lead = some '.')
    (henum : definition.constraints.enum = none) (htype : definition.type = .string)
    (hexpand : r.expand = true)
    (ht : t ++ ['/'] ∈ captureLanguage sensitive definition r.expand r.lead)
    (hafter : p.after = r.lead.toList ++ (t ++ ['/']))
    (houtcomes : (Regex.sequence (charRegexes (caseModeOf sensitive) r.lead.toList ++
        [.group number (captureRegex (caseModeOf sensitive) definition r.expand
          (r.lead.getD '/'))])).outcomes p = first ++ s :: later)
    (hs : s.offset = p.offset + (r.lead.toList ++ (t ++ ['/'])).length)
    (hfirst : ∀ s' ∈ first, f s' = none)
    (haccepted : ∀ s', s'.after = ['/'] → f s' ≠ none) : t = [] := by
  by_contra hne
  have hregex : captureRegex (caseModeOf sensitive) definition r.expand (r.lead.getD '/') =
      expandRegex := by
    simp only [captureRegex, henum, htype, hexpand, ↓reduceIte]
  have htext : t ∈ captureLanguage sensitive definition r.expand r.lead := by
    simp only [captureLanguage, declaredLanguage, henum, htype, hexpand, ↓reduceIte] at ht ⊢
    exact ⟨hne, fun c hc => ht.2 c (List.mem_append_left _ hc)⟩
  -- The text without the slash has been tried before.
  have hmem : (p.pass (r.lead.toList ++ t) ['/']).capture number
      (p.pass r.lead.toList (t ++ ['/'])) ∈ (Regex.sequence
        (charRegexes (caseModeOf sensitive) r.lead.toList ++ [.group number
          (captureRegex (caseModeOf sensitive) definition r.expand
            (r.lead.getD '/'))])).outcomes p :=
    (mem_outcomes_group hlead).mpr
      ⟨t, htext, ['/'], hafter.trans (List.append_assoc _ _ _).symm, rfl⟩
  have hpairwise := pairwise_outcomes_expand (caseModeOf sensitive) number r.lead p
  rw [houtcomes] at hmem
  rw [← hregex, houtcomes] at hpairwise
  have hlt : p.offset + (r.lead.toList ++ t).length < s.offset := by
    simp [hs]
  rcases List.mem_append.mp hmem with hfirst' | hlater
  · exact haccepted _ rfl (hfirst _ hfirst')
  · rcases List.mem_cons.mp hlater with rfl | hlater
    · exact Nat.lt_irrefl _ hlt
    · have hgreater := (List.pairwise_cons.mp (List.pairwise_append.mp hpairwise).2.1).1 _ hlater
      exact Nat.lt_asymm hlt hgreater

/-- A character of the template takes the slash when it is one itself and nothing else is left, and
leaves the slash to the pieces that follow when it is not. -/
private theorem takesFinalSlash_of_letter {piece : Piece} {c : Char} {pieces : List Piece}
    {parts : List Part} {slots : List Slot} {u : List Char}
    (hpiece : piece = .special c ∨ piece = .plain c)
    (h : Resolves declarations pieces parts slots)
    (hpieces : ∀ piece ∈ pieces, piece.IsWellFormed)
    (hfree : ∀ i, number ≤ i → p.captured? i = none)
    (hafter : p.after = u ++ ['/']) (hu : ¬ ['/'] <:+ u)
    (hfind : ((charRegex (caseModeOf sensitive) c).outcomes p).findSome? (fun s =>
      ((Regex.sequence (Route.partRegexes (caseModeOf sensitive) number parts)).outcomes s).find?
        Cursor.canClose) = some q)
    (hmore : ∀ (s : Cursor) (u' : List Char), (∀ i, number ≤ i → s.captured? i = none) →
      s.after = u' ++ ['/'] → ¬ ['/'] <:+ u' →
      ((Regex.sequence (Route.partRegexes (caseModeOf sensitive) number parts)).outcomes s).find?
        Cursor.canClose = some q →
      TakesFinalSlash sensitive declarations pieces (slots.zip (q.groupsFrom number slots.length))
        u') :
    TakesFinalSlash sensitive declarations (piece :: pieces)
      (slots.zip (q.groupsFrom number slots.length)) u := by
  obtain ⟨s, hs, hfind⟩ := List.exists_of_findSome?_eq_some hfind
  obtain ⟨d, rest, hd, hrest, rfl⟩ := mem_outcomes_char.mp hs
  have hfits : Fits (captureLanguage sensitive) sensitive declarations [piece] [] [d] := by
    rcases hpiece with rfl | rfl
    · exact .special hd .nil
    · exact .plain hd .nil
  refine .cons hfits (hafter.symm.trans hrest) hu ?_ ?_
  · rintro rfl hslash
    have hmem := List.mem_of_find?_eq_some hfind
    refine ⟨fits_nil_of_mem_outcomes (p := p.pass [d] []) h hpieces hfree hmem rfl, ?_⟩
    rcases hpiece with rfl | rfl
    · exact eq_slash_of_sameLetter hd hslash
    · exact eq_slash_of_sameLetter hd hslash
  · rintro u' rfl hsuffix
    exact hmore (p.pass [d] (u' ++ ['/'])) u' hfree rfl hsuffix hfind

/-- What takes a slash at the end of a text, when the first outcome after which the route may end is
at the end of the text. -/
theorem takesFinalSlash_of_find? {pieces : List Piece} {parts : List Part} {slots : List Slot}
    (h : Resolves declarations pieces parts slots)
    (hpieces : ∀ piece ∈ pieces, piece.IsWellFormed)
    (hfree : ∀ i, number ≤ i → p.captured? i = none) {u : List Char}
    (hafter : p.after = u ++ ['/']) (hu : ¬ ['/'] <:+ u)
    (hfind : ((Regex.sequence (Route.partRegexes (caseModeOf sensitive) number parts)).outcomes
      p).find? Cursor.canClose = some q) (hq : q.after = []) :
    TakesFinalSlash sensitive declarations pieces (slots.zip (q.groupsFrom number slots.length))
      u := by
  -- By the pieces from the left, as long as they leave something to those that follow.
  induction h generalizing number p u with
  | nil =>
    obtain rfl := List.mem_singleton.mp (List.mem_of_find?_eq_some hfind)
    rw [hq] at hafter
    exact absurd hafter.symm (by simp)
  | special c hresolves ih =>
    have hpieces := (List.forall_mem_cons.mp hpieces).2
    rw [Route.partRegexes, Regex.outcomes_sequence_cons, List.find?_flatMap] at hfind
    exact takesFinalSlash_of_letter (.inl rfl) hresolves hpieces hfree hafter hu hfind
      fun s u' hfree hafter hsuffix => ih hpieces hfree hafter hsuffix
  | plain c hresolves ih =>
    have hpieces := (List.forall_mem_cons.mp hpieces).2
    rw [Route.partRegexes, Regex.outcomes_sequence_cons, List.find?_flatMap] at hfind
    exact takesFinalSlash_of_letter (.inr rfl) hresolves hpieces hfree hafter hu hfind
      fun s u' hfree hafter hsuffix => ih hpieces hfree hafter hsuffix
  | @reference r name definition pieces parts slots hrefers hresolves ih =>
    obtain ⟨⟨hlead, -⟩, hpieces⟩ := List.forall_mem_cons.mp hpieces
    rw [Route.partRegexes, Regex.outcomes_sequence_append, List.find?_flatMap] at hfind
    rw [List.length_cons, groupsFrom_succ, List.zip_cons_cons]
    rcases findSome?_required hfind with ⟨hrequired, hfind⟩ | hfind
    · -- The reference is left out, and its group stays without a capture.
      have hmem := List.mem_of_find?_eq_some hfind
      have hfree' : ∀ i, number + 1 ≤ i → p.captured? i = none :=
        fun i hi => hfree i (Nat.le_of_succ_le hi)
      obtain ⟨-, -, -, -, hsame⟩ := fits_of_mem_outcomes hresolves hpieces hfree' hmem
      have hnone : q.captured? number = none :=
        (hsame number (Nat.lt_succ_self _)).trans (hfree number (Nat.le_refl _))
      rw [hnone]
      refine .cons (.absent hrefers hrequired .nil) (List.nil_append _).symm hu ?_ ?_
      · intro hnil
        exact absurd hnil (by simp)
      · intro u' hu' hsuffix
        exact ih hpieces hfree' (hafter.trans hu') hsuffix hfind
    · obtain ⟨first, s, later, houtcomes, hfind, hfirst⟩ := List.findSome?_eq_some_iff.mp hfind
      obtain ⟨text, htext, rest, hrest, rfl⟩ := (mem_outcomes_group hlead).mp
        (houtcomes ▸ List.mem_append_right first List.mem_cons_self)
      have hmem := List.mem_of_find?_eq_some hfind
      -- The group captures the text alone, without the character before the braces.
      have hcaptured := fun i => captured?_present (p := p) number i r.lead.toList text rest
      have hfree' : ∀ i, number + 1 ≤ i → ((p.pass (r.lead.toList ++ text) rest).capture number
          (p.pass r.lead.toList (text ++ rest))).captured? i = none := by
        intro i hi
        rw [hcaptured, if_neg (Nat.ne_of_gt hi)]
        exact hfree i (Nat.le_of_succ_le hi)
      obtain ⟨-, -, -, -, hsame⟩ := fits_of_mem_outcomes hresolves hpieces hfree' hmem
      have hsome : q.captured? number = some text := by
        rw [hsame number (Nat.lt_succ_self _), hcaptured, if_pos rfl]
      rw [hsome]
      have hfits : Fits (captureLanguage sensitive) sensitive declarations [.reference r]
          [(r.slot name, some (String.ofList text))] (r.lead.toList ++ text) := by
        rw [← List.append_nil (r.lead.toList ++ text)]
        exact .present hrefers htext .nil
      refine .cons hfits (hafter.symm.trans hrest) hu ?_ ?_
      · rintro rfl htake
        have hnil : Fits (captureLanguage sensitive) sensitive declarations pieces
            (slots.zip (q.groupsFrom (number + 1) slots.length)) [] :=
          fits_nil_of_mem_outcomes hresolves hpieces hfree' hmem rfl
        refine ⟨hnil, mayTakeSlash_of_present hlead hrefers htext htake hu ?_⟩
        rintro henum htype hexpand t rfl
        refine eq_nil_of_shortest hlead henum htype hexpand htext ?_ houtcomes rfl hfirst ?_
        · rw [hrest, List.append_nil]
        · intro s' hs' hnone
          obtain ⟨q', hq', hafter'⟩ := hnil.exists_mem_outcomes hresolves hpieces (number + 1) hs'
          exact List.find?_eq_none.mp hnone q' hq' (by simp [Cursor.canClose, hafter'])
      · rintro u' rfl hsuffix
        exact ih hpieces hfree' rfl hsuffix hfind

end Outcomes

/-! ## Routes that may leave the slash to their end -/

namespace Route

variable {template : String} {declarations : Declarations} {options : Options} {route : Route}
  {contents : Contents}

/-- The end of a route that reaches the end of a path, and need not be strict, passes what is left
if this is nothing or a slash. -/
private theorem mem_outcomes_endRegexes_iff (hend : route.options.toEnd = true)
    (hstrict : route.options.strict = false) {p q : Cursor} :
    q ∈ (Regex.sequence route.endRegexes).outcomes p ↔ p.canClose ∧ q = p.pass p.after [] := by
  rw [mem_outcomes_endRegexes]
  simp only [EndsBefore, hend, hstrict, ↓reduceIte, true_and, Cursor.canClose, Bool.or_eq_true,
    beq_iff_eq]
  constructor
  · rintro ⟨slash, rest, rfl | ⟨rfl, -⟩, hafter, rfl, rfl⟩
    · rw [hafter]
      exact ⟨.inl rfl, rfl⟩
    · rw [hafter]
      exact ⟨.inr rfl, rfl⟩
  · rintro ⟨hafter | hafter, rfl⟩
    · exact ⟨[], [], .inl rfl, hafter, rfl, by rw [hafter]⟩
    · exact ⟨['/'], [], .inr ⟨rfl, rfl⟩, hafter, rfl, by rw [hafter]⟩

/-- Such a route matches by the first way through its parts that leaves nothing or a slash. -/
theorem matchStart_regex_eq_find? (hend : route.options.toEnd = true)
    (hstrict : route.options.strict = false) (path : List Char) :
    route.regex.matchStart path =
      (((Regex.sequence (partRegexes route.caseMode 1 route.required)).outcomes
        (Cursor.start path)).find? Cursor.canClose).map fun p => p.pass p.after [] := by
  have hends (p : Cursor) : ((Regex.sequence route.endRegexes).outcomes p).head? =
      (Option.guard Cursor.canClose p).map fun p => p.pass p.after [] := by
    cases hp : p.canClose with
    | true =>
      rw [Option.guard_pos hp, Option.map_some]
      have hmem := (mem_outcomes_endRegexes_iff hend hstrict).mpr ⟨hp, rfl⟩
      cases houtcomes : (Regex.sequence route.endRegexes).outcomes p with
      | nil =>
        rw [houtcomes] at hmem
        exact absurd hmem List.not_mem_nil
      | cons q later =>
        have hq : q ∈ (Regex.sequence route.endRegexes).outcomes p :=
          houtcomes ▸ List.mem_cons_self
        exact congrArg some ((mem_outcomes_endRegexes_iff hend hstrict).mp hq).2
    | false =>
      rw [Option.guard, hp, if_neg Bool.false_ne_true, Option.map_none, List.head?_eq_none_iff,
        List.eq_nil_iff_forall_not_mem]
      intro q hq
      exact Bool.eq_false_iff.mp hp ((mem_outcomes_endRegexes_iff hend hstrict).mp hq).1
  have hstart : (Regex.anchor .textStart).outcomes (Cursor.start path) = [Cursor.start path] := rfl
  rw [Regex.matchStart_eq_head?, regex, List.cons_append, Regex.outcomes_sequence_cons, hstart,
    List.flatMap_singleton, Regex.outcomes_sequence_append, List.head?_flatMap]
  rw [List.find?_eq_findSome?_guard, List.map_findSome?]
  exact congrArg (List.findSome? · _) (funext hends)

/-- With a slash at the end of a text, what reads forward leads first to the position that it leads
to without the slash, or over the slash. -/
private theorem find?_canClose_extend {ends : Cursor → List Cursor} (h : Regex.ReadsForward ends)
    {p s : Cursor} (hp : ¬ ['/'] <:+ p.after) (hs : (ends p).find? Cursor.canClose = some s) :
    s.after = [] ∧ ∃ s', (ends (p.extend '/')).find? Cursor.canClose = some s' ∧
      (s' = s.extend '/' ∨ s'.after = []) := by
  have hextend (t : Cursor) : (t.extend '/').canClose = true ↔ t.after = [] := by
    simp [Cursor.canClose]
  obtain ⟨hclose, first, later, hsplit, hfirst⟩ := List.find?_eq_some_iff_append.mp hs
  have hmem : s ∈ ends p := List.mem_of_find?_eq_some hs
  -- Without a slash at its end, nothing may be left of the text.
  have hafter : s.after = [] := by
    obtain ⟨u, hu, -⟩ := (h.leads p s hmem).passes
    simp only [Cursor.canClose, Bool.or_eq_true, beq_iff_eq] at hclose
    refine hclose.resolve_right fun hslash => hp ?_
    rw [hu, hslash]
    exact List.suffix_append u _
  have hmem' : s.extend '/' ∈ ends (p.extend '/') := by
    have hmap : s.extend '/' ∈ (ends p).map (Cursor.extend '/') := List.mem_map_of_mem hmem
    rw [← h.inside] at hmap
    exact (List.mem_filter.mp hmap).1
  refine ⟨hafter, ?_⟩
  cases hfind : (ends (p.extend '/')).find? Cursor.canClose with
  | none => exact absurd ((hextend s).mpr hafter) (List.find?_eq_none.mp hfind _ hmem')
  | some s' =>
    refine ⟨s', rfl, ?_⟩
    cases hinside : s'.isInside with
    | false => exact .inr (Cursor.isInside_eq_false_iff.mp hinside)
    | true =>
      -- Both are the first inside the text after which the route may end.
      obtain ⟨hclose', first', later', hsplit', hfirst'⟩ := List.find?_eq_some_iff_append.mp hfind
      have hfind' : ((ends (p.extend '/')).filter Cursor.isInside).find? Cursor.canClose =
          some s' := by
        rw [hsplit', List.filter_append, List.filter_cons_of_pos hinside]
        exact List.find?_eq_some_iff_append.mpr
          ⟨hclose', _, _, rfl, fun t ht => hfirst' t (List.mem_of_mem_filter ht)⟩
      have hfind : ((ends p).map (Cursor.extend '/')).find? Cursor.canClose =
          some (s.extend '/') := by
        rw [hsplit, List.map_append, List.map_cons]
        refine List.find?_eq_some_iff_append.mpr ⟨(hextend s).mpr hafter, _, _, rfl, ?_⟩
        intro t' ht'
        obtain ⟨t, ht, rfl⟩ := List.mem_map.mp ht'
        have hopen := hfirst t ht
        rw [Bool.not_eq_true'] at hopen ⊢
        rw [Bool.eq_false_iff, Ne, hextend]
        intro hnil
        rw [Cursor.canClose, hnil] at hopen
        exact absurd hopen (by decide)
      rw [h.inside] at hfind'
      exact .inl (Option.some.inj (hfind'.symm.trans hfind))

/-- A path that a route matches is matched with a slash at its end, too: with the same captures,
unless the template takes the slash itself. -/
theorem matchStart_concat_slash
    (h : ofTemplate template declarations options = .ok (route, contents))
    (hend : options.toEnd = true) (hstrict : options.strict = false) {path : List Char}
    (hpath : ¬ ['/'] <:+ path) {q : Cursor} (hq : route.regex.matchStart path = some q) :
    q.before.reverse = path ∧ ∃ q', route.regex.matchStart (path ++ ['/']) = some q' ∧
      q'.before.reverse = path ++ ['/'] ∧
      ((∀ number, q'.captured? number = q.captured? number) ∨
        TakesFinalSlash options.sensitive declarations (scan (bodyText template.toList options))
          (contents.slots.zip (q'.groupsFrom 1 contents.slots.length)) path) := by
  obtain ⟨hoptions, -⟩ := options_of_ofTemplate h
  have hfind := fun path => @matchStart_regex_eq_find? route (by rw [hoptions, hend])
    (by rw [hoptions, hstrict]) path
  -- A match leaves nothing of a path.
  have hbefore {path : List Char} {q : Cursor} (hq : route.regex.matchStart path = some q) :
      q.before.reverse = path := by
    obtain ⟨u, slash, -, -, hpath, hreverse, -⟩ :=
      fits_of_mem_outcomes_regex h (Regex.mem_outcomes_of_matchStart hq)
    rw [hfind, Option.map_eq_some_iff] at hq
    obtain ⟨s, -, rfl⟩ := hq
    rw [hreverse, hpath]
    exact (List.append_nil _).symm
  have hforward := Regex.ReadsForward.sequence
    (readsForward_partRegexes route.caseMode 1 route.required)
  refine ⟨hbefore hq, ?_⟩
  rw [hfind, Option.map_eq_some_iff] at hq
  obtain ⟨s, hs, rfl⟩ := hq
  obtain ⟨hafter, s', hs', hsame⟩ :=
    find?_canClose_extend hforward (p := Cursor.start path) hpath hs
  have hq' : route.regex.matchStart (path ++ ['/']) = some (s'.pass s'.after []) := by
    rw [hfind, Cursor.start_concat, hs', Option.map_some]
  refine ⟨_, hq', hbefore hq', ?_⟩
  rcases hsame with rfl | hnil
  · left
    intro number
    have hwithin := (hforward.leads _ s (List.mem_of_find?_eq_some hs)).within
      (Cursor.capturesWithin_start path)
    exact Cursor.captured?_extend hwithin number
  · right
    rw [caseMode, hoptions] at hs'
    exact takesFinalSlash_of_find? (q := s') (resolves_required h)
      (fun piece hpiece => isWellFormed_of_mem_scan hpiece) (fun _ _ => rfl)
      (Cursor.after_extend (p := Cursor.start path)) hpath hs' hnil

end Route

end Template

end RouteTemplate
