/-
# Templates that are one reference

A template may be nothing but a reference after a slash. If it must reach the end of a path, then
the reference takes all that follows the slash, up to a slash at the end, unless the reference may
be left out and nothing follows. What the path gives depends on that text alone: it is decoded,
converted to the type of the parameter and checked.

## Main definitions

* `Definition.accepted?` — the value that a captured text gives for a parameter
* `Matcher.IsSole` — a matcher for such a template
* `MayTake` — the text of a path that the reference may take

## Main results

* `MayTake.unique` — which text that is, when none ends with a slash
* `Matcher.exists_isSole` — the matcher of such a template
* `Matcher.IsSole.match?_of_forall_not_takes` — a path without such a text does not match
* `Matcher.IsSole.match?_of_takes` — a path with one such text gives the value of that text
* `Definition.accepted?_of_enum` — the value of a text that is checked against an enumeration
-/

import RouteTemplate.Proofs.Checking.Unconstrained
import RouteTemplate.Proofs.Matching.Agreement
import RouteTemplate.Proofs.Matching.Compilation

namespace RouteTemplate

open Template

/-! ## The value of a text -/

/-- The value that a captured text gives for a parameter, if it breaks no rule. -/
def Definition.accepted? (definition : Definition Value) (encoding : String) :
    Except Fault (Option Value) := do
  let text ← decodeText encoding
  let v ← (Value.text text).convertTo definition.type
  let rules ← definition.rulesNamedBy v
  return if rules.isEmpty then some v else none

/-- With an enumeration as the only constraint, a value of the type is accepted when it counts as
one of the members. -/
theorem Definition.accepted?_of_enum {definition : Definition Value} {members : List Value}
    (hconstraints : definition.constraints = { Constraints.none with enum := some members })
    {encoding text : String} (hdecode : decodeText encoding = .ok text) {v : Value}
    (hconvert : (Value.text text).convertTo definition.type = .ok v) (hnull : v.isNull = false)
    (hsmall : ¬ v.IsHuge) {ofType : Bool} (htype : hasType definition.type v = .ok ofType) :
    definition.accepted? encoding =
      .ok (if ofType && v.isAmong members then some v else none) := by
  obtain ⟨finite, hfinite⟩ : ∃ finite, isFiniteNumber v = .ok finite := by
    cases hfinite : isFiniteNumber v with
    | error fault => exact absurd (isFiniteNumber_eq_error_iff.mp hfinite).2 hsmall
    | ok finite => exact ⟨finite, rfl⟩
  have hnumber : checkNumber { Constraints.none with enum := some members } v = .ok [] := by
    rw [checkNumber, hfinite]
    cases finite <;> rfl
  have htext (text : String) :
      checkText { Constraints.none with enum := some members } text = .ok [] := rfl
  have hchecked : checkConstraints { Constraints.none with enum := some members } v =
      .ok (if v.isAmong members then [] else [.enum]) := by
    simp only [checkConstraints, hnumber, htext]
    cases v.text? <;> rfl
  have hrules : definition.rulesBrokenBy v =
      .ok (if ofType then (if v.isAmong members then [] else [.enum]) else [.type]) := by
    rw [rulesBrokenBy, hnull, htype, hconstraints, hchecked]
    cases ofType <;> rfl
  simp only [accepted?, hdecode, hconvert, rulesNamedBy, hrules, bind, Except.bind]
  cases ofType <;> cases v.isAmong members <;> rfl

/-! ## The text of a path -/

/-- The text of a path that the reference may take: what follows the first slash, up to a slash at
the end unless the match is strict. -/
def MayTake (options : Options) (definition : Definition Value) (path text : List Char) : Prop :=
  text ∈ captureLanguage options.sensitive definition false (some '/') ∧
    ∃ slash, (slash = [] ∨ (options.strict = false ∧ slash = ['/'])) ∧ path = '/' :: text ++ slash

/-- What a reference takes is determined by the path when it never ends with a slash. -/
theorem MayTake.unique {options : Options} {definition : Definition Value}
    {path text text' : List Char}
    (hlast : ∀ u ∈ captureLanguage options.sensitive definition false (some '/'),
      u.getLast? ≠ some '/')
    (h : MayTake options definition path text) (h' : MayTake options definition path text') :
    text = text' := by
  obtain ⟨htext, slash, hslash, rfl⟩ := h
  obtain ⟨htext', slash', hslash', heq⟩ := h'
  have heq : text ++ slash = text' ++ slash' := by simpa using heq
  rcases hslash with rfl | ⟨-, rfl⟩
  · rcases hslash' with rfl | ⟨-, rfl⟩
    · simpa using heq
    · exact absurd (by rw [← List.append_nil text, heq, List.getLast?_concat]) (hlast text htext)
  · rcases hslash' with rfl | ⟨-, rfl⟩
    · exact absurd (by rw [← List.append_nil text', ← heq, List.getLast?_concat])
        (hlast text' htext')
    · simpa using heq

namespace Matcher

/-- The matcher has the standard collaborators, and its template is a reference to the parameter of
the given name and definition, which must reach the end of a path. -/
structure IsSole (m : Matcher) (name : String) (definition : Definition Value) : Prop where
  compiled : (Compiled.ofTemplate m.template m.declarations m.options).outcome = .ok m.compiled
  collaborators : m.collaborators = .standard
  toEnd : m.options.toEnd = true
  exists_scan : ∃ rawName, scan m.template.toList = [.reference ⟨some '/', false, rawName⟩] ∧
    Reference.RefersTo m.declarations ⟨some '/', false, rawName⟩ name definition

variable {template : String} {parameters : Value} {given : Options.Given}
  {declarations : Declarations} {options : Options} {name : String} {definition : Definition Value}
  {m : Matcher}

/-- A template that is a reference to a parameter has a matcher. -/
theorem exists_isSole (hdeclarations : Declarations.ofValue parameters = .ok declarations)
    (hoptions : Options.ofGiven given = .ok options) (hend : options.toEnd = true)
    {rawName : List Char}
    (hscan : scan template.toList = [.reference ⟨some '/', false, rawName⟩])
    (hrefers : Reference.RefersTo declarations ⟨some '/', false, rawName⟩ name definition) :
    ∃ m, (ofTemplate template parameters given .standard).outcome = .ok m ∧
      m.options = options ∧ m.IsSole name definition := by
  obtain ⟨definitions, hresolve⟩ :=
    (Resolves.reference hrefers .nil).resolvePieces_eq (agree_nil declarations)
  rw [← hscan] at hresolve
  obtain ⟨route, contents, hroute⟩ : ∃ route contents,
      Route.ofTemplate template declarations options = .ok (route, contents) :=
    ⟨_, _, Route.ofTemplate_eq_ok_iff.mpr ⟨hresolve, rfl⟩⟩
  have hcompiled : (Compiled.ofTemplate template declarations options).outcome =
      .ok ⟨some route.pattern, contents.slots, contents.definitions⟩ := by
    have huniversal : ¬ isUniversal template options = true := by
      rw [isUniversal, hend]
      simp
    rw [Compiled.ofTemplate, if_neg huniversal, Run.outcome_bind]
    exact Except.bind_eq_ok_iff.mpr ⟨_, hroute, rfl⟩
  exact ⟨_, outcome_ofTemplate hdeclarations hoptions hcompiled .standard, rfl,
    ⟨hcompiled, rfl, hend, rawName, hscan, hrefers⟩⟩

namespace IsSole

variable (h : m.IsSole name definition)

include h

theorem exists_route : ∃ route contents,
    Route.ofTemplate m.template m.declarations m.options = .ok (route, contents) ∧
      m.compiled = ⟨some route.pattern, contents.slots, contents.definitions⟩ ∧
      contents.slots = [⟨name, '/', false⟩] ∧
      contents.definitions.get? name = some definition := by
  obtain ⟨rawName, hscan, hrefers⟩ := h.exists_scan
  rcases Compiled.universal_or_exists_route h.compiled with
    ⟨huniversal, -⟩ | ⟨route, contents, hroute, hcompiled⟩
  · rw [isUniversal, h.toEnd] at huniversal
    exact absurd huniversal (by simp)
  · have hslots : contents.slots = [⟨name, '/', false⟩] := by
      have hresolves := Route.resolves hroute
      rw [hscan] at hresolves
      generalize contents.parts = parts at hresolves
      generalize contents.slots = slots at hresolves ⊢
      cases hresolves with
      | reference hrefers' hrest =>
        cases hrest
        obtain ⟨rfl, -⟩ := hrefers'.eq hrefers
        rfl
    refine ⟨route, contents, hroute, hcompiled, hslots, ?_⟩
    rw [Route.get?_definitions hroute, hslots, if_pos (by simp), hrefers.2]
    rfl

/-- A template that ends with a reference has no slash at the end to leave out. -/
theorem bodyText_eq : bodyText m.template.toList m.options = m.template.toList := by
  obtain ⟨rawName, hscan, -⟩ := h.exists_scan
  have hlast : m.template.toList.getLast? = some closeBrace := by
    rw [← flatMap_chars_scan m.template.toList, hscan, List.flatMap_singleton, Piece.chars,
      Reference.chars, List.getLast?_concat]
  rw [bodyText, hlast]
  simp [closeBrace]

/-- What fits the template is a slash and a text, unless the reference may be left out. -/
theorem fits_iff {language : Definition Value → Bool → Option Char → Language Char}
    {sensitive : Bool} {taken : Taken} {u : List Char}
    (hpresent : definition.required = true ∨ u ≠ []) :
    Fits language sensitive m.declarations (scan (bodyText m.template.toList m.options)) taken u ↔
      ∃ text ∈ language definition false (some '/'), u = '/' :: text ∧
        taken = [(⟨name, '/', false⟩, some (String.ofList text))] := by
  obtain ⟨rawName, hscan, hrefers⟩ := h.exists_scan
  rw [h.bodyText_eq, hscan]
  constructor
  · intro hfits
    cases hfits with
    | @present _ _ _ text _ _ _ hrefers' htext hrest =>
      cases hrest
      obtain ⟨rfl, rfl⟩ := hrefers'.eq hrefers
      exact ⟨text, htext, List.append_nil _, rfl⟩
    | absent hrefers' hrequired hrest =>
      cases hrest
      obtain ⟨-, rfl⟩ := hrefers'.eq hrefers
      rcases hpresent with hpresent | hpresent
      · exact absurd (hpresent.symm.trans hrequired) (by simp)
      · exact absurd rfl hpresent
  · rintro ⟨text, htext, rfl, rfl⟩
    have hfits : Fits language sensitive m.declarations [.reference ⟨some '/', false, rawName⟩]
        [(⟨name, '/', false⟩, some (String.ofList text))] (['/'] ++ text ++ []) :=
      .present hrefers htext .nil
    rwa [List.append_nil] at hfits

/-- The pattern matches a path with a text that the reference may take. The match is the whole path,
and its group is such a text. -/
theorem find?_eq {path : String}
    (hpresent : definition.required = true ∨ 1 < path.toList.length) :
    ∃ pattern, m.compiled.pattern = some pattern ∧
    ((¬ ∃ text, MayTake m.options definition path.toList text) →
      pattern.find? m.compiled.slots.length path = none) ∧
    ((∃ text, MayTake m.options definition path.toList text) →
      ∃ text, MayTake m.options definition path.toList text ∧
        pattern.find? m.compiled.slots.length path =
          some ⟨path, [some (String.ofList text)]⟩) := by
  obtain ⟨route, contents, hroute, hcompiled, hslots, -⟩ := h.exists_route
  have htoEnd : route.options.toEnd = true := by
    rw [(Route.options_of_ofTemplate hroute).1, h.toEnd]
  -- More than the slash at the end belongs to the reference.
  have hbody {u slash : List Char} (hsplit : path.toList = u ++ slash)
      (hslash : slash = [] ∨ (m.options.strict = false ∧ slash = ['/'])) :
      definition.required = true ∨ u ≠ [] := by
    refine hpresent.imp_right ?_
    rintro hlong rfl
    rw [hsplit] at hlong
    rcases hslash with rfl | ⟨-, rfl⟩ <;> exact absurd hlong (by decide)
  have hmatches : (route.pattern.find? contents.slots.length path).isSome ↔
      ∃ text, MayTake m.options definition path.toList text := by
    rw [Pattern.isSome_find?_iff_exists_outcome]
    refine (Route.exists_mem_outcomes_regex_iff hroute).trans ?_
    simp only [AllowedRest, h.toEnd, if_true, MayTake]
    constructor
    · rintro ⟨u, rest, taken, hpath, hfits, hrest⟩
      obtain ⟨text, htext, rfl, -⟩ := (h.fits_iff (hbody hpath hrest)).mp hfits
      exact ⟨text, htext, rest, hrest, hpath⟩
    · rintro ⟨text, htext, rest, hrest, hpath⟩
      exact ⟨_, rest, _, hpath, (h.fits_iff (.inr (List.cons_ne_nil _ _))).mpr
        ⟨text, htext, rfl, rfl⟩, hrest⟩
  rw [hcompiled]
  refine ⟨route.pattern, rfl, fun hnone => ?_, fun hexists => ?_⟩
  · exact Option.not_isSome_iff_eq_none.mp (mt hmatches.mp hnone)
  · obtain ⟨found, hfound⟩ := Option.isSome_iff_exists.mp (hmatches.mpr hexists)
    obtain ⟨q, hq, hpath, hgroups⟩ := Pattern.exists_of_find?_eq_some hfound
    obtain ⟨u, slash, hu, hslash, hsplit, hbefore, hends⟩ :=
      Route.fits_of_mem_outcomes_regex hroute hq
    have hafter : q.after = [] := by rwa [Route.EndsBefore, if_pos htoEnd] at hends
    rw [hafter, List.append_nil] at hsplit
    have hslash := hslash.imp_right fun hslash => And.intro hslash.1 hslash.2.1
    obtain ⟨text, htext, rfl, htaken⟩ := (h.fits_iff (hbody hsplit hslash)).mp hu
    have hwhole : found.path = path :=
      String.toList_inj.mp ((hpath.trans hbefore).trans hsplit.symm)
    have hgroup : found.groups = [some (String.ofList text)] := by
      rw [hgroups]
      rw [hslots] at htaken ⊢
      exact congrArg (List.map Prod.snd) htaken
    refine ⟨text, ⟨htext, slash, hslash, hsplit⟩, ?_⟩
    rw [hfound, ← hwhole, ← hgroup]

/-- A path without a text that the reference may take does not match. -/
theorem match?_of_forall_not_takes {path : String}
    (hpresent : definition.required = true ∨ 1 < path.toList.length)
    (hpath : ∀ text, ¬ MayTake m.options definition path.toList text) :
    (m.match? path).outcome = .ok none := by
  obtain ⟨pattern, hpattern, hnone, -⟩ := h.find?_eq hpresent
  have htake : (m.takeApart path).outcome = .ok none := by
    rw [outcome_takeApart_of_pattern hpattern, hnone (not_exists.mpr hpath)]
  rw [match?, matchWith, Run.outcome_bind, htake]
  rfl

theorem get?_definitions : m.compiled.definitions.get? name = some definition := by
  obtain ⟨route, contents, -, hcompiled, -, hget⟩ := h.exists_route
  rw [hcompiled]
  exact hget

/-- What the group captures is decoded and converted. -/
theorem takeApart_eq {path : String} {pattern : Pattern}
    (hpattern : m.compiled.pattern = some pattern) {text : String}
    (hfind : pattern.find? m.compiled.slots.length path = some ⟨path, [some text]⟩) :
    (m.takeApart path).outcome = (decodeText text).bind fun decoded =>
      ((Value.text decoded).convertTo definition.type).map fun v => some (path, [(name, v)]) := by
  have hcaptured : captureParams m.compiled.slots [some text] [] =
      (decodeText text).map fun decoded => [(name, .text decoded)] := by
    obtain ⟨route, contents, -, hcompiled, hslots, -⟩ := h.exists_route
    rw [hcompiled]
    dsimp only
    rw [hslots, captureParams_cons, decodeGroup]
    cases decodeText text <;> rfl
  have hconverted (v : Value) : Params.convert m.compiled.definitions [(name, v)] =
      (v.convertTo definition.type).map fun w => [(name, w)] := by
    rw [convert_cons, convertFor, h.get?_definitions]
    dsimp only
    cases v.convertTo definition.type <;> rfl
  rw [outcome_takeApart_of_pattern hpattern, hfind, h.collaborators]
  dsimp only
  rw [hcaptured]
  cases decodeText text with
  | error fault => rfl
  | ok decoded =>
    change (Params.convert m.compiled.definitions [(name, .text decoded)]).map _ = _
    rw [hconverted]
    dsimp only [Except.bind]
    cases (Value.text decoded).convertTo definition.type <;> rfl

/-- One value conforms when it breaks no rule. -/
theorem decision_eq (v : Value) :
    m.collaborators.chosenValidator.decision [(name, v)] m.compiled.definitions =
      (definition.rulesNamedBy v).map List.isEmpty := by
  have herrors : collectErrors m.compiled.definitions [(name, v)] =
      (definition.rulesNamedBy v).map fun rules => [(name, rules)] := by
    rw [collectErrors, h.get?_definitions]
    dsimp only
    cases definition.rulesNamedBy v <;> rfl
  rw [h.collaborators]
  change (Verdict.ofParams [(name, v)] m.compiled.definitions).map Verdict.conforms = _
  rw [Verdict.ofParams, herrors]
  cases definition.rulesNamedBy v with
  | error fault => rfl
  | ok rules => cases rules <;> rfl

/-- A path with one text that the reference may take gives the value of that text. -/
theorem match?_of_takes {path : String} {text : List Char}
    (hpresent : definition.required = true ∨ 1 < path.toList.length)
    (htext : MayTake m.options definition path.toList text)
    (hunique : ∀ text', MayTake m.options definition path.toList text' → text' = text) :
    (m.match? path).outcome = (definition.accepted? (String.ofList text)).map
      (Option.map fun v => ⟨path, [(name, v)]⟩) := by
  obtain ⟨pattern, hpattern, -, hsome⟩ := h.find?_eq hpresent
  obtain ⟨text', htext', hfind⟩ := hsome ⟨text, htext⟩
  obtain rfl := hunique text' htext'
  have htake := h.takeApart_eq hpattern hfind
  -- The path is decoded, converted and checked, and each step may fail.
  rw [Definition.accepted?]
  cases hdecode : decodeText (String.ofList text') with
  | error fault =>
    rw [hdecode] at htake
    rw [match?, matchWith, Run.outcome_bind, htake]
    rfl
  | ok decoded =>
    rw [hdecode] at htake
    dsimp only [Except.bind] at htake
    change _ = Except.map _ (((Value.text decoded).convertTo definition.type).bind fun v =>
      (definition.rulesNamedBy v).map fun rules => if rules.isEmpty then some v else none)
    cases hconvert : (Value.text decoded).convertTo definition.type with
    | error fault =>
      rw [hconvert] at htake
      rw [match?, matchWith, Run.outcome_bind, htake]
      rfl
    | ok v =>
      rw [hconvert] at htake
      rw [match?, outcome_matchWith_of_takeApart _ htake, h.decision_eq]
      cases hrules : definition.rulesNamedBy v with
      | error fault =>
        dsimp only [Except.bind]
        rw [hrules]
        rfl
      | ok rules =>
        dsimp only [Except.bind]
        rw [hrules]
        cases rules <;> rfl

/-- What follows the first slash is taken as a whole when it does not end with a slash. -/
theorem match?_of_mem_captureLanguage {text : String}
    (hpresent : definition.required = true ∨ text ≠ "")
    (htext : text.toList ∈ captureLanguage m.options.sensitive definition false (some '/'))
    (hlast : text.toList.getLast? ≠ some '/') :
    (m.match? ("/" ++ text)).outcome = (definition.accepted? text).map
      (Option.map fun v => ⟨"/" ++ text, [(name, v)]⟩) := by
  have hpath : ("/" ++ text).toList = '/' :: text.toList := by
    rw [String.toList_append]
    rfl
  have htakes : MayTake m.options definition ("/" ++ text).toList text.toList :=
    ⟨htext, [], .inl rfl, by rw [hpath, List.append_nil]⟩
  have hlong : definition.required = true ∨ 1 < ("/" ++ text).toList.length := by
    refine hpresent.imp_right fun hne => ?_
    rw [hpath, List.length_cons]
    have hpos := List.length_pos_iff.mpr (mt String.toList_eq_nil_iff.mp hne)
    omega
  have hmatch := h.match?_of_takes hlong htakes fun text' htext' => by
    obtain ⟨-, slash, hslash, hsplit⟩ := htext'
    rw [hpath, List.cons_append, List.cons.injEq] at hsplit
    rcases hslash with rfl | ⟨-, rfl⟩
    · rw [hsplit.2, List.append_nil]
    · exact absurd (by rw [hsplit.2, List.getLast?_concat]) hlast
  rwa [String.ofList_toList] at hmatch

end IsSole

end Matcher

end RouteTemplate
