/-
# How matching fails

When the parameters of a template have types but no constraints, a path that does not match is
refused. Matching fails only when a text that is captured is no percent-encoding, or when an integer
is captured that has no finite floating-point value.

## Main definitions

* `Matcher.IsUnconstrained` — no parameter is declared with a constraint

## Main results

* `Matcher.takeApart_eq_error` — taking apart a path fails only at a percent-encoding
* `Matcher.match?_eq_error_iff` — how matching fails
* `Matcher.match?_eq_integerTooLarge` — a path at which it fails for a number
-/

import RouteTemplate.Proofs.Checking.Unconstrained
import RouteTemplate.Proofs.Matching.Agreement
import RouteTemplate.Proofs.Matching.Compilation
import RouteTemplate.Proofs.Template.DateText

namespace RouteTemplate

open Template

/-! ## Values -/

/-- What is captured for a parameter without an enumeration can be converted to the type of the
parameter. -/
theorem exists_convertTo_eq_ok {sensitive expand : Bool} {lead : Option Char}
    {definition : Definition Value} (henum : definition.constraints.enum = none)
    {group : Option String}
    (hgroup : ∀ text ∈ group, text.toList ∈ captureLanguage sensitive definition expand lead)
    {v : Value} (hv : decodeGroup group = .ok v) : ∃ w, v.convertTo definition.type = .ok w := by
  rcases decodeGroup_eq_ok hv with ⟨-, rfl⟩ | ⟨text, decoded, rfl, hdecode, rfl⟩
  · exact ⟨.null, rfl⟩
  · have htext := hgroup text rfl
    simp only [captureLanguage, declaredLanguage, henum] at htext
    cases htype : definition.type with
    | date =>
      -- The date stands for itself, and its words are too short for numbers beyond the calendar.
      rw [htype] at htext
      have hself := percentDecode?_of_mem_dateLanguage htext
      rw [String.ofList_toList] at hself
      rw [decodeText_eq, hself] at hdecode
      obtain rfl : text = decoded := Except.ok.inj hdecode
      obtain ⟨date, hdate⟩ := exists_read_of_mem_dateLanguage htext
      exact ⟨_, by rw [Value.convertTo, readText, hdate]; rfl⟩
    | _ => exact ⟨_, rfl⟩

/-- Only for the type integer is a text converted to an integer. -/
theorem type_eq_integer_of_convertTo {group : Option String} {v : Value}
    (hv : decodeGroup group = .ok v) {type : ParameterType} {n : Int}
    (h : v.convertTo type = .ok (.int n)) : type = .integer := by
  rcases decodeGroup_eq_ok hv with ⟨-, rfl⟩ | ⟨text, decoded, -, -, rfl⟩
  · exact absurd (Except.ok.inj h) (by simp)
  · have hother {read : Option Value} (hread : read ≠ some (.int n)) :
        read.getD (.text decoded) ≠ .int n := by
      cases read with
      | none => simp
      | some w => exact mt (congrArg some) hread
    cases type with
    | integer => rfl
    | string => exact absurd (Except.ok.inj h) (by simp)
    | number => exact absurd (Except.ok.inj h) (hother (by simp))
    | boolean => exact absurd (Except.ok.inj h) (hother (by simp))
    | date =>
      rw [Value.convertTo, readText] at h
      cases hread : Calendar.MailDate.read decoded.toList with
      | error cause =>
        rw [hread] at h
        exact absurd h (by simp [bind, Except.bind])
      | ok date =>
        rw [hread] at h
        exact absurd (Except.ok.inj h) (hother (by simp))

/-! ## Captures -/

section Captured

variable {template : String} {declarations : Declarations} {options : Options}
  {compiled : Compiled}

/-- The definitions of a compiled template are those that the declarations give. -/
theorem Compiled.ofValue_of_get?
    (h : (Compiled.ofTemplate template declarations options).outcome = .ok compiled) {name : String}
    {definition : Definition Value} (hget : compiled.definitions.get? name = some definition) :
    Definition.ofValue name (declarations.describe name) = .ok definition := by
  rcases Compiled.universal_or_exists_route h with ⟨-, rfl⟩ | ⟨route, contents, hroute, rfl⟩
  · -- A template that matches every path refers to no parameter.
    exact absurd hget (by simp)
  · rw [Route.get?_definitions hroute] at hget
    split at hget
    · cases hdeclared : declaredDefinition declarations name with
      | error fault =>
        rw [hdeclared] at hget
        exact absurd hget (by simp [Except.toOption])
      | ok definition' =>
        rw [hdeclared] at hget
        obtain rfl : definition' = definition := Option.some.inj hget
        exact (declaredDefinition_eq_ok_iff.mp hdeclared).1
    · exact absurd hget (by simp)

/-- What a group captures is a text of the language of the parameter that its slot names. -/
theorem Compiled.exists_definition {pattern : Pattern} {path : String} {found : Found}
    (h : (Compiled.ofTemplate template declarations options).outcome = .ok compiled)
    (hpattern : compiled.pattern = some pattern)
    (hfound : pattern.find? compiled.slots.length path = some found) {slot : Slot}
    {group : Option String} (hmem : (slot, group) ∈ compiled.slots.zip found.groups) :
    ∃ definition expand lead, compiled.definitions.get? slot.name = some definition ∧
      ∀ text ∈ group, text.toList ∈ captureLanguage options.sensitive definition expand lead := by
  obtain ⟨route, contents, hroute, rfl, rfl⟩ := Compiled.exists_route h hpattern
  obtain ⟨q, hq, -, hgroups⟩ := Pattern.exists_of_find?_eq_some hfound
  obtain ⟨u, _, hu, -⟩ := Route.fits_of_mem_outcomes_regex hroute hq
  rw [hgroups] at hmem
  obtain ⟨r, name, definition, hrefers, rfl, htext⟩ := hu.exists_of_mem hmem
  have hname : name ∈ contents.slots.map Slot.name :=
    List.mem_map.mpr ⟨r.slot name, (List.of_mem_zip hmem).1, rfl⟩
  have hget : contents.definitions.get? name = some definition := by
    rw [Route.get?_definitions hroute, if_pos hname, hrefers.2]
    rfl
  exact ⟨definition, r.expand, r.lead, hget, htext⟩

end Captured

namespace Matcher

/-- No parameter is declared with a constraint. -/
def IsUnconstrained (m : Matcher) : Prop :=
  ∀ declared ∈ m.declarations, declared.2.DeclaresNoConstraint

section Unconstrained

variable {template : String} {parameters : Value} {given : Options.Given} {m : Matcher}
  {path matched : String}
  {params : Params} {fault : Fault}

theorem IsUnconstrained.describe (h : m.IsUnconstrained) (name : String) :
    (m.declarations.describe name).DeclaresNoConstraint := by
  rw [Declarations.describe]
  cases hdescribed : Fields.get? m.declarations name with
  | none =>
    intro key _
    rfl
  | some description => exact h _ (Fields.mem_of_get?_eq_some hdescribed)

/-- The parameters that a template refers to have no constraints. -/
theorem constraints_eq_none (hm : (ofTemplate template parameters given .standard).outcome = .ok m)
    (hplain : m.IsUnconstrained) {name : String} {definition : Definition Value}
    (hdefinition : m.compiled.definitions.get? name = some definition) :
    definition.constraints = .none := by
  obtain ⟨declarations, options, compiled, -, -, hcompiled, rfl⟩ := exists_of_ofTemplate hm
  exact Definition.constraints_eq_none (hplain.describe name)
    (Compiled.ofValue_of_get? hcompiled hdefinition)

/-- Every value that a path gives belongs to a parameter to whose type it can be converted. -/
theorem exists_definition_of_mem_captured
    (hm : (ofTemplate template parameters given .standard).outcome = .ok m)
    (hplain : m.IsUnconstrained) {pattern : Pattern} (hpattern : m.compiled.pattern = some pattern)
    {found : Found} (hfound : pattern.find? m.compiled.slots.length path = some found)
    {captured : Params} (hcaptured : captureParams m.compiled.slots found.groups [] = .ok captured)
    {name : String} {v : Value} (hmem : (name, v) ∈ captured) :
    ∃ definition group, m.compiled.definitions.get? name = some definition ∧
      decodeGroup group = .ok v ∧ ∃ w, v.convertTo definition.type = .ok w := by
  obtain ⟨slot, group, hzip, rfl, hgroup⟩ := exists_of_mem_captureParams hcaptured hmem
  obtain ⟨declarations, options, compiled, -, -, hcompiled, rfl⟩ := exists_of_ofTemplate hm
  obtain ⟨definition, expand, lead, hget, htext⟩ :=
    Compiled.exists_definition hcompiled hpattern hfound hzip
  have henum : definition.constraints.enum = none := by
    rw [constraints_eq_none hm hplain hget]
    rfl
  exact ⟨definition, group, hget, hgroup, exists_convertTo_eq_ok henum htext hgroup⟩

/-- Taking apart a path fails only when a text that is captured is no percent-encoding. -/
theorem takeApart_eq_error (hm : (ofTemplate template parameters given .standard).outcome = .ok m)
    (hplain : m.IsUnconstrained) (h : (m.takeApart path).outcome = .error fault) :
    ∃ text, fault = .malformedEncoding text := by
  obtain ⟨pattern, found, hpattern, hfound, hcapture | ⟨captured, hcaptured, hsanitize⟩⟩ :=
    exists_of_takeApart_eq_error h
  · exact captureParams_eq_error hcapture
  · -- Every value that is captured can be converted.
    rw [collaborators_of_ofTemplate hm] at hsanitize
    obtain ⟨name, v, hmem, hfails⟩ := exists_of_convert_eq_error hsanitize
    obtain ⟨definition, group, hget, -, w, hw⟩ :=
      exists_definition_of_mem_captured hm hplain hpattern hfound hcaptured hmem
    rw [convertFor, hget] at hfails
    exact absurd (hw.symm.trans hfails) (by simp)

/-- An integer among the values of a path belongs to a parameter of that type. -/
theorem exists_integer_of_mem_takeApart
    (hm : (ofTemplate template parameters given .standard).outcome = .ok m)
    (hplain : m.IsUnconstrained)
    (h : (m.takeApart path).outcome = .ok (some (matched, params))) {name : String} {n : Int}
    (hmem : (name, .int n) ∈ params) :
    ∃ definition, m.compiled.definitions.get? name = some definition ∧
      definition.type = .integer := by
  rcases exists_of_takeApart h with
    ⟨-, -, rfl⟩ | ⟨pattern, found, captured, hpattern, hfound, hcaptured, hsanitized, -⟩
  · exact absurd hmem List.not_mem_nil
  · rw [collaborators_of_ofTemplate hm] at hsanitized
    obtain ⟨v, hv, hconverted⟩ := exists_of_mem_convert hsanitized hmem
    obtain ⟨definition, group, hget, hgroup, -⟩ :=
      exists_definition_of_mem_captured hm hplain hpattern hfound hcaptured hv
    rw [convertFor, hget] at hconverted
    exact ⟨definition, hget, type_eq_integer_of_convertTo hgroup hconverted⟩

/-- Matching fails in two ways only: when a text that is captured is no percent-encoding, and when
the values of the path have an integer among them that has no finite floating-point value. Checking
the parameters concurrently makes no difference. -/
theorem match?_eq_error_iff (hm : (ofTemplate template parameters given .standard).outcome = .ok m)
    (hplain : m.IsUnconstrained) (path : String) :
    (∀ group, (m.matchConcurrently? path group).outcome = (m.match? path).outcome) ∧
      ∀ fault, (m.match? path).outcome = .error fault ↔
        ((m.takeApart path).outcome = .error fault ∧ ∃ text, fault = .malformedEncoding text) ∨
        (fault = .integerTooLarge ∧
          ∃ matched params, (m.takeApart path).outcome = .ok (some (matched, params)) ∧
            ∃ name n, (name, .int n) ∈ params ∧
              Number.Binary64.overflowThreshold ≤ n.natAbs) := by
  have hstandard := collaborators_of_ofTemplate hm
  have hvalidator : m.collaborators.chosenValidator = standardValidator := by
    rw [hstandard]
    rfl
  constructor
  · exact outcome_matchConcurrently?_of_standard hstandard path
  · intro fault
    rw [match?, hvalidator, outcome_matchWith_eq_error_iff]
    refine or_congr ?_ ?_
    · exact ⟨fun h => ⟨h, takeApart_eq_error hm hplain h⟩, And.left⟩
    · constructor
      · rintro ⟨matched, params, htake, hfails⟩
        obtain ⟨hfault, name, v, definition, hmem, -, -, n, rfl, hhuge⟩ :=
          (collectErrors_eq_error_iff fun _ _ => constraints_eq_none hm hplain).mp
            (Verdict.ofParams_eq_error_iff.mp hfails)
        exact ⟨hfault, matched, params, htake, name, n, hmem, hhuge⟩
      · rintro ⟨hfault, matched, params, htake, name, n, hmem, hhuge⟩
        obtain ⟨definition, hget, htype⟩ := exists_integer_of_mem_takeApart hm hplain htake hmem
        refine ⟨matched, params, htake, Verdict.ofParams_eq_error_iff.mpr ?_⟩
        exact (collectErrors_eq_error_iff fun _ _ => constraints_eq_none hm hplain).mpr
          ⟨hfault, name, .int n, definition, hmem, hget, .inr htype, n, rfl, hhuge⟩

end Unconstrained

/-- A text that is no percent-encoding is captured for a string that may be left out. -/
theorem match?_eq_malformedEncoding :
    ∃ m, (ofTemplate "/{s}"
        (.mapping [("s", .mapping [("type", .text "string"), ("required", .bool false)])]) .none
        .standard).outcome = .ok m ∧ m.IsUnconstrained ∧
      (m.match? "/%").outcome = .error (.malformedEncoding "%") ∧
      (∀ group, (m.matchConcurrently? "/%" group).outcome = (m.match? "/%").outcome) ∧
      ∀ fault, (m.match? "/%").outcome = .error fault ↔
        ((m.takeApart "/%").outcome = .error fault ∧ ∃ text, fault = .malformedEncoding text) ∨
        (fault = .integerTooLarge ∧
          ∃ matched params, (m.takeApart "/%").outcome = .ok (some (matched, params)) ∧
            ∃ name n, (name, .int n) ∈ params ∧
              Number.Binary64.overflowThreshold ≤ n.natAbs) := by
  have hmatcher : ∃ m, (ofTemplate "/{s}"
        (.mapping [("s", .mapping [("type", .text "string"), ("required", .bool false)])]) .none
        .standard).outcome = .ok m ∧
      m.declarations = [("s", .mapping [("type", .text "string"), ("required", .bool false)])] ∧
      (m.match? "/%").outcome = .error (.malformedEncoding "%") := ⟨_, rfl, rfl, rfl⟩
  obtain ⟨m, hm, hdeclarations, hmatch⟩ := hmatcher
  have hplain : m.IsUnconstrained := by
    intro declared hmem
    rw [hdeclarations] at hmem
    obtain rfl := List.mem_singleton.mp hmem
    change ∀ key ∈ constraintKeys,
      (Value.mapping [("type", .text "string"), ("required", .bool false)]).field? key = none
    decide
  exact ⟨m, hm, hplain, hmatch, match?_eq_error_iff hm hplain "/%"⟩

end Matcher

/-! ## An integer that is too large -/

/-- The declaration of an integer. -/
private def integerDeclarations : Declarations :=
  [("n", .mapping [("type", .text "integer")])]

private def integerDefinition : Definition Value :=
  ⟨"n", .integer, true, .none⟩

/-- The route of a template with an integer after a slash. -/
private def integerRoute : Route :=
  ⟨[.reference (some '/') false integerDefinition], false, .standard⟩

/-- The integer takes all digits after the slash. -/
private theorem find?_integerRoute {digits : List Char} (h : digits ∈ Template.digits) :
    integerRoute.pattern.find? 1 (String.ofList ('/' :: digits)) =
      some ⟨String.ofList ('/' :: digits), [some (String.ofList digits)]⟩ := by
  have hroute : Route.ofTemplate "/{n}" integerDeclarations .standard = .ok (integerRoute,
      ⟨integerRoute.parts, [⟨"n", '/', false⟩], [("n", integerDefinition)]⟩) := rfl
  have hscan : scan (bodyText "/{n}".toList .standard) =
      [.reference ⟨some '/', false, ['n']⟩] := by decide +kernel
  have hrefers : Reference.RefersTo integerDeclarations ⟨some '/', false, ['n']⟩ "n"
      integerDefinition := ⟨rfl, rfl⟩
  have hlanguage : digits ∈ captureLanguage false integerDefinition false (some '/') :=
    Language.mem_mul.mpr ⟨[], .inl rfl, digits, h, rfl⟩
  -- There is a match, since the path fits the template.
  obtain ⟨found, hfound⟩ : ∃ found,
      integerRoute.pattern.find? 1 (String.ofList ('/' :: digits)) = some found := by
    rw [← Option.isSome_iff_exists, Pattern.isSome_find?_iff_exists_outcome]
    refine (Route.exists_mem_outcomes_regex_iff hroute).mpr
      ⟨'/' :: digits, [], [(⟨"n", '/', false⟩, some (String.ofList digits))], ?_, ?_, .inl rfl⟩
    · rw [String.toList_ofList, List.append_nil]
    · have hfits : Fits (captureLanguage false) false integerDeclarations
          [.reference ⟨some '/', false, ['n']⟩]
          [(⟨"n", '/', false⟩, some (String.ofList digits))] (['/'] ++ digits ++ []) :=
        .present hrefers hlanguage .nil
      rw [List.append_nil] at hfits
      exact hscan ▸ hfits
  -- What it takes fits the template again, and no digit is left for the end of the path.
  obtain ⟨q, hq, hpath, hgroups⟩ := Pattern.exists_of_find?_eq_some hfound
  obtain ⟨u, slash, hu, hslash, hsplit, hbefore, hend⟩ :=
    Route.fits_of_mem_outcomes_regex hroute hq
  have hafter : q.after = [] := hend
  rw [String.toList_ofList, hafter, List.append_nil] at hsplit
  have hfits : Fits (captureLanguage false) false integerDeclarations
      [.reference ⟨some '/', false, ['n']⟩]
      [(⟨"n", '/', false⟩, (q.captured? 1).map String.ofList)] u := hscan ▸ hu
  generalize hgroup : (q.captured? 1).map String.ofList = group at hfits
  have hfoundGroups : found.groups = [group] := hgroups.trans (congrArg (fun g => [g]) hgroup)
  cases hfits with
  | @present _ name definition text _ _ u hrefers' htext hrest =>
    cases hrest
    have hdigits : digits = text ++ slash := by simpa using hsplit
    obtain rfl : slash = [] := by
      rcases hslash with hslash | ⟨-, hslash, -⟩
      · exact hslash
      · exact absurd (h.2 '/' (by simp [hdigits, hslash])) (by decide)
    obtain rfl : text = digits := by simpa using hdigits.symm
    have hwhole : found.path = String.ofList ('/' :: text) :=
      String.toList_inj.mp ((hpath.trans hbefore).trans (by simp))
    rw [hfound, ← hwhole, ← hfoundGroups]
  | absent hrefers' hrequired hrest =>
    obtain ⟨-, rfl⟩ := hrefers'.eq hrefers
    exact absurd hrequired (by decide)

private def integerMatcher : Matcher :=
  ⟨"/{n}", integerDeclarations, .standard,
    ⟨some integerRoute.pattern, [⟨"n", '/', false⟩], [("n", integerDefinition)]⟩, .standard⟩

/-- The digits after the slash are the value of the integer. -/
private theorem takeApart_integerMatcher {digits : List Char} (h : digits ∈ Template.digits)
    {n : Int} (hread : Number.readInteger? digits = some n) :
    (integerMatcher.takeApart (String.ofList ('/' :: digits))).outcome =
      .ok (some (String.ofList ('/' :: digits), [("n", .int n)])) := by
  have hother {c : Char} (hc : c.isDigit = false) : c ∉ digits := by
    intro hmem
    exact Bool.false_ne_true (hc.symm.trans (h.2 c hmem))
  have hdecode : decodeGroup (some (String.ofList digits)) =
      .ok (.text (String.ofList digits)) := by
    have hself : Text.Encodes (String.ofList digits).toList digits := by
      rw [String.toList_ofList]
      exact .refl (hother (by decide)) (hother (by decide))
    rw [decodeGroup, decodeText_eq, hself.percentDecode?_eq]
    rfl
  have hcaptured : captureParams integerMatcher.compiled.slots [some (String.ofList digits)] [] =
      .ok [("n", .text (String.ofList digits))] := by
    have hcons := captureParams_cons ⟨"n", '/', false⟩ [] (some (String.ofList digits)) [] []
    rw [hdecode] at hcons
    exact hcons
  have hconverted : Params.convert integerMatcher.compiled.definitions
      [("n", .text (String.ofList digits))] = .ok [("n", .int n)] := by
    have hvalue : convertFor integerMatcher.compiled.definitions "n"
        (.text (String.ofList digits)) = .ok (.int n) := by
      change Value.convertTo .integer (.text (String.ofList digits)) = _
      rw [Value.convertTo, readText, String.toList_ofList, hread]
      rfl
    rw [convert_cons, hvalue]
    rfl
  have hsanitized : (integerMatcher.collaborators.chosenSanitizer
      [("n", .text (String.ofList digits))] integerMatcher.compiled.definitions).outcome =
      .ok [("n", .int n)] := hconverted
  have hfound : integerRoute.pattern.find? integerMatcher.compiled.slots.length
      (String.ofList ('/' :: digits)) =
      some ⟨String.ofList ('/' :: digits), [some (String.ofList digits)]⟩ :=
    find?_integerRoute h
  rw [Matcher.outcome_takeApart_of_pattern rfl, hfound]
  dsimp only
  rw [hcaptured]
  dsimp only [Except.bind]
  rw [hsanitized]
  rfl

/-- A path with an integer that is too large can be taken apart, but not checked. -/
theorem Matcher.match?_eq_integerTooLarge :
    ∃ m, (Matcher.ofTemplate "/{n}" (.mapping [("n", .mapping [("type", .text "integer")])]) .none
        .standard).outcome = .ok m ∧ m.IsUnconstrained ∧
      (m.match? (String.ofList ('/' :: List.replicate 309 '9'))).outcome =
        .error .integerTooLarge := by
  refine ⟨integerMatcher, rfl, ?_, ?_⟩
  · intro declared hmem
    obtain rfl := List.mem_singleton.mp hmem
    change ∀ key ∈ constraintKeys, (Value.mapping [("type", .text "integer")]).field? key = none
    decide
  · have hdigits : List.replicate 309 '9' ∈ Template.digits :=
      ⟨List.cons_ne_nil _ _, fun d hd => by rw [List.eq_of_mem_replicate hd]; decide⟩
    have hread : Number.readInteger? (List.replicate 309 '9') = some (10 ^ 309 - 1) := by
      decide +kernel
    have htake := takeApart_integerMatcher hdigits hread
    refine (Matcher.outcome_matchWith_eq_error_iff _).mpr (.inr ⟨_, _, htake, ?_⟩)
    have hfails : collectErrors integerMatcher.compiled.definitions
        [("n", .int (10 ^ 309 - 1))] = .error .integerTooLarge := by decide +kernel
    exact Verdict.ofParams_eq_error_iff.mpr hfails

end RouteTemplate
