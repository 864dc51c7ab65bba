/-
# Building a path and matching it

A path that is built from the segments of a template, with encodings of texts in place of the
references, matches the template as a whole, and the match gives the texts back under the names of
their parameters.

## Main results

* `find?_pathOf` — the pattern takes the whole path, and its groups are the encodings
* `captureParams_takenFrom` — the groups decode to the texts that were encoded
* `Matcher.match?_pathOf` — matching is the inverse of building, concurrently or not
-/

import RouteTemplate.Proofs.Matching.Capturing
import RouteTemplate.Proofs.Matching.Compilation
import RouteTemplate.Proofs.Matching.Joining
import RouteTemplate.Proofs.Template.Segments
import RouteTemplate.Proofs.Text.PercentEncoding

namespace RouteTemplate

open Template

/-! ## Required strings -/

/-- The definitions are those of parameters about which nothing is declared. -/
private def ArePlain (definitions : Definitions) : Prop :=
  ∀ name definition, definitions.get? name = some definition → definition = .plain name

private theorem convertTo_string (v : Value) : v.convertTo .string = .ok v := by
  cases v <;> rfl

/-- Strings keep their texts. -/
private theorem ArePlain.convert_eq {definitions : Definitions} (h : ArePlain definitions)
    (params : Params) : Params.convert definitions params = .ok params := by
  rw [Params.convert]
  induction params with
  | nil => rfl
  | cons entry params ih =>
    obtain ⟨name, v⟩ := entry
    rw [List.mapM_cons, ih]
    cases hget : definitions.get? name with
    | none =>
      simp only [hget]
      rfl
    | some definition =>
      have htype : definition.type = .string := by rw [h name definition hget]; rfl
      simp only [hget, htype, convertTo_string]
      rfl

/-- A text breaks no rule of a required string. -/
private theorem rulesNamedBy_plain (name text : String) :
    (Definition.plain name).rulesNamedBy (.text text) = .ok [] := by
  rfl

/-- Texts under the names of required strings conform. -/
private theorem ArePlain.exists_ofParams {definitions : Definitions} (h : ArePlain definitions)
    {params : Params} (htexts : ∀ name v, (name, v) ∈ params → ∃ text, v = .text text) :
    ∃ verdict, Verdict.ofParams params definitions = .ok verdict ∧ verdict.conforms = true := by
  have hcollect : ∃ errors, collectErrors definitions params = .ok errors ∧
      ∀ entry ∈ errors, entry.2 = [] := by
    induction params with
    | nil => exact ⟨[], rfl, by simp⟩
    | cons entry params ih =>
      obtain ⟨name, v⟩ := entry
      obtain ⟨text, rfl⟩ := htexts name v List.mem_cons_self
      obtain ⟨errors, herrors, hnone⟩ := ih fun name v hmem =>
        htexts name v (List.mem_cons_of_mem _ hmem)
      rw [collectErrors]
      cases hget : definitions.get? name with
      | none => exact ⟨errors, herrors, hnone⟩
      | some definition =>
        rw [h name definition hget, herrors]
        simp only [rulesNamedBy_plain]
        exact ⟨(name, []) :: errors, rfl, List.forall_mem_cons.mpr ⟨rfl, hnone⟩⟩
  obtain ⟨errors, herrors, hnone⟩ := hcollect
  refine ⟨.ofErrors errors, by rw [Verdict.ofParams, herrors]; rfl, ?_⟩
  rw [Verdict.ofErrors, List.isEmpty_iff, List.filter_eq_nil_iff]
  rintro ⟨name, rules⟩ hmem
  have hrules : rules = [] := hnone _ hmem
  simp [hrules]

/-- The same holds when they are checked one by one, concurrently. -/
private theorem ArePlain.exists_validateConcurrently {definitions : Definitions}
    (h : ArePlain definitions) {params : Params} (hnodup : (Fields.names params).Nodup)
    (htexts : ∀ name v, (name, v) ∈ params → ∃ text, v = .text text) (group : TaskGroup) :
    ∃ verdict, (validateConcurrently params definitions standardCheck group).outcome =
        .ok verdict ∧ verdict.conforms = true := by
  refine exists_conforms_validateConcurrently hnodup ?_ group
  rintro name outcome ⟨v, definition, hv, hdefinition, rfl⟩
  obtain ⟨text, rfl⟩ := htexts name v (Fields.mem_of_get?_eq_some hv)
  obtain rfl := h name definition hdefinition
  exact ⟨_, rfl, rfl⟩

/-! ## Matches that conform -/

/-- A path that is taken apart into values that conform matches with these values. -/
private theorem matchWith_of_conforms {m : Matcher} {validator : Validator} {path matched : String}
    {params : Params} {verdict : Verdict}
    (htake : (m.takeApart path).outcome = .ok (some (matched, params)))
    (hverdict : (validator params m.compiled.definitions).outcome = .ok verdict)
    (hconforms : verdict.conforms = true) :
    (m.matchWith validator path).outcome = .ok (some ⟨matched, params⟩) := by
  rw [Matcher.matchWith, Run.outcome_bind, htake]
  change ((validator params m.compiled.definitions >>= fun verdict =>
    m.accept path matched params verdict).outcome) = _
  rw [Run.outcome_bind, hverdict]
  change (m.accept path matched params verdict).outcome = _
  rw [Matcher.accept, if_pos hconforms]
  rfl

/-! ## The template of segments -/

variable {segments : List Segment} {declarations : Declarations} {options : Options}
  {value : String → String} {encoding : String → List Char}

/-- The texts that are given, under the names of the parameters that the segments refer to. -/
def paramsOf (value : String → String) (segments : List Segment) : Params :=
  (segments.flatMap Segment.names).map fun name => (name, .text (value name))

theorem names_paramsOf (value : String → String) (segments : List Segment) :
    Fields.names (paramsOf value segments) = segments.flatMap Segment.names := by
  rw [Fields.names, paramsOf, List.map_map]
  exact List.map_id _

/-- A template of segments has a route when nothing is declared about its parameters. -/
theorem exists_route_templateOf
    (hundeclared : ∀ name ∈ segments.flatMap Segment.names, declarations.describe name = .null)
    (options : Options) :
    ∃ route contents,
      Route.ofTemplate (String.ofList (templateOf segments)) declarations options =
        .ok (route, contents) := by
  -- Some path fits the template, so all its references resolve.
  have hfits := @fits_pathOf false declarations (fun _ => ['x']) segments hundeclared
    fun _ _ => ⟨by simp, by simp⟩
  obtain ⟨parts, slots, hresolves⟩ := hfits.exists_resolves
  obtain ⟨definitions, hcontents⟩ := hresolves.resolvePieces_eq (agree_nil declarations)
  rw [← @String.toList_ofList (templateOf segments)] at hcontents
  exact ⟨_, _, Route.ofTemplate_eq_ok_iff.mpr ⟨hcontents, rfl⟩⟩

section Route

variable {route : Route} {contents : Contents}
  (h : Route.ofTemplate (String.ofList (templateOf segments)) declarations options =
    .ok (route, contents))
  (hundeclared : ∀ name ∈ segments.flatMap Segment.names, declarations.describe name = .null)

include h hundeclared

/-- The pattern takes the whole path, and each group the encoding that was filled in. -/
theorem find?_pathOf
    (hencoding : ∀ name ∈ segments.flatMap Segment.names,
      encoding name ≠ [] ∧ '/' ∉ encoding name) :
    ∃ found, route.pattern.find? contents.slots.length
        (String.ofList (pathOf encoding segments)) = some found ∧
      found.path = String.ofList (pathOf encoding segments) ∧
      contents.slots = (takenFrom encoding segments).map (·.1) ∧
      found.groups = (takenFrom encoding segments).map (·.2) := by
  have hbody : bodyText (String.ofList (templateOf segments)).toList options =
      templateOf segments := by
    rw [String.toList_ofList]
    exact bodyText_templateOf segments options
  have hsome : (route.pattern.find? contents.slots.length
      (String.ofList (pathOf encoding segments))).isSome := by
    rw [Pattern.isSome_find?_iff_exists_outcome, String.toList_ofList]
    refine (Route.exists_mem_outcomes_regex_iff h).mpr
      ⟨pathOf encoding segments, [], takenFrom encoding segments, (List.append_nil _).symm, ?_, ?_⟩
    · rw [hbody]
      exact fits_pathOf hundeclared hencoding
    · rw [AllowedRest]
      split <;> exact .inl rfl
  obtain ⟨found, hfound⟩ := Option.isSome_iff_exists.mp hsome
  obtain ⟨q, hq, hpath, hgroups⟩ := Pattern.exists_of_find?_eq_some hfound
  rw [String.toList_ofList] at hq
  obtain ⟨u, slash, hu, hslash, hsplit, hbefore, hends⟩ := Route.fits_of_mem_outcomes_regex h hq
  rw [hbody] at hu
  -- The template ends with no slash, so the match stops before one or at the end of the path.
  have hrest : slash ++ q.after = [] ∨ (slash ++ q.after).head? = some '/' := by
    rcases hslash with rfl | ⟨-, rfl, -⟩
    · obtain ⟨hoptions, hnoSlash⟩ := Route.options_of_ofTemplate h
      have hlast := getLast?_templateOf_ne segments
      rw [String.toList_ofList, beq_eq_false_iff_ne.mpr hlast] at hnoSlash
      rw [Route.EndsBefore, hnoSlash] at hends
      split at hends
      · exact .inl hends
      · exact hends.imp_right fun hends => hends.resolve_right (by simp)
    · exact .inr rfl
  rw [List.append_assoc] at hsplit
  -- Of all ways in which the path could fit, there is only the one in which it was built.
  obtain ⟨hnil, htaken⟩ := hu.eq_takenFrom hundeclared hencoding hrest hsplit
  obtain ⟨rfl, hafter⟩ := List.append_eq_nil_iff.mp hnil
  have hlength : contents.slots.length = found.groups.length := by
    rw [hgroups, Regex.Cursor.groupsFrom, List.length_map, List.length_range']
  rw [← hgroups] at htaken
  refine ⟨found, hfound, ?_, ?_, ?_⟩
  · rw [hnil, List.append_nil] at hsplit
    rw [hsplit, ← List.append_nil u, ← hbefore, ← hpath, String.ofList_toList]
  · rw [← htaken, List.map_fst_zip hlength.le]
  · rw [← htaken, List.map_snd_zip hlength.ge]

/-- The parameters of the template are required strings. -/
private theorem arePlain_definitions : ArePlain contents.definitions := by
  intro name definition hget
  obtain ⟨_, -, -, hslots, -⟩ := @find?_pathOf segments declarations options (fun _ => ['x'])
    route contents h hundeclared fun _ _ => ⟨by simp, by simp⟩
  have hnames : contents.slots.map Slot.name = segments.flatMap Segment.names := by
    rw [hslots, takenFrom_eq_map, List.map_map, List.map_map]
    exact List.map_id _
  rw [Route.get?_definitions h, hnames] at hget
  split at hget
  · rename_i hname
    rw [declaredDefinition, hundeclared name hname] at hget
    exact (Option.some.inj hget).symm
  · exact absurd hget (by simp)

end Route

/-- The groups decode to the texts that were encoded. -/
theorem captureParams_takenFrom (hnodup : (segments.flatMap Segment.names).Nodup)
    (hvalue : ∀ name ∈ segments.flatMap Segment.names,
      Text.Encodes (value name).toList (encoding name)) :
    captureParams ((takenFrom encoding segments).map (·.1))
      ((takenFrom encoding segments).map (·.2)) [] = .ok (paramsOf value segments) := by
  rw [takenFrom_eq_map, paramsOf]
  generalize segments.flatMap Segment.names = names at hnodup hvalue
  -- Names are distinct, so no capture is passed over for an earlier one.
  have hcapture (params : Params) (hnew : ∀ name ∈ names, name ∉ Fields.names params) :
      captureParams ((names.map fun name => ((⟨name, '/', false⟩ : Slot),
          some (String.ofList (encoding name)))).map (·.1))
        ((names.map fun name => ((⟨name, '/', false⟩ : Slot),
          some (String.ofList (encoding name)))).map (·.2)) params =
        .ok (params ++ names.map fun name => (name, .text (value name))) := by
    induction names generalizing params with
    | nil => simp [captureParams]
    | cons name names ih =>
      obtain ⟨hname, hnodup⟩ := List.nodup_cons.mp hnodup
      obtain ⟨hencodes, hvalue⟩ := List.forall_mem_cons.mp hvalue
      obtain ⟨hfresh, hnew⟩ := List.forall_mem_cons.mp hnew
      have hhas : params.has name = false := by
        rw [Fields.has, (Fields.get?_eq_none_iff params name).mpr hfresh]
        rfl
      have hdecode : decodeText (String.ofList (encoding name)) = .ok (value name) := by
        rw [decodeText_eq, hencodes.percentDecode?_eq]
      have hrest := ih hnodup hvalue (params ++ [(name, .text (value name))]) (by
        intro other hother hmem
        rw [Fields.names, List.map_append, List.mem_append] at hmem
        rcases hmem with hmem | hmem
        · exact hnew other hother hmem
        · obtain rfl : other = name := by simpa using hmem
          exact hname hother)
      rw [List.append_assoc] at hrest
      simp only [List.map_cons, captureParams, hhas, hdecode, Bool.false_eq_true, ↓reduceIte,
        Fields.put_of_notMem hfresh]
      exact hrest
  exact hcapture [] fun name _ => List.not_mem_nil

/-! ## Matchers -/

/-- The matcher of a template of segments has the pattern of its route. -/
theorem Matcher.exists_ofTemplate_templateOf {parameters : Value}
    {given : Options.Given}
    (hdeclarations : Declarations.ofValue parameters = .ok declarations)
    (hoptions : Options.ofGiven given = .ok options) {route : Route} {contents : Contents}
    (h : Route.ofTemplate (String.ofList (templateOf segments)) declarations options =
      .ok (route, contents)) (collaborators : Collaborators) :
    ∃ m, (Matcher.ofTemplate (String.ofList (templateOf segments)) parameters given
        collaborators).outcome = .ok m ∧
      m.compiled = ⟨some route.pattern, contents.slots, contents.definitions⟩ ∧
      m.collaborators = collaborators := by
  have hslash : String.ofList (templateOf segments) ≠ "/" := by
    intro heq
    apply templateOf_ne_slash segments
    rw [← @String.toList_ofList (templateOf segments), heq]
    rfl
  have huniversal : isUniversal (String.ofList (templateOf segments)) options = false := by
    rw [isUniversal, beq_eq_false_iff_ne.mpr hslash, Bool.false_and]
  have hcompiled : (Compiled.ofTemplate (String.ofList (templateOf segments)) declarations
      options).outcome = .ok ⟨some route.pattern, contents.slots, contents.definitions⟩ := by
    rw [Compiled.ofTemplate, huniversal, h]
    rfl
  exact ⟨_, Matcher.outcome_ofTemplate hdeclarations hoptions hcompiled collaborators, rfl, rfl⟩

/-- A path that is built from segments matches their template as a whole, and the values are the
texts that were encoded, whether they are checked concurrently or not. -/
theorem Matcher.match?_pathOf {parameters : Value} {given : Options.Given}
    (hnodup : (segments.flatMap Segment.names).Nodup)
    (hdeclarations : Declarations.ofValue parameters = .ok declarations)
    (hoptions : Options.ofGiven given = .ok options)
    (hundeclared : ∀ name ∈ segments.flatMap Segment.names, declarations.describe name = .null)
    (hvalue : ∀ name ∈ segments.flatMap Segment.names,
      value name ≠ "" ∧ Text.Encodes (value name).toList (encoding name)) :
    ∃ m, (Matcher.ofTemplate (String.ofList (templateOf segments)) parameters given
        .standard).outcome = .ok m ∧
      (m.match? (String.ofList (pathOf encoding segments))).outcome =
        .ok (some ⟨String.ofList (pathOf encoding segments), paramsOf value segments⟩) ∧
      ∀ group, (m.matchConcurrently? (String.ofList (pathOf encoding segments)) group).outcome =
        .ok (some ⟨String.ofList (pathOf encoding segments), paramsOf value segments⟩) := by
  have hencoding : ∀ name ∈ segments.flatMap Segment.names,
      encoding name ≠ [] ∧ '/' ∉ encoding name := by
    intro name hname
    obtain ⟨hne, hencodes⟩ := hvalue name hname
    exact ⟨hencodes.ne_nil fun hnil => hne (String.toList_eq_nil_iff.mp hnil),
      hencodes.slash_notMem⟩
  obtain ⟨route, contents, hroute⟩ := exists_route_templateOf hundeclared options
  obtain ⟨m, hm, hcompiled, hcollaborators⟩ :=
    Matcher.exists_ofTemplate_templateOf hdeclarations hoptions hroute .standard
  have hplain := arePlain_definitions hroute hundeclared
  have htexts : ∀ name v, (name, v) ∈ paramsOf value segments → ∃ text, v = .text text := by
    intro name v hmem
    obtain ⟨name', -, heq⟩ := List.mem_map.mp hmem
    exact ⟨value name', (Prod.mk.inj heq).2.symm⟩
  have htake : (m.takeApart (String.ofList (pathOf encoding segments))).outcome =
      .ok (some (String.ofList (pathOf encoding segments), paramsOf value segments)) := by
    obtain ⟨found, hfound, hpath, hslots, hgroups⟩ := find?_pathOf hroute hundeclared hencoding
    have hcapture := captureParams_takenFrom hnodup fun name hname => (hvalue name hname).2
    rw [← hslots, ← hgroups] at hcapture
    simp only [Matcher.takeApart, hcompiled, hfound, hcollaborators, Run.outcome_bind,
      Run.ofExcept, hcapture, Except.bind, Collaborators.chosenSanitizer, Collaborators.standard,
      Option.getD_none, standardSanitizer, hplain.convert_eq, hpath, Run.outcome_pure]
  refine ⟨m, hm, ?_, fun group => ?_⟩
  · obtain ⟨verdict, hverdict, hconforms⟩ := hplain.exists_ofParams htexts
    rw [Matcher.match?, hcollaborators]
    refine matchWith_of_conforms htake ?_ hconforms
    rw [hcompiled]
    exact hverdict
  · obtain ⟨verdict, hverdict, hconforms⟩ :=
      hplain.exists_validateConcurrently (names_paramsOf value segments ▸ hnodup) htexts group
    rw [Matcher.matchConcurrently?, hcollaborators]
    refine matchWith_of_conforms htake ?_ hconforms
    rw [hcompiled]
    exact hverdict

/-- An escaped slash stays within its segment, and hexadecimal digits may be in either case. -/
theorem Matcher.match?_escaped_slash :
    ∃ m, (Matcher.ofTemplate "/a.b/{x}" .null (.described (.mapping [("end", .bool false)]))
        .standard).outcome = .ok m ∧
      (m.match? "/a.b/%c3%A9%2Fz").outcome =
        .ok (some ⟨"/a.b/%c3%A9%2Fz", [("x", .text "é/z")]⟩) ∧
      ∀ group, (m.matchConcurrently? "/a.b/%c3%A9%2Fz" group).outcome =
        .ok (some ⟨"/a.b/%c3%A9%2Fz", [("x", .text "é/z")]⟩) := by
  have hscan : scan ['a', '.', 'b'] = [.plain 'a', .special '.', .plain 'b'] := by decide +kernel
  have hencodes : Text.Encodes ['é', '/', 'z'] "%c3%A9%2Fz".toList := by
    have hfirst : Text.Escapes (String.utf8EncodeChar 'é') ['%', 'c', '3', '%', 'A', '9'] :=
      .cons (by decide) (.cons (by decide) .nil)
    have hslash : Text.Escapes (String.utf8EncodeChar '/') ['%', '2', 'F'] :=
      .cons (by decide) .nil
    exact .escaped hfirst (.escaped hslash (.raw (by decide) (by decide) .nil))
  exact @Matcher.match?_pathOf
    [.literal ['a', '.', 'b'] (by simp) (by decide) (by simp [hscan]),
      .reference ['x'] "x" ⟨by simp, by decide +kernel⟩ (by decide +kernel)]
    [] ⟨false, false, false⟩ (fun _ => "é/z") (fun _ => "%c3%A9%2Fz".toList) .null
    (.described (.mapping [("end", .bool false)])) (List.nodup_singleton "x") rfl rfl
    (fun _ _ => rfl) (fun _ _ => ⟨by decide, hencodes⟩)

end RouteTemplate
