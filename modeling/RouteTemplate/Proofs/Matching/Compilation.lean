/-
# What compiled templates match

A compiled template matches a path exactly when the path begins with a text that fits the template
and goes on as the options allow. The groups of a match pair each reference with its own text.

## Main results

* `Compiled.isSome_find?_iff` — the paths that a compiled template matches
* `Route.fits_of_find?_eq_some` — the groups of a match are what the references take
-/

import RouteTemplate.Matching.Compilation
import RouteTemplate.Proofs.Template.Fitting
import RouteTemplate.Proofs.Template.RouteText

namespace RouteTemplate

open Template

variable {template : String} {declarations : Declarations} {options : Options}

/-! ## Matches -/

theorem Pattern.isSome_find?_iff_exists_outcome {pattern : Pattern} {groupCount : Nat}
    {path : String} :
    (pattern.find? groupCount path).isSome ↔
      ∃ q, q ∈ pattern.regex.outcomes (Regex.Cursor.start path.toList) := by
  rw [find?, Option.isSome_map, Regex.isSome_matchStart_iff]

/-- A match is where the expression matches: its path is what was passed, and its groups are what
the capture groups hold. -/
theorem Pattern.find?_eq_some_iff {pattern : Pattern} {groupCount : Nat} {path : String}
    {found : Found} :
    pattern.find? groupCount path = some found ↔
      ∃ q, pattern.regex.matchStart path.toList = some q ∧
        found = ⟨String.ofList q.before.reverse, q.groupsFrom 1 groupCount⟩ := by
  have hgroups (q : Regex.Cursor) : (List.range groupCount).map (fun i =>
      (q.captured? (i + 1)).map String.ofList) = q.groupsFrom 1 groupCount := by
    rw [Regex.Cursor.groupsFrom, List.range'_eq_map_range, List.map_map]
    exact List.map_congr_left fun i _ => by rw [Function.comp_apply, Nat.add_comm]
  rw [find?, Option.map_eq_some_iff]
  exact exists_congr fun q => and_congr_right fun _ => by rw [hgroups, eq_comm]

/-- A match is an outcome of the expression. -/
theorem Pattern.exists_of_find?_eq_some {pattern : Pattern} {groupCount : Nat} {path : String}
    {found : Found} (h : pattern.find? groupCount path = some found) :
    ∃ q ∈ pattern.regex.outcomes (Regex.Cursor.start path.toList),
      found.path.toList = q.before.reverse ∧ found.groups = q.groupsFrom 1 groupCount := by
  obtain ⟨q, hq, rfl⟩ := Pattern.find?_eq_some_iff.mp h
  exact ⟨q, Regex.mem_outcomes_of_matchStart hq, String.toList_ofList, rfl⟩

/-- A template that matches every path is compiled to nothing, and any other one to the pattern, the
slots and the definitions of its route. -/
theorem Compiled.universal_or_exists_route {compiled : Compiled}
    (h : (Compiled.ofTemplate template declarations options).outcome = .ok compiled) :
    (isUniversal template options = true ∧ compiled = ⟨none, [], []⟩) ∨
      ∃ route contents, Route.ofTemplate template declarations options = .ok (route, contents) ∧
        compiled = ⟨some route.pattern, contents.slots, contents.definitions⟩ := by
  rw [Compiled.ofTemplate] at h
  split at h
  · rename_i huniversal
    exact .inl ⟨huniversal, (Except.ok.inj h).symm⟩
  · rw [Run.outcome_bind] at h
    obtain ⟨⟨route, contents⟩, hroute, h⟩ := Except.bind_eq_ok_iff.mp h
    exact .inr ⟨route, contents, hroute, (Except.ok.inj h).symm⟩

/-- Only a template that matches every path is compiled to no pattern. -/
theorem Compiled.universal_of_pattern_eq_none {compiled : Compiled}
    (h : (Compiled.ofTemplate template declarations options).outcome = .ok compiled)
    (hpattern : compiled.pattern = none) :
    isUniversal template options = true ∧ compiled = ⟨none, [], []⟩ := by
  refine (Compiled.universal_or_exists_route h).resolve_right ?_
  rintro ⟨route, contents, -, rfl⟩
  exact absurd hpattern (by simp)

/-- A compiled template with a pattern has the pattern, the slots and the definitions of its
route. -/
theorem Compiled.exists_route {compiled : Compiled} {pattern : Pattern}
    (h : (Compiled.ofTemplate template declarations options).outcome = .ok compiled)
    (hpattern : compiled.pattern = some pattern) :
    ∃ route contents, Route.ofTemplate template declarations options = .ok (route, contents) ∧
      pattern = route.pattern ∧ compiled = ⟨some route.pattern, contents.slots,
        contents.definitions⟩ := by
  rcases Compiled.universal_or_exists_route h with ⟨-, rfl⟩ | ⟨route, contents, hroute, rfl⟩
  · exact absurd hpattern (by simp)
  · exact ⟨route, contents, hroute, (Option.some.inj hpattern).symm, rfl⟩

/-! ## The paths that match -/

/-- The pattern of a compiled template is the expression that its text denotes, and it matches the
paths that begin with a text that fits the body of the template and go on as the options allow. -/
theorem Compiled.isSome_find?_iff {compiled : Compiled} {pattern : Pattern}
    (h : (Compiled.ofTemplate template declarations options).outcome = .ok compiled)
    (hpattern : compiled.pattern = some pattern) (path : String) :
    Regex.parse (flagsOf options.sensitive) pattern.text = .ok pattern.regex ∧
      ((pattern.find? compiled.slots.length path).isSome ↔
        ∃ u rest taken, path.toList = u ++ rest ∧
          Fits (captureLanguage options.sensitive) options.sensitive declarations
            (scan (bodyText template.toList options)) taken u ∧
          AllowedRest template.toList options rest) := by
  obtain ⟨route, contents, hroute, rfl, rfl⟩ := Compiled.exists_route h hpattern
  refine ⟨Route.parse_text hroute, ?_⟩
  rw [Pattern.isSome_find?_iff_exists_outcome]
  exact Route.exists_mem_outcomes_regex_iff hroute

/-- The pattern of a literal and a reference matches up to the case of the literal and up to the
slash at the end. -/
theorem Compiled.isSome_find?_literal_reference :
    ∃ compiled pattern,
      (Compiled.ofTemplate "/A{x}" [] .standard).outcome = .ok compiled ∧
      compiled.pattern = some pattern ∧ (pattern.find? compiled.slots.length "/aB/").isSome ∧
      Regex.parse (flagsOf false) pattern.text = .ok pattern.regex ∧
      ((pattern.find? compiled.slots.length "/aB/").isSome ↔
        ∃ u rest taken, "/aB/".toList = u ++ rest ∧
          Fits (captureLanguage false) false [] (scan (bodyText "/A{x}".toList .standard)) taken u ∧
          AllowedRest "/A{x}".toList .standard rest) := by
  have h : (Compiled.ofTemplate "/A{x}" [] .standard).outcome =
      .ok ⟨some (Route.pattern ⟨[.special '/', .plain 'A', .reference none false (.plain "x")],
        false, .standard⟩), [⟨"x", '/', false⟩], [("x", .plain "x")]⟩ := rfl
  exact ⟨_, _, h, rfl, by decide +kernel, Compiled.isSome_find?_iff h rfl "/aB/"⟩

/-- An enumeration without members has no member to match, yet the reference takes the empty
text. -/
theorem Compiled.isSome_find?_of_enum_nil :
    ∃ compiled pattern,
      (Compiled.ofTemplate "/{x}" [("x", .mapping [("enum", .list [])])] .standard).outcome =
        .ok compiled ∧
      compiled.pattern = some pattern ∧ (pattern.find? compiled.slots.length "/").isSome ∧
      ¬ ∃ u rest taken, "/".toList = u ++ rest ∧
        Fits (declaredLanguage false) false [("x", .mapping [("enum", .list [])])]
          (scan (bodyText "/{x}".toList .standard)) taken u ∧
        AllowedRest "/{x}".toList .standard rest := by
  refine ⟨_, _, rfl, rfl, by decide +kernel, ?_⟩
  rintro ⟨u, rest, taken, -, hfits, -⟩
  -- The template is one reference, which takes at least a slash.
  have hscan : scan (bodyText "/{x}".toList .standard) =
      [.reference ⟨some '/', false, ['x']⟩] := by decide +kernel
  have hdefinition {name : String} {definition : Definition Value}
      (h : Reference.RefersTo [("x", .mapping [("enum", .list [])])] ⟨some '/', false, ['x']⟩ name
        definition) : definition.required = true ∧ definition.constraints.enum = some [] := by
    have hx : Reference.RefersTo [("x", .mapping [("enum", .list [])])] ⟨some '/', false, ['x']⟩
        "x" ⟨"x", .string, true, { Constraints.none with enum := some [] }⟩ := ⟨rfl, rfl⟩
    obtain ⟨-, rfl⟩ := h.eq hx
    exact ⟨rfl, rfl⟩
  rw [hscan] at hfits
  cases hfits with
  | present hrefers htext hrest =>
    rw [declaredLanguage, (hdefinition hrefers).2] at htext
    obtain ⟨w, hw, -⟩ := htext
    exact List.not_mem_nil hw
  | absent hrefers hrequired hrest =>
    rw [(hdefinition hrefers).1] at hrequired
    exact Bool.false_ne_true hrequired.symm

/-! ## The groups of a match -/

/-- The text of a route is a regular expression with one group for each reference. Where it
matches, the groups are what the references take in the text that was passed, up to a slash at the
end unless the match is strict. -/
theorem Template.Route.fits_of_find?_eq_some {route : Route} {contents : Contents}
    (h : Route.ofTemplate template declarations options = .ok (route, contents)) :
    Regex.parse (flagsOf options.sensitive) route.text = .ok route.regex ∧
      route.regex.groupCount = contents.slots.length ∧
      ∀ path found, route.pattern.find? contents.slots.length path = some found →
        found.groups.length = contents.slots.length ∧
        ∃ u slash rest, path.toList = u ++ slash ++ rest ∧ found.path.toList = u ++ slash ∧
          (slash = [] ∨ (options.strict = false ∧ slash = ['/'])) ∧
          Fits (captureLanguage options.sensitive) options.sensitive declarations
            (scan (bodyText template.toList options)) (contents.slots.zip found.groups) u := by
  refine ⟨Route.parse_text h, Route.groupCount_regex h, fun path found hfound => ?_⟩
  obtain ⟨q, hq, hpath, hgroups⟩ := Pattern.exists_of_find?_eq_some hfound
  obtain ⟨u, slash, hu, hslash, hsplit, hbefore, -⟩ := Route.fits_of_mem_outcomes_regex h hq
  refine ⟨?_, u, slash, q.after, hsplit, hpath.trans hbefore, ?_, ?_⟩
  · rw [hgroups, Regex.Cursor.groupsFrom, List.length_map, List.length_range']
  · exact hslash.imp_right fun hslash => ⟨hslash.1, hslash.2.1⟩
  · rw [hgroups]
    exact hu

/-- The group of a reference that is left out is absent. -/
theorem Template.Route.fits_of_find?_optional_reference :
    ∃ route contents,
      Route.ofTemplate "/A{x}/{y}" [("y", .mapping [("required", .bool false)])] .standard =
        .ok (route, contents) ∧
      Regex.parse (flagsOf false) route.text = .ok route.regex ∧
      route.regex.groupCount = contents.slots.length ∧
      route.pattern.find? contents.slots.length "/aB/" = some ⟨"/aB/", [some "B", none]⟩ ∧
      ∃ u slash rest, "/aB/".toList = u ++ slash ++ rest ∧ "/aB/".toList = u ++ slash ∧
        (slash = [] ∨ (Options.standard.strict = false ∧ slash = ['/'])) ∧
        Fits (captureLanguage false) false [("y", .mapping [("required", .bool false)])]
          (scan (bodyText "/A{x}/{y}".toList .standard))
          (contents.slots.zip [some "B", none]) u := by
  have h : Route.ofTemplate "/A{x}/{y}" [("y", .mapping [("required", .bool false)])] .standard =
      .ok (⟨[.special '/', .plain 'A', .reference none false (.plain "x"),
          .reference (some '/') false ⟨"y", .string, false, .none⟩], false, .standard⟩,
        ⟨[.special '/', .plain 'A', .reference none false (.plain "x"),
          .reference (some '/') false ⟨"y", .string, false, .none⟩],
          [⟨"x", '/', false⟩, ⟨"y", '/', false⟩],
          [("x", .plain "x"), ("y", ⟨"y", .string, false, .none⟩)]⟩) := rfl
  obtain ⟨hparse, hcount, hfits⟩ := Route.fits_of_find?_eq_some h
  have hfind : Pattern.find? (Route.pattern ⟨[.special '/', .plain 'A',
      .reference none false (.plain "x"), .reference (some '/') false ⟨"y", .string, false, .none⟩],
      false, .standard⟩) 2 "/aB/" = some ⟨"/aB/", [some "B", none]⟩ := by decide +kernel
  exact ⟨_, _, h, hparse, hcount, hfind, (hfits _ _ hfind).2⟩

end RouteTemplate
