/-
# Where a match ends

A match takes a beginning of the path. What it leaves is nothing or begins with a slash, unless a
slash that counts ends the template: then the match itself ends with a slash. So the part of the
path that a match reports can serve as the place from which further templates are matched.

## Main definitions

* `Matcher.Takes` — how the path is divided by a match

## Main results

* `Matcher.exists_takes` — a match divides the path
* `Matcher.Takes.getLast?_eq_slash` — a match of a template whose slash counts ends with a slash
* `Matcher.path_eq_of_match?` — what a match reports, and what it leaves
-/

import RouteTemplate.Proofs.Matching.Agreement
import RouteTemplate.Proofs.Matching.Reaching
import RouteTemplate.Proofs.Template.Segments

namespace RouteTemplate

open Template

namespace Matcher

variable {m : Matcher} {path matched : String} {taken : Taken} {u slash rest : List Char}

/-- How a match divides a path: it takes a text that fits the body of the template and, unless it
is strict, a slash that ends the path. The rest is left. -/
structure Takes (m : Matcher) (path matched : String) (taken : Taken)
    (u slash rest : List Char) : Prop where
  path_eq : path.toList = u ++ slash ++ rest
  matched_eq : matched.toList = u ++ slash
  fits : Fits (captureLanguage m.options.sensitive) m.options.sensitive m.declarations
    (scan (bodyText m.template.toList m.options)) taken u
  slash_eq : slash = [] ∨ (m.options.strict = false ∧ slash = ['/'] ∧ rest = [])
  rest_eq : if m.options.toEnd then rest = []
    else rest = [] ∨ rest.head? = some '/' ∨
      (m.options.strict = true ∧ m.template.toList.getLast? = some '/')

/-- Where the pattern of a matcher matches, it divides the path. -/
theorem exists_takes (h : m.Reachable) {pattern : Pattern}
    (hpattern : m.compiled.pattern = some pattern) {found : Found}
    (hfound : pattern.find? m.compiled.slots.length path = some found) :
    ∃ u slash rest,
      m.Takes path found.path (m.compiled.slots.zip found.groups) u slash rest := by
  obtain ⟨route, contents, hroute, rfl, hcompiled⟩ :=
    Compiled.exists_route h.compiled_eq hpattern
  obtain ⟨q, hq, hpath, hgroups⟩ := Pattern.exists_of_find?_eq_some hfound
  obtain ⟨u, slash, hfits, hslash, hsplit, hbefore, hends⟩ :=
    Route.fits_of_mem_outcomes_regex hroute hq
  obtain ⟨hoptions, hendsWithSlash⟩ := Route.options_of_ofTemplate hroute
  refine ⟨u, slash, q.after, hsplit, hpath.trans hbefore, ?_, hslash, ?_⟩
  · rw [hgroups, hcompiled]
    exact hfits
  · rwa [Route.EndsBefore, hoptions, hendsWithSlash, beq_iff_eq] at hends

/-- A match that need not reach the end leaves a rest that begins with a slash, if any, unless the
slash that ends the template counts. -/
theorem Takes.rest_eq_nil_or_head? (h : m.Takes path matched taken u slash rest)
    (hcounts : ¬ (m.options.strict = true ∧ m.template.toList.getLast? = some '/')) :
    rest = [] ∨ rest.head? = some '/' := by
  have hrest := h.rest_eq
  split at hrest
  · exact .inl hrest
  · rwa [or_iff_left hcounts] at hrest

/-- When the slash that ends a template counts, a match ends with a slash. -/
theorem Takes.getLast?_eq_slash (h : m.Takes path matched taken u slash rest)
    (hstrict : m.options.strict = true) (htemplate : m.template.toList.getLast? = some '/') :
    matched.toList.getLast? = some '/' := by
  obtain ⟨body, hbody⟩ := List.getLast?_eq_some_iff.mp htemplate
  have hfits := h.fits
  -- All of the template must match, and a piece of its own matches the slash.
  rw [bodyText, hstrict, hbody, Bool.not_true, Bool.false_and, if_neg Bool.false_ne_true,
    scan_concat_slash] at hfits
  obtain ⟨_, _, v, w, -, rfl, -, hlast⟩ := hfits.exists_of_append
  cases hlast with
  | @special _ d _ _ _ hletter hnil =>
    cases hnil
    obtain rfl := sameLetter_slash hletter.symm
    have hslash : slash = [] := by simpa [hstrict] using h.slash_eq
    rw [h.matched_eq, hslash, List.append_nil, List.getLast?_concat]

/-- The part of the path that a match reports is a beginning of the path. It is the whole path when
the match must reach the end. Otherwise what is left is empty or begins with a slash, or, if a slash
that counts ends the template, the part that is reported ends with a slash. -/
theorem path_eq_of_match? (hm : m.Reachable)
    (huniversal : isUniversal m.template m.options = false) {result : Match}
    (hmatch : (m.match? path).outcome = .ok (some result) ∨
      ∃ group, (m.matchConcurrently? path group).outcome = .ok (some result)) :
    ∃ rest, path = result.path ++ rest ∧
      (m.options.toEnd = true → result.path = path) ∧
      (m.options.toEnd = false →
        ¬ (m.options.strict = true ∧ m.template.toList.getLast? = some '/') →
          rest = "" ∨ rest.toList.head? = some '/') ∧
      (m.options.toEnd = false → m.options.strict = true →
        m.template.toList.getLast? = some '/' → result.path.toList.getLast? = some '/') := by
  obtain ⟨matched, params⟩ := result
  have htake : (m.takeApart path).outcome = .ok (some (matched, params)) := by
    rcases hmatch with hmatch | ⟨group, hmatch⟩
    · exact ((outcome_matchWith_eq_some_iff _).mp hmatch).1
    · exact ((outcome_matchWith_eq_some_iff _).mp hmatch).1
  rcases exists_of_takeApart htake with ⟨hnone, -, -⟩ |
    ⟨pattern, found, captured, hsome, hfind, -, -, rfl⟩
  · obtain ⟨hall, -⟩ := Compiled.universal_of_pattern_eq_none hm.compiled_eq hnone
    exact absurd (huniversal.symm.trans hall) Bool.false_ne_true
  obtain ⟨u, slash, rest, htakes⟩ := exists_takes hm hsome hfind
  have hpath : path = found.path ++ String.ofList rest := by
    rw [← String.toList_inj, String.toList_append, String.toList_ofList, htakes.matched_eq,
      htakes.path_eq]
  refine ⟨String.ofList rest, hpath, ?_, ?_, ?_⟩
  · intro hend
    have hrest : rest = [] := by simpa [hend] using htakes.rest_eq
    rw [hpath, hrest]
    exact String.append_empty.symm
  · intro _ hcounts
    refine (htakes.rest_eq_nil_or_head? hcounts).imp ?_ ?_
    · rintro rfl
      rfl
    · rw [String.toList_ofList]
      exact id
  · intro _ hstrict htemplate
    exact htakes.getLast?_eq_slash hstrict htemplate

/-- A template that need not reach the end of the path takes the segments that it spells, and leaves
the others. -/
theorem path_eq_of_match?_prefix :
    ∃ (m : Matcher) (result : Match), m.Reachable ∧ isUniversal m.template m.options = false ∧
      ((m.match? "/users/7/posts").outcome = .ok (some result) ∨
        ∃ group, (m.matchConcurrently? "/users/7/posts" group).outcome = .ok (some result)) ∧
      ∃ rest, "/users/7/posts" = result.path ++ rest ∧
        (m.options.toEnd = true → result.path = "/users/7/posts") ∧
        (m.options.toEnd = false →
          ¬ (m.options.strict = true ∧ m.template.toList.getLast? = some '/') →
            rest = "" ∨ rest.toList.head? = some '/') ∧
        (m.options.toEnd = false → m.options.strict = true →
          m.template.toList.getLast? = some '/' → result.path.toList.getLast? = some '/') := by
  have hmatcher : ∃ m, (Matcher.ofTemplate "/users/{id}" .null
        (.described (.mapping [("end", .bool false)])) .standard).outcome = .ok m ∧
      isUniversal m.template m.options = false ∧
      (m.match? "/users/7/posts").outcome = .ok (some ⟨"/users/7", [("id", .text "7")]⟩) :=
    ⟨_, rfl, by decide +kernel, rfl⟩
  obtain ⟨m, hm, huniversal, hmatch⟩ := hmatcher
  exact ⟨m, _, .ofTemplate hm, huniversal, .inl hmatch,
    path_eq_of_match? (.ofTemplate hm) huniversal (.inl hmatch)⟩

end Matcher

end RouteTemplate
