/-
# Paths with and without a slash at the end

Unless a match is strict, a slash that is added to a path changes nothing but the path: it matches
with the same values. The exception is a template that takes the slash itself, in one of the ways
that `Piece.MayTakeSlash` lists.

## Main results

* `Route.find?_concat_slash` — the groups of a match are the same with the slash
* `Matcher.match?_concat_slash` — so are the values
* `Matcher.match?_concat_slash_ne` — a reference after a point takes the slash
-/

import RouteTemplate.Proofs.Matching.Agreement
import RouteTemplate.Proofs.Matching.Compilation
import RouteTemplate.Proofs.Template.FinalSlash

namespace RouteTemplate

open Template

variable {template : String} {declarations : Declarations} {options : Options}

/-- A text that does not end with a character has no suffix of this character alone. -/
private theorem not_suffix_of_getLast?_ne {text : List Char} {c : Char}
    (h : text.getLast? ≠ some c) : ¬ [c] <:+ text := by
  rintro ⟨rest, rfl⟩
  exact h List.getLast?_concat

/-- With a slash at its end, a path is matched with the same groups, unless the template takes the
slash itself. -/
theorem Template.Route.find?_concat_slash {route : Route} {contents : Contents}
    (h : Route.ofTemplate template declarations options = .ok (route, contents))
    (hend : options.toEnd = true) (hstrict : options.strict = false) {path : String}
    (hpath : path.toList.getLast? ≠ some '/') {found : Found}
    (hfound : route.pattern.find? contents.slots.length path = some found) :
    found.path = path ∧
      ∃ found', route.pattern.find? contents.slots.length (path ++ "/") = some found' ∧
        found'.path = path ++ "/" ∧
        (found'.groups = found.groups ∨
          TakesFinalSlash options.sensitive declarations (scan (bodyText template.toList options))
            (contents.slots.zip found'.groups) path.toList) := by
  have hslash : (path ++ "/").toList = path.toList ++ ['/'] := String.toList_append
  obtain ⟨q, hq, rfl⟩ := Pattern.find?_eq_some_iff.mp hfound
  obtain ⟨hbefore, q', hq', hbefore', hsame⟩ :=
    Route.matchStart_concat_slash h hend hstrict (not_suffix_of_getLast?_ne hpath) hq
  rw [← hslash] at hq' hbefore'
  refine ⟨by rw [hbefore, String.ofList_toList], _, Pattern.find?_eq_some_iff.mpr ⟨q', hq', rfl⟩,
    by rw [hbefore', String.ofList_toList], ?_⟩
  refine hsame.imp_left fun hsame => ?_
  exact List.map_congr_left fun i _ => by rw [hsame]

namespace Matcher

/-- A path that matches does so with a slash at its end, too, and gives the same values, unless the
template takes the slash itself. -/
theorem match?_concat_slash {m : Matcher} {parameters : Value} {given : Options.Given}
    {collaborators : Collaborators}
    (hm : (Matcher.ofTemplate template parameters given collaborators).outcome = .ok m)
    (hend : m.options.toEnd = true) (hstrict : m.options.strict = false) {path : String}
    (hpath : path.toList.getLast? ≠ some '/') {matched : String} {params : Params}
    (hmatch : (m.match? path).outcome = .ok (some ⟨matched, params⟩)) :
    matched = path ∧
      ((m.match? (path ++ "/")).outcome = .ok (some ⟨path ++ "/", params⟩) ∨
        ∃ pattern found, m.compiled.pattern = some pattern ∧
          pattern.find? m.compiled.slots.length (path ++ "/") = some found ∧
          TakesFinalSlash m.options.sensitive m.declarations
            (scan (bodyText template.toList m.options)) (m.compiled.slots.zip found.groups)
            path.toList) := by
  obtain ⟨declarations, options, compiled, -, -, hcompiled, rfl⟩ := Matcher.exists_of_ofTemplate hm
  rcases Compiled.universal_or_exists_route hcompiled with
    ⟨huniversal, -⟩ | ⟨route, contents, hroute, rfl⟩
  · -- Only a template that leaves the end of a path open matches every path.
    have hend : options.toEnd = true := hend
    exact absurd huniversal (by simp [isUniversal, hend])
  obtain ⟨htake, hdecision⟩ := (outcome_matchWith_eq_some_iff _).mp hmatch
  rcases Matcher.exists_of_takeApart htake with ⟨hnone, -, -⟩ |
    ⟨pattern, found, captured, hsome, hfind, hcapture, hsanitize, rfl⟩
  · exact absurd hnone (by simp)
  · obtain rfl := Option.some.inj hsome
    obtain ⟨hwhole, found', hfind', hpath', hsame⟩ :=
      Route.find?_concat_slash hroute hend hstrict hpath hfind
    refine ⟨hwhole, ?_⟩
    rcases hsame with hgroups | htakes
    · left
      refine (outcome_matchWith_eq_some_iff _).mpr ⟨?_, hdecision⟩
      rw [outcome_takeApart_of_pattern rfl, hfind']
      dsimp only
      rw [hgroups, hcapture, hpath']
      dsimp only [Except.bind]
      rw [hsanitize]
      rfl
    · exact .inr ⟨_, found', rfl, hfind', htakes⟩

/-- A reference that spans segments after a slash leaves a slash at the end of a path. -/
theorem match?_concat_slash_of_spanning :
    ∃ m, (Matcher.ofTemplate "/files/{+file}" .null .none .standard).outcome = .ok m ∧
      m.options.toEnd = true ∧ m.options.strict = false ∧
      "/files/a/b".toList.getLast? ≠ some '/' ∧
      (m.match? "/files/a/b").outcome = .ok (some ⟨"/files/a/b", [("file", .text "a/b")]⟩) ∧
      "/files/a/b" = "/files/a/b" ∧
      ((m.match? ("/files/a/b" ++ "/")).outcome =
          .ok (some ⟨"/files/a/b" ++ "/", [("file", .text "a/b")]⟩) ∨
        ∃ pattern found, m.compiled.pattern = some pattern ∧
          pattern.find? m.compiled.slots.length ("/files/a/b" ++ "/") = some found ∧
          TakesFinalSlash m.options.sensitive m.declarations
            (scan (bodyText "/files/{+file}".toList m.options))
            (m.compiled.slots.zip found.groups) "/files/a/b".toList) := by
  have hmatcher : ∃ m, (Matcher.ofTemplate "/files/{+file}" .null .none .standard).outcome = .ok m ∧
      m.options = .standard ∧
      (m.match? "/files/a/b").outcome = .ok (some ⟨"/files/a/b", [("file", .text "a/b")]⟩) :=
    ⟨_, rfl, rfl, rfl⟩
  obtain ⟨m, hm, hoptions, hmatch⟩ := hmatcher
  have hend : m.options.toEnd = true := by rw [hoptions]; rfl
  have hstrict : m.options.strict = false := by rw [hoptions]; rfl
  have hpath : "/files/a/b".toList.getLast? ≠ some '/' := by decide
  exact ⟨m, hm, hend, hstrict, hpath, hmatch, match?_concat_slash hm hend hstrict hpath hmatch⟩

/-- A reference after a point takes a slash at the end of a path, so its value changes. -/
theorem match?_concat_slash_ne :
    ∃ m, (Matcher.ofTemplate "/a.{ext}" .null .none .standard).outcome = .ok m ∧
      m.options.toEnd = true ∧ m.options.strict = false ∧
      "/a.json".toList.getLast? ≠ some '/' ∧
      (m.match? "/a.json").outcome = .ok (some ⟨"/a.json", [("ext", .text "json")]⟩) ∧
      (m.match? ("/a.json" ++ "/")).outcome =
        .ok (some ⟨"/a.json" ++ "/", [("ext", .text "json/")]⟩) :=
  ⟨_, rfl, rfl, rfl, by decide, rfl, rfl⟩

end Matcher

end RouteTemplate
