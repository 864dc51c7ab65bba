/-
# Templates that end with a slash

A slash that ends a template is a mark of its own, for no reference ends with one. The route of the
template is therefore that of what precedes the slash, with the slash as its last part, and the text
of its parts ends with the slash and the backslash that escapes it. These are the two characters
that are left out when the slash need not match.

## Main definitions

* `Route.withSlash` — a route with a slash at its end
* `Route.partsText` — the text of the parts of a route

## Main results

* `Route.ofTemplate_append_slash` — the route of a template that ends with a slash
* `Route.text_withSlash` — its text
* `divides_iff_and_text_append_slash` — the marks of a template, and what a slash at its end becomes
-/

import RouteTemplate.Proofs.Template.MarkExpression
import RouteTemplate.Proofs.Template.Resolution

namespace RouteTemplate.Template

/-- What a template refers to when a slash is added at its end. -/
def Contents.withSlash (contents : Contents) : Contents :=
  { contents with parts := contents.parts ++ [.special '/'] }

theorem resolvePieces_concat_slash (declarations : Declarations) (pieces : List Piece)
    (used : Fields (Definition Value)) :
    resolvePieces declarations (pieces ++ [.special '/']) used =
      (resolvePieces declarations pieces used).map Contents.withSlash := by
  -- The slash is resolved last, and no piece before it depends on it.
  induction pieces generalizing used with
  | nil => rfl
  | cons piece pieces ih =>
    cases piece with
    | special c =>
      rw [List.cons_append, resolvePieces, resolvePieces, ih]
      cases resolvePieces declarations pieces used <;> rfl
    | plain c =>
      rw [List.cons_append, resolvePieces, resolvePieces, ih]
      cases resolvePieces declarations pieces used <;> rfl
    | reference r =>
      rw [List.cons_append, resolvePieces, resolvePieces]
      cases decodeText (String.ofList r.rawName) with
      | error fault => rfl
      | ok name =>
        dsimp only [bind, Except.bind]
        cases definitionFor declarations name used with
        | error fault => rfl
        | ok definition =>
          dsimp only
          rw [ih]
          cases resolvePieces declarations pieces (used.put name definition) <;> rfl

namespace Route

/-- The route with a slash at its end. -/
def withSlash (route : Route) : Route :=
  ⟨route.parts ++ [.special '/'], true, route.options⟩

/-- The text of all parts, also of a slash at the end that need not match. -/
def partsText (route : Route) : String :=
  String.join (route.parts.map partText)

/-- The route of a template that ends with a slash is that of what precedes the slash, with the
slash at its end. -/
theorem ofTemplate_append_slash (template : String) (declarations : Declarations)
    (options : Options) :
    ofTemplate (template ++ "/") declarations options =
      (ofTemplate template declarations options).map fun found =>
        (found.1.withSlash, found.2.withSlash) := by
  have hchars : (template ++ "/").toList = template.toList ++ ['/'] := String.toList_append
  have hlast : ((template ++ "/").toList.getLast? == some '/') = true := by simp [hchars]
  rw [ofTemplate, hlast, hchars, scan_concat_slash, resolvePieces_concat_slash, ofTemplate]
  cases resolvePieces declarations (scan template.toList) [] <;> rfl

/-- The text of the parts ends with the escape of the slash. -/
theorem partsText_withSlash (route : Route) :
    route.withSlash.partsText = route.partsText ++ "\\/" := by
  rw [partsText, withSlash, List.map_append, String.join_append]
  rfl

/-- Unless the route is strict, the escape of the slash is left out of the text. -/
theorem text_withSlash (route : Route) :
    route.withSlash.text = "^" ++
      (if route.options.strict then route.withSlash.partsText else route.partsText) ++
      route.withSlash.endText := by
  have hrequired : route.withSlash.required =
      if route.options.strict then route.withSlash.parts else route.parts := by
    rw [required, withSlash, List.dropLast_concat]
    cases route.options.strict <;> rfl
  rw [text, hrequired]
  cases route.options.strict <;> rfl

end Route

/-- The expression for references and special characters finds the marks of a template, each at its
place and with its parts in groups; they divide the template, and nothing else does. A slash that
ends a template is a mark of its own, and the template has a route when it has one without this
slash. The text of the parts ends with the escape of the slash, which follows the text for what
precedes the slash, and unless the route is strict this escape is what it leaves out. -/
theorem divides_iff_and_text_append_slash (template : String) :
    (∃ e, Regex.parse [] markText = .ok e ∧
      (Regex.findAll e template.toList).map rowOf =
        (marks template.toList).map fun m => (m.1, stop m, m.2.groups)) ∧
    (∀ found, Divides template.toList found ↔ found = marks template.toList) ∧
    ∀ body, template = body ++ "/" →
      (body.toList.length, .special '/') ∈ marks template.toList ∧
      ∀ declarations options,
        match Route.ofTemplate body declarations options with
        | .error fault => Route.ofTemplate template declarations options = .error fault
        | .ok (route, contents) => ∃ route' contents',
          Route.ofTemplate template declarations options = .ok (route', contents') ∧
          contents'.slots = contents.slots ∧
          route'.partsText = route.partsText ++ "\\/" ∧
          route'.text = "^" ++ (if options.strict then route'.partsText else route.partsText) ++
            route'.endText := by
  refine ⟨⟨markRegex, parse_markText, findAll_markRegex template.toList⟩, fun found => ?_, ?_⟩
  · constructor
    · intro h
      exact h.eq (divides_marks template.toList)
    · rintro rfl
      exact divides_marks template.toList
  · rintro body rfl
    refine ⟨?_, fun declarations options => ?_⟩
    · rw [String.toList_append]
      refine mem_marks_iff.mpr ⟨⟨scan body.toList, [], scan_concat_slash body.toList, ?_⟩, rfl⟩
      rw [flatMap_chars_scan]
    · have hslash := Route.ofTemplate_append_slash body declarations options
      cases hbody : Route.ofTemplate body declarations options with
      | error fault => rw [hslash, hbody]; rfl
      | ok found =>
        obtain ⟨route, contents⟩ := found
        refine ⟨route.withSlash, contents.withSlash, by rw [hslash, hbody]; rfl, rfl,
          route.partsText_withSlash, ?_⟩
        obtain ⟨-, rfl⟩ := Route.ofTemplate_eq_ok_iff.mp hbody
        exact Route.text_withSlash _

/-- A brace before a reference is a mark of its own, a point before braces belongs to the reference,
and the slash at the end is left out with the backslash before it. -/
theorem divides_iff_and_text_append_slash_braces :
    "/\x7b\x7bx\x7d.\x7b+y%2F\x7d/" = "/\x7b\x7bx\x7d.\x7b+y%2F\x7d" ++ "/" ∧
    marks "/\x7b\x7bx\x7d.\x7b+y%2F\x7d/".toList =
      [(0, .special '/'), (1, .special openBrace), (2, .reference ⟨none, false, ['x']⟩),
        (5, .reference ⟨some '.', true, ['y', '%', '2', 'F']⟩), (13, .special '/')] ∧
    Divides "/\x7b\x7bx\x7d.\x7b+y%2F\x7d/".toList
      (marks "/\x7b\x7bx\x7d.\x7b+y%2F\x7d/".toList) ∧
    ∃ route contents, Route.ofTemplate "/\x7b\x7bx\x7d.\x7b+y%2F\x7d/" [] .standard =
        .ok (route, contents) ∧
      contents.slots = [⟨"x", '/', false⟩, ⟨"y/", '.', true⟩] ∧
      route.partsText = "\\/\\\x7b([^/]+)\\.(.+?)" ++ "\\/" ∧
      route.text = "^" ++ "\\/\\\x7b([^/]+)\\.(.+?)" ++ route.endText := by
  have h : Route.ofTemplate "/\x7b\x7bx\x7d.\x7b+y%2F\x7d" [] .standard =
      .ok (⟨[.special '/', .special openBrace, .reference none false (.plain "x"),
          .reference (some '.') true (.plain "y/")], false, .standard⟩,
        ⟨[.special '/', .special openBrace, .reference none false (.plain "x"),
          .reference (some '.') true (.plain "y/")],
          [⟨"x", '/', false⟩, ⟨"y/", '.', true⟩],
          [("x", .plain "x"), ("y/", .plain "y/")]⟩) := rfl
  obtain ⟨-, hdivides, hslash⟩ :=
    divides_iff_and_text_append_slash "/\x7b\x7bx\x7d.\x7b+y%2F\x7d/"
  have htext := (hslash "/\x7b\x7bx\x7d.\x7b+y%2F\x7d" rfl).2 [] .standard
  rw [h] at htext
  obtain ⟨route, contents, hroute, hslots, hparts, htext⟩ := htext
  exact ⟨rfl, by decide +kernel, (hdivides _).mpr rfl, route, contents, hroute, hslots, hparts,
    htext⟩

end RouteTemplate.Template
