/-
# Compiling templates

A compiled template matches a path from its start and gives the text of each reference. The
template that consists of a slash and need not reach the end of a path matches every path, and
needs no regular expression.

## Main definitions

* `Compiled` — the route of a template, its slots and the definitions of its parameters
* `Compiled.ofTemplate` — compiles a template
* `Compiled.find?` — the part of a path that matches, and the texts of the references
-/

import RouteTemplate.Matching.Event
import RouteTemplate.Regex.Match
import RouteTemplate.Template.Route

namespace RouteTemplate

/-- A route together with its regular expression. -/
structure Pattern where
  text : String
  ignoresCase : Bool
  regex : Regex
  deriving DecidableEq, Repr

/-- The pattern of a route. -/
def Template.Route.pattern (route : Template.Route) : Pattern :=
  ⟨route.text, !route.options.sensitive, route.regex⟩

/-- A compiled template. One that matches every path has no pattern. -/
structure Compiled where
  pattern : Option Pattern
  slots : List Slot
  definitions : Definitions

/-- The template matches every path under the options. -/
def isUniversal (template : String) (options : Options) : Bool :=
  template == "/" && !options.toEnd

/-- Compiles a template. -/
def Compiled.ofTemplate (template : String) (declarations : Declarations) (options : Options) :
    Run Compiled :=
  if isUniversal template options then do
    Run.write (.universal template)
    return ⟨none, [], []⟩
  else do
    let (route, contents) ← Run.ofExcept (Template.Route.ofTemplate template declarations options)
    Run.write (.compiled template route.text)
    return ⟨some route.pattern, contents.slots, contents.definitions⟩

/-- A match: the part of the path that is taken, and the texts of the groups in order, absent for
a group that took no part. -/
structure Found where
  path : String
  groups : List (Option String)
  deriving DecidableEq, Repr

/-- The match at the start of a path. -/
def Pattern.find? (pattern : Pattern) (groupCount : Nat) (path : String) : Option Found :=
  (pattern.regex.matchStart path.toList).map fun p =>
    { path := String.ofList p.before.reverse
      groups := (List.range groupCount).map fun i =>
        (p.captured? (i + 1)).map String.ofList }

end RouteTemplate
