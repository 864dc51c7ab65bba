/-
# Matchers

A matcher matches paths against one template: it takes apart a path, decodes and converts what
the references capture, and checks the values. It is never changed; an update gives another
matcher, or none when it would change nothing that the template refers to.

## Main definitions

* `Matcher` — a compiled template with its collaborators
* `Matcher.ofTemplate` — the matcher of a template, and `Matcher.factory`, which reads the options
  once for any number of templates
* `Matcher.match?`, `Matcher.matchConcurrently?` — the values that a path gives, if it matches
* `Matcher.redeclare` — the matcher with further declarations
-/

import RouteTemplate.Matching.Compilation
import RouteTemplate.Matching.Concurrent

namespace RouteTemplate

/-- Turns the texts that were captured into values. -/
abbrev Sanitizer := Params → Definitions → Run Params

/-- Converts every parameter that has a definition to its type. -/
def standardSanitizer : Sanitizer :=
  fun params definitions => .ofExcept (Params.convert definitions params)

/-- Checks every parameter that has a definition. -/
def standardValidator : Validator :=
  fun params definitions => .ofExcept (Verdict.ofParams params definitions)

/-- The collaborators of a matcher, each of which may be left to the standard. -/
structure Collaborators where
  sanitizer : Option Sanitizer
  validator : Option Validator
  check : Option ConcurrentCheck

namespace Collaborators

/-- The standard collaborators. -/
def standard : Collaborators :=
  ⟨none, none, none⟩

/-- The sanitizer that is used. -/
def chosenSanitizer (c : Collaborators) : Sanitizer :=
  c.sanitizer.getD standardSanitizer

/-- The validator that is used. -/
def chosenValidator (c : Collaborators) : Validator :=
  c.validator.getD standardValidator

/-- The concurrent check that is used: without one of its own, the validator for one parameter at
a time. -/
def chosenCheck (c : Collaborators) : ConcurrentCheck :=
  match c.check, c.validator with
  | some check, _ => check
  | none, some validator => validator.toConcurrentCheck
  | none, none => standardCheck

end Collaborators

/-- A matcher for one template. -/
structure Matcher where
  template : String
  declarations : Declarations
  options : Options
  compiled : Compiled
  collaborators : Collaborators

/-- The result of a match: the part of the path that was taken, and the values of the
parameters. -/
structure Match where
  path : String
  params : Params
  deriving Repr

/-- The texts under the names of their slots, decoded. The first text under a name counts, and
later ones are not decoded. -/
def captureParams : List Slot → List (Option String) → Params → Except Fault Params
  | slot :: slots, group :: groups, params =>
    if params.has slot.name then captureParams slots groups params
    else do
      let v ← match group with
        | none => .ok Value.null
        | some text => (Template.decodeText text).map Value.text
      captureParams slots groups (params.put slot.name v)
  | _, _, params => .ok params

namespace Matcher

/-- The matcher of a template whose parameters are declared by name. -/
def build (template : String) (declarations : Declarations) (options : Options)
    (collaborators : Collaborators) : Run Matcher := do
  let compiled ← Compiled.ofTemplate template declarations options
  return ⟨template, declarations, options, compiled, collaborators⟩

/-- The matcher of a template. -/
def ofTemplate (template : String) (parameters : Value) (given : Options.Given)
    (collaborators : Collaborators) : Run Matcher := do
  let options ← Run.ofExcept (Options.ofGiven given)
  let declarations ← Run.ofExcept (Declarations.ofValue parameters)
  build template declarations options collaborators

/-- Reads options once, and makes the matchers of templates with these options. -/
def factory (given : Options.Given) (collaborators : Collaborators) :
    Except Fault (String → Value → Run Matcher) := do
  let options ← Options.ofGiven given
  return fun template parameters => ofTemplate template parameters (.fixed options) collaborators

/-- The part of a path that matches, and the values of the parameters. -/
def takeApart (m : Matcher) (path : String) : Run (Option (String × Params)) :=
  match m.compiled.pattern with
  | none => return some ("", [])
  | some pattern =>
    match pattern.find? m.compiled.slots.length path with
    | none => do
      Run.write (.unmatched path m.template)
      return none
    | some found => do
      let params ← Run.ofExcept (captureParams m.compiled.slots found.groups [])
      let params ← m.collaborators.chosenSanitizer params m.compiled.definitions
      return some (found.path, params)

/-- The result of a match on whose values there is a verdict. -/
def accept (m : Matcher) (path matched : String) (params : Params) (verdict : Verdict) :
    Run (Option Match) :=
  if verdict.conforms then return some ⟨matched, params⟩
  else do
    Run.write (.rejected path m.template verdict.errors)
    return none

/-- Matches a path and has the values checked in the given way. -/
def matchWith (m : Matcher) (validator : Validator) (path : String) : Run (Option Match) := do
  match ← m.takeApart path with
  | none => return none
  | some (matched, params) =>
    let verdict ← validator params m.compiled.definitions
    m.accept path matched params verdict

/-- The values that a path gives, if it matches and they conform. -/
def match? (m : Matcher) (path : String) : Run (Option Match) :=
  m.matchWith m.collaborators.chosenValidator path

/-- The same, with the parameters checked concurrently. -/
def matchConcurrently? (m : Matcher) (path : String) (group : TaskGroup := .fair) :
    Run (Option Match) :=
  m.matchWith
    (fun params definitions =>
      validateConcurrently params definitions m.collaborators.chosenCheck group) path

/-- The definitions that declarations give to the parameters of slots. -/
def definitionsOf (declarations : Declarations) : List Slot → Definitions →
    Except Fault Definitions
  | [], definitions => .ok definitions
  | slot :: slots, definitions => do
    let definition ← Definition.ofValue slot.name (declarations.describe slot.name)
    definitionsOf declarations slots (definitions.put slot.name definition)

/-- The matcher with further declarations, absent when they leave the definition of every
parameter of the template the same. -/
def redeclare (m : Matcher) (parameters : Value) : Run (Option Matcher) := do
  let more ← Run.ofExcept (Declarations.ofValue parameters)
  let merged := Fields.merge m.declarations more
  let definitions ← Run.ofExcept (definitionsOf merged m.compiled.slots [])
  if sameDefinitions definitions m.compiled.definitions then
    Run.write (.unchanged m.template)
    return none
  else return some (← build m.template merged m.options m.collaborators)

end Matcher

end RouteTemplate
