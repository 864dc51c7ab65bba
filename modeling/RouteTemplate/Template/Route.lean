/-
# Routes

A route is a template whose references have been resolved, together with the options that decide
how it may end. It has a text, which is reported, and an expression, which is matched.

## Main definitions

* `Route` — resolved parts and options
* `Route.ofTemplate` — the route of a template, with the slots of its references and the
  definitions they use
* `Route.text`, `Route.regex` — the regular expression, as text and as expression
-/

import RouteTemplate.Options
import RouteTemplate.Parameter.Resolution
import RouteTemplate.Template.Capture
import RouteTemplate.Text.PercentEncoding

namespace RouteTemplate

/-- The place of a parameter in a template: its name, the character before it, a slash when
there is none, and whether it may span segments. -/
structure Slot where
  name : String
  lead : Char
  expand : Bool
  deriving DecidableEq, Repr

namespace Template

/-- A part of a route: a character, which is escaped if it is special, or a reference with the
definition of its parameter. -/
inductive Part where
  | special (c : Char)
  | plain (c : Char)
  | reference (lead : Option Char) (expand : Bool) (definition : Definition Value)

/-- A resolved template. -/
structure Route where
  parts : List Part
  endsWithSlash : Bool
  options : Options

/-- What a template refers to: its parts, its slots in order, and the definitions of the
parameters by name. -/
structure Contents where
  parts : List Part
  slots : List Slot
  definitions : Fields (Definition Value)

/-- The text that a percent-encoding stands for, or a fault that names the encoding. Every percent
sign must begin an escape, and the bytes of the escapes must be those of a text. -/
def decodeText (text : String) : Except Fault String :=
  if (Text.malformedEscape? text.toList).isSome then .error (.malformedEncoding text)
  else match Text.percentDecode? text with
    | some decoded => .ok decoded
    | none => .error (.malformedEncoding text)

/-- The definition that declarations give a parameter to which a template refers. The members of an
enumeration become part of the route, so they must have texts. -/
def declaredDefinition (declarations : Declarations) (name : String) :
    Except Fault (Definition Value) := do
  let definition ← Definition.ofValue name (declarations.describe name)
  if definition.isWritable then return definition else throw .integerTooLong

/-- The definition of a parameter. What has been resolved once is not resolved again. -/
def definitionFor (declarations : Declarations) (name : String)
    (used : Fields (Definition Value)) : Except Fault (Definition Value) :=
  match used.get? name with
  | some definition => .ok definition
  | none => declaredDefinition declarations name

/-- Resolves the references of the pieces from left to right. -/
def resolvePieces (declarations : Declarations) :
    List Piece → Fields (Definition Value) → Except Fault Contents
  | [], used => .ok ⟨[], [], used⟩
  | .special c :: rest, used => do
    let contents ← resolvePieces declarations rest used
    return { contents with parts := .special c :: contents.parts }
  | .plain c :: rest, used => do
    let contents ← resolvePieces declarations rest used
    return { contents with parts := .plain c :: contents.parts }
  | .reference r :: rest, used => do
    -- The name is decoded first, so a malformed one is reported before a malformed description.
    let name ← decodeText (String.ofList r.rawName)
    let definition ← definitionFor declarations name used
    let contents ← resolvePieces declarations rest (used.put name definition)
    return { contents with
      parts := .reference r.lead r.expand definition :: contents.parts
      slots := ⟨name, r.lead.getD '/', r.expand⟩ :: contents.slots }

namespace Route

/-- The route of a template, with what it refers to. -/
def ofTemplate (template : String) (declarations : Declarations) (options : Options) :
    Except Fault (Route × Contents) := do
  let contents ← resolvePieces declarations (scan template.toList) []
  return (⟨contents.parts, template.toList.getLast? == some '/', options⟩, contents)

/-- The parts that must match. Unless the route is strict, a slash that ends the template is left
to what may follow. -/
def required (route : Route) : List Part :=
  if !route.options.strict && route.endsWithSlash then route.parts.dropLast else route.parts

/-- The text of a part. -/
def partText : Part → String
  | .special c => String.ofList ['\\', c]
  | .plain c => String.singleton c
  | .reference lead expand definition =>
    let separator := String.ofList (escape lead.toList)
    let group := separator ++ "(" ++ captureText definition expand separator ++ ")"
    if definition.required then group else "(?:" ++ group ++ ")?"

/-- The text of the end of a route: unless it is strict, a slash that ends the path may follow;
then comes the end of the path or, if the match need not reach it, a boundary of segments, unless
a slash that counts is such a boundary already. -/
def endText (route : Route) : String :=
  (if route.options.strict then "" else "(?:\\/(?=\\Z))?") ++
    if route.options.toEnd then "\\Z"
    else if route.options.strict && route.endsWithSlash then ""
    else "(?=\\/|\\Z)"

/-- The text of the regular expression. -/
def text (route : Route) : String :=
  "^" ++ String.join (route.required.map partText) ++ route.endText

/-- How letters of different case compare: only letters of ASCII may differ, and only if the route
is not sensitive to case. -/
def caseMode (route : Route) : Regex.CaseMode :=
  if route.options.sensitive then .exact else .ascii

/-- The expressions of parts, whose capture groups are numbered from the given number on. -/
def partRegexes (mode : Regex.CaseMode) : Nat → List Part → List Regex
  | _, [] => []
  | number, .special c :: rest | number, .plain c :: rest =>
    charRegex mode c :: partRegexes mode number rest
  | number, .reference lead expand definition :: rest =>
    let items := charRegexes mode lead.toList ++
      [.group number (captureRegex mode definition expand (lead.getD '/'))]
    (if definition.required then items else [optional (Regex.sequence items)]) ++
      partRegexes mode (number + 1) rest

/-- The expressions of the end of a route. -/
def endRegexes (route : Route) : List Regex :=
  let slash := charRegex route.caseMode '/'
  (if route.options.strict then []
    else [optional (Regex.sequence [slash, .look .ahead false (.anchor .textEnd)])]) ++
    if route.options.toEnd then [.anchor .textEnd]
    else if route.options.strict && route.endsWithSlash then []
    else [.look .ahead false (Regex.choice [slash, .anchor .textEnd])]

/-- The regular expression. -/
def regex (route : Route) : Regex :=
  Regex.sequence (.anchor .textStart :: partRegexes route.caseMode 1 route.required ++
    route.endRegexes)

end Route

end Template

end RouteTemplate
