/-
# Resolving definitions

A description of a parameter may be a mapping, an object or a definition, its constraints may
stand beside its type or under a field of their own, and each of its values may be hidden behind
an accessor. Resolution gives the definition that all these forms describe.

## Main definitions

* `Value.field?` — the value that a description gives for a field
* `Definition.ofValue` — the definition of a parameter
* `Declarations.ofValue` — the descriptions of a collection of parameters, by name
-/

import RouteTemplate.Fault
import RouteTemplate.Value.Rendering

namespace RouteTemplate

namespace Value

/-- A constraint under the name of its field. -/
def constraintField (c : Constraints Value) (key : String) : Option Value :=
  match key with
  | "pattern" => c.pattern
  | "min_length" => c.minLength
  | "max_length" => c.maxLength
  | "minimum" => c.minimum
  | "maximum" => c.maximum
  | "enum" => c.enum.map .list
  | _ => none

/-- A part of a definition under the name of its field. -/
def definitionField (d : Definition Value) (key : String) : Option Value :=
  match key with
  | "name" => some (.text d.name)
  | "type" => some (.parameterType d.type)
  | "required" => some (.bool d.required)
  | "constraints" => some (.constraints d.constraints)
  | _ => none

/-- What a value holds under a name. -/
def held? (v : Value) (key : String) : Option Value :=
  match v with
  | .mapping entries => Fields.get? entries key
  | .object _ entries => Fields.get? entries key
  | .constraints c => constraintField c key
  | .definition d => definitionField d key
  | .parameterType t => if key = "name" then some (.text t.capitalName) else none
  | _ => none

/-- The value that a description gives for a field: what it holds there, read through an accessor,
unless that is null. -/
def field? (v : Value) (key : String) : Option Value :=
  (v.held? key).bind (·.unwrapped.given?)

/-- The first of several fields that is given. -/
def firstGiven? (v : Value) (keys : List String) : Option Value :=
  keys.findSome? v.field?

end Value

/-- The type that a value names, string when it names none. -/
def ParameterType.ofValue : Value → ParameterType
  | .parameterType t => t
  | v =>
    match v.display with
    | .ok name => (ParameterType.ofName? name).getD .string
    | .error _ => .string

/-- A constraint of a description: constraints that stand apart come before those beside the
type, and the names in camel case before those with underscores. -/
def constraint? (description apart : Value) (keys : List String) : Option Value :=
  apart.firstGiven? keys <|> description.firstGiven? keys

/-- The members of an enumeration, each read through an accessor. -/
def enumMembers (v : Value) : Except Fault (List Value) :=
  match v.elements? with
  | some items => .ok (items.map Value.unwrapped)
  | none => .error (.notIterable v.kindName)

/-- The constraints of a description. -/
def Constraints.ofValue (description : Value) : Except Fault (Constraints Value) := do
  let apart := (description.field? "constraints").getD .null
  let given := constraint? description apart
  let enum ← (given ["enum"]).mapM enumMembers
  return {
    pattern := given ["pattern"]
    minLength := given ["minLength", "min_length"]
    maxLength := given ["maxLength", "max_length"]
    minimum := given ["minimum"]
    maximum := given ["maximum"]
    enum }

/-- The definition of a parameter that a description gives. A parameter is required and a string
unless it says otherwise. -/
def Definition.ofValue (name : String) : Value → Except Fault (Definition Value)
  | .null => .ok (.plain name)
  | .definition d => .ok d
  | description => do
    return {
      name
      type := ((description.field? "type").map ParameterType.ofValue).getD .string
      required := ((description.field? "required").map Value.isTruthy).getD true
      constraints := ← Constraints.ofValue description }

/-- Descriptions of parameters, by name. -/
abbrev Declarations := Fields Value

namespace Declarations

/-- The description of a parameter, null when there is none. -/
def describe (declarations : Declarations) (name : String) : Value :=
  (Fields.get? declarations name).getD .null

/-- What is reported for a description without a name: the description, if it can be written. -/
def namelessFault (description : Value) : Fault :=
  match description.written description.shown with
  | .ok shown => .unnamedDefinition shown
  | .error fault => fault

/-- The name that a description in a list gives itself. -/
def nameOf (description : Value) : Except Fault String :=
  match description.field? "name" with
  | some name => if name.isTruthy then name.display else .error (namelessFault description)
  | none => .error (namelessFault description)

/-- The descriptions of a list, each under the name it gives itself. -/
def ofItems : List Value → Declarations → Except Fault Declarations
  | [], declarations => .ok declarations
  | description :: rest, declarations => do
    let name ← nameOf description
    ofItems rest (Fields.put declarations name description)

/-- The descriptions of a collection of parameters: a mapping from names, or a list of
descriptions that name themselves. -/
def ofValue : Value → Except Fault Declarations
  | .null => .ok []
  | .mapping entries => .ok entries
  | v =>
    match v.elements? with
    | some items => ofItems items []
    | none => .error (.notParameters v.shortKindName)

end Declarations

end RouteTemplate
