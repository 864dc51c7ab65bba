/-
# Converting captured text

A captured text becomes a value of its parameter's type if it denotes one, and stays as it is
otherwise. Other values are left alone.

## Main definitions

* `Value.convertTo` — one value
* `Params.convert` — every parameter that has a definition
-/

import RouteTemplate.Fault
import RouteTemplate.Number.Numeral
import RouteTemplate.Value

namespace RouteTemplate

/-- Values of parameters, by name. -/
abbrev Params := Fields Value

/-- Definitions of parameters, by name. -/
abbrev Definitions := Fields (Definition Value)

/-- The truth value that a text spells, in any case. -/
def readBoolean? (text : List Char) : Option Bool :=
  let word := String.ofList (text.map Char.toLower)
  if word = "true" then some true
  else if word = "false" then some false
  else none

/-- The value of a type that a text denotes. A date may name numbers that nothing holds. -/
def readText (type : ParameterType) (text : List Char) : Except Fault (Option Value) :=
  match type with
  | .string => .ok none
  | .number => .ok ((Number.readBinary? text).map .float)
  | .integer => .ok ((Number.readInteger? text).map .int)
  | .boolean => .ok ((readBoolean? text).map .bool)
  | .date =>
    match Calendar.MailDate.read text with
    | .ok date => .ok (date.map .date)
    | .error cause => .error (.dateTooLarge cause)

/-- The value of a type that a captured text denotes, or the text itself. -/
def Value.convertTo (type : ParameterType) (v : Value) : Except Fault Value :=
  match v with
  | .text s => do return (← readText type s.toList).getD v
  | _ => .ok v

/-- Converts every parameter that has a definition. -/
def Params.convert (definitions : Definitions) (params : Params) : Except Fault Params :=
  params.mapM fun (name, v) =>
    match definitions.get? name with
    | some definition => do return (name, ← v.convertTo definition.type)
    | none => .ok (name, v)

end RouteTemplate
