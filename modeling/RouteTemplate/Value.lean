/-
# Values of an interface description

What a description of parameters may hold: plain data, dates, accessors that stand for the value
behind them, objects known by their fields, and definitions that are resolved already.

Accessors and objects are told apart by labels, since two of them may look alike.

## Main definitions

* `Value` — the values
* `Value.text?` — the text of a value that counts as one
* `Value.isTruthy` — whether a value counts as given where a yes or no is asked for
* `Value.elements?` — the members of a value that can be listed
-/

import RouteTemplate.Calendar.DateTime
import RouteTemplate.Fields
import RouteTemplate.Number.Binary64
import RouteTemplate.Parameter.Definition

namespace RouteTemplate

/-- A value of an interface description. -/
inductive Value where
  | null
  | bool (b : Bool)
  | int (n : Int)
  | float (x : Number.Binary64)
  | text (s : String)
  | date (d : Calendar.DateTime)
  | list (items : List Value)
  | mapping (entries : List (String × Value))
  /-- Stands for the value behind it. -/
  | accessor (label : Nat) (content : Value)
  /-- Is known only by its fields. -/
  | object (label : Nat) (entries : List (String × Value))
  /-- A parameter type, which is also the text of its name. -/
  | parameterType (t : ParameterType)
  | constraints (c : Constraints Value)
  | definition (d : Definition Value)
  deriving Repr

instance : Inhabited Value := ⟨.null⟩

namespace Value

/-- The name of the kind of a value, in full. -/
def kindName : Value → String
  | .null => "NoneType"
  | .bool _ => "bool"
  | .int _ => "int"
  | .float _ => "float"
  | .text _ => "str"
  | .date _ => "datetime.datetime"
  | .list _ => "list"
  | .mapping _ => "dict"
  | .accessor _ _ => "Accessor"
  | .object _ _ => "Object"
  | .parameterType _ => "ParamType"
  | .constraints _ => "Constraints"
  | .definition _ => "ParameterDefinition"

/-- The name of the kind of a value, without the group that it belongs to. -/
def shortKindName : Value → String
  | .date _ => "datetime"
  | v => v.kindName

/-- The text that a value is. A parameter type is the text of its name. -/
def text? : Value → Option String
  | .text s => some s
  | .parameterType t => some t.name
  | _ => none

/-- Absent values are those that are null. -/
def isNull : Value → Bool
  | .null => true
  | _ => false

/-- The value, unless it is null. -/
def given? (v : Value) : Option Value :=
  if v.isNull then none else some v

/-- Whether a value counts as a yes: all do but null, false, zero and what is empty. -/
def isTruthy : Value → Bool
  | .null => false
  | .bool b => b
  | .int n => n != 0
  | .float x => !x.isZero
  | .text s => !s.isEmpty
  | .list items => !items.isEmpty
  | .mapping entries => !entries.isEmpty
  | _ => true

/-- The members of a value that can be listed: those of a list, the characters of a text, the
keys of a mapping. -/
def elements? : Value → Option (List Value)
  | .list items => some items
  | .mapping entries => some (entries.map fun (key, _) => .text key)
  | .text s => some (s.toList.map fun c => .text (String.singleton c))
  | .parameterType t => some (t.name.toList.map fun c => .text (String.singleton c))
  | _ => none

/-- The value behind an accessor, or the value itself. -/
def unwrapped : Value → Value
  | .accessor _ content => content
  | v => v

mutual

/-- The kind of the first part of a value that may not serve as a key: lists and mappings may
not, nor may what is made of them. -/
def unhashableKind? : Value → Option String
  | .list _ => some "list"
  | .mapping _ => some "dict"
  | .constraints c => unhashableConstraint? c
  | .definition ⟨_, _, _, c⟩ => unhashableConstraint? c
  | _ => none

/-- The same for a value that may be missing. -/
def unhashableOption? : Option Value → Option String
  | some v => v.unhashableKind?
  | none => none

/-- The same for the values of an enumeration. -/
def unhashableItem? : List Value → Option String
  | [] => none
  | v :: rest =>
    match v.unhashableKind? with
    | some kind => some kind
    | none => unhashableItem? rest

/-- The same for an enumeration that may be missing. -/
def unhashableEnum? : Option (List Value) → Option String
  | some items => unhashableItem? items
  | none => none

/-- The same for the fields of constraints, in order. -/
def unhashableConstraint? : Constraints Value → Option String
  | ⟨pattern, minLength, maxLength, minimum, maximum, enum⟩ =>
    [unhashableOption? pattern, unhashableOption? minLength, unhashableOption? maxLength,
      unhashableOption? minimum, unhashableOption? maximum, unhashableEnum? enum].findSome? id

end

end Value

end RouteTemplate
