/-
# Parameter definitions

What a template's parameter is declared to be: its type, whether a path must give it, and the
constraints on its value. Definitions are generic in the values that constraints are made of.
-/

namespace RouteTemplate

/-- The primitive types of parameters. -/
inductive ParameterType where
  | string
  | number
  | integer
  | boolean
  | date
  deriving DecidableEq, Repr

namespace ParameterType

/-- The name of a type. -/
def name : ParameterType → String
  | .string => "string"
  | .number => "number"
  | .integer => "integer"
  | .boolean => "boolean"
  | .date => "date"

/-- All types. -/
def all : List ParameterType :=
  [.string, .number, .integer, .boolean, .date]

/-- The type with a name, whatever the case of its letters. Names have letters of ASCII alone. -/
def ofName? (name : String) : Option ParameterType :=
  all.find? fun type => type.name.toList == name.toList.map Char.toLower

/-- The name of a type in capitals. -/
def capitalName (type : ParameterType) : String :=
  String.ofList (type.name.toList.map Char.toUpper)

end ParameterType

/-- The constraints on a parameter's value: a pattern and bounds on the length of texts, bounds on
numbers, and the values to choose from. -/
structure Constraints (α : Type) where
  pattern : Option α
  minLength : Option α
  maxLength : Option α
  minimum : Option α
  maximum : Option α
  enum : Option (List α)
  deriving DecidableEq, Repr, Inhabited

/-- No constraint at all. -/
def Constraints.none {α : Type} : Constraints α :=
  ⟨.none, .none, .none, .none, .none, .none⟩

/-- The definition of a parameter. -/
structure Definition (α : Type) where
  name : String
  type : ParameterType
  required : Bool
  constraints : Constraints α
  deriving DecidableEq, Repr

/-- The definition of a parameter about which nothing is declared: a required string. -/
def Definition.plain {α : Type} (name : String) : Definition α :=
  ⟨name, .string, true, .none⟩

end RouteTemplate
