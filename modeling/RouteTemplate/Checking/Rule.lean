/-
# Checking a value against its definition

A value that is missing, or of another type, breaks one rule only. Any other value is compared
with each constraint in turn.

## Main definitions

* `Rule` — the rules that a value can break
* `Definition.rulesBrokenBy` — the rules that a value breaks
-/

import RouteTemplate.Fault
import RouteTemplate.Number.Numeral
import RouteTemplate.Regex.Match
import RouteTemplate.Regex.Reader
import RouteTemplate.Value.Equality

namespace RouteTemplate

/-- A rule that a value can break. -/
inductive Rule where
  | required
  | type
  | minLength
  | maxLength
  | pattern
  | minimum
  | maximum
  | enum
  deriving DecidableEq, Repr

/-- The name of a rule. -/
def Rule.name : Rule → String
  | required => "required"
  | type => "type"
  | minLength => "minLength"
  | maxLength => "maxLength"
  | pattern => "pattern"
  | minimum => "minimum"
  | maximum => "maximum"
  | enum => "enum"

/-- The value is a finite number. Integers without a finite floating-point value are refused. -/
def isFiniteNumber : Value → Except Fault Bool
  | .int n =>
    if Number.Binary64.overflowThreshold ≤ n.natAbs then .error .integerTooLarge else .ok true
  | .float x => .ok x.isFinite
  | _ => .ok false

/-- The value is of the type. -/
def hasType (type : ParameterType) (v : Value) : Except Fault Bool :=
  match type with
  | .number => isFiniteNumber v
  | .integer => .ok (v matches .int _)
  | .boolean => .ok (v matches .bool _)
  | .date => .ok (v matches .date _)
  | .string => .ok v.text?.isSome

/-- The left value lies below the right one. -/
def isBelow (left right : Value) : Except Fault Bool :=
  match left.compare? right with
  | some order => .ok (order == some .lt)
  | none => .error (.notComparable "<" left.kindName right.kindName)

/-- The left value lies above the right one. -/
def isAbove (left right : Value) : Except Fault Bool :=
  match left.compare? right with
  | some order => .ok (order == some .gt)
  | none => .error (.notComparable ">" left.kindName right.kindName)

/-- The regular expression that a pattern constraint denotes. -/
def readPattern (pattern : Value) : Except Fault Regex :=
  match pattern.unhashableKind? with
  | some kind => .error (.notHashable kind)
  | none =>
    match pattern.text? with
    | none => .error .patternNotText
    | some text =>
      match Regex.parse [] text with
      | .ok regex => .ok regex
      | .error cause => .error (.malformedPattern cause)

/-- The pattern matches nowhere in the text. -/
def lacksMatch (text : String) (pattern : Value) : Except Fault Bool := do
  return ((← readPattern pattern).search text.toList).isNone

/-- The rule, if the constraint is given and the test says that it is broken. -/
def broken (rule : Rule) (constraint : Option Value) (test : Value → Except Fault Bool) :
    Except Fault (List Rule) :=
  match constraint with
  | none => .ok []
  | some bound => do return if ← test bound then [rule] else []

/-- The constraints on texts that a text breaks. -/
def checkText (constraints : Constraints Value) (text : String) : Except Fault (List Rule) := do
  let length := Value.int text.length
  let short ← broken .minLength constraints.minLength (isBelow length)
  let long ← broken .maxLength constraints.maxLength (isAbove length)
  let unlike ← broken .pattern constraints.pattern (lacksMatch text)
  return short ++ long ++ unlike

/-- The constraints on numbers that a value breaks, if it is one. -/
def checkNumber (constraints : Constraints Value) (v : Value) : Except Fault (List Rule) := do
  if ← isFiniteNumber v then
    let small ← broken .minimum constraints.minimum (isBelow v)
    let large ← broken .maximum constraints.maximum (isAbove v)
    return small ++ large
  else return []

/-- The constraints that a value of the right type breaks. -/
def checkConstraints (constraints : Constraints Value) (v : Value) : Except Fault (List Rule) := do
  let text ← match v.text? with
    | some text => checkText constraints text
    | none => .ok []
  let number ← checkNumber constraints v
  let choice := match constraints.enum with
    | some members => if v.isAmong members then [] else [.enum]
    | none => []
  return text ++ number ++ choice

/-- The rules that a value breaks. -/
def Definition.rulesBrokenBy (definition : Definition Value) (v : Value) :
    Except Fault (List Rule) :=
  if v.isNull then .ok (if definition.required then [.required] else [])
  else do
    -- Constraints say nothing about values of another type.
    if ← hasType definition.type v then checkConstraints definition.constraints v
    else return [.type]

end RouteTemplate
