/-
# When two values are the same

Numbers are compared across their kinds: true is one, and an integer is the floating-point value
it equals. Texts are compared by content, lists in order, mappings in any order, accessors and
objects by their labels.

## Main definitions

* `Value.same` — two values count as one
* `Value.isAmong` — some value of a list counts as the given one
* `Definition.same` — two definitions agree in every field
* `Value.compare?` — the order of two numbers of any kind
-/

import RouteTemplate.Value

namespace RouteTemplate

namespace Value

open RouteTemplate.Number (Binary64)

/-- A number of either kind. -/
inductive Numeric where
  | whole (n : Int)
  | binary (x : Binary64)
  deriving DecidableEq, Repr

/-- The number that a value is. False and true are zero and one. -/
def numeric? : Value → Option Numeric
  | .bool b => some (.whole (if b then 1 else 0))
  | .int n => some (.whole n)
  | .float x => some (.binary x)
  | _ => none

/-- The order of two numbers, absent when one of them is undefined. -/
def Numeric.compare? : Numeric → Numeric → Option Ordering
  | .whole m, .whole n => some (compare m n)
  | .binary x, .whole n => x.compareInt? n
  | .whole m, .binary y => (y.compareInt? m).map Ordering.swap
  | .binary x, .binary y => x.compare? y

/-- Two numbers are equal, or are one and the same undefined value. -/
def Numeric.same : Numeric → Numeric → Bool
  | .binary (.nan (some origin)), .binary (.nan (some other)) => origin == other
  | a, b => a.compare? b == some .eq

mutual

/-- Two values count as one. -/
def same : Value → Value → Bool
  | .null, w => w.isNull
  | .bool b, w => w.numeric?.any (Numeric.whole (if b then 1 else 0)).same
  | .int n, w => w.numeric?.any (Numeric.whole n).same
  | .float x, w => w.numeric?.any (Numeric.binary x).same
  | .text s, w => w.text? == some s
  | .parameterType t, w => w.text? == some t.name
  | .date d, w => match w with
    | .date e => d.denotesSame e
    | _ => false
  | .list items, w => match w with
    | .list others => sameItems items others
    | _ => false
  | .mapping entries, w => match w with
    | .mapping others => entries.length == others.length && sameEntries entries others
    | _ => false
  | .accessor label _, w => match w with
    | .accessor other _ => label == other
    | _ => false
  | .object label _, w => match w with
    | .object other _ => label == other
    | _ => false
  | .constraints c, w => match w with
    | .constraints d => sameConstraints c d
    | _ => false
  | .definition ⟨name, type, required, c⟩, w => match w with
    | .definition d =>
      name == d.name && type == d.type && required == d.required && sameConstraints c d.constraints
    | _ => false

/-- The items of two lists count as the same, one by one. -/
def sameItems : List Value → List Value → Bool
  | [], ws => ws.isEmpty
  | v :: vs, ws => match ws with
    | w :: ws => v.same w && sameItems vs ws
    | [] => false

/-- What stands under the keys of one mapping counts as what stands under them in another. -/
def sameEntries : List (String × Value) → List (String × Value) → Bool
  | [], _ => true
  | (key, v) :: rest, others => (match others.lookup key with
    | some w => v.same w
    | none => false) && sameEntries rest others

/-- Two values count as the same, or neither is given. -/
def sameOption : Option Value → Option Value → Bool
  | none, w => w.isNone
  | some v, w => match w with
    | some w => v.same w
    | none => false

/-- Two enumerations hold the same values, or neither is given. -/
def sameEnum : Option (List Value) → Option (List Value) → Bool
  | none, w => w.isNone
  | some vs, w => match w with
    | some ws => sameItems vs ws
    | none => false

/-- Two sets of constraints agree in every field. -/
def sameConstraints : Constraints Value → Constraints Value → Bool
  | ⟨pattern, minLength, maxLength, minimum, maximum, enum⟩, d =>
    sameOption pattern d.pattern && sameOption minLength d.minLength &&
      sameOption maxLength d.maxLength && sameOption minimum d.minimum &&
      sameOption maximum d.maximum && sameEnum enum d.enum

end

/-- Some value of the list counts as the given one. -/
def isAmong (v : Value) (options : List Value) : Bool :=
  options.any (v.same ·)

/-- The order of two numbers of any kind. The outer option is empty when one of the values is no
number, the inner one when one of the numbers is undefined. -/
def compare? (v w : Value) : Option (Option Ordering) := do
  return (← v.numeric?).compare? (← w.numeric?)

end Value

/-- Two definitions agree in every field. -/
def Definition.same (d e : Definition Value) : Bool :=
  (Value.definition d).same (.definition e)

/-- Two collections of definitions have the same names, in any order, and agree under each. -/
def sameDefinitions (ds es : Fields (Definition Value)) : Bool :=
  ds.length == es.length && ds.all fun (name, d) => (es.get? name).any d.same

end RouteTemplate
