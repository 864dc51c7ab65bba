/-
# The text of a value

How a value is shown in messages and, as the member of an enumeration, in a path. Inside lists,
mappings and definitions every text is quoted. A value that holds an integer of too many digits has
no text.

## Main definitions

* `Value.isWritable` — the value has a text
* `Value.shown` — the value as it would be written down
* `Value.displayText` — the same, with a text standing for itself
* `Value.pathText` — the member of an enumeration as it stands in a path
* `Value.display` — the text of a value that has one
-/

import RouteTemplate.Fault
import RouteTemplate.Number.Numeral
import RouteTemplate.Text.Quoted
import RouteTemplate.Value

namespace RouteTemplate

/-- A number with at least so many digits. -/
def padded (width n : Nat) : String :=
  let digits := Nat.toDigits 10 n
  String.ofList (List.replicate (width - digits.length) '0' ++ digits)

namespace Calendar.DateTime

/-- The zone of a date, written as the call that makes it. -/
def shownZone (offset : Int) : String :=
  if offset = 0 then "datetime.timezone.utc"
  else
    let days := offset / 86400
    let seconds := offset % 86400
    let parts := (if days = 0 then [] else ["days=" ++ toString days]) ++
      (if seconds = 0 then [] else ["seconds=" ++ toString seconds])
    "datetime.timezone(datetime.timedelta(" ++ Text.commaSeparated parts ++ "))"

/-- A date, written as the call that makes it. Seconds are left out when there are none. -/
def shown (d : DateTime) : String :=
  let numbers := [d.year, d.month, d.day, d.hour, d.minute] ++
    (if d.second = 0 then [] else [d.second])
  let zone := d.offset.toList.map fun offset => "tzinfo=" ++ shownZone offset
  "datetime.datetime(" ++ Text.commaSeparated (numbers.map toString ++ zone) ++ ")"

/-- The distance from universal time, with seconds only if there are any. -/
def displayZone (offset : Int) : String :=
  let n := offset.natAbs
  (if offset < 0 then "-" else "+") ++ padded 2 (n / 3600) ++ ":" ++ padded 2 (n / 60 % 60) ++
    (if n % 60 = 0 then "" else ":" ++ padded 2 (n % 60))

/-- Year, month, day and time of day, separated by marks, and the zone. -/
def display (d : DateTime) : String :=
  padded 4 d.year ++ "-" ++ padded 2 d.month ++ "-" ++ padded 2 d.day ++ " " ++
    padded 2 d.hour ++ ":" ++ padded 2 d.minute ++ ":" ++ padded 2 d.second ++
    (d.offset.map displayZone).getD ""

end Calendar.DateTime

namespace Value

/-- The two truth values. -/
def shownBool (b : Bool) : String :=
  if b then "True" else "False"

/-- A call with named arguments. -/
def shownCall (name : String) (arguments : List (String × String)) : String :=
  name ++ "(" ++
    Text.commaSeparated (arguments.map fun (key, value) => key ++ "=" ++ value) ++ ")"

/-- Values in parentheses, with a comma after a single one. -/
def shownTuple : List String → String
  | [single] => "(" ++ single ++ ",)"
  | parts => "(" ++ Text.commaSeparated parts ++ ")"

/-- A mapping between braces. -/
def shownMapping (entries : List (String × String)) : String :=
  "\x7b" ++ Text.commaSeparated (entries.map fun (key, value) =>
    Text.quoted key ++ ": " ++ value) ++ "\x7d"

/-- A parameter type with its name in capitals. -/
def shownType (t : ParameterType) : String :=
  "ParamType." ++ t.capitalName

mutual

/-- No integer in the value has too many digits to be written. -/
def isWritable : Value → Bool
  | .int n => Number.isShort n
  -- A whole one may be written as the integer that it is.
  | .float x => x.toInt?.all Number.isShort
  | .list items => itemsAreWritable items
  | .mapping entries => entriesAreWritable entries
  | .constraints c => constraintsAreWritable c
  | .definition ⟨_, _, _, c⟩ => constraintsAreWritable c
  | _ => true

/-- The same for the items of a list. -/
def itemsAreWritable : List Value → Bool
  | [] => true
  | v :: rest => v.isWritable && itemsAreWritable rest

/-- The same for the values of a mapping. -/
def entriesAreWritable : List (String × Value) → Bool
  | [] => true
  | (_, v) :: rest => v.isWritable && entriesAreWritable rest

/-- The same for a value that may be missing. -/
def optionIsWritable : Option Value → Bool
  | none => true
  | some v => v.isWritable

/-- The same for an enumeration that may be missing. -/
def enumIsWritable : Option (List Value) → Bool
  | none => true
  | some items => itemsAreWritable items

/-- The same for constraints, field by field. -/
def constraintsAreWritable : Constraints Value → Bool
  | ⟨pattern, minLength, maxLength, minimum, maximum, enum⟩ =>
    optionIsWritable pattern && optionIsWritable minLength && optionIsWritable maxLength &&
      optionIsWritable minimum && optionIsWritable maximum && enumIsWritable enum

end

mutual

/-- The value as it would be written down. -/
def shown : Value → String
  | .null => "None"
  | .bool b => shownBool b
  | .int n => toString n
  | .float x => x.render
  | .text s => Text.quoted s
  | .date d => d.shown
  | .list items => "[" ++ Text.commaSeparated (shownItems items) ++ "]"
  | .mapping entries => shownMapping (shownEntries entries)
  | .accessor _ _ => "<Accessor>"
  | .object _ _ => "<Object>"
  | .parameterType t => "<" ++ shownType t ++ ": " ++ Text.quoted t.name ++ ">"
  | .constraints c => shownConstraints c
  | .definition ⟨name, type, required, c⟩ =>
    shownCall "ParameterDefinition"
      [("name", Text.quoted name),
       ("type", "<" ++ shownType type ++ ": " ++ Text.quoted type.name ++ ">"),
       ("required", shownBool required), ("constraints", shownConstraints c)]

/-- The items of a list, each as it would be written down. -/
def shownItems : List Value → List String
  | [] => []
  | v :: rest => v.shown :: shownItems rest

/-- The entries of a mapping, each value as it would be written down. -/
def shownEntries : List (String × Value) → List (String × String)
  | [] => []
  | (key, v) :: rest => (key, v.shown) :: shownEntries rest

/-- A value that may be missing. -/
def shownOption : Option Value → String
  | none => "None"
  | some v => v.shown

/-- An enumeration that may be missing. -/
def shownEnum : Option (List Value) → String
  | none => "None"
  | some items => shownTuple (shownItems items)

/-- Constraints, field by field. -/
def shownConstraints : Constraints Value → String
  | ⟨pattern, minLength, maxLength, minimum, maximum, enum⟩ =>
    shownCall "Constraints"
      [("pattern", shownOption pattern), ("min_length", shownOption minLength),
       ("max_length", shownOption maxLength), ("minimum", shownOption minimum),
       ("maximum", shownOption maximum), ("enum", shownEnum enum)]

end

/-- The value as it would be written down, with a text standing for itself. -/
def displayText : Value → String
  | .text s => s
  | .parameterType t => shownType t
  | .date d => d.display
  | v => v.shown

/-- The member of an enumeration as it stands in a path: truth values in lower case, and a
floating-point value without a fraction as an integer. -/
def pathText : Value → String
  | .bool b => if b then "true" else "false"
  | .float x =>
    match x.toInt? with
    | some n => toString n
    | none => x.render
  | v => v.displayText

/-- A text of a value, unless the value has none. -/
def written (v : Value) (text : String) : Except Fault String :=
  if v.isWritable then .ok text else .error .integerTooLong

/-- The text of a value, in which a text stands for itself. -/
def display (v : Value) : Except Fault String :=
  v.written v.displayText

end Value

/-- The members of an enumeration have texts. -/
def Definition.isWritable (definition : Definition Value) : Bool :=
  (definition.constraints.enum.getD []).all Value.isWritable

end RouteTemplate
