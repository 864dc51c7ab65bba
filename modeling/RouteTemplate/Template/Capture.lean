/-
# What a reference captures

The part of a path that a reference may take: one of the members of its enumeration, a text of the
form of its type, any text up to the next separator or, when it may span segments, the shortest
text that lets the rest match.

Each form is given twice, as the text of a regular expression and as the expression itself.

## Main definitions

* `captureText` — the text of the expression for a reference
* `captureRegex` — the expression for a reference
-/

import RouteTemplate.Regex.Syntax
import RouteTemplate.Template.Piece
import RouteTemplate.Value.Rendering

namespace RouteTemplate.Template

open RouteTemplate.Regex (CaseMode CharClass ClassItem)

/-- The members of an enumeration as alternatives. -/
def enumText (members : List Value) : String :=
  "(?:" ++ String.intercalate "|"
    (members.map fun v => String.ofList (escape v.pathText.toList)) ++ ")"

/-- A number with an optional sign and an optional fraction. -/
def numberText : String :=
  "[-+]?\\d+(?:\\.\\d+)?"

/-- An integer with an optional sign. -/
def integerText : String :=
  "[-+]?\\d+"

/-- One of the two truth values. -/
def booleanText : String :=
  "(?:true|false)"

/-- The names of the days of the week. -/
def dayNames : List String :=
  ["Mon", "Tue", "Wed", "Thu", "Fri", "Sat", "Sun"]

/-- The names of the months. -/
def monthNames : List String :=
  ["Jan", "Feb", "Mar", "Apr", "May", "Jun", "Jul", "Aug", "Sep", "Oct", "Nov", "Dec"]

/-- A group of alternatives. -/
def alternativesText (words : List String) : String :=
  "(?:" ++ String.intercalate "|" words ++ ")"

/-- So many digits. -/
def digitsText (count : Nat) : String :=
  "\\d\x7b" ++ toString count ++ "\x7d"

/-- A date of the calendar with a time of day in universal time. -/
def dateText : String :=
  alternativesText dayNames ++ ", " ++ digitsText 2 ++ " " ++ alternativesText monthNames ++ " " ++
    digitsText 4 ++ " " ++ alternativesText ["[0-1]\\d", "2[0-3]"] ++ ":[0-5]\\d:[0-5]\\d GMT"

/-- A text that may span segments. -/
def expandText : String :=
  ".+?"

/-- A text without the separator, a slash when none is given. -/
def segmentText (separator : String) : String :=
  "[^" ++ (if separator.isEmpty then "/" else separator) ++ "]+"

/-- The text of the expression for a reference with the given definition. -/
def captureText (definition : Definition Value) (expand : Bool) (separator : String) : String :=
  match definition.constraints.enum with
  | some members => enumText members
  | none =>
    match definition.type with
    | .number => numberText
    | .integer => integerText
    | .boolean => booleanText
    | .date => dateText
    | .string => if expand then expandText else segmentText separator

/-- A character up to case. -/
def charRegex (mode : CaseMode) (c : Char) : Regex :=
  .one (.code mode false c.toNat)

/-- The characters of a text, one after another. -/
def charRegexes (mode : CaseMode) (text : List Char) : List Regex :=
  text.map (charRegex mode)

/-- A text up to case. -/
def textRegex (mode : CaseMode) (text : List Char) : Regex :=
  Regex.sequence (charRegexes mode text)

/-- One of several texts up to case. -/
def wordsRegex (mode : CaseMode) (words : List String) : Regex :=
  Regex.choice (words.map fun word => textRegex mode word.toList)

/-- The members of an enumeration as alternatives. -/
def enumRegex (mode : CaseMode) (members : List Value) : Regex :=
  wordsRegex mode (members.map Value.pathText)

/-- One decimal digit of ASCII. -/
def digitRegex (mode : CaseMode) : Regex :=
  .one (.set mode false [.property true false .digit])

/-- One digit between two others. -/
def digitBetween (mode : CaseMode) (first last : Char) : Regex :=
  .one (.set mode false [.range first.toNat last.toNat])

/-- At least one digit, as many as possible. -/
def digitsRegex (mode : CaseMode) : Regex :=
  .repetition .greedy 1 none (digitRegex mode)

/-- So many digits. -/
def digitsOfLength (mode : CaseMode) (count : Nat) : Regex :=
  .repetition .greedy count (some count) (digitRegex mode)

/-- Nothing or the expression, preferably the expression. -/
def optional (e : Regex) : Regex :=
  .repetition .greedy 0 (some 1) e

/-- An optional sign. -/
def signRegex (mode : CaseMode) : Regex :=
  optional (.one (.set mode false [.code '-'.toNat, .code '+'.toNat]))

/-- A number with an optional sign and an optional fraction. -/
def numberRegex (mode : CaseMode) : Regex :=
  Regex.sequence [signRegex mode, digitsRegex mode,
    optional (Regex.sequence [charRegex mode '.', digitsRegex mode])]

/-- An integer with an optional sign. -/
def integerRegex (mode : CaseMode) : Regex :=
  Regex.sequence [signRegex mode, digitsRegex mode]

/-- One of the two truth values. -/
def booleanRegex (mode : CaseMode) : Regex :=
  wordsRegex mode ["true", "false"]

/-- The hours of a day. -/
def hourRegex (mode : CaseMode) : Regex :=
  Regex.choice [Regex.sequence [digitBetween mode '0' '1', digitRegex mode],
    Regex.sequence [charRegex mode '2', digitBetween mode '0' '3']]

/-- A colon and the minutes of an hour or the seconds of a minute. -/
def sixtieths (mode : CaseMode) : List Regex :=
  [charRegex mode ':', digitBetween mode '0' '5', digitRegex mode]

/-- A date of the calendar with a time of day in universal time. -/
def dateRegex (mode : CaseMode) : Regex :=
  Regex.sequence
    ([wordsRegex mode dayNames, charRegex mode ',', charRegex mode ' ', digitsOfLength mode 2,
      charRegex mode ' ', wordsRegex mode monthNames, charRegex mode ' ', digitsOfLength mode 4,
      charRegex mode ' ', hourRegex mode] ++
      sixtieths mode ++ sixtieths mode ++ charRegexes mode " GMT".toList)

/-- A text that may span segments. -/
def expandRegex : Regex :=
  .repetition .lazy 1 none (.one (.any false))

/-- A text without the separator. -/
def segmentRegex (mode : CaseMode) (separator : Char) : Regex :=
  .repetition .greedy 1 none (.one (.code mode true separator.toNat))

/-- The expression for a reference with the given definition. -/
def captureRegex (mode : CaseMode) (definition : Definition Value) (expand : Bool)
    (separator : Char) : Regex :=
  match definition.constraints.enum with
  | some members => enumRegex mode members
  | none =>
    match definition.type with
    | .number => numberRegex mode
    | .integer => integerRegex mode
    | .boolean => booleanRegex mode
    | .date => dateRegex mode
    | .string => if expand then expandRegex else segmentRegex mode separator

end RouteTemplate.Template
