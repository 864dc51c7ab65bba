/-
# Faults

What can go wrong, by cause, and the message for each cause.

## Main definitions

* `Fault` — the causes
* `Fault.message` — what is reported
-/

import RouteTemplate.Calendar.MailDate
import RouteTemplate.Regex.Token
import RouteTemplate.Text.Quoted

namespace RouteTemplate

/-- Why an operation fails. -/
inductive Fault where
  /-- A captured text is no percent-encoding. -/
  | malformedEncoding (text : String)
  /-- A pattern constraint is no regular expression. -/
  | malformedPattern (cause : Regex.Malformed)
  /-- A pattern constraint is no text. -/
  | patternNotText
  /-- An integer has no finite floating-point value. -/
  | integerTooLarge
  /-- A date names numbers that nothing holds. -/
  | dateTooLarge (cause : Calendar.MailDate.TooLarge)
  /-- Two values have no order. -/
  | notComparable (sign left right : String)
  /-- The members of a value cannot be listed. -/
  | notIterable (kind : String)
  /-- A value cannot serve as a key. -/
  | notHashable (kind : String)
  /-- A value describes no collection of parameters. -/
  | notParameters (kind : String)
  /-- A definition in a list does not say which parameter it defines. -/
  | unnamedDefinition (shown : String)
  /-- There are no options of these names. -/
  | unknownOptions (names : List String)
  /-- The name of an option is no text. -/
  | optionNameNotText (index : Nat) (kind : String)
  /-- The options are no mapping. -/
  | noEntries (kind : String)
  /-- Something that is called failed, with a message of its own. -/
  | collaborator (category message : String)
  deriving DecidableEq, Repr

namespace Fault

/-- An integer has too many digits to be written. -/
def integerTooLong : Fault :=
  .collaborator "ValueError" ("Exceeds the limit (4300 digits) for integer string conversion; " ++
    "use sys.set_int_max_str_digits() to increase the limit")

/-- What is reported for a date with excessive numbers. -/
def dateMessage : Calendar.MailDate.TooLarge → String
  | .offsetBeyondWord => "Python int too large to convert to C int"
  | .offsetBeyondDuration days =>
    "days=" ++ toString days ++ "; must have magnitude <= 999999999"
  | .fieldBeyondWord => "Python int too large to convert to C long"
  | .fieldAboveInt => "signed integer is greater than maximum"
  | .fieldBelowInt => "signed integer is less than minimum"

/-- What is reported for a malformed pattern. -/
def patternMessage : Regex.Malformed → String
  | .ungrammatical => "the pattern is no regular expression"
  | .countTooLarge => "the repetition number is too large"
  | .conflictingAlphabets => "ASCII and UNICODE flags are incompatible"

/-- What is reported. -/
def message : Fault → String
  | malformedEncoding text => "Malformed percent-encoding in " ++ Text.quoted text
  | malformedPattern cause => patternMessage cause
  | patternNotText => "first argument must be string or compiled pattern"
  | integerTooLarge => "int too large to convert to float"
  | dateTooLarge cause => dateMessage cause
  | notComparable sign left right =>
    "'" ++ sign ++ "' not supported between instances of '" ++ left ++ "' and '" ++ right ++ "'"
  | notIterable kind => "'" ++ kind ++ "' object is not iterable"
  | notHashable kind => "unhashable type: '" ++ kind ++ "'"
  | notParameters kind => "Parameters must be a mapping or a list, got " ++ kind
  | unnamedDefinition shown => "Parameter definition has no name: " ++ shown
  | unknownOptions names =>
    "TypeError: options got unexpected keys: " ++ Text.commaSeparated names
  | optionNameNotText index kind =>
    "sequence item " ++ toString index ++ ": expected str instance, " ++ kind ++ " found"
  | noEntries kind => "'" ++ kind ++ "' object has no attribute 'items'"
  | collaborator _ message => message

end Fault

end RouteTemplate
