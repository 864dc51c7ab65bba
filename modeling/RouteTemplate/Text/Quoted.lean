/-
# Quoted text

A text between quotes. Apostrophes enclose it unless it holds one and no double quote. The
enclosing quote and the backslash are escaped, and so is what cannot be shown as it is.
-/

import RouteTemplate.Text.Printable

namespace RouteTemplate.Text

/-- The mark that encloses a text. -/
def quoteMark (cs : List Char) : Char :=
  if cs.contains '\x27' && !cs.contains '"' then '"' else '\x27'

/-- A number in hexadecimal with at least so many digits. -/
def hexadecimal (width n : Nat) : String :=
  let digits := Nat.toDigits 16 n
  String.ofList (List.replicate (width - digits.length) '0' ++ digits)

/-- One character inside quotes. -/
def quoteChar (mark c : Char) : String :=
  if c = mark || c = '\\' then String.ofList ['\\', c]
  else if c = '\t' then "\\t"
  else if c = '\n' then "\\n"
  else if c = '\r' then "\\r"
  else if isPrintable c then String.singleton c
  else if c.toNat < 0x100 then "\\x" ++ hexadecimal 2 c.toNat
  else if c.toNat < 0x10000 then "\\u" ++ hexadecimal 4 c.toNat
  else "\\U" ++ hexadecimal 8 c.toNat

/-- The text between quotes. -/
def quoted (s : String) : String :=
  let mark := quoteMark s.toList
  String.singleton mark ++ String.join (s.toList.map (quoteChar mark)) ++ String.singleton mark

/-- The texts, with a comma and a blank between neighbours. -/
def commaSeparated (parts : List String) : String :=
  String.intercalate ", " parts

end RouteTemplate.Text
