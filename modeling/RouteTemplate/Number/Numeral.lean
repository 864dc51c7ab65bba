/-
# Numerals

The texts that denote integers and floating-point values. Blanks around a numeral do not count,
the digits of every script do, and an underscore may stand between two digits.

## Main definitions

* `isShort` — an integer that can be written
* `readInteger?` — the integer that a text denotes
* `readBinary?` — the floating-point value that a text denotes
-/

import RouteTemplate.Number.Decimal
import RouteTemplate.Text.Blank
import RouteTemplate.Text.DecimalDigit

namespace RouteTemplate.Number

/-- Digits of other scripts become digits of ASCII and blanks of other scripts become spaces. -/
def toAscii (c : Char) : Char :=
  if c.toNat < 0x80 then c
  else if Text.isBlank c then ' '
  else match Text.decimalDigit? c with
    | some digit => Char.ofNat ('0'.toNat + digit)
    | none => c

/-- The text without the blanks around it. -/
def strip (cs : List Char) : List Char :=
  ((cs.dropWhile Text.isAsciiBlank).reverse.dropWhile Text.isAsciiBlank).reverse

/-- The characters of a numeral, without the blanks around it and in ASCII. -/
def numeralChars (text : List Char) : List Char :=
  strip (text.map toAscii)

/-- Removes the underscores, each of which must stand between two digits. -/
def dropUnderscores : List Char → Option (List Char)
  | [] => some []
  | '_' :: _ => none
  | c :: '_' :: d :: rest =>
    if c.isDigit && d.isDigit then (dropUnderscores (d :: rest)).map (c :: ·) else none
  | c :: rest => (dropUnderscores rest).map (c :: ·)

/-- The sign at the front, true for a minus, and what follows it. -/
def splitSign : List Char → Bool × List Char
  | '-' :: rest => (true, rest)
  | '+' :: rest => (false, rest)
  | rest => (false, rest)

/-- The number that decimal digits denote. -/
def ofDigits (digits : List Char) : Nat :=
  digits.foldl (fun n c => n * 10 + (c.toNat - '0'.toNat)) 0

/-- Integers of more digits are neither read nor written. -/
def mostIntegerDigits : Nat := 4300

/-- An integer has few enough digits to be written. -/
def isShort (n : Int) : Bool :=
  (digitsOf n.natAbs).length ≤ mostIntegerDigits

/-- The integer that a text denotes: an optional sign and at most 4300 digits. -/
def readInteger? (text : List Char) : Option Int := do
  let (negative, body) := splitSign (numeralChars text)
  let digits ← dropUnderscores body
  if digits.isEmpty || !digits.all Char.isDigit || mostIntegerDigits < digits.length then none
  else if negative then some (-(ofDigits digits : Int)) else some (ofDigits digits)

/-- The digits at the front of a text, and what follows them. -/
def splitDigits (cs : List Char) : List Char × List Char :=
  (cs.takeWhile Char.isDigit, cs.dropWhile Char.isDigit)

/-- The power of ten after the digits: nothing, or a letter and a signed number. -/
def readPower? : List Char → Option Int
  | [] => some 0
  | mark :: rest =>
    if mark = 'e' || mark = 'E' then
      let (negative, digits) := splitSign rest
      if digits.isEmpty || !digits.all Char.isDigit then none
      else some (if negative then -(ofDigits digits : Int) else ofDigits digits)
    else none

/-- The decimal that an unsigned numeral denotes: digits, with a point among or beside them, and
a power of ten. -/
def readDecimal? (cs : List Char) : Option Decimal := do
  let (whole, rest) := splitDigits cs
  let (fraction, rest) := match rest with
    | '.' :: rest => splitDigits rest
    | rest => ([], rest)
  let power ← readPower? rest
  if whole.isEmpty && fraction.isEmpty then none
  else some ⟨ofDigits (whole ++ fraction), power - fraction.length⟩

/-- The floating-point value that a text denotes: a decimal, an infinity or no number, each with
an optional sign. -/
def readBinary? (text : List Char) : Option Binary64 := do
  let cs ← dropUnderscores (numeralChars text)
  let (negative, body) := splitSign cs
  let word := String.ofList (body.map Char.toLower)
  if word = "inf" || word = "infinity" then some (.infinite negative)
  else if word = "nan" then some (.nan none)
  else return (← readDecimal? body).toBinary negative

end RouteTemplate.Number
