/-
# Character classes

What one position of a text must satisfy: one code point, a bracketed class, or anything at all.
A class fixes how letters of different case compare, so that matching needs no further flags.
Code points are numbers, because a class may name surrogates, which no text contains.
-/

import RouteTemplate.Text.Blank
import RouteTemplate.Text.DecimalDigit
import RouteTemplate.Text.Uppercase
import RouteTemplate.Text.WordChar

namespace RouteTemplate.Regex

/-- How letters of different case compare. -/
inductive CaseMode where
  /-- Only equal characters match. -/
  | exact
  /-- The letters of ASCII match in either case. -/
  | ascii
  /-- The letters of all scripts match in either case. -/
  | unicode
  deriving DecidableEq, Repr

/-- The lower case under which two characters are compared. -/
def CaseMode.fold : CaseMode → Nat → Nat
  | .exact => id
  | .ascii => Text.asciiLowerPoint
  | .unicode => Text.lowerPoint

/-- Letters besides the lower case itself that count as the same letter. -/
def CaseMode.kin : CaseMode → Nat → List Nat
  | .unicode => Text.caseKin
  | _ => fun _ => []

/-- The code point has another case under this mode. -/
def CaseMode.isCased : CaseMode → Nat → Bool
  | .exact, _ => false
  | .ascii, point => Text.asciiLowerPoint point != point || Text.asciiUpperPoint point != point
  | .unicode, point => Text.isCasedPoint point

/-- The character classes that have a name. -/
inductive Property where
  | digit
  | blank
  | word
  deriving DecidableEq, Repr

/-- The characters with a property, among all scripts or in ASCII alone. -/
def Property.holds (asciiOnly : Bool) (c : Char) : Property → Bool
  | .digit => if asciiOnly then c.isDigit else Text.isDecimalDigit c
  | .blank => if asciiOnly then Text.isAsciiBlank c else Text.isBlank c
  | .word => if asciiOnly then Text.isAsciiWordChar c else Text.isWordChar c

/-- A member of a bracketed class. -/
inductive ClassItem where
  | code (point : Nat)
  | range (first last : Nat)
  | property (asciiOnly negated : Bool) (kind : Property)
  deriving DecidableEq, Repr

/-- The highest code point of the basic plane. Classes that ignore case treat the letters
above it separately. -/
def lastBasicPoint : Nat := 0xFFFF

/-- Some member of a class has another case. -/
def ClassItem.isCased (mode : CaseMode) : ClassItem → Bool
  | .code point => mode.isCased point || lastBasicPoint < mode.fold point
  | .range _ _ => true
  | .property _ _ _ => false

/-- The code point lies between the two ends. -/
def between (first last point : Nat) : Bool :=
  first ≤ point && point ≤ last

/-- Some code point of the range is a case variant of the given lower case. -/
def rangeHolds (mode : CaseMode) (first last point : Nat) : Bool :=
  match mode with
  | .exact => between first last point
  | .ascii =>
    between first last point || between first last (Text.asciiUpperPoint point) ||
      (lastBasicPoint < last && between first last (Text.upperPoint point))
  | .unicode =>
    ((point :: Text.caseKin point).flatMap Text.lowerSources).any
        (fun source => source ≤ lastBasicPoint && between first last source) ||
      (lastBasicPoint < last &&
        (between first last point || between first last (Text.upperPoint point)))

/-- A member of a class holds the character, whose case has been folded already. -/
def ClassItem.holds (mode : CaseMode) (c : Char) : ClassItem → Bool
  | .code point =>
    if lastBasicPoint < mode.fold point then c.toNat = point
    else c.toNat = mode.fold point || (mode.kin (mode.fold point)).contains c.toNat
  | .range first last => rangeHolds mode first last c.toNat
  | .property asciiOnly negated kind => kind.holds asciiOnly c != negated

/-- What a single position of a text must satisfy. -/
inductive CharClass where
  /-- Any character, line feeds only when admitted. -/
  | any (lineFeeds : Bool)
  /-- One code point, or any character but that one. -/
  | code (mode : CaseMode) (negated : Bool) (point : Nat)
  /-- A bracketed class, or its complement. -/
  | set (mode : CaseMode) (negated : Bool) (items : List ClassItem)
  deriving DecidableEq, Repr

/-- The character equals the code point up to case. -/
def sameLetter (mode : CaseMode) (point : Nat) (c : Char) : Bool :=
  if mode.isCased point then
    mode.fold c.toNat = mode.fold point ||
      (mode.kin (mode.fold point)).contains (mode.fold c.toNat)
  else c.toNat = point

/-- The character satisfies the class. -/
def CharClass.holds : CharClass → Char → Bool
  | .any lineFeeds, c => lineFeeds || c != '\n'
  | .code mode negated point, c => sameLetter mode point c != negated
  | .set mode negated items, c =>
    -- Without a member that has another case, the character is compared as it stands.
    let folded := if items.any (·.isCased mode) then Char.ofNat (mode.fold c.toNat) else c
    items.any (·.holds mode folded) != negated

end RouteTemplate.Regex
