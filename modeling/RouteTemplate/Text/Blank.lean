/-
# Blank characters

White space in the sense of the Unicode bidirectional classes and the space separators, and the
smaller set that belongs to ASCII.
-/

import RouteTemplate.Text.Interval

namespace RouteTemplate.Text

/-- The intervals of the blank characters. -/
def blankIntervals : List (Nat × Nat) := [
  (0x9, 0xD), (0x1C, 0x20), (0x85, 0x85), (0xA0, 0xA0), (0x1680, 0x1680), (0x2000, 0x200A),
  (0x2028, 0x2029), (0x202F, 0x202F), (0x205F, 0x205F), (0x3000, 0x3000)]

/-- White space of any script, separators of records and fields among it. -/
def isBlank (c : Char) : Bool :=
  inIntervals blankIntervals c

/-- The six blank characters of ASCII: space, tab, line feed, vertical tab, form feed and
carriage return. -/
def isAsciiBlank (c : Char) : Bool :=
  c.toNat = 0x20 || (0x09 ≤ c.toNat && c.toNat ≤ 0x0D)

end RouteTemplate.Text
