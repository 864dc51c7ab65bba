/-
# Digits in the wide sense

Superscripts, circled digits and their like stand for a digit without being part of a decimal
numeral.
-/

import RouteTemplate.Text.Interval
import RouteTemplate.Text.DecimalDigit

namespace RouteTemplate.Text

/-- The characters that stand for a digit and are no decimal digit. -/
def displayDigitIntervals : List (Nat × Nat) := [
  (0xB2, 0xB3), (0xB9, 0xB9), (0x1369, 0x1371), (0x19DA, 0x19DA), (0x2070, 0x2070),
  (0x2074, 0x2079), (0x2080, 0x2089), (0x2460, 0x2468), (0x2474, 0x247C), (0x2488, 0x2490),
  (0x24EA, 0x24EA), (0x24F5, 0x24FD), (0x24FF, 0x24FF), (0x2776, 0x277E), (0x2780, 0x2788),
  (0x278A, 0x2792), (0x10A40, 0x10A43), (0x10E60, 0x10E68), (0x11052, 0x1105A),
  (0x1F100, 0x1F10A)]

/-- A decimal digit of any script, or a character that displays one. -/
def isDigit (c : Char) : Bool :=
  isDecimalDigit c || inIntervals displayDigitIntervals c

end RouteTemplate.Text
