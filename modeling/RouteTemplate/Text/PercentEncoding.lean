/-
# Percent-encoding

A text in which a character may be replaced by the escapes of the bytes that encode it. Every
percent sign begins an escape, and the escaped bytes are well-formed.

## Main definitions

* `percentDecode?` — the text that is encoded, if every escape is complete and every escaped
  sequence of bytes encodes a character
* `malformedEscape?` — the position of the first percent sign that begins no escape
-/

import RouteTemplate.Text.DecimalDigit

namespace RouteTemplate.Text

/-- The byte that two hexadecimal digits denote. -/
def hexByte? (high low : Char) : Option Nat :=
  match hexDigit? high, hexDigit? low with
  | some h, some l => some (16 * h + l)
  | _, _ => none

/-- The byte continues a sequence. -/
def isContinuation (byte : Nat) : Bool :=
  0x80 ≤ byte && byte < 0xC0

/-- The character with a code point, which must need as many bytes as were used for it. -/
def charFrom? (least point : Nat) : Option Char :=
  if least ≤ point && decide point.isValidChar then some (Char.ofNat point) else none

/-- The character that two bytes encode. -/
def charOfTwo? (a b : Nat) : Option Char :=
  if isContinuation b then charFrom? 0x80 ((a - 0xC0) * 0x40 + (b - 0x80)) else none

/-- The character that three bytes encode. -/
def charOfThree? (a b c : Nat) : Option Char :=
  if isContinuation b && isContinuation c then
    charFrom? 0x800 ((a - 0xE0) * 0x1000 + (b - 0x80) * 0x40 + (c - 0x80))
  else none

/-- The character that four bytes encode. -/
def charOfFour? (a b c d : Nat) : Option Char :=
  if isContinuation b && isContinuation c && isContinuation d then
    charFrom? 0x10000
      ((a - 0xF0) * 0x40000 + (b - 0x80) * 0x1000 + (c - 0x80) * 0x40 + (d - 0x80))
  else none

/-- The escape at the front of a text, and what follows it. -/
def splitEscape? : List Char → Option (Nat × List Char)
  | '%' :: high :: low :: rest => (hexByte? high low).map (·, rest)
  | _ => none

/-- The character that escapes at the front of a text encode, and the number of escapes. -/
def splitEncoded? (text : List Char) : Option (Char × Nat) := do
  let (a, rest) ← splitEscape? text
  if a < 0x80 then return (Char.ofNat a, 1)
  else if a < 0xC0 then none
  else
    let (b, rest) ← splitEscape? rest
    if a < 0xE0 then return (← charOfTwo? a b, 2)
    else
      let (c, rest) ← splitEscape? rest
      if a < 0xF0 then return (← charOfThree? a b c, 3)
      else if a < 0xF8 then
        let (d, _) ← splitEscape? rest
        return (← charOfFour? a b c d, 4)
      else none

/-- The encoded text, of which the given number of characters belongs to an escape read before. -/
def percentDecodeFrom? : Nat → List Char → Option (List Char)
  | _, [] => some []
  | n + 1, _ :: rest => percentDecodeFrom? n rest
  | 0, c :: rest =>
    if c = '%' then
      match splitEncoded? (c :: rest) with
      | some (d, escapes) => (percentDecodeFrom? (3 * escapes - 1) rest).map (d :: ·)
      | none => none
    else (percentDecodeFrom? 0 rest).map (c :: ·)

/-- The text that a percent-encoding stands for. -/
def percentDecode? (text : String) : Option String :=
  (percentDecodeFrom? 0 text.toList).map String.ofList

/-- The position of the first percent sign that begins no escape. -/
def malformedEscape? : List Char → Option Nat
  | [] => none
  | c :: rest =>
    if c = '%' && (splitEscape? (c :: rest)).isNone then some 0
    else (malformedEscape? rest).map (· + 1)

end RouteTemplate.Text
