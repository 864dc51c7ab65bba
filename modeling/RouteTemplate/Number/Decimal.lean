/-
# Decimals and floating point

A decimal is read as the nearest floating-point value, and a value is written with the fewest
digits that read back as it.

## Main definitions

* `Decimal.toBinary` — the nearest value of a decimal
* `Binary64.shortest` — the fewest digits that read back, the nearest such decimal among them
* `Binary64.render` — positional notation for magnitudes from 0.0001 up to 10^16, an exponent of
  at least two digits otherwise
-/

import RouteTemplate.Number.Binary64

namespace RouteTemplate.Number

/-- A natural number of units of a power of ten. -/
structure Decimal where
  digits : Nat
  exponent : Int
  deriving DecidableEq, Repr

/-- The digits of a natural number in base ten. -/
def digitsOf (n : Nat) : List Char :=
  Nat.toDigits 10 n

namespace Decimal

/-- A decimal as a fraction. -/
def toFraction (d : Decimal) : Nat × Nat :=
  (d.digits * Nat.pow 10 d.exponent.toNat, Nat.pow 10 (-d.exponent).toNat)

/-- The power of ten of the leading digit. -/
def leadingExponent (d : Decimal) : Int :=
  d.exponent + (digitsOf d.digits).length - 1

/-- The value nearest to a decimal. A decimal whose leading digit lies beyond every value is
settled without computing its power of ten. -/
def toBinary (negative : Bool) (d : Decimal) : Binary64 :=
  if d.digits = 0 then .signedZero negative
  else if 310 ≤ d.leadingExponent then .infinite negative
  else if d.leadingExponent < -330 then .signedZero negative
  else
    let (n, m) := d.toFraction
    .nearest negative n m

/-- The same decimal without zeros at the end. -/
def trim (d : Decimal) : Decimal :=
  go (digitsOf d.digits).length d
where
  /-- Drops at most so many zeros. -/
  go : Nat → Decimal → Decimal
    | 0, d => d
    | n + 1, d =>
      if d.digits % 10 = 0 && d.digits != 0 then go n ⟨d.digits / 10, d.exponent + 1⟩ else d

end Decimal

/-- The exponent of the leading decimal digit of a positive fraction. -/
def decimalExponent (numerator denominator : Nat) : Int :=
  let estimate : Int := (digitsOf numerator).length - (digitsOf denominator).length
  let (n, m) :=
    (numerator * Nat.pow 10 (-estimate).toNat, denominator * Nat.pow 10 estimate.toNat)
  if n < m then estimate - 1 else estimate

/-- Of the decimals with a given last place that lie next to a positive fraction, those that
satisfy the test, the nearer first and the even one first on a tie. -/
def nearestOnGrid (test : Decimal → Bool) (numerator denominator : Nat) (place : Int) :
    Option Decimal :=
  let (n, m) := (numerator * Nat.pow 10 (-place).toNat, denominator * Nat.pow 10 place.toNat)
  let low := n / m
  let nearest := roundedQuotient n m
  let other := if nearest = low then low + 1 else low
  [nearest, other].map (⟨·, place⟩) |>.find? test

/-- The fewest digits that read back as the finite value, or all its digits. -/
def Binary64.shortest (significand : Nat) (exponent : Int) : Decimal :=
  let (n, m) := Binary64.scaled significand exponent
  let leading := decimalExponent n m
  let readsBack (d : Decimal) : Bool := d.toBinary false = .finite false significand exponent
  let found := (List.range 17).findSome? fun (count : Nat) =>
    nearestOnGrid readsBack n m (leading - count)
  match found with
  | some d => d.trim
  | none => (Decimal.mk (n * Nat.pow 5 (-exponent).toNat) (min exponent 0)).trim

/-- Zeros before or after the digits of a text. -/
def zeros (count : Nat) : String :=
  String.ofList (List.replicate count '0')

/-- Positional notation, with a digit on either side of the point. -/
def renderPositional (digits : List Char) (exponent : Int) : String :=
  let text := String.ofList digits
  if 0 ≤ exponent then text ++ zeros exponent.toNat ++ ".0"
  else
    let places := (-exponent).toNat
    if places < digits.length then
      String.ofList (digits.take (digits.length - places)) ++ "." ++
        String.ofList (digits.drop (digits.length - places))
    else "0." ++ zeros (places - digits.length) ++ text

/-- One digit before the point, and the power of ten with its sign. -/
def renderScientific (digits : List Char) (leading : Int) : String :=
  let mantissa := match digits with
    | first :: second :: rest => String.ofList (first :: '.' :: second :: rest)
    | _ => String.ofList digits
  let magnitude := digitsOf leading.natAbs
  mantissa ++ "e" ++ (if leading < 0 then "-" else "+") ++
    zeros (2 - magnitude.length) ++ String.ofList magnitude

/-- The text of a value: the fewest digits that read back, positional for magnitudes from 0.0001
up to 10^16. -/
def Binary64.render : Binary64 → String
  | .nan _ => "nan"
  | .infinite negative => if negative then "-inf" else "inf"
  | .finite negative significand exponent =>
    let sign := if negative then "-" else ""
    if significand = 0 then sign ++ "0.0"
    else
      let d := Binary64.shortest significand exponent
      let digits := digitsOf d.digits
      sign ++ if -4 ≤ d.leadingExponent && d.leadingExponent < 16
        then renderPositional digits d.exponent
        else renderScientific digits d.leadingExponent

end RouteTemplate.Number
