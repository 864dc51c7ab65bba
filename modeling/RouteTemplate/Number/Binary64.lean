/-
# Binary floating point

Numbers of 53 significant bits, with two infinities and values that are no number. A finite
value is a significand times a power of two, so arithmetic on it is arithmetic on integers.

## Main definitions

* `Binary64` — the values
* `Binary64.nearest` — the value nearest to a quotient, an even significand on a tie
* `Binary64.compareInt?`, `Binary64.compare?` — exact comparison with integers and with each other
-/

namespace RouteTemplate.Number

/-- A floating-point value. What is no number is told apart from others of its kind only by where
it came from, and only if that is known. -/
inductive Binary64 where
  | finite (negative : Bool) (significand : Nat) (exponent : Int)
  | infinite (negative : Bool)
  | nan (origin : Option Nat)
  deriving DecidableEq, Repr

/-- The quotient of two natural numbers, rounded to the nearest one, an even one on a tie. -/
def roundedQuotient (numerator denominator : Nat) : Nat :=
  let quotient := numerator / denominator
  let doubled := 2 * (numerator % denominator)
  if doubled < denominator then quotient
  else if denominator < doubled then quotient + 1
  else if quotient % 2 = 0 then quotient else quotient + 1

namespace Binary64

/-- The exponent of the smallest positive value. -/
def leastExponent : Int := -1074

/-- The exponent of the greatest finite values. -/
def greatestExponent : Int := 971

/-- The number of values of a significand. -/
def significandBound : Nat := 1 <<< 53

/-- Zero with a sign. -/
def signedZero (negative : Bool) : Binary64 :=
  .finite negative 0 leastExponent

/-- An integer scaled by a power of two, as a fraction of natural numbers. -/
def scaled (n : Nat) (exponent : Int) : Nat × Nat :=
  (n <<< exponent.toNat, 1 <<< (-exponent).toNat)

/-- The exponent at which a positive quotient has a significand of 53 bits, or the least one. -/
def exponentOf (numerator denominator : Nat) : Int :=
  let estimate : Int := numerator.log2 - denominator.log2 - 52
  let (n, d) := scaled numerator (-estimate)
  -- The lengths in bits leave the quotient open by a factor of two.
  let exponent := if n < (denominator * d) <<< 52 then estimate - 1 else estimate
  max exponent leastExponent

/-- The value nearest to a quotient of natural numbers. -/
def nearest (negative : Bool) (numerator denominator : Nat) : Binary64 :=
  if numerator = 0 then signedZero negative
  else
    let exponent := exponentOf numerator denominator
    let (n, d) := scaled numerator (-exponent)
    let significand := roundedQuotient n (denominator * d)
    -- Rounding up may carry into a further bit.
    let (significand, exponent) :=
      if significand = significandBound then (significandBound / 2, exponent + 1)
      else (significand, exponent)
    if greatestExponent < exponent then .infinite negative
    else .finite negative significand exponent

/-- A number is neither infinite nor undefined. -/
def isFinite : Binary64 → Bool
  | .finite _ _ _ => true
  | _ => false

/-- A value is undefined. -/
def isNan : Binary64 → Bool
  | .nan _ => true
  | _ => false

/-- The integer that a value is, if it is one. -/
def toInt? : Binary64 → Option Int
  | .finite negative significand exponent =>
    let (n, d) := scaled significand exponent
    if n % d = 0 then some (if negative then -(n / d : Nat) else (n / d : Nat)) else none
  | _ => none

/-- A finite value, as a fraction. -/
def toFraction (negative : Bool) (significand : Nat) (exponent : Int) : Int × Nat :=
  let (n, d) := scaled significand exponent
  (if negative then -(n : Int) else n, d)

/-- The order of a value relative to an integer, absent when the value is undefined. -/
def compareInt? (x : Binary64) (n : Int) : Option Ordering :=
  match x with
  | .nan _ => none
  | .infinite negative => some (if negative then .lt else .gt)
  | .finite negative significand exponent =>
    let (a, b) := toFraction negative significand exponent
    some (compare a (n * b))

/-- The order of two values, absent when one is undefined. -/
def compare? : Binary64 → Binary64 → Option Ordering
  | .nan _, _ | _, .nan _ => none
  | .infinite s, .infinite t => some (compare t.toNat s.toNat)
  | .infinite s, .finite _ _ _ => some (if s then .lt else .gt)
  | .finite _ _ _, .infinite t => some (if t then .gt else .lt)
  | .finite s m e, .finite t n f =>
    let (a, b) := toFraction s m e
    let (c, d) := toFraction t n f
    some (compare (a * d) (c * b))

/-- The value is zero, of either sign. -/
def isZero : Binary64 → Bool
  | .finite _ significand _ => significand = 0
  | _ => false

/-- The integers whose nearest value is infinite begin, in magnitude, with this one. -/
def overflowThreshold : Nat := 1 <<< 1024 - 1 <<< 970

/-- The sign, exponent and fraction fields of the interchange format, absent for what is no
number. -/
def bits? : Binary64 → Option Nat
  | .nan _ => none
  | .infinite negative => some (negative.toNat <<< 63 + 0x7FF <<< 52)
  | .finite negative significand exponent =>
    let magnitude :=
      if significand < 1 <<< 52 then significand
      else (exponent - leastExponent + 1).toNat <<< 52 + (significand - 1 <<< 52)
    some (negative.toNat <<< 63 + magnitude)

end Binary64

end RouteTemplate.Number
