/-!
# Binary floating point in exact arithmetic

A magnitude is `mantissa * 2 ^ exponent` with at most 53 bits of mantissa. Products and quotients
are formed exactly and rounded once, to the nearest magnitude and to the even one in a tie.
-/

namespace LedgerAudit

/-- A finite nonnegative number of the 64-bit binary format. -/
structure Magnitude where
  mantissa : Nat
  exponent : Int
deriving DecidableEq, Repr

/-- A finite number of the 64-bit binary format; zero has both signs. -/
structure Binary64 where
  negative : Bool
  magnitude : Magnitude
deriving DecidableEq, Repr

namespace Magnitude

/-- Magnitudes are multiples of two to this power. -/
def leastExponent : Int := -1074

def greatestExponent : Int := 971

def zero : Magnitude := ⟨0, leastExponent⟩

def isZero (x : Magnitude) : Bool := x.mantissa == 0

/-- The nearest natural number to a quotient, the even one in a tie. -/
def nearest (numerator denominator : Nat) : Nat :=
  let q := numerator / denominator
  let r := numerator % denominator
  if 2 * r < denominator then q
  else if denominator < 2 * r then q + 1
  else q + q % 2

/-- A quotient divided by a power of two, as numerator and denominator. -/
def scaleDown (numerator denominator : Nat) (exponent : Int) : Nat × Nat :=
  if 0 ≤ exponent then (numerator, denominator <<< exponent.toNat)
  else (numerator <<< (-exponent).toNat, denominator)

def ofQuotient? (numerator denominator : Nat) : Option Magnitude :=
  let low : Int := max leastExponent (numerator.log2 - denominator.log2 - 53)
  let atLow := scaleDown numerator denominator low
  let exponent := if 1 <<< 53 ≤ atLow.1 / atLow.2 then low + 1 else low
  let scaled := scaleDown numerator denominator exponent
  let mantissa := nearest scaled.1 scaled.2
  let x : Magnitude :=
    if mantissa = 1 <<< 53 then ⟨1 <<< 52, exponent + 1⟩ else ⟨mantissa, exponent⟩
  if x.mantissa = 0 then some zero
  else if greatestExponent < x.exponent then none
  else some x

/-- The exact value, as numerator and denominator. -/
def toQuotient (x : Magnitude) : Nat × Nat :=
  if 0 ≤ x.exponent then (x.mantissa <<< x.exponent.toNat, 1)
  else (x.mantissa, 1 <<< (-x.exponent).toNat)

def ofNat? (n : Nat) : Option Magnitude := ofQuotient? n 1

def mul? (x y : Magnitude) : Option Magnitude :=
  ofQuotient? (x.toQuotient.1 * y.toQuotient.1) (x.toQuotient.2 * y.toQuotient.2)

def div? (x y : Magnitude) : Option Magnitude :=
  ofQuotient? (x.toQuotient.1 * y.toQuotient.2) (x.toQuotient.2 * y.toQuotient.1)

/-- Divides by powers of ten, at most 308 at once, as long as anything is left. -/
def lowerBy (x : Magnitude) : (steps : Nat) → (power : Nat) → Option Magnitude
  | 0, _ => some zero
  | steps + 1, power =>
    if x.isZero then some x
    else do
      let divisor ← ofNat? (Nat.pow 10 (min power 308))
      let y ← x.div? divisor
      if power ≤ 308 then some y else lowerBy y steps (power - 308)

/-- The magnitude of `significand * 10 ^ power`, rounded once for the significand, once for the
power of ten and once for their product or quotient. Nothing if it is out of range. -/
def ofDecimal? (significand : Nat) (power : Int) : Option Magnitude := do
  let x ← ofNat? significand
  if power < 0 then x.lowerBy 3 (-power).toNat
  else if power ≤ 308 then x.mul? (← ofNat? (Nat.pow 10 power.toNat))
  else if x.isZero then some x
  else none

end Magnitude

end LedgerAudit
