import LedgerAudit.Decimal.Binary64

/-!
# Shortest decimals

The fewest digits that read back as a magnitude, and of those the nearest to it. They are written
in place when the decimal exponent is small, and with an exponent otherwise.
-/

namespace LedgerAudit

/-- The decimal `0.d₁d₂… * 10 ^ point`, with the digits as a natural number and their count. -/
structure Decimal where
  digits : Nat
  count : Nat
  point : Int
deriving DecidableEq, Repr

namespace Magnitude

/-- The two points half way to the neighbouring magnitudes, over one denominator, with the value
itself between them. -/
structure Interval where
  lower : Nat
  value : Nat
  upper : Nat
  denominator : Nat

/-- Below the least mantissa of an exponent the neighbour is only half as far. -/
def interval (x : Magnitude) : Interval :=
  let m := 4 * x.mantissa
  let below := if x.mantissa = 1 <<< 52 ∧ leastExponent < x.exponent then 1 else 2
  if 0 ≤ x.exponent then
    let s := x.exponent.toNat
    ⟨(m - below) <<< s, m <<< s, (m + 2) <<< s, 4⟩
  else ⟨m - below, m, m + 2, 4 <<< (-x.exponent).toNat⟩

/-- The number of decimal digits before the point, or minus the zeros after it. -/
def pointOf (numerator denominator : Nat) : Int :=
  if denominator ≤ numerator then ((Nat.toDigits 10 (numerator / denominator)).length : Int)
  else
    let guess : Nat := ((Nat.toDigits 10 (denominator / numerator)).length)
    if denominator ≤ numerator * Nat.pow 10 (guess - 1) then 2 - (guess : Int)
    else 1 - (guess : Int)

/-- A multiple `k * 10 ^ power`, compared with a quotient through its numerator. -/
def gridPoint (k : Nat) (power : Int) (denominator : Nat) : Nat × Nat :=
  if 0 ≤ power then (k * Nat.pow 10 power.toNat * denominator, 1)
  else (k * denominator, Nat.pow 10 (-power).toNat)

/-- The point of the grid of spacing `10 ^ power` that lies in the interval and is nearest to the
value, the even one in a tie. -/
def onGrid? (i : Interval) (closed : Bool) (power : Int) : Option Nat :=
  let unit := gridPoint 1 power i.denominator
  let low := i.value * unit.2 / unit.1
  let inside (k : Nat) : Bool :=
    let p := k * unit.1
    if closed then i.lower * unit.2 ≤ p && p ≤ i.upper * unit.2
    else i.lower * unit.2 < p && p < i.upper * unit.2
  let distanceLow := i.value * unit.2 - low * unit.1
  let distanceHigh := (low + 1) * unit.1 - i.value * unit.2
  match inside low && low != 0, inside (low + 1) with
  | true, true =>
    if distanceLow < distanceHigh then some low
    else if distanceHigh < distanceLow then some (low + 1)
    else some (low + low % 2)
  | true, false => some low
  | false, true => some (low + 1)
  | false, false => none

/-- Tries ever finer grids, from one digit on. -/
def shortestFrom (i : Interval) (closed : Bool) (point : Int) : (tries count : Nat) → Nat × Int
  | 0, _ => (0, 0)
  | tries + 1, count =>
    match onGrid? i closed (point - count) with
    | some k => (k, point - count)
    | none => shortestFrom i closed point tries (count + 1)

def dropZeros : (limit : Nat) → Nat × Int → Nat × Int
  | 0, d => d
  | limit + 1, (k, power) =>
    if k % 10 = 0 ∧ k ≠ 0 then dropZeros limit (k / 10, power + 1) else (k, power)

def shortest (x : Magnitude) : Decimal :=
  let i := x.interval
  let found := shortestFrom i (x.mantissa % 2 == 0) (pointOf i.value i.denominator) 17 1
  let bare := dropZeros 17 found
  let count := (Nat.toDigits 10 bare.1).length
  ⟨bare.1, count, bare.2 + count⟩

end Magnitude

namespace Decimal

def digitText (d : Decimal) : List Char := Nat.toDigits 10 d.digits

/-- Digits with the point among them, and a digit on either side of it. -/
def positional (d : Decimal) : List Char :=
  let digits := d.digitText
  if d.point ≤ 0 then '0' :: '.' :: List.replicate (-d.point).toNat '0' ++ digits
  else
    let whole := d.point.toNat
    if d.count ≤ whole then digits ++ List.replicate (whole - d.count) '0' ++ ['.', '0']
    else digits.take whole ++ '.' :: digits.drop whole

/-- One digit before the point, and a signed exponent. -/
def scientific (d : Decimal) : List Char :=
  let exponent := d.point - 1
  let fraction := d.digitText.drop 1
  d.digitText.take 1 ++ (if fraction.isEmpty then [] else '.' :: fraction)
    ++ 'e' :: (if exponent < 0 then '-' else '+') :: Nat.toDigits 10 exponent.natAbs

/-- The exponents that are written in place are `-5` to `15`. -/
def text (d : Decimal) : List Char :=
  if -5 ≤ d.point - 1 ∧ d.point - 1 ≤ 15 then d.positional else d.scientific

end Decimal

def Binary64.text (x : Binary64) : String :=
  let magnitude := if x.magnitude.isZero then ['0', '.', '0'] else x.magnitude.shortest.text
  String.ofList (if x.negative then '-' :: magnitude else magnitude)

end LedgerAudit
