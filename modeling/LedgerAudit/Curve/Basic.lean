/-!
# Short Weierstrass curves

Points of `y² = x³ - 3x + b` over a prime field. Sums are formed in coordinates `(X, Y, Z)` that
stand for `(X / Z², Y / Z³)`, so that a field inverse is needed only at the end.
-/

namespace LedgerAudit

structure Curve where
  prime : Nat
  b : Nat
  order : Nat
  generatorX : Nat
  generatorY : Nat
  width : Nat

/-- A point other than zero, by its coordinates. -/
structure Point where
  x : Nat
  y : Nat
deriving DecidableEq, Repr

/-- A point in scaled coordinates; zero has `z = 0`. -/
structure ScaledPoint where
  x : Nat
  y : Nat
  z : Nat
deriving DecidableEq, Repr

/-- Powers modulo `m`, by squaring; `bits` bounds the length of the exponent. -/
def powMod (m base : Nat) : (bits : Nat) → (exponent : Nat) → Nat
  | 0, _ => 1 % m
  | bits + 1, exponent =>
    let half := powMod m base bits (exponent / 2)
    let square := half * half % m
    if exponent % 2 = 1 then square * base % m else square

/-- The inverse modulo a prime, by Fermat's little theorem. -/
def invMod (prime a : Nat) : Nat := powMod prime (a % prime) (prime.log2 + 1) (prime - 2)

namespace ScaledPoint

def zero : ScaledPoint := ⟨1, 1, 0⟩

def ofPoint (p : Point) : ScaledPoint := ⟨p.x, p.y, 1⟩

def isZero (p : ScaledPoint) : Bool := p.z == 0

end ScaledPoint

namespace Curve

variable (c : Curve)

def sub (a b : Nat) : Nat := (a + (c.prime - b % c.prime)) % c.prime

def mul (a b : Nat) : Nat := a * b % c.prime

def rightSide (x : Nat) : Nat := c.sub (c.mul (c.mul x x) x + c.b) (3 * x)

def isOnCurve (p : Point) : Bool :=
  p.x < c.prime && p.y < c.prime && c.mul p.y p.y == c.rightSide p.x

def generator : Point := ⟨c.generatorX, c.generatorY⟩

def double (p : ScaledPoint) : ScaledPoint :=
  if p.isZero then .zero
  else
    let zz := c.mul p.z p.z
    let yy := c.mul p.y p.y
    let slope := c.mul 3 (c.mul (c.sub p.x zz) (p.x + zz))
    let s := c.mul 4 (c.mul p.x yy)
    let x := c.sub (c.mul slope slope) (2 * s)
    let y := c.sub (c.mul slope (c.sub s x)) (c.mul 8 (c.mul yy yy))
    ⟨x, y, c.mul 2 (c.mul p.y p.z)⟩

def add (p q : ScaledPoint) : ScaledPoint :=
  if p.isZero then q
  else if q.isZero then p
  else
    let pzz := c.mul p.z p.z
    let qzz := c.mul q.z q.z
    let u₁ := c.mul p.x qzz
    let u₂ := c.mul q.x pzz
    let s₁ := c.mul p.y (c.mul qzz q.z)
    let s₂ := c.mul q.y (c.mul pzz p.z)
    if u₁ = u₂ then
      if s₁ = s₂ then c.double p else .zero
    else
      let h := c.sub u₂ u₁
      let r := c.sub s₂ s₁
      let hh := c.mul h h
      let hhh := c.mul hh h
      let v := c.mul u₁ hh
      let x := c.sub (c.sub (c.mul r r) hhh) (2 * v)
      let y := c.sub (c.mul r (c.sub v x)) (c.mul s₁ hhh)
      ⟨x, y, c.mul h (c.mul p.z q.z)⟩

/-- The sum of two multiples, bit by bit from the top; `bits` bounds the length of the factors. -/
def sumOfMultiples (p q both : ScaledPoint) : (bits : Nat) → (m n : Nat) → ScaledPoint
  | 0, _, _ => .zero
  | bits + 1, m, n =>
    let twice := c.double (sumOfMultiples p q both bits (m / 2) (n / 2))
    match m % 2, n % 2 with
    | 0, 0 => twice
    | _, 0 => c.add twice p
    | 0, _ => c.add twice q
    | _, _ => c.add twice both

/-- The point `m * G + n * q`. -/
def combination (m n : Nat) (q : Point) : ScaledPoint :=
  let g := ScaledPoint.ofPoint c.generator
  let p := ScaledPoint.ofPoint q
  c.sumOfMultiples g p (c.add g p) (c.order.log2 + 1) m n

/-- The first coordinate of a point; zero has none. -/
def xOf? (p : ScaledPoint) : Option Nat :=
  if p.isZero then none
  else some (c.mul p.x (invMod c.prime (c.mul p.z p.z)))

/-- A square root, if there is one. The prime leaves remainder three modulo four. -/
def sqrt? (a : Nat) : Option Nat :=
  let r := powMod c.prime a (c.prime.log2 + 1) ((c.prime + 1) / 4)
  if c.mul r r = a % c.prime then some r else none

/-- The points with this first coordinate, by one second coordinate. -/
def lift? (x : Nat) : Option Nat := if x < c.prime then c.sqrt? (c.rightSide x) else none

end Curve

end LedgerAudit
