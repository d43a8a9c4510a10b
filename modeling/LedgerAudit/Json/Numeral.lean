import LedgerAudit.Json.Basic

/-!
# Numbers in a JSON text

A numeral is gathered character by character and evaluated at its end. A whole number of 64 bits
is exact. For any other, the leading digits that fit in 64 bits are the significand, and what they
leave out only moves the decimal point.
-/

namespace LedgerAudit.Json

inductive Numeral.Stage
  | sign
  | zero
  | whole
  | point
  | fraction
  | exponentMark
  | exponentSign
  | exponent
deriving DecidableEq, Repr

/-- A numeral in the making; digits are kept newest first. -/
structure Numeral where
  negative : Bool
  stage : Numeral.Stage
  whole : List Nat
  fraction : List Nat
  exponentNegative : Bool
  exponent : List Nat
  isInteger : Bool

namespace Numeral

inductive Extension
  | longer (n : Numeral)
  | complete
  | invalid

def blank : Numeral := ⟨false, .sign, [], [], false, [], true⟩

def digit? (c : Char) : Option Nat := if c.isDigit then some (c.toNat - 48) else none

def isExponentMark (c : Char) : Bool := c == 'e' || c == 'E'

def markExponent (n : Numeral) : Numeral := { n with stage := .exponentMark, isInteger := false }

def extend (n : Numeral) (c : Char) : Extension :=
  match n.stage, digit? c with
  | .sign, some 0 => .longer { n with stage := .zero, whole := [0] }
  | .sign, some d => .longer { n with stage := .whole, whole := [d] }
  | .zero, some _ => .invalid
  | .whole, some d => .longer { n with whole := d :: n.whole }
  | .point, some d => .longer { n with stage := .fraction, fraction := [d] }
  | .fraction, some d => .longer { n with fraction := d :: n.fraction }
  | .exponentMark, some d => .longer { n with stage := .exponent, exponent := [d] }
  | .exponentSign, some d => .longer { n with stage := .exponent, exponent := [d] }
  | .exponent, some d => .longer { n with exponent := d :: n.exponent }
  | .zero, none | .whole, none =>
    if c = '.' then .longer { n with stage := .point, isInteger := false }
    else if isExponentMark c then .longer n.markExponent
    else .complete
  | .fraction, none => if isExponentMark c then .longer n.markExponent else .complete
  | .exponentMark, none =>
    if c = '+' then .longer { n with stage := .exponentSign }
    else if c = '-' then .longer { n with stage := .exponentSign, exponentNegative := true }
    else .invalid
  | .exponent, none => .complete
  | .sign, none | .point, none | .exponentSign, none => .invalid

def isComplete (n : Numeral) : Bool :=
  match n.stage with
  | .zero | .whole | .fraction | .exponent => true
  | _ => false

/-- Appends digits to a significand while it fits in 64 bits, and counts the digits left over. -/
def absorb (significand : Nat) : List Nat → Nat × Nat
  | [] => (significand, 0)
  | d :: ds =>
    if 10 * significand + d < UInt64.size then absorb (10 * significand + d) ds
    else (significand, ds.length + 1)

def ofDigits (digits : List Nat) : Nat := digits.foldl (fun n d => 10 * n + d) 0

def value? (n : Numeral) : Option Number :=
  let (wholePart, dropped) := absorb 0 n.whole.reverse
  let exact : Int := if n.negative then -(wholePart : Int) else wholePart
  if n.isInteger ∧ dropped = 0 ∧ Int64.minValue.toInt ≤ exact ∧ ¬(n.negative ∧ wholePart = 0) then
    some (.integer exact)
  else
    let (significand, unread) := absorb wholePart n.fraction.reverse
    let shift : Int := dropped - (n.fraction.length - unread : Nat)
    let written : Int := ofDigits n.exponent.reverse
    let power := shift + if n.exponentNegative then -written else written
    (Magnitude.ofDecimal? significand power).map fun m => .float ⟨n.negative, m⟩

end Numeral

end LedgerAudit.Json
