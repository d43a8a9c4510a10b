import LedgerAudit.Bytes

/-!
# Base64 text

Three bytes are written as four symbols, and the last group is filled up with `=`. Reading accepts
the written form only: padding has to be complete and unused bits zero.
-/

namespace LedgerAudit.Base64

/-- The two symbols that differ between alphabets, for 62 and 63. -/
structure Alphabet where
  symbol62 : UInt8
  symbol63 : UInt8
deriving DecidableEq, Repr

/-- The alphabet with `+` and `/`. -/
def standard : Alphabet := ⟨43, 47⟩

/-- The alphabet with `-` and `_`. -/
def urlSafe : Alphabet := ⟨45, 95⟩

def padding : UInt8 := 61

namespace Alphabet

def symbol (a : Alphabet) (n : Nat) : UInt8 :=
  if n < 26 then UInt8.ofNat (65 + n)
  else if n < 52 then UInt8.ofNat (71 + n)
  else if n < 62 then UInt8.ofNat (n - 4)
  else if n = 62 then a.symbol62
  else a.symbol63

def value? (a : Alphabet) (b : UInt8) : Option Nat :=
  if 65 ≤ b ∧ b ≤ 90 then some (b.toNat - 65)
  else if 97 ≤ b ∧ b ≤ 122 then some (b.toNat - 71)
  else if 48 ≤ b ∧ b ≤ 57 then some (b.toNat + 4)
  else if b = a.symbol62 then some 62
  else if b = a.symbol63 then some 63
  else none

def encode (a : Alphabet) : Bytes → Bytes
  | [] => []
  | [x] =>
    let n := 16 * x.toNat
    [a.symbol (n / 64), a.symbol (n % 64), padding, padding]
  | [x, y] =>
    let n := 4 * (256 * x.toNat + y.toNat)
    [a.symbol (n / 4096), a.symbol (n / 64 % 64), a.symbol (n % 64), padding]
  | x :: y :: z :: rest =>
    let n := 65536 * x.toNat + 256 * y.toNat + z.toNat
    a.symbol (n / 262144) :: a.symbol (n / 4096 % 64) :: a.symbol (n / 64 % 64)
      :: a.symbol (n % 64) :: encode a rest

def encodeText (a : Alphabet) (bytes : Bytes) : String :=
  String.ofList ((a.encode bytes).map fun b => Char.ofNat b.toNat)

end Alphabet

inductive Fault
  | badSymbol (found : UInt8) (position : Nat)
  | badLastSymbol (found : UInt8) (position : Nat)
  | badLength (length : Nat)
  | badPadding
deriving DecidableEq, Repr

def Fault.message : Fault → String
  | .badSymbol found position => s!"Invalid symbol {found}, offset {position}."
  | .badLastSymbol found position => s!"Invalid last symbol {found}, offset {position}."
  | .badLength length => s!"Invalid input length: {length}"
  | .badPadding => "Invalid padding"

namespace Alphabet

variable (a : Alphabet)

def value (position : Nat) (b : UInt8) : Except Fault Nat :=
  match a.value? b with
  | some n => .ok n
  | none => .error (.badSymbol b position)

/-- A group of four that may end in padding. -/
def decodeGroup (position : Nat) (w x y z : UInt8) : Except Fault Bytes := do
  let m ← a.value position w
  let n ← a.value (position + 1) x
  if y = padding then
    if z ≠ padding then throw (.badSymbol padding (position + 2))
    if n % 16 ≠ 0 then throw (.badLastSymbol x (position + 1))
    return [UInt8.ofNat (4 * m + n / 16)]
  else
    let p ← a.value (position + 2) y
    let first := UInt8.ofNat (4 * m + n / 16)
    let second := UInt8.ofNat (16 * (n % 16) + p / 4)
    if z = padding then
      if p % 4 ≠ 0 then throw (.badLastSymbol y (position + 2))
      return [first, second]
    else
      let q ← a.value (position + 3) z
      return [first, second, UInt8.ofNat (64 * (p % 4) + q)]

/-- A group that is not the last: four symbols. -/
def decodeFull (position : Nat) (w x y z : UInt8) : Except Fault Bytes := do
  let m ← a.value position w
  let n ← a.value (position + 1) x
  let p ← a.value (position + 2) y
  let q ← a.value (position + 3) z
  return [UInt8.ofNat (4 * m + n / 16), UInt8.ofNat (16 * (n % 16) + p / 4),
    UInt8.ofNat (64 * (p % 4) + q)]

/-- Reads from `position` on. A group that is cut short is a fault in any case: first of its
symbols, then of its length or padding. -/
def decodeFrom (position : Nat) : Bytes → Except Fault Bytes
  | [] => return []
  | [w] => do
    let _ ← a.value position w
    throw (.badLength (position + 1))
  | [w, x] => do
    let _ ← a.value position w
    let _ ← a.value (position + 1) x
    throw .badPadding
  | [w, x, y] => do
    let _ ← a.value position w
    let _ ← a.value (position + 1) x
    if y ≠ padding then
      let _ ← a.value (position + 2) y
    throw .badPadding
  | [w, x, y, z] => a.decodeGroup position w x y z
  | w :: x :: y :: z :: rest => do
    let head ← a.decodeFull position w x y z
    let tail ← decodeFrom (position + 4) rest
    return head ++ tail

/-- A single byte after the last group, if it is no symbol; it is reported before all else. -/
def stray? (symbols : Bytes) : Option (UInt8 × Nat) :=
  if symbols.length % 4 = 1 then
    match symbols.getLast? with
    | some b =>
      if b ≠ padding ∧ a.value? b = none then some (b, symbols.length - 1) else none
    | none => none
  else none

def decode (symbols : Bytes) : Except Fault Bytes :=
  match a.stray? symbols with
  | some (b, position) => .error (.badSymbol b position)
  | none => a.decodeFrom 0 symbols

end Alphabet

end LedgerAudit.Base64
