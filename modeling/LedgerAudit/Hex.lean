import LedgerAudit.Bytes

/-!
# Hexadecimal text

Bytes are written as two lowercase digits each, high half first. Reading takes digits of either
case and names the first byte that is not one.
-/

namespace LedgerAudit.Hex

def digit (n : Nat) : Char := Char.ofNat (if n < 10 then 48 + n else 87 + n)

def pair (b : UInt8) : List Char := [digit (b.toNat / 16), digit (b.toNat % 16)]

def encode (bytes : Bytes) : String := String.ofList (bytes.flatMap pair)

def value? (c : Char) : Option Nat :=
  if '0' ≤ c ∧ c ≤ '9' then some (c.toNat - 48)
  else if 'a' ≤ c ∧ c ≤ 'f' then some (c.toNat - 87)
  else if 'A' ≤ c ∧ c ≤ 'F' then some (c.toNat - 55)
  else none

structure Fault where
  found : UInt8
  position : Nat
deriving DecidableEq, Repr

def value (position : Nat) (b : UInt8) : Except Fault Nat :=
  match value? (Char.ofNat b.toNat) with
  | some n => .ok n
  | none => .error ⟨b, position⟩

/-- Reads pairs of digits; `position` is where the text starts. A digit without a partner at the
end is left unread. -/
def decodeFrom (position : Nat) : Bytes → Except Fault Bytes
  | high :: low :: rest => do
    let h ← value position high
    let l ← value (position + 1) low
    let tail ← decodeFrom (position + 2) rest
    return UInt8.ofNat (16 * h + l) :: tail
  | _ => return []

def decode (digits : Bytes) : Except Fault Bytes := decodeFrom 0 digits

end LedgerAudit.Hex
