import LedgerAudit.Hex
import LedgerAudit.Sha2
import LedgerAudit.Text.Quoted

/-!
# Digests

A digest is 32 bytes. Its text is 64 hexadecimal digits: written in lowercase, read in either
case. Digests are ordered byte by byte.
-/

namespace LedgerAudit

structure Digest where
  bytes : Bytes
  length_bytes : bytes.length = 32
deriving DecidableEq

namespace Digest

inductive Fault
  | textLength (found : Nat)
  | badDigit (text : String) (fault : Hex.Fault)
  | byteCount (found : Nat)
deriving DecidableEq, Repr

def Fault.message : Fault → String
  | .textLength found => s!"expected 64 hex characters, found {found}"
  | .badDigit text fault =>
    let shown := Text.quotedChar (Char.ofNat fault.found.toNat)
    s!"{Text.quoted text}: Invalid character {shown} at position {fault.position}"
  | .byteCount found => s!"expected 32 bytes, found {found}"

def zero : Digest := ⟨List.replicate 32 0, by simp⟩

instance : LE Digest := ⟨fun a b => a.bytes ≤ b.bytes⟩

instance (a b : Digest) : Decidable (a ≤ b) := inferInstanceAs (Decidable (a.bytes ≤ b.bytes))

def ofBytes (bytes : Bytes) : Except Fault Digest :=
  if h : bytes.length = 32 then .ok ⟨bytes, h⟩ else .error (.byteCount bytes.length)

def toHex (d : Digest) : String := Hex.encode d.bytes

instance : ToString Digest := ⟨toHex⟩

/-- Reads 64 hexadecimal digits. The length is that of the UTF-8 encoding. -/
def ofHex (text : String) : Except Fault Digest :=
  let digits := Bytes.ofText text
  if digits.length ≠ 64 then .error (.textLength digits.length)
  else match Hex.decode digits with
    | .error fault => .error (.badDigit text fault)
    | .ok bytes => ofBytes bytes

def hash (message : Bytes) : Digest := ⟨Sha2.sha256 message, Sha2.length_sha256 message⟩

def sort (digests : List Digest) : List Digest := digests.mergeSort fun a b => decide (a ≤ b)

end Digest

end LedgerAudit
