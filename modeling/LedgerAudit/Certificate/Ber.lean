import LedgerAudit.Bytes

/-!
# BER elements

An element is a tag, a length and content. A length may be written with more bytes than it needs,
and it may be left open: then the content runs to an end mark, an element of tag zero without
content.
-/

namespace LedgerAudit.Ber

inductive Extent where
  | definite (length : Nat)
  | indefinite
deriving DecidableEq, Repr

structure Header where
  /-- The two highest bits of the first byte. -/
  sort : Nat
  constructed : Bool
  tag : Nat
  extent : Extent
deriving DecidableEq, Repr

/-- Continues a tag of several bytes, at most `more` of them. -/
def readLongTag (tag : Nat) : (more : Nat) → Bytes → Option (Nat × Bytes)
  | 0, _ => none
  | _, [] => none
  | more + 1, b :: rest =>
    let next := (128 * tag + b.toNat % 128) % UInt32.size
    if b.toNat < 128 then some (next, rest) else readLongTag next more rest

def readTag (first : UInt8) (rest : Bytes) : Option (Nat × Bytes) :=
  if first.toNat % 32 = 31 then readLongTag 0 5 rest else some (first.toNat % 32, rest)

def readExtent : Bytes → Option (Extent × Bytes)
  | [] => none
  | b :: rest =>
    let n := b.toNat
    if n < 128 then some (.definite n, rest)
    else if n = 128 then some (.indefinite, rest)
    else if n = 255 ∨ rest.length < n - 128 then none
    else
      let length := Bytes.toNat (rest.take (n - 128))
      if length < UInt64.size then some (.definite length, rest.drop (n - 128)) else none

def readHeader : Bytes → Option (Header × Bytes)
  | [] => none
  | first :: rest => do
    let (tag, rest) ← readTag first rest
    let (extent, rest) ← readExtent rest
    return (⟨first.toNat / 64, first.toNat / 32 % 2 == 1, tag, extent⟩, rest)

/-- As many elements of open length as may stand one inside another. -/
def maxOpen : Nat := 49

/-- Passes over the content of `opened` elements of open length, one inside another, and over
their end marks. There are at most `fuel` elements to read. -/
def skipOpen : (fuel opened : Nat) → Bytes → Option Bytes
  | _, 0, bytes => some bytes
  | 0, _ + 1, _ => none
  | fuel + 1, outer + 1, bytes => do
    let (header, rest) ← readHeader bytes
    match header.extent with
    | .definite length =>
      if rest.length < length then none
      else if length = 0 ∧ header.tag = 0 then skipOpen fuel outer rest
      else skipOpen fuel (outer + 1) (rest.drop length)
    | .indefinite =>
      if header.constructed ∧ outer + 1 < maxOpen then skipOpen fuel (outer + 2) rest else none

def skipContent (header : Header) (rest : Bytes) : Option Bytes :=
  match header.extent with
  | .definite length => if rest.length < length then none else some (rest.drop length)
  | .indefinite => if header.constructed then skipOpen rest.length 1 rest else none

def skipTagged (tag : Nat) (bytes : Bytes) : Option Bytes := do
  let (header, rest) ← readHeader bytes
  if header.tag = tag then skipContent header rest else none

end LedgerAudit.Ber
