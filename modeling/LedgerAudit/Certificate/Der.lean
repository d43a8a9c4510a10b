import LedgerAudit.Certificate.Ber
import LedgerAudit.Hex

/-!
# DER elements

An element is a tag, a length and as many bytes of content: no length is left open.
-/

namespace LedgerAudit.Der

structure Header where
  /-- The two highest bits of the first byte. -/
  sort : Nat
  constructed : Bool
  tag : Nat
  length : Nat
deriving DecidableEq, Repr

structure Element where
  header : Header
  content : Bytes
deriving DecidableEq, Repr

namespace Tag

def boolean : Nat := 1
def integer : Nat := 2
def bitString : Nat := 3
def octetString : Nat := 4
def sequence : Nat := 16
def utcTime : Nat := 23
def generalizedTime : Nat := 24

end Tag

/-- The sort of tags whose meaning depends on where they stand. -/
def contextSpecific : Nat := 2

def readHeader (bytes : Bytes) : Option (Header × Bytes) := do
  let (header, rest) ← Ber.readHeader bytes
  match header.extent with
  | .definite length => return (⟨header.sort, header.constructed, header.tag, length⟩, rest)
  | .indefinite => none

def read (bytes : Bytes) : Option (Element × Bytes) := do
  let (header, rest) ← readHeader bytes
  if rest.length < header.length then none
  else return (⟨header, rest.take header.length⟩, rest.drop header.length)

def readTagged (tag : Nat) (bytes : Bytes) : Option (Element × Bytes) := do
  let (e, rest) ← read bytes
  if e.header.tag = tag then return (e, rest) else none

/-- The content of a sequence, known by its tag alone. -/
def readSequence (bytes : Bytes) : Option (Bytes × Bytes) := do
  let (e, rest) ← readTagged Tag.sequence bytes
  return (e.content, rest)

def readPrimitive (bytes : Bytes) : Option (Element × Bytes) := do
  let (e, rest) ← read bytes
  if e.header.constructed then none else return (e, rest)

/-- The bytes of a bit string, given its content. Unused bits are zero, and a last byte of zero may
be unused as a whole. -/
def bitsOf? : Bytes → Option Bytes
  | [] => none
  | unused :: data =>
    match data.getLast? with
    | none => if unused = 0 then some [] else none
    | some last =>
      if unused.toNat ≤ 8 ∧ last.toNat % 1 <<< unused.toNat = 0 then some data else none

def readBitString (bytes : Bytes) : Option (Bytes × Bytes) := do
  let (e, rest) ← readTagged Tag.bitString bytes
  if e.header.constructed then none else return (← bitsOf? e.content, rest)

/-- A number that is not negative, in the fewest bytes. -/
def natural? : Bytes → Option Nat
  | [] => none
  | [b] => if b.toNat < 128 then some b.toNat else none
  | b :: c :: rest =>
    if b.toNat < 128 ∧ (b = 0 → 128 ≤ c.toNat) then some (Bytes.toNat (b :: c :: rest)) else none

def readNatural (bytes : Bytes) : Option (Nat × Bytes) := do
  let (e, rest) ← readTagged Tag.integer bytes
  if e.header.constructed then none else return (← natural? e.content, rest)

/-- A bit string under a context-specific tag in place of its own; it may be missing. Any first
byte is taken for the number of its unused bits. -/
def skipTaggedBitString (tag : Nat) (bytes : Bytes) : Option Bytes :=
  match readHeader bytes with
  | none => some bytes
  | some (header, _) =>
    if header.tag ≠ tag then some bytes
    else do
      let (e, rest) ← read bytes
      if e.header.sort = contextSpecific ∧ e.content ≠ [] then return rest else none

/-- The arcs after the second, each in base 128 and modulo 2^64; one that is unfinished at the end
counts. -/
def arcs (sum : Nat) (pending : Bool) : Bytes → List Nat
  | [] => if pending then [sum] else []
  | b :: rest =>
    let next := (128 * sum + b.toNat % 128) % UInt64.size
    if b.toNat < 128 then next :: arcs 0 false rest else arcs next true rest

/-- How many digits in base 128 the longest finished arc has, leading zeros included. -/
def longestArc (digits : Nat) : Bytes → Nat
  | [] => 0
  | b :: rest =>
    if b.toNat < 128 then max (digits + 1) (longestArc 0 rest) else longestArc (digits + 1) rest

/-- The numbers of an object identifier, given its content. -/
def objectIdentifier : Bytes → List Nat
  | [] => []
  | [0] => [0]
  | first :: rest => first.toNat / 40 :: first.toNat % 40 :: arcs 0 false rest

/-- An object identifier as text: points between its numbers, or, where the digits of a finished arc
take more than 64 bits, blanks between its bytes in hexadecimal. -/
def identifierText (content : Bytes) : String :=
  if 7 * longestArc 0 content.tail ≤ 64 then
    String.intercalate "." ((objectIdentifier content).map toString)
  else String.intercalate " " (content.map fun b => String.ofList (Hex.pair b))

end LedgerAudit.Der
