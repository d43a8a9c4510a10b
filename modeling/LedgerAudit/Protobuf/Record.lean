import LedgerAudit.Bytes

/-!
# Protobuf records

An encoded message is a row of records: a tag with the kind of its payload, then the payload. A
payload is a number in base 128, or bytes behind their length.
-/

namespace LedgerAudit.Protobuf

/-- The base-128 digits of `n`, lowest first, each but the last marked by its high bit. At most
`more` digits follow the first. -/
def varintWithin : (more : Nat) → (n : Nat) → Bytes
  | 0, n => [UInt8.ofNat (n % 128)]
  | more + 1, n =>
    if n < 128 then [UInt8.ofNat n]
    else UInt8.ofNat (128 + n % 128) :: varintWithin more (n / 128)

def varint (n : Nat) : Bytes := varintWithin n.log2 n

inductive Payload
  | varint (n : Nat)
  | bytes (content : Bytes)
deriving DecidableEq, Repr

/-- The number that marks the kind of payload in front of it. -/
def Payload.wireType : Payload → Nat
  | .varint _ => 0
  | .bytes _ => 2

def Payload.encode : Payload → Bytes
  | .varint n => Protobuf.varint n
  | .bytes content => Protobuf.varint content.length ++ content

structure Record where
  tag : Nat
  payload : Payload
deriving DecidableEq, Repr

namespace Record

def encode (r : Record) : Bytes := varint (8 * r.tag + r.payload.wireType) ++ r.payload.encode

def encodeAll (records : List Record) : Bytes := records.flatMap encode

@[simp] theorem encodeAll_nil : encodeAll [] = [] := rfl

@[simp] theorem encodeAll_cons (r : Record) (rs : List Record) :
    encodeAll (r :: rs) = r.encode ++ encodeAll rs := rfl

@[simp] theorem encodeAll_append (rs ss : List Record) :
    encodeAll (rs ++ ss) = encodeAll rs ++ encodeAll ss := List.flatMap_append

end Record

end LedgerAudit.Protobuf
