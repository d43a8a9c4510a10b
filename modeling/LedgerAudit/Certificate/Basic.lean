import LedgerAudit.Certificate.Pem
import LedgerAudit.Certificate.Time
import LedgerAudit.Rejection

/-!
# Certificates

Of a certificate only four things are kept: the signed part as it stands, the subject's key, the
algorithm of the outer signature and that signature. The other fields are checked in outline.
-/

namespace LedgerAudit

/-- An algorithm and its parameter: the contents of two elements. -/
structure AlgorithmIdentifier where
  algorithm : Bytes
  parameter : Option Bytes
deriving DecidableEq, Repr

structure SubjectKey where
  algorithm : AlgorithmIdentifier
  key : Bytes
deriving DecidableEq, Repr

structure Certificate where
  /-- The signed part, header included. -/
  signed : Bytes
  subjectKey : SubjectKey
  signatureAlgorithm : AlgorithmIdentifier
  signature : Bytes
deriving DecidableEq, Repr

namespace AlgorithmIdentifier

open Der

/-- The first element is taken for an object identifier, whatever its tag. -/
def ofContent (content : Bytes) : Option AlgorithmIdentifier := do
  let (algorithm, rest) ← readPrimitive content
  if rest.isEmpty then return ⟨algorithm.content, none⟩
  else
    let (parameter, _) ← Der.read rest
    return ⟨algorithm.content, some parameter.content⟩

def read (bytes : Bytes) : Option (AlgorithmIdentifier × Bytes) := do
  let (e, rest) ← readTagged Tag.sequence bytes
  return (← ofContent e.content, rest)

end AlgorithmIdentifier

namespace SubjectKey

open Der

def read (bytes : Bytes) : Option (SubjectKey × Bytes) := do
  let (content, rest) ← readSequence bytes
  let (algorithm, inner) ← AlgorithmIdentifier.read content
  let (key, _) ← readBitString inner
  return (⟨algorithm, key⟩, rest)

end SubjectKey

namespace Certificate

open Der

/-- A version may stand in front of the other fields; it is a number below 2^32. -/
def skipVersion (bytes : Bytes) : Option Bytes := do
  let (e, rest) ← Der.read bytes
  if e.header.tag ≠ 0 then return bytes
  else if e.header.sort ≠ contextSpecific then none
  else do
    let (version, _) ← readNatural e.content
    if version < UInt32.size then return rest else none

def skipSequence (bytes : Bytes) : Option Bytes := (readSequence bytes).map Prod.snd

def skipValidity (bytes : Bytes) : Option Bytes := do
  let (content, rest) ← readSequence bytes
  let _ ← Time.skip (← Time.skip content)
  return rest

/-- An identifier, a mark of one byte that may be missing, and a value. -/
def isExtension (content : Bytes) : Bool := (do
  let (_, rest) ← readPrimitive content
  let afterMark := match readTagged Tag.boolean rest with
    | some (mark, after) => if mark.content.length = 1 then after else rest
    | none => rest
  let (value, _) ← readTagged Tag.octetString afterMark
  return !value.header.constructed).getD false

/-- Whether bytes are extensions one after the other, at most `fuel` of them. -/
def areExtensions : (fuel : Nat) → Bytes → Bool
  | _, [] => true
  | 0, _ => false
  | fuel + 1, bytes =>
    match readSequence bytes with
    | some (content, rest) => isExtension content && areExtensions fuel rest
    | none => false

/-- The extensions come last: nothing may follow them. -/
def endsInExtensions (bytes : Bytes) : Bool :=
  bytes.isEmpty ||
    match readHeader bytes with
    | some (header, rest) =>
      header.tag == 3 &&
        match readSequence rest with
        | some (content, after) => after.isEmpty && areExtensions content.length content
        | none => false
    | none => false

/-- The key of the subject, from the content of the signed part. The serial number is the one field
whose length may be left open. -/
def readSigned (content : Bytes) : Option SubjectKey := do
  let rest ← skipVersion content
  let rest ← Ber.skipTagged Tag.integer rest
  let (_, rest) ← AlgorithmIdentifier.read rest
  let rest ← skipSequence rest
  let rest ← skipValidity rest
  let rest ← skipSequence rest
  let (subjectKey, rest) ← SubjectKey.read rest
  let rest ← skipTaggedBitString 1 rest
  let rest ← skipTaggedBitString 2 rest
  if endsInExtensions rest then return subjectKey else none

/-- Reads a certificate; bytes after it are ignored. -/
def ofDer? (der : Bytes) : Option Certificate := do
  let (content, _) ← readSequence der
  let (signedContent, rest) ← readSequence content
  let subjectKey ← readSigned signedContent
  let (signatureAlgorithm, inner) ← AlgorithmIdentifier.read rest
  let (signature, _) ← readBitString inner
  return {
    signed := content.take (content.length - rest.length)
    subjectKey := subjectKey
    signatureAlgorithm := signatureAlgorithm
    signature := signature }

/-- Certificate bytes as DER: an armour is taken off, and anything else is passed on. -/
def derOf (cert : Bytes) : Except CertificateFault Bytes :=
  if Pem.isArmoured cert then
    match Pem.decode cert with
    | some der => .ok der
    | none => .error .pem
  else .ok cert

def parse (der : Bytes) : Except CertificateFault Certificate :=
  match ofDer? der with
  | some c => .ok c
  | none => .error .der

def read (cert : Bytes) : Except CertificateFault Certificate := do parse (← derOf cert)

end Certificate

end LedgerAudit
