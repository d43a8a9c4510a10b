import LedgerAudit.Certificate.Basic
import LedgerAudit.Curve.Named

/-!
# Node keys

A node signs roots with the key in its certificate. The key is a point of one of two curves, and a
signature is two numbers in strict DER.
-/

namespace LedgerAudit

structure NodeKey where
  curve : NamedCurve
  point : Point
deriving DecidableEq, Repr

namespace NodeKey

/-- The numbers of the object identifiers in use, with points between them. -/
def ecPublicKey : String := "1.2.840.10045.2.1"

def curveOf? (name : String) : Option NamedCurve :=
  if name = "1.2.840.10045.3.1.7" then some .p256
  else if name = "1.3.132.0.34" then some .p384
  else none

/-- Reads a point: uncompressed, compressed with the parity of its second coordinate, or compact,
where the smaller second coordinate is meant. -/
def pointOf? (c : Curve) : Bytes → Option Point
  | [] => none
  | form :: coordinates =>
    let x := Bytes.toNat (coordinates.take c.width)
    let y := Bytes.toNat (coordinates.drop c.width)
    if form = 4 then
      if coordinates.length = 2 * c.width ∧ c.isOnCurve ⟨x, y⟩ then some ⟨x, y⟩ else none
    else if coordinates.length = c.width then
      if form = 2 ∨ form = 3 then do
        let root ← c.lift? x
        return ⟨x, if root % 2 = form.toNat % 2 then root else c.prime - root⟩
      else if form = 5 then do
        let root ← c.lift? x
        return ⟨x, min root (c.prime - root)⟩
      else none
    else none

def pointBytes (k : NodeKey) : Bytes :=
  let width := k.curve.curve.width
  4 :: Bytes.ofNat width k.point.x ++ Bytes.ofNat width k.point.y

def ofSubjectKey (s : SubjectKey) : Except CertificateFault NodeKey :=
  let algorithm := Der.identifierText s.algorithm.algorithm
  if algorithm ≠ ecPublicKey then .error (.keyAlgorithm algorithm)
  else match s.algorithm.parameter with
    | none => .error .noCurve
    | some parameter =>
      match curveOf? (Der.identifierText parameter) with
      | none => .error (.curve (Der.identifierText parameter))
      | some curve =>
        match pointOf? curve.curve s.key with
        | none => .error .point
        | some point => .ok ⟨curve, point⟩

def ofCertificate (cert : Bytes) : Except CertificateFault NodeKey := do
  ofSubjectKey (← Certificate.read cert).subjectKey

/-- Reads a number of at most `width` bytes, in strict DER. -/
def readNumber (width : Nat) : Bytes → Option (Nat × Bytes)
  | 2 :: length :: rest =>
    if 128 ≤ length.toNat ∨ rest.length < length.toNat then none
    else do
      let n ← Der.natural? (rest.take length.toNat)
      if n < 1 <<< (8 * width) then return (n, rest.drop length.toNat) else none
  | _ => none

def signatureOf? (width : Nat) : Bytes → Option (Nat × Nat)
  | 48 :: length :: rest =>
    if 128 ≤ length.toNat ∨ rest.length ≠ length.toNat then none
    else do
      let (r, rest) ← readNumber width rest
      let (s, rest) ← readNumber width rest
      if rest.isEmpty then return (r, s) else none
  | _ => none

/-- The number that is signed: the first bytes of a hash, as many as a coordinate has. A hash that
is shorter than half of that is not accepted. -/
def hashNumber? (width : Nat) (prehash : Bytes) : Option Nat :=
  if prehash.length < width / 2 then none else some (Bytes.toNat (prehash.take width))

def accepts (k : NodeKey) (hash r s : Nat) : Bool :=
  let c := k.curve.curve
  let inverse := invMod c.order s
  match c.xOf? (c.combination (hash * inverse % c.order) (r * inverse % c.order) k.point) with
  | none => false
  | some x => x % c.order == r

/-- Checks a signature over a hash. One that is not well-formed does not hold. -/
def verify (k : NodeKey) (prehash signature : Bytes) : Bool :=
  let c := k.curve.curve
  match signatureOf? c.width signature, hashNumber? c.width prehash with
  | some (r, s), some hash =>
    0 < r && r < c.order && 0 < s && s < c.order && k.accepts hash r s
  | _, _ => false

end NodeKey

/-- Whether a signature over a root holds under the key of a certificate. -/
def verifyRoot (cert signature : Bytes) (root : Digest) : Except CertificateFault Bool := do
  return (← NodeKey.ofCertificate cert).verify root.bytes signature

end LedgerAudit
