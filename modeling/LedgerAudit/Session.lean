import LedgerAudit.Audit.Basic

/-!
# Sessions

A session holds a receipt, an operation and a policy, and changes them step by step. A step that
cannot be taken leaves the session as it is.
-/

namespace LedgerAudit

structure Session where
  receipt : Receipt
  operation : Operation
  policy : Policy

namespace Session

inductive Step
  | verify
  | push (step : ProofStep)
  | insert (index : Nat) (step : ProofStep)
  | pop
  | reverse
  | turn (index : Nat)
  | setWriteSet (digest : Digest)
  | setClaims (digest : Digest)
  | bind
  | setEvidence (text : String)
  | flipWriteSet (index : Nat) (mask : UInt8)
  | flipClaims (index : Nat) (mask : UInt8)
  | flipSignature (index : Nat) (mask : UInt8)
  | setSignature (bytes : Bytes)
  | setCert (bytes : Bytes)
  | setNodeId (text : String)
  | setOperation (operation : Operation)
  | setPolicy (policy : Policy)

inductive Fault
  | emptyProof
  | noSuchStep
  | outOfRange
deriving DecidableEq, Repr

def Fault.message : Fault → String
  | .emptyProof => "empty proof"
  | .noSuchStep => "no such step"
  | .outOfRange => "index out of range"

def flipByte (bytes : Bytes) (index : Nat) (mask : UInt8) : Bytes :=
  bytes.modify index (· ^^^ mask)

@[simp] theorem length_flipByte (bytes : Bytes) (index : Nat) (mask : UInt8) :
    (flipByte bytes index mask).length = bytes.length := by
  simp [flipByte]

def flipDigest (d : Digest) (index : Nat) (mask : UInt8) : Digest :=
  ⟨flipByte d.bytes index mask, by simp [d.length_bytes]⟩

def withProof (s : Session) (proof : List ProofStep) : Session :=
  { s with receipt := { s.receipt with proof := proof } }

def withComponents (s : Session) (change : LeafComponents → LeafComponents) : Session :=
  { s with receipt := { s.receipt with leafComponents := change s.receipt.leafComponents } }

def turnStep (step : ProofStep) : ProofStep := { step with direction := step.direction.opposite }

def apply (s : Session) : Step → Except Fault Session
  | .verify => .ok s
  | .push step => .ok (s.withProof (s.receipt.proof ++ [step]))
  | .insert index step =>
    let proof := s.receipt.proof
    .ok (s.withProof (proof.insertIdx (min index proof.length) step))
  | .pop =>
    if s.receipt.proof.isEmpty then .error .emptyProof
    else .ok (s.withProof s.receipt.proof.dropLast)
  | .reverse => .ok (s.withProof s.receipt.proof.reverse)
  | .turn index =>
    if index < s.receipt.proof.length then
      .ok (s.withProof (s.receipt.proof.modify index turnStep))
    else .error .noSuchStep
  | .setWriteSet digest => .ok (s.withComponents fun c => { c with writeSetDigest := digest })
  | .setClaims digest => .ok (s.withComponents fun c => { c with claimsDigest := digest })
  | .bind =>
    .ok (s.withComponents fun c => { c with claimsDigest := s.operation.claimsDigest })
  | .setEvidence text => .ok (s.withComponents fun c => { c with commitEvidence := ⟨text⟩ })
  | .flipWriteSet index mask =>
    if index < 32 then
      .ok (s.withComponents fun c =>
        { c with writeSetDigest := flipDigest c.writeSetDigest index mask })
    else .error .outOfRange
  | .flipClaims index mask =>
    if index < 32 then
      .ok (s.withComponents fun c =>
        { c with claimsDigest := flipDigest c.claimsDigest index mask })
    else .error .outOfRange
  | .flipSignature index mask =>
    if index < s.receipt.signature.length then
      let signature := flipByte s.receipt.signature index mask
      .ok { s with receipt := { s.receipt with signature := signature } }
    else .error .outOfRange
  | .setSignature bytes => .ok { s with receipt := { s.receipt with signature := bytes } }
  | .setCert bytes => .ok { s with receipt := { s.receipt with cert := bytes } }
  | .setNodeId text => .ok { s with receipt := { s.receipt with nodeId := text } }
  | .setOperation operation => .ok { s with operation := operation }
  | .setPolicy policy => .ok { s with policy := policy }

def verdict (s : Session) : Except Rejection Verified := s.policy.verify s.receipt s.operation

end Session

end LedgerAudit
