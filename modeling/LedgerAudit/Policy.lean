import LedgerAudit.NodeKey

/-!
# Events and trust policies

Checking a receipt leaves a trail of events. A policy decides, from the id and the certificate of a
node, whether it may sign receipts, and may leave remarks of its own.
-/

namespace LedgerAudit

inductive Event
  | leaf (leaf : Digest)
  | root (root : Digest) (steps : Nat)
  | signatureVerified (nodeId : String)
  | claimsBound (claims : Digest) (kind : OperationKind)
  | endorsementUnchecked (nodeId : String) (fault : CertificateFault)
  | rejected (kind : OperationKind) (nodeId : String) (rejection : Rejection)
  | undecodable (kind : OperationKind) (rejection : Rejection)

namespace Event

inductive Level
  | debug
  | warn
deriving DecidableEq, Repr

def Level.name : Level → String
  | .debug => "DEBUG"
  | .warn => "WARN"

def level : Event → Level
  | .leaf _ | .root _ _ | .signatureVerified _ | .claimsBound _ _ => .debug
  | .endorsementUnchecked _ _ | .rejected _ _ _ | .undecodable _ _ => .warn

def message : Event → String
  | .leaf d => s!"leaf {d}"
  | .root d steps => s!"root {d} ({steps} proof steps)"
  | .signatureVerified nodeId => s!"signature by node {nodeId} verified"
  | .claimsBound claims kind => s!"claims digest {claims} bound to {kind.name}"
  | .endorsementUnchecked nodeId fault =>
    let reason := (Rejection.certificate fault).message
    s!"Cannot check endorsement of node {nodeId}: {reason}"
  | .rejected kind nodeId why =>
    s!"Rejected {kind.name} receipt from node {nodeId}: {why.message}"
  | .undecodable kind why => s!"Rejected {kind.name} receipt: {why.message}"

end Event

namespace Certificate

/-- The hash that the outer signature is over: of the signed part, by the algorithm named. -/
def prehash (c : Certificate) : Except CertificateFault Bytes :=
  let algorithm := Der.identifierText c.signatureAlgorithm.algorithm
  if algorithm = "1.2.840.10045.4.3.2" then .ok (Sha2.sha256 c.signed)
  else if algorithm = "1.2.840.10045.4.3.3" then .ok (Sha2.sha384 c.signed)
  else if algorithm = "1.2.840.10045.4.3.4" then .ok (Sha2.sha512 c.signed)
  else .error (.signatureAlgorithm algorithm)

end Certificate

/-- Whether the holder of a key signed a certificate. Validity periods are not checked. -/
def NodeKey.endorses (service : NodeKey) (cert : Bytes) : Except CertificateFault Bool := do
  let c ← Certificate.read cert
  return service.verify (← c.prehash) c.signature

structure Policy where
  accepts : (nodeId : String) → (cert : Bytes) → Bool
  remarks : (nodeId : String) → (cert : Bytes) → List Event

namespace Policy

def anyNode : Policy := ⟨fun _ _ => true, fun _ _ => []⟩

def nodes (ids : List String) : Policy := ⟨fun nodeId _ => ids.contains nodeId, fun _ _ => []⟩

def endorsedBy (service : NodeKey) : Policy where
  accepts _ cert :=
    match service.endorses cert with
    | .ok endorsed => endorsed
    | .error _ => false
  remarks nodeId cert :=
    match service.endorses cert with
    | .ok _ => []
    | .error fault => [.endorsementUnchecked nodeId fault]

end Policy

end LedgerAudit
