import LedgerAudit.Json.Reader
import LedgerAudit.Operation
import LedgerAudit.Merkle.Path

/-!
# Why a receipt is rejected

Malformed input is the fault of whoever hands it in. A bad signature, an untrusted node and a
mismatch of claims are the fault of the service.
-/

namespace LedgerAudit

inductive StepFault
  | noTag
  | severalTags (tags : List String)
  | unknownTag (tag : String)
  | notText (tag : String)
  | digest (fault : Digest.Fault)
deriving DecidableEq, Repr

def StepFault.message (index : Nat) : StepFault → String
  | .noTag => s!"proof[{index}]: missing direction tag"
  | .severalTags tags =>
    s!"proof[{index}]: expected one direction tag, found {Text.quotedList tags}"
  | .unknownTag tag => s!"proof[{index}]: unknown direction tag {Text.quoted tag}"
  | .notText tag => s!"proof[{index}].{tag}: expected a hex string"
  | .digest fault => s!"proof[{index}]: Malformed digest: {fault.message}"

inductive ReceiptFault
  | notJson (fault : Json.SyntaxFault)
  | envelope (fault : Json.Fault)
  | document (fault : Json.Fault)
  | missing (part : String)
  | signatureText (fault : Base64.Fault)
  | step (index : Nat) (fault : StepFault)
  | leafDigest (part : String) (fault : Digest.Fault)
  | operation (fault : Operation.Fault)

def ReceiptFault.message : ReceiptFault → String
  | .notJson fault => s!"invalid JSON: {fault.message}"
  | .envelope fault => s!"envelope: {fault.message}"
  | .document fault => fault.message
  | .missing part => s!"missing {part}"
  | .signatureText fault => s!"signature is not base64: {fault.message}"
  | .step index fault => fault.message index
  | .leafDigest part fault => s!"{part}: Malformed digest: {fault.message}"
  | .operation fault => fault.message

def ReceiptFault.require {α : Type} (part : String) (a : Option α) : Except ReceiptFault α :=
  match a with
  | some a => .ok a
  | none => .error (.missing part)

inductive CertificateFault
  | pem
  | der
  | keyAlgorithm (found : String)
  | noCurve
  | curve (found : String)
  | point
  | signatureAlgorithm (found : String)
deriving DecidableEq, Repr

def CertificateFault.message : CertificateFault → String
  | .pem => "invalid PEM"
  | .der => "invalid X.509 DER"
  | .keyAlgorithm found => s!"unsupported public key algorithm {found}"
  | .noCurve => "EC key without a named curve"
  | .curve found => s!"unsupported curve {found}"
  | .point => "invalid EC point: signature error"
  | .signatureAlgorithm found => s!"unsupported certificate signature algorithm {found}"

inductive Rejection
  | malformedDigest (fault : Digest.Fault)
  | malformedReceipt (fault : ReceiptFault)
  | unsupportedKind (found : String)
  | certificate (fault : CertificateFault)
  | signatureInvalid
  | untrustedNode (nodeId : String)
  | claimsMismatch (expected computed : Digest)

namespace Rejection

def message : Rejection → String
  | .malformedDigest fault => s!"Malformed digest: {fault.message}"
  | .malformedReceipt fault => s!"Malformed receipt: {fault.message}"
  | .unsupportedKind found => s!"Unsupported operation kind: {found}"
  | .certificate fault => s!"Certificate parse error: {fault.message}"
  | .signatureInvalid => "Signature over reconstructed root is invalid"
  | .untrustedNode nodeId => s!"Node {nodeId} is not trusted"
  | .claimsMismatch expected computed =>
    s!"Claims digest mismatch: receipt commits to {expected}, operation hashes to {computed}"

def isServiceFault : Rejection → Bool
  | .signatureInvalid | .untrustedNode _ | .claimsMismatch _ _ => true
  | _ => false

def kind : Rejection → String
  | .malformedDigest _ => "malformed_digest"
  | .malformedReceipt _ => "malformed_receipt"
  | .unsupportedKind _ => "unsupported_operation_kind"
  | .certificate _ => "certificate_parse_error"
  | .signatureInvalid => "signature_invalid"
  | .untrustedNode _ => "untrusted_node"
  | .claimsMismatch _ _ => "claims_mismatch"

end Rejection

end LedgerAudit
