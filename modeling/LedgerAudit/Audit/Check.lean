import LedgerAudit.Audit.Basic

/-!
# Checking texts

The whole way from texts to a verdict: the kind and the two bodies of the operation, the service
certificate, the receipt, and then its audit.
-/

namespace LedgerAudit

def Operation.ofBodies (kind : String) (request response : Json) : Except Rejection Operation := do
  match OperationKind.ofName? kind with
  | none => throw (.unsupportedKind kind)
  | some kind =>
    match Operation.read kind request response with
    | .ok op => return op
    | .error fault => throw (.malformedReceipt (.operation fault))

/-- Accepts what the service endorsed, or every node where no service is named. -/
def Policy.ofServiceCertificate (cert : Option Bytes) : Except Rejection Policy :=
  match cert with
  | none => .ok .anyNode
  | some cert => ((NodeKey.ofCertificate cert).map Policy.endorsedBy).mapError .certificate

namespace Audit

open Traced

def readDocument (text : String) : Except Rejection ReceiptDocument :=
  (ReceiptDocument.parse text).mapError .malformedReceipt

def readReceipt (text : String) : Except Rejection Receipt :=
  (Receipt.parse text).mapError .malformedReceipt

/-- Every stage after the files are read, with its events. -/
def checkTraced (receipt kind : String) (request response : Json) (serviceCert : Option Bytes) :
    Traced Verified := do
  let op ← silent (Operation.ofBodies kind request response)
  let policy ← silent (Policy.ofServiceCertificate serviceCert)
  let document ← silent (readDocument receipt)
  policy.auditDocument document op

def check (receipt kind : String) (request response : Json) (serviceCert : Option Bytes) :
    Except Rejection Verified :=
  (checkTraced receipt kind request response serviceCert).outcome

end Audit

end LedgerAudit
