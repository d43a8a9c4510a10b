import LedgerAudit.Main
import LedgerAudit.Proofs.Audit.Service
import LedgerAudit.Proofs.Audit.Stages
import LedgerAudit.Proofs.Audit.Substitution
import LedgerAudit.Proofs.Base64.Canonical
import LedgerAudit.Proofs.Certificate.Packaging
import LedgerAudit.Proofs.Digest.Text
import LedgerAudit.Proofs.Evidence
import LedgerAudit.Proofs.Json.Scalars
import LedgerAudit.Proofs.JsonForm
import LedgerAudit.Proofs.Merkle.Binding
import LedgerAudit.Proofs.Merkle.Opening
import LedgerAudit.Proofs.Merkle.Replacement
import LedgerAudit.Proofs.Message.Canonical
import LedgerAudit.Proofs.Message.NullOperand
import LedgerAudit.Proofs.Presentation
import LedgerAudit.Proofs.Receipt.Decoded
import LedgerAudit.Proofs.Receipt.Enveloped
import LedgerAudit.Session
