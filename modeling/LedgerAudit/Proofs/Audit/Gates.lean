import LedgerAudit.Audit.Basic

/-!
# The gates of an audit

The signature and the trust in the node do not look at the operation; the claims are held against
it at the end. A verdict is therefore that of the first two gates, then of the claims.
-/

namespace LedgerAudit.Policy

open Traced

/-- What an audit attests to when every gate opens. -/
def attested (r : Receipt) : Verified := ⟨r.nodeId, r.leaf, r.root, r.txId?⟩

/-- The gates before the claims. -/
def nodeGates (policy : Policy) (r : Receipt) : Except Rejection Unit := do
  (signatureGate r r.root).outcome
  (policy.trustGate r).outcome

theorem outcome_signatureGate (r : Receipt) (root : Digest) :
    (signatureGate r root).outcome =
      match verifyRoot r.cert r.signature root with
      | .error fault => .error (.certificate fault)
      | .ok holds => if holds then .ok () else .error .signatureInvalid := by
  rw [signatureGate]
  split <;> simp_all

theorem outcome_trustGate (policy : Policy) (r : Receipt) :
    (policy.trustGate r).outcome =
      if policy.accepts r.nodeId r.cert then .ok () else .error (.untrustedNode r.nodeId) := by
  rw [trustGate, outcome_bind, outcome_noteAll]
  split <;> rfl

theorem outcome_claimsGate (r : Receipt) (op : Operation) :
    (claimsGate r op).outcome =
      if op.claimsDigest = r.leafComponents.claimsDigest then .ok ()
      else .error (.claimsMismatch r.leafComponents.claimsDigest op.claimsDigest) := by
  rw [claimsGate]
  split <;> rfl

theorem verify_eq (policy : Policy) (r : Receipt) (op : Operation) :
    policy.verify r op = (do
      policy.nodeGates r
      (claimsGate r op).outcome
      return attested r) := by
  rw [verify, audit, outcome_noteRejection, gates, nodeGates]
  simp only [outcome_bind, outcome_note, outcome_pure]
  cases hsignature : (signatureGate r (foldRoot r.leaf r.proof)).outcome with
  | error why => simp [bind, Except.bind, Receipt.root, hsignature]
  | ok =>
      cases (policy.trustGate r).outcome <;>
        simp [bind, Except.bind, pure, Except.pure, attested, Receipt.root, hsignature]

/-- A document is decoded before anything is asked of it. -/
theorem outcome_auditDocument (policy : Policy) (d : ReceiptDocument) (op : Operation) :
    (policy.auditDocument d op).outcome = (do
      let r ← d.toReceipt.mapError .malformedReceipt
      policy.verify r op) := by
  rw [auditDocument, outcome_bind, outcome_noteRejection, outcome_silent]
  rfl

variable {policy : Policy} {r : Receipt} {op : Operation} {v : Verified}

theorem nodeGates_eq_ok_iff :
    policy.nodeGates r = .ok () ↔
      verifyRoot r.cert r.signature r.root = .ok true ∧ policy.accepts r.nodeId r.cert := by
  rw [nodeGates, outcome_signatureGate, outcome_trustGate]
  cases verifyRoot r.cert r.signature r.root with
  | error fault => simp [bind, Except.bind]
  | ok holds =>
      cases holds <;> by_cases htrusted : policy.accepts r.nodeId r.cert <;>
        simp [bind, Except.bind, htrusted]

/-- Past the first gates only the claims decide. -/
theorem verify_of_nodeGates (h : policy.nodeGates r = .ok ()) (op : Operation) :
    policy.verify r op =
      if op.claimsDigest = r.leafComponents.claimsDigest then .ok (attested r)
      else .error (.claimsMismatch r.leafComponents.claimsDigest op.claimsDigest) := by
  rw [verify_eq, h, outcome_claimsGate]
  split <;> rfl

theorem verify_eq_ok_iff :
    policy.verify r op = .ok v ↔
      policy.nodeGates r = .ok () ∧ op.claimsDigest = r.leafComponents.claimsDigest ∧
        attested r = v := by
  cases hnode : policy.nodeGates r with
  | error why => simp [verify_eq, hnode, bind, Except.bind]
  | ok =>
      rw [verify_of_nodeGates hnode]
      by_cases hclaims : op.claimsDigest = r.leafComponents.claimsDigest <;> simp [hclaims]

end LedgerAudit.Policy
