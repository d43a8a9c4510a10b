import LedgerAudit.Policy
import LedgerAudit.Receipt.Document

/-!
# Auditing a receipt

A receipt is held against an operation gate by gate: the signature of the node over the root that
the receipt leads to, the trust in that node, and the claims of the operation. The first gate that
stays shut gives the rejection.
-/

namespace LedgerAudit

/-- An outcome and the events on the way to it. -/
structure Traced (α : Type) where
  events : List Event
  outcome : Except Rejection α

namespace Traced

variable {α β : Type}

instance : Monad Traced where
  pure a := ⟨[], .ok a⟩
  bind t f :=
    match t.outcome with
    | .error r => ⟨t.events, .error r⟩
    | .ok a => ⟨t.events ++ (f a).events, (f a).outcome⟩

def note (e : Event) : Traced Unit := ⟨[e], .ok ()⟩

def noteAll (es : List Event) : Traced Unit := ⟨es, .ok ()⟩

def reject (r : Rejection) : Traced α := ⟨[], .error r⟩

def silent (outcome : Except Rejection α) : Traced α := ⟨[], outcome⟩

def noteRejection (t : Traced α) (event : Rejection → Event) : Traced α :=
  match t.outcome with
  | .ok _ => t
  | .error r => ⟨t.events ++ [event r], t.outcome⟩

@[simp] theorem outcome_pure (a : α) : (pure a : Traced α).outcome = .ok a := rfl

@[simp] theorem outcome_bind (t : Traced α) (f : α → Traced β) :
    (t >>= f).outcome = t.outcome.bind fun a => (f a).outcome := by
  cases h : t.outcome <;> simp [bind, h, Except.bind]

@[simp] theorem outcome_note (e : Event) : (note e).outcome = .ok () := rfl

@[simp] theorem outcome_noteAll (es : List Event) : (noteAll es).outcome = .ok () := rfl

@[simp] theorem outcome_reject (r : Rejection) : (reject r : Traced α).outcome = .error r := rfl

@[simp] theorem outcome_silent (o : Except Rejection α) : (silent o).outcome = o := rfl

@[simp] theorem outcome_noteRejection (t : Traced α) (event : Rejection → Event) :
    (t.noteRejection event).outcome = t.outcome := by
  cases h : t.outcome <;> simp [noteRejection, h]

end Traced

/-- What an accepted receipt attests to. -/
structure Verified where
  nodeId : String
  leaf : Digest
  root : Digest
  /-- The position in the ledger, if the commit evidence names one. -/
  txId : Option TxId
deriving DecidableEq

namespace Policy

open Traced

/-- The signature of the node has to hold over the root. -/
def signatureGate (r : Receipt) (root : Digest) : Traced Unit :=
  match verifyRoot r.cert r.signature root with
  | .error fault => reject (.certificate fault)
  | .ok false => reject .signatureInvalid
  | .ok true => note (.signatureVerified r.nodeId)

def trustGate (policy : Policy) (r : Receipt) : Traced Unit := do
  noteAll (policy.remarks r.nodeId r.cert)
  if policy.accepts r.nodeId r.cert then pure () else reject (.untrustedNode r.nodeId)

def claimsGate (r : Receipt) (op : Operation) : Traced Unit :=
  if op.claimsDigest = r.leafComponents.claimsDigest then
    note (.claimsBound op.claimsDigest op.kind)
  else reject (.claimsMismatch r.leafComponents.claimsDigest op.claimsDigest)

def gates (policy : Policy) (r : Receipt) (op : Operation) : Traced Verified := do
  let leaf := r.leaf
  note (.leaf leaf)
  let root := foldRoot leaf r.proof
  note (.root root r.proof.length)
  signatureGate r root
  policy.trustGate r
  claimsGate r op
  return ⟨r.nodeId, leaf, root, r.txId?⟩

def audit (policy : Policy) (r : Receipt) (op : Operation) : Traced Verified :=
  (policy.gates r op).noteRejection fun why => .rejected op.kind r.nodeId why

def verify (policy : Policy) (r : Receipt) (op : Operation) : Except Rejection Verified :=
  (policy.audit r op).outcome

def auditDocument (policy : Policy) (d : ReceiptDocument) (op : Operation) : Traced Verified := do
  let decoded : Traced Receipt := silent (d.toReceipt.mapError .malformedReceipt)
  let r ← decoded.noteRejection fun why => .undecodable op.kind why
  policy.audit r op

/-- Verifies receipts that have nothing to do with each other. -/
def verifyAll (policy : Policy) (items : List (Receipt × Operation)) :
    List (Except Rejection Verified) :=
  items.map fun (r, op) => policy.verify r op

end Policy

end LedgerAudit
