import LedgerAudit.Merkle.Leaf
import LedgerAudit.Merkle.Path

/-!
# Receipts

A receipt holds the inputs of a leaf, a proof that leads from the leaf to a root, and the signature
of a node over the root.
-/

namespace LedgerAudit

structure Receipt where
  nodeId : String
  /-- The certificate of the signing node, in either packaging. -/
  cert : Bytes
  signature : Bytes
  leafComponents : LeafComponents
  proof : List ProofStep
deriving DecidableEq

namespace Receipt

def leaf (r : Receipt) : Digest := r.leafComponents.leaf

def root (r : Receipt) : Digest := foldRoot r.leaf r.proof

def txId? (r : Receipt) : Option TxId := r.leafComponents.commitEvidence.txId?

end Receipt

end LedgerAudit
