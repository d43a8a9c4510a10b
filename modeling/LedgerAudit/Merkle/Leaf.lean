import LedgerAudit.Evidence

/-!
# Leaves

The leaf of a transaction is the hash of three digests in a fixed order: of the write set, of the
commit evidence and of the claims.
-/

namespace LedgerAudit

structure LeafComponents where
  writeSetDigest : Digest
  commitEvidence : CommitEvidence
  claimsDigest : Digest
deriving DecidableEq

namespace LeafComponents

/-- The 96 bytes that are hashed. -/
def preimage (c : LeafComponents) : Bytes :=
  c.writeSetDigest.bytes ++ c.commitEvidence.digest.bytes ++ c.claimsDigest.bytes

def leaf (c : LeafComponents) : Digest := .hash c.preimage

@[simp] theorem length_preimage (c : LeafComponents) : c.preimage.length = 96 := by
  simp [preimage, Digest.length_bytes]

end LeafComponents

end LedgerAudit
