import LedgerAudit.Receipt.Basic

/-!
# Merkle trees

A tree has leaves that hold components, and its hash is that of the two subtrees. A proof opens a
tree at a leaf when its steps, the farthest first, name the way down and the hashes beside it.
-/

namespace LedgerAudit

inductive MerkleTree
  | leaf (components : LeafComponents)
  | node (left right : MerkleTree)

namespace MerkleTree

def hash : MerkleTree → Digest
  | .leaf c => c.leaf
  | .node left right => .hash (left.hash.bytes ++ right.hash.bytes)

/-- The byte strings that are hashed for the hash of a tree. -/
def preimages : MerkleTree → List Bytes
  | .leaf c => [Bytes.ofText c.commitEvidence.text, c.preimage]
  | .node left right =>
    (left.hash.bytes ++ right.hash.bytes) :: (left.preimages ++ right.preimages)

/-- The way down that these steps name, root first, ends at a leaf with these components. A sibling
on one side is the hash of the subtree on that side. -/
def Opens : MerkleTree → (rootFirst : List ProofStep) → LeafComponents → Prop
  | .leaf c, [], d => c = d
  | .node left right, step :: rest, d =>
    match step.direction with
    | .left => step.sibling = left.hash ∧ right.Opens rest d
    | .right => step.sibling = right.hash ∧ left.Opens rest d
  | _, _, _ => False

end MerkleTree

/-- The byte strings that are hashed on the way up a proof. -/
def pathPreimages (current : Digest) : List ProofStep → List Bytes
  | [] => []
  | step :: rest => step.preimage current :: pathPreimages (step.parent current) rest

/-- The byte strings that are hashed for the root of a receipt. -/
def Receipt.preimages (r : Receipt) : List Bytes :=
  Bytes.ofText r.leafComponents.commitEvidence.text :: r.leafComponents.preimage
    :: pathPreimages r.leaf r.proof

/-- No two of these byte strings have the same hash. -/
def NoCollision (messages : List Bytes) : Prop :=
  ∀ a ∈ messages, ∀ b ∈ messages, Digest.hash a = Digest.hash b → a = b

end LedgerAudit
