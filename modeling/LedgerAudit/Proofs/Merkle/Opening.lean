import LedgerAudit.Proofs.Merkle.Descent

/-!
# Receipts against a tree

A receipt has the root of a tree when its proof opens the tree at a leaf with the components of the
receipt, and, as long as the hashed strings do not collide, only then. In particular no proof stops
at an inner node or goes on below a leaf.
-/

namespace LedgerAudit

namespace MerkleTree

open LeafComponents (rootAbove_nil rootAbove_cons preimagesBelow_nil preimagesBelow_cons
  eq_of_leaf_eq leaf_ne_hash leaf_ne_rootAbove_cons)

theorem rootAbove_of_opens {T : MerkleTree} {rootFirst : List ProofStep} {c : LeafComponents}
    (h : T.Opens rootFirst c) : c.rootAbove rootFirst = T.hash := by
  induction T generalizing rootFirst with
  | leaf d =>
      cases rootFirst with
      | nil =>
          obtain rfl : d = c := h
          rw [rootAbove_nil, hash]
      | cons step rest => exact h.elim
  | node left right ihleft ihright =>
      cases rootFirst with
      | nil => exact h.elim
      | cons step rest =>
          obtain ⟨side, sibling⟩ := step
          cases side with
          | left =>
              obtain ⟨hsibling, hrest⟩ := h
              rw [rootAbove_cons, ihright hrest, hash, ← hsibling, ProofStep.preimage]
          | right =>
              obtain ⟨hsibling, hrest⟩ := h
              rw [rootAbove_cons, ihleft hrest, hash, ← hsibling, ProofStep.preimage]

theorem opens_of_rootAbove_eq {T : MerkleTree} {rootFirst : List ProofStep} {c : LeafComponents}
    (hfree : NoCollision (T.preimages ++ c.preimagesBelow rootFirst))
    (h : c.rootAbove rootFirst = T.hash) : T.Opens rootFirst c := by
  induction T generalizing rootFirst with
  | leaf d =>
      cases rootFirst with
      | nil =>
          rw [preimagesBelow_nil] at hfree
          rw [rootAbove_nil, hash] at h
          exact eq_of_leaf_eq hfree h.symm
      | cons step rest => exact (leaf_ne_rootAbove_cons hfree h.symm).elim
  | node left right ihleft ihright =>
      cases rootFirst with
      | nil =>
          -- The leaf of the receipt would have the hash of an inner node.
          rw [rootAbove_nil, hash] at h
          refine (leaf_ne_hash ?_ (hfree.mono ?_) h).elim
          · simp [Digest.length_bytes]
          · simp [preimages, LeafComponents.preimages]
      | cons step rest =>
          rw [rootAbove_cons, hash] at h
          rw [preimagesBelow_cons] at hfree
          have hsame := hfree _ (by simp) _ (by simp [preimages]) h
          -- One half of the string is the sibling, and the other one is what lies below.
          obtain ⟨side, sibling⟩ := step
          cases side with
          | left =>
              obtain ⟨hsibling, hbelow⟩ := Digest.append_inj hsame
              have hright : NoCollision (right.preimages ++ c.preimagesBelow rest) :=
                hfree.mono (by grind [preimages])
              exact ⟨hsibling, ihright hright (Digest.ext hbelow)⟩
          | right =>
              obtain ⟨hbelow, hsibling⟩ := Digest.append_inj hsame
              have hleft : NoCollision (left.preimages ++ c.preimagesBelow rest) :=
                hfree.mono (by grind [preimages])
              exact ⟨Digest.ext hsibling, ihleft hleft hbelow⟩

/-- Inclusion proofs are complete, and sound without collisions. -/
theorem root_eq_hash_iff_opens (T : MerkleTree) (r : Receipt) :
    (NoCollision (T.preimages ++ r.preimages) →
        (r.root = T.hash ↔ T.Opens r.proof.reverse r.leafComponents)) ∧
      (T.Opens r.proof.reverse r.leafComponents → r.root = T.hash) := by
  rw [r.root_eq_rootAbove, r.preimages_eq_preimagesBelow]
  exact ⟨fun hfree => ⟨opens_of_rootAbove_eq hfree, rootAbove_of_opens⟩, rootAbove_of_opens⟩

def firstLeaf : LeafComponents := ⟨.zero, ⟨"ce:2.7:c0"⟩, .zero⟩

/-- A receipt for the second of two leaves. -/
def secondReceipt : Receipt where
  nodeId := "n0"
  cert := []
  signature := []
  leafComponents := ⟨.zero, ⟨"ce:2.8:c0"⟩, .zero⟩
  proof := [⟨.left, firstLeaf.leaf⟩]

def twoLeaves : MerkleTree := .node (.leaf firstLeaf) (.leaf secondReceipt.leafComponents)

theorem twoLeaves_opens_secondReceipt :
    NoCollision (twoLeaves.preimages ++ secondReceipt.preimages) ∧
      secondReceipt.root = twoLeaves.hash ∧
      twoLeaves.Opens secondReceipt.proof.reverse secondReceipt.leafComponents := by
  have hfree : NoCollision (twoLeaves.preimages ++ secondReceipt.preimages) := by
    unfold NoCollision
    decide +kernel
  have hopens : twoLeaves.Opens secondReceipt.proof.reverse secondReceipt.leafComponents :=
    ⟨rfl, rfl⟩
  have hroot := (root_eq_hash_iff_opens twoLeaves secondReceipt).2 hopens
  exact ⟨hfree, hroot, ((root_eq_hash_iff_opens twoLeaves secondReceipt).1 hfree).mp hroot⟩

end MerkleTree

end LedgerAudit
