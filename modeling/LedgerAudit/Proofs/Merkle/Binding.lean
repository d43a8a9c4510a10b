import LedgerAudit.Proofs.Merkle.Descent

/-!
# One root and one position bind one transaction

Two proofs that take the same turns from one root, as far as the shorter of them goes, are one proof
for one leaf. The digests at which they arrive stay equal on the way down, and where one of the two
ends the other one does so too.
-/

namespace LedgerAudit

theorem LeafComponents.eq_of_rootAbove_eq {c d : LeafComponents} {near far : List ProofStep}
    (hturns : near.map ProofStep.direction <+: far.map ProofStep.direction)
    (hfree : NoCollision (c.preimagesBelow near ++ d.preimagesBelow far))
    (hroot : c.rootAbove near = d.rootAbove far) : near = far ∧ c = d := by
  induction near generalizing far with
  | nil =>
      rw [preimagesBelow_nil] at hfree
      cases far with
      | nil =>
          rw [preimagesBelow_nil] at hfree
          exact ⟨rfl, eq_of_leaf_eq hfree hroot⟩
      -- A proof that goes on has hashed 64 bytes where the other one has hashed a leaf.
      | cons step rest => exact (leaf_ne_rootAbove_cons hfree hroot).elim
  | cons step near ih =>
      cases far with
      | nil => simp at hturns
      | cons step' far =>
          rw [List.map_cons, List.map_cons, List.cons_prefix_cons] at hturns
          obtain ⟨hside, hrest⟩ := hturns
          rw [preimagesBelow_cons, preimagesBelow_cons] at hfree
          rw [rootAbove_cons, rootAbove_cons] at hroot
          have hsame : step.preimage (c.rootAbove near) = step'.preimage (d.rootAbove far) :=
            hfree _ (by simp) _ (by simp) hroot
          obtain ⟨hstep, hbelow⟩ := ProofStep.preimage_inj hside hsame
          obtain ⟨hnear, hcomponents⟩ := ih hrest (hfree.mono (by grind)) hbelow
          exact ⟨by rw [hstep, hnear], hcomponents⟩

namespace Receipt

variable {r s : Receipt}

theorem proof_eq_of_suffix (hroot : r.root = s.root)
    (hturns : r.proof.map ProofStep.direction <:+ s.proof.map ProofStep.direction)
    (hfree : NoCollision (r.preimages ++ s.preimages)) :
    r.proof = s.proof ∧ r.leafComponents = s.leafComponents := by
  rw [root_eq_rootAbove, root_eq_rootAbove] at hroot
  rw [preimages_eq_preimagesBelow, preimages_eq_preimagesBelow] at hfree
  rw [← List.reverse_prefix, ← List.map_reverse, ← List.map_reverse] at hturns
  obtain ⟨hproof, hcomponents⟩ := LeafComponents.eq_of_rootAbove_eq hturns hfree hroot
  exact ⟨List.reverse_inj.mp hproof, hcomponents⟩

/-- Receipts with one root, at positions of which one lies below the other, are for one leaf. -/
theorem proof_eq_and_leafComponents_eq (hroot : r.root = s.root)
    (hturns : r.proof.map ProofStep.direction <:+ s.proof.map ProofStep.direction ∨
      s.proof.map ProofStep.direction <:+ r.proof.map ProofStep.direction)
    (hfree : NoCollision (r.preimages ++ s.preimages)) :
    r.proof = s.proof ∧ r.leafComponents = s.leafComponents ∧ r.txId? = s.txId? := by
  have hsame : r.proof = s.proof ∧ r.leafComponents = s.leafComponents := by
    rcases hturns with hshorter | hlonger
    · exact proof_eq_of_suffix hroot hshorter hfree
    · obtain ⟨hproof, hcomponents⟩ :=
        proof_eq_of_suffix hroot.symm hlonger (hfree.mono (by grind))
      exact ⟨hproof.symm, hcomponents.symm⟩
  have htxId : r.txId? = s.txId? := congrArg (fun c => c.commitEvidence.txId?) hsame.2
  exact ⟨hsame.1, hsame.2, htxId⟩

/-- A receipt three steps below its root, signed with these bytes. -/
def signedWith (signature : Bytes) : Receipt where
  nodeId := "n0"
  cert := []
  signature := signature
  leafComponents := ⟨.zero, ⟨"ce:2.8:c0"⟩, .zero⟩
  proof := [⟨.left, .zero⟩, ⟨.right, .hash []⟩, ⟨.left, .hash [0]⟩]

theorem signedWith_bound :
    signedWith [1] ≠ signedWith [2] ∧
      (signedWith [1]).proof = (signedWith [2]).proof ∧
      (signedWith [1]).leafComponents = (signedWith [2]).leafComponents ∧
      (signedWith [1]).txId? = (signedWith [2]).txId? := by
  have hfree : NoCollision (signedWith [1]).preimages := by
    unfold NoCollision
    decide +kernel
  -- The signature is not hashed, so both receipts hash the same strings.
  have hboth : NoCollision ((signedWith [1]).preimages ++ (signedWith [2]).preimages) :=
    hfree.mono (List.append_subset.mpr ⟨List.Subset.refl _, List.Subset.refl _⟩)
  have hbound := proof_eq_and_leafComponents_eq rfl (.inl (List.suffix_refl _)) hboth
  exact ⟨by decide, hbound⟩

end Receipt

end LedgerAudit
