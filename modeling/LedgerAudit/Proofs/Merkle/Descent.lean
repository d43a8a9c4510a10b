import LedgerAudit.Proofs.Merkle.Collision

/-!
# Proofs read from the root

A proof is folded from the leaf up, but what a root says about it is found from the root down. Here
the same fold is given for a list of steps with the farthest one first, along which the strings that
are hashed are peeled off one by one.
-/

namespace LedgerAudit

theorem pathPreimages_append (leaf : Digest) (near far : List ProofStep) :
    pathPreimages leaf (near ++ far) =
      pathPreimages leaf near ++ pathPreimages (foldRoot leaf near) far := by
  induction near generalizing leaf with
  | nil => rfl
  | cons step near ih => simp [pathPreimages, ih]

namespace LeafComponents

/-- The root to which these steps lead from the leaf. -/
def rootAbove (c : LeafComponents) (rootFirst : List ProofStep) : Digest :=
  foldRoot c.leaf rootFirst.reverse

/-- The byte strings that are hashed for that root. -/
def preimagesBelow (c : LeafComponents) (rootFirst : List ProofStep) : List Bytes :=
  c.preimages ++ pathPreimages c.leaf rootFirst.reverse

variable (c : LeafComponents) (step : ProofStep) (rest : List ProofStep)

@[simp] theorem rootAbove_nil : c.rootAbove [] = c.leaf := rfl

@[simp] theorem rootAbove_cons :
    c.rootAbove (step :: rest) = .hash (step.preimage (c.rootAbove rest)) := by
  rw [rootAbove, List.reverse_cons, foldRoot_append]
  rfl

@[simp] theorem preimagesBelow_nil : c.preimagesBelow [] = c.preimages := by
  rw [preimagesBelow, List.reverse_nil, pathPreimages, List.append_nil]

@[simp] theorem preimagesBelow_cons :
    c.preimagesBelow (step :: rest) =
      c.preimagesBelow rest ++ [step.preimage (c.rootAbove rest)] := by
  rw [preimagesBelow, List.reverse_cons, pathPreimages_append, ← List.append_assoc]
  rfl

variable {c step rest}

/-- A proof that goes on does not lead to the leaf of other components. -/
theorem leaf_ne_rootAbove_cons {d : LeafComponents}
    (hfree : NoCollision (d.preimages ++ c.preimagesBelow (step :: rest))) :
    d.leaf ≠ c.rootAbove (step :: rest) := by
  rw [rootAbove_cons]
  rw [preimagesBelow_cons] at hfree
  refine leaf_ne_hash (step.length_preimage _) (hfree.mono ?_)
  simp [preimages]

end LeafComponents

namespace Receipt

theorem root_eq_rootAbove (r : Receipt) :
    r.root = r.leafComponents.rootAbove r.proof.reverse := by
  rw [LeafComponents.rootAbove, List.reverse_reverse]
  rfl

theorem preimages_eq_preimagesBelow (r : Receipt) :
    r.preimages = r.leafComponents.preimagesBelow r.proof.reverse := by
  rw [LeafComponents.preimagesBelow, List.reverse_reverse]
  rfl

end Receipt

end LedgerAudit
