import LedgerAudit.Proofs.Merkle.Descent

/-!
# One step of a proof replaced

Another step at one place of a proof leads to another root, whatever comes after it. The one
exception is a step that is turned over where both siblings are the digest that it starts from: then
the same string is hashed.
-/

namespace LedgerAudit

theorem Direction.ne_opposite (d : Direction) : d ≠ d.opposite := by
  cases d <;> decide

theorem Direction.eq_opposite_of_ne {d e : Direction} (h : d ≠ e) : d = e.opposite := by
  cases d <;> cases e <;> first | rfl | exact absurd rfl h

theorem Digest.append_eq_append_iff_both {a b middle : Digest} :
    a.bytes ++ middle.bytes = middle.bytes ++ b.bytes ↔ a = middle ∧ b = middle := by
  constructor
  · intro h
    obtain ⟨hleft, hright⟩ := append_inj h
    exact ⟨hleft, (ext hright).symm⟩
  · rintro ⟨rfl, rfl⟩
    rfl

attribute [ext] ProofStep

namespace ProofStep

variable {s t : ProofStep} {current : Digest}

/-- Turned over, a step hashes the same string only where nothing tells its halves apart. -/
theorem preimage_eq_iff_of_opposite (hside : t.direction = s.direction.opposite) :
    t.preimage current = s.preimage current ↔ t.sibling = current ∧ s.sibling = current := by
  obtain ⟨side, sibling⟩ := s
  obtain ⟨side', sibling'⟩ := t
  obtain rfl : side' = side.opposite := hside
  cases side with
  | left =>
      change current.bytes ++ sibling'.bytes = sibling.bytes ++ current.bytes ↔ _
      rw [eq_comm, Digest.append_eq_append_iff_both, and_comm]
  | right =>
      change sibling'.bytes ++ current.bytes = current.bytes ++ sibling.bytes ↔ _
      exact Digest.append_eq_append_iff_both

theorem preimage_eq_iff (hne : t ≠ s) :
    t.preimage current = s.preimage current ↔
      t.direction = s.direction.opposite ∧ t.sibling = current ∧ s.sibling = current := by
  by_cases hside : t.direction = s.direction
  · have hdiffer : t.preimage current ≠ s.preimage current :=
      fun h => hne (preimage_inj hside h).1
    have hturned : t.direction ≠ s.direction.opposite := hside ▸ s.direction.ne_opposite
    exact iff_of_false hdiffer fun h => hturned h.1
  · have hturned := Direction.eq_opposite_of_ne hside
    rw [preimage_eq_iff_of_opposite hturned]
    exact (and_iff_right hturned).symm

end ProofStep

/-- The steps of a proof keep different digests apart. -/
theorem eq_of_foldRoot_eq {a b : Digest} {proof : List ProofStep}
    (hfree : NoCollision (pathPreimages a proof ++ pathPreimages b proof))
    (h : foldRoot a proof = foldRoot b proof) : a = b := by
  induction proof generalizing a b with
  | nil => exact h
  | cons step rest ih =>
      rw [pathPreimages, pathPreimages] at hfree
      have hparents : step.parent a = step.parent b := ih (hfree.mono (by grind)) h
      have hsame : step.preimage a = step.preimage b :=
        hfree _ (by simp) _ (by simp) hparents
      exact (ProofStep.preimage_inj rfl hsame).2

/-- With another step at one place of a proof the root is another one, unless the step is turned
over and both siblings are the digest that is reached before it. -/
theorem foldRoot_replace_eq_iff (leaf : Digest) (near far : List ProofStep) {s t : ProofStep}
    (hne : t ≠ s)
    (hfree : NoCollision
      (pathPreimages leaf (near ++ t :: far) ++ pathPreimages leaf (near ++ s :: far))) :
    foldRoot leaf (near ++ t :: far) = foldRoot leaf (near ++ s :: far) ↔
      t.direction = s.direction.opposite ∧ t.sibling = foldRoot leaf near ∧
        s.sibling = foldRoot leaf near := by
  rw [pathPreimages_append, pathPreimages_append, pathPreimages, pathPreimages] at hfree
  rw [foldRoot_append, foldRoot_append, foldRoot_cons, foldRoot_cons,
    ← ProofStep.preimage_eq_iff hne]
  constructor
  · intro h
    have hparents := eq_of_foldRoot_eq (hfree.mono (by grind)) h
    exact hfree _ (by simp) _ (by simp) hparents
  · intro h
    rw [ProofStep.parent, ProofStep.parent, h]

/-- The same by the place in the list: a step with another sibling always leads to another root,
and a step that is only turned over does so unless its sibling is the digest reached before it. -/
theorem foldRoot_set_eq_iff (leaf : Digest) (proof : List ProofStep) {k : Nat}
    (hk : k < proof.length) {t : ProofStep} (hne : t ≠ proof[k])
    (hfree : NoCollision (pathPreimages leaf (proof.set k t) ++ pathPreimages leaf proof)) :
    (foldRoot leaf (proof.set k t) = foldRoot leaf proof ↔
      t.direction = proof[k].direction.opposite ∧ t.sibling = foldRoot leaf (proof.take k) ∧
        proof[k].sibling = foldRoot leaf (proof.take k)) ∧
    (t.sibling ≠ proof[k].sibling → foldRoot leaf (proof.set k t) ≠ foldRoot leaf proof) ∧
    (t.sibling = proof[k].sibling → (foldRoot leaf (proof.set k t) = foldRoot leaf proof ↔
      proof[k].sibling = foldRoot leaf (proof.take k))) := by
  have hsplit : proof = proof.take k ++ proof[k] :: proof.drop (k + 1) := by simp
  have hset : proof.set k t = proof.take k ++ t :: proof.drop (k + 1) :=
    List.set_eq_take_append_cons_drop.trans (if_pos hk)
  have hiff : foldRoot leaf (proof.set k t) = foldRoot leaf proof ↔
      t.direction = proof[k].direction.opposite ∧ t.sibling = foldRoot leaf (proof.take k) ∧
        proof[k].sibling = foldRoot leaf (proof.take k) := by
    have hroots := foldRoot_replace_eq_iff leaf (proof.take k) (proof.drop (k + 1)) hne
    rw [← hset, ← hsplit] at hroots
    exact hroots hfree
  refine ⟨hiff, fun hsibling => ?_, fun hsibling => ?_⟩
  · rw [Ne, hiff]
    rintro ⟨-, ht, hs⟩
    exact hsibling (ht.trans hs.symm)
  · have hturned : t.direction = proof[k].direction.opposite :=
      Direction.eq_opposite_of_ne fun hside => hne (ProofStep.ext hside hsibling)
    rw [hiff, hsibling, and_self]
    exact and_iff_right hturned

/-- The second sibling is the digest that the first step leads to. -/
def doubledProof : List ProofStep :=
  [⟨.left, .zero⟩, ⟨.right, .hash (Digest.zero.bytes ++ Digest.zero.bytes)⟩, ⟨.left, .zero⟩]

theorem foldRoot_doubledProof_set :
    let reached : Digest := .hash (Digest.zero.bytes ++ Digest.zero.bytes)
    foldRoot .zero (doubledProof.set 1 ⟨.left, reached⟩) = foldRoot .zero doubledProof ∧
      foldRoot .zero (doubledProof.set 2 ⟨.right, .zero⟩) ≠ foldRoot .zero doubledProof := by
  intro reached
  have hfree : NoCollision (pathPreimages .zero (doubledProof.set 1 ⟨.left, reached⟩) ++
      pathPreimages .zero doubledProof) := by
    unfold NoCollision
    decide +kernel
  have hfree' : NoCollision (pathPreimages .zero (doubledProof.set 2 ⟨.right, .zero⟩) ++
      pathPreimages .zero doubledProof) := by
    unfold NoCollision
    decide +kernel
  have hsame := foldRoot_set_eq_iff .zero doubledProof (k := 1) (t := ⟨.left, reached⟩)
    (by decide) (fun h => nomatch congrArg ProofStep.direction h) hfree
  have hother := foldRoot_set_eq_iff .zero doubledProof (k := 2) (t := ⟨.right, .zero⟩)
    (by decide) (fun h => nomatch congrArg ProofStep.direction h) hfree'
  refine ⟨hsame.1.mpr ⟨rfl, rfl, rfl⟩, fun h => ?_⟩
  have hzero : Digest.zero = foldRoot .zero (doubledProof.take 2) := (hother.1.mp h).2.1
  exact absurd hzero (by decide +kernel)

end LedgerAudit
