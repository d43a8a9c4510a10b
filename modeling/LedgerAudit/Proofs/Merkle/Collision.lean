import LedgerAudit.Merkle.Tree
import LedgerAudit.Proofs.Bytes

/-!
# What equal hashes say

Where the strings hashed on the way to two digests do not collide, equal digests come from equal
strings. A leaf is hashed from 96 bytes and everything above it from 64, so no leaf is an inner
node, and the halves of the 64 bytes are told by their width.
-/

namespace LedgerAudit

namespace Digest

theorem ext {a b : Digest} (h : a.bytes = b.bytes) : a = b := by
  cases a
  cases b
  simpa using h

theorem append_inj {a b : Digest} {s t : Bytes} (h : a.bytes ++ s = b.bytes ++ t) :
    a = b ∧ s = t := by
  have hwidth : a.bytes.length = b.bytes.length := by rw [a.length_bytes, b.length_bytes]
  obtain ⟨hleft, hright⟩ := List.append_inj h hwidth
  exact ⟨ext hleft, hright⟩

end Digest

theorem NoCollision.mono {messages fewer : List Bytes} (h : NoCollision messages)
    (hsub : fewer ⊆ messages) : NoCollision fewer :=
  fun a ha b hb => h a (hsub ha) b (hsub hb)

namespace ProofStep

/-- Steps on one side are told by what they hash, and so is the digest they start from. -/
theorem preimage_inj {s t : ProofStep} {a b : Digest} (hside : s.direction = t.direction)
    (h : s.preimage a = t.preimage b) : s = t ∧ a = b := by
  obtain ⟨side, sibling⟩ := s
  obtain ⟨side', sibling'⟩ := t
  obtain rfl : side = side' := hside
  cases side with
  | left =>
      obtain ⟨hsibling, hcurrent⟩ := Digest.append_inj h
      exact ⟨congrArg (mk .left) hsibling, Digest.ext hcurrent⟩
  | right =>
      obtain ⟨hcurrent, hsibling⟩ := Digest.append_inj h
      exact ⟨congrArg (mk .right) (Digest.ext hsibling), hcurrent⟩

end ProofStep

namespace LeafComponents

/-- The byte strings that are hashed for a leaf. -/
def preimages (c : LeafComponents) : List Bytes :=
  [Bytes.ofText c.commitEvidence.text, c.preimage]

theorem eq_of_leaf_eq {c d : LeafComponents} (hfree : NoCollision (c.preimages ++ d.preimages))
    (h : c.leaf = d.leaf) : c = d := by
  have hpreimage : c.preimage = d.preimage :=
    hfree _ (by simp [preimages]) _ (by simp [preimages]) h
  obtain ⟨hfront, hclaims⟩ := List.append_inj' hpreimage (by simp [Digest.length_bytes])
  obtain ⟨hwriteSet, hdigest⟩ := Digest.append_inj hfront
  have hencoded : Bytes.ofText c.commitEvidence.text = Bytes.ofText d.commitEvidence.text :=
    hfree _ (by simp [preimages]) _ (by simp [preimages]) (Digest.ext hdigest)
  have hevidence : c.commitEvidence = d.commitEvidence :=
    congrArg CommitEvidence.mk (Bytes.ofText_injective hencoded)
  have hclaimsDigest : c.claimsDigest = d.claimsDigest := Digest.ext hclaims
  cases c
  cases d
  simp_all

/-- A leaf is hashed from more bytes than an inner node. -/
theorem leaf_ne_hash {c : LeafComponents} {message : Bytes} (hlength : message.length = 64)
    (hfree : NoCollision [c.preimage, message]) : c.leaf ≠ .hash message := by
  intro h
  have hsame : c.preimage = message := hfree _ (by simp) _ (by simp) h
  have hwidth := congrArg List.length hsame
  rw [length_preimage, hlength] at hwidth
  exact absurd hwidth (by decide)

end LeafComponents

end LedgerAudit
