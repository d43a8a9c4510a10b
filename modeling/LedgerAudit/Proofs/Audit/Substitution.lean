import LedgerAudit.Merkle.Tree
import LedgerAudit.Proofs.Audit.Gates
import LedgerAudit.Proofs.Claims
import Mathlib.Control.Monad.Basic

/-!
# Receipts handed in for another operation

A receipt that is accepted for one operation says what happens with every other one: it is accepted
for the operations that differ in the header of the response at most, and for all others the claims
are blamed.
-/

namespace LedgerAudit.Policy

open Operation (SameUpToHeader)

/-- A receipt of one operation passes for another one only where the claims are the same, and is
otherwise rejected for the claims, as long as the two claims do not collide. -/
theorem verify_of_verify_eq_ok (policy : Policy) (r : Receipt) (a b : Operation) (v : Verified)
    (haccepted : policy.verify r a = .ok v)
    (hfree : NoCollision [a.claimsBytes, b.claimsBytes]) :
    (SameUpToHeader a b → policy.verify r b = .ok v) ∧
      (¬SameUpToHeader a b → policy.verify r b =
        .error (.claimsMismatch r.leafComponents.claimsDigest b.claimsDigest)) := by
  obtain ⟨hnode, hclaims, rfl⟩ := verify_eq_ok_iff.mp haccepted
  rw [verify_of_nodeGates hnode]
  constructor
  · intro hsame
    have hdigest : b.claimsDigest = a.claimsDigest := by
      rw [Operation.claimsDigest, Operation.claimsDigest, hsame.claimsBytes_eq]
    rw [if_pos (hdigest.trans hclaims)]
  · intro hdiffer
    refine if_neg fun hdigest => hdiffer ?_
    exact .of_claimsBytes_eq (hfree _ (by simp) _ (by simp) (hclaims.trans hdigest.symm))

/-- A transaction that puts one key, answered under one header and with another one inside. -/
def putAnswered (header inner : Option ResponseHeader) : Operation :=
  .txn ⟨[], [.put ⟨[1], [2], 0, false, false, false⟩], []⟩ ⟨header, true, [.put ⟨inner, none⟩]⟩

def revision (n : Int64) : ResponseHeader := ⟨0, 0, n, 0, 0, 0⟩

/-- A DER element of less than 128 bytes. -/
def shortElement (tag : UInt8) (content : Bytes) : Bytes :=
  tag :: UInt8.ofNat content.length :: content

/-- A certificate for a point beside the generator of a curve, with as little as possible in the
other fields. The form of the point says which of two points it is. -/
def bareCertificate (form : UInt8) : Bytes :=
  let time := shortElement 23 (Bytes.ofText "7001010000Z")
  let curve := shortElement 6 [42, 134, 72, 206, 61, 2, 1] ++
    shortElement 6 [42, 134, 72, 206, 61, 3, 1, 7]
  let key := shortElement 3 (0 :: form :: Bytes.ofNat 32 NamedCurve.p256.curve.generatorX)
  let noAlgorithm := shortElement 48 (shortElement 6 [])
  let signed := shortElement 2 [1] ++ noAlgorithm ++ shortElement 48 [] ++
    shortElement 48 (time ++ time) ++ shortElement 48 [] ++
    shortElement 48 (shortElement 48 curve ++ key)
  shortElement 48 (shortElement 48 signed ++ noAlgorithm ++ shortElement 3 [0])

def generatorCertificate : Bytes := bareCertificate 3

/-- A receipt for the transaction whose inner answer has revision 11. -/
def putReceipt : Receipt where
  nodeId := "n0"
  cert := generatorCertificate
  signature := shortElement 48
    (shortElement 2 (Bytes.ofNat 32
        0x54e77a001c3862b97a76647f4336df3cf126acbe7a069c5e5709277324d2920b) ++
      shortElement 2 (Bytes.ofNat 32
        0x6f18044a10bb0eea30adfa37c14661d77360f6dd2e46a51e8590610647f11f68))
  leafComponents :=
    ⟨.zero, ⟨"ce:2.11:c296"⟩, (putAnswered none (some (revision 11))).claimsDigest⟩
  proof := [⟨.left, .zero⟩]

theorem verifyRoot_putReceipt :
    verifyRoot putReceipt.cert putReceipt.signature putReceipt.root = .ok true := by
  decide +kernel

/-- Another header around the transaction changes nothing, and another one inside it is noticed. -/
theorem verify_putReceipt_other_headers :
    anyNode.verify putReceipt (putAnswered none (some (revision 11))) =
        .ok (attested putReceipt) ∧
      anyNode.verify putReceipt (putAnswered (some (revision 12)) (some (revision 11))) =
        .ok (attested putReceipt) ∧
      anyNode.verify putReceipt (putAnswered none (some (revision 12))) =
        .error (.claimsMismatch putReceipt.leafComponents.claimsDigest
          (putAnswered none (some (revision 12))).claimsDigest) := by
  have hnode : anyNode.nodeGates putReceipt = .ok () :=
    nodeGates_eq_ok_iff.mpr ⟨verifyRoot_putReceipt, rfl⟩
  have haccepted : anyNode.verify putReceipt (putAnswered none (some (revision 11))) =
      .ok (attested putReceipt) := verify_eq_ok_iff.mpr ⟨hnode, rfl, rfl⟩
  have hsame : SameUpToHeader (putAnswered none (some (revision 11)))
      (putAnswered (some (revision 12)) (some (revision 11))) := .txn _ _ _ _ _
  have hdiffer : ¬SameUpToHeader (putAnswered none (some (revision 11)))
      (putAnswered none (some (revision 12))) := by
    intro h
    cases h
  refine ⟨haccepted, ?_, ?_⟩
  · refine (verify_of_verify_eq_ok _ _ _ _ _ haccepted ?_).1 hsame
    simp [NoCollision, hsame.claimsBytes_eq]
  · refine (verify_of_verify_eq_ok _ _ _ _ _ haccepted ?_).2 hdiffer
    unfold NoCollision
    decide +kernel

end LedgerAudit.Policy
