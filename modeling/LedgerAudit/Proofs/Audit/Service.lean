import LedgerAudit.Proofs.Audit.Stages
import LedgerAudit.Proofs.Basic
import LedgerAudit.Proofs.Certificate.Packaging

/-!
# What a service certificate changes

A service certificate takes the place of accepting every node. It cannot let anything through: the
only verdicts it changes are those of the last stage, the claims, and it changes them only where the
service does not endorse the node.
-/

namespace LedgerAudit

namespace Policy

/-- A verdict that no stage before the claims has given. -/
def DecidedByClaims : Except Rejection Verified → Prop
  | .ok _ => True
  | .error (.claimsMismatch _ _) => True
  | .error _ => False

theorem endorsedBy_accepts_iff {service : NodeKey} {nodeId : String} {cert : Bytes} :
    (endorsedBy service).accepts nodeId cert = true ↔ service.endorses cert = .ok true := by
  cases h : service.endorses cert with
  | ok endorsed => simp [endorsedBy, h]
  | error fault => simp [endorsedBy, h]

/-- Where the claims decide if every node is accepted, a policy decides first; elsewhere the same
stage fails in the same way under every policy. -/
theorem verify_eq_of_anyNode (policy : Policy) (r : Receipt) (op : Operation) :
    (DecidedByClaims (anyNode.verify r op) →
      policy.verify r op =
        if policy.accepts r.nodeId r.cert then anyNode.verify r op
        else .error (.untrustedNode r.nodeId)) ∧
    (¬DecidedByClaims (anyNode.verify r op) → policy.verify r op = anyNode.verify r op) := by
  have hany : anyNode.accepts r.nodeId r.cert = true := rfl
  simp only [verify_eq, nodeGates, outcome_trustGate, hany, if_true]
  cases hsignature : (signatureGate r r.root).outcome with
  | error why =>
      -- A receipt that is not signed is rejected before any policy is asked.
      have hundecided : ¬DecidedByClaims (.error why) := by
        rw [outcome_signatureGate] at hsignature
        split at hsignature
        · cases hsignature
          exact id
        · split at hsignature
          · cases hsignature
          · cases hsignature
            exact id
      exact ⟨fun hdecided => absurd hdecided hundecided, fun _ => rfl⟩
  | ok _ =>
      refine ⟨fun _ => ?_, fun hundecided => ?_⟩
      · split <;> rfl
      · refine absurd ?_ hundecided
        rw [outcome_claimsGate]
        split <;> exact trivial

end Policy

namespace Audit

open Policy

theorem ofServiceCertificate_some {cert : Bytes} {service : NodeKey}
    (hservice : NodeKey.ofCertificate cert = .ok service) :
    Policy.ofServiceCertificate (some cert) = .ok (.endorsedBy service) := by
  simp [Policy.ofServiceCertificate, hservice]

theorem check_eq (receipt kind : String) (request response : Json) (cert : Option Bytes) :
    check receipt kind request response cert = (do
      let op ← Operation.ofBodies kind request response
      let policy ← Policy.ofServiceCertificate cert
      let r ← readReceipt receipt
      policy.verify r op) :=
  Submission.verdict_eq ⟨receipt, kind, request, response, cert⟩

theorem check_of_decoded {receipt kind : String} {request response : Json} {cert : Option Bytes}
    {op : Operation} {policy : Policy} {r : Receipt}
    (hop : Operation.ofBodies kind request response = .ok op)
    (hpolicy : Policy.ofServiceCertificate cert = .ok policy)
    (hr : Receipt.parse receipt = .ok r) :
    check receipt kind request response cert = policy.verify r op :=
  Submission.verdict_of_decoded (s := ⟨receipt, kind, request, response, cert⟩) hop hpolicy hr

/-- What a check reads before a policy is asked, and what it rejects for: nothing that is read is
rejected for its claims. -/
theorem decoding_cases (receipt kind : String) (request response : Json) :
    (∃ op r, Receipt.parse receipt = .ok r ∧
      ∀ cert policy, Policy.ofServiceCertificate cert = .ok policy →
        check receipt kind request response cert = policy.verify r op) ∨
    ∃ why, ¬DecidedByClaims (.error why) ∧
      ∀ cert policy, Policy.ofServiceCertificate cert = .ok policy →
        check receipt kind request response cert = .error why := by
  cases hop : Operation.ofBodies kind request response with
  | error why =>
      refine .inr ⟨why, ?_, fun cert policy _ => by rw [check_eq, hop, Except.error_bind]⟩
      rw [Operation.ofBodies_eq] at hop
      split at hop
      · cases hop
        exact id
      · obtain ⟨fault, -, rfl⟩ := Except.mapError_eq_error_iff.mp hop
        exact id
  | ok op =>
      cases hr : Receipt.parse receipt with
      | error fault =>
          refine .inr ⟨.malformedReceipt fault, id, fun cert policy hpolicy => ?_⟩
          rw [check_eq, hop, Except.ok_bind, hpolicy, Except.ok_bind, readReceipt, hr,
            Except.error_mapError, Except.error_bind]
      | ok r => exact .inl ⟨op, r, rfl, fun cert policy hpolicy => check_of_decoded hop hpolicy hr⟩

/-- With a service certificate a check gives the verdict that it gives without one, unless the
claims would decide and the service does not endorse the node: then the node is not trusted. -/
theorem check_serviceCert_restricts (receipt kind : String) (request response : Json)
    (cert : Bytes) (service : NodeKey) (hservice : NodeKey.ofCertificate cert = .ok service) :
    let unrestricted := check receipt kind request response none
    let restricted := check receipt kind request response (some cert)
    (DecidedByClaims unrestricted →
      ∃ r, Receipt.parse receipt = .ok r ∧
        (service.endorses r.cert = .ok true → restricted = unrestricted) ∧
        (service.endorses r.cert ≠ .ok true → restricted = .error (.untrustedNode r.nodeId))) ∧
    (¬DecidedByClaims unrestricted → restricted = unrestricted) ∧
    ∀ v, restricted = .ok v → unrestricted = .ok v := by
  intro unrestricted restricted
  have hpolicy := ofServiceCertificate_some hservice
  rcases decoding_cases receipt kind request response with
    ⟨op, r, hr, hverify⟩ | ⟨why, hundecided, hreject⟩
  · have hunrestricted : unrestricted = anyNode.verify r op := hverify none _ rfl
    have hrestricted : restricted = (endorsedBy service).verify r op := hverify _ _ hpolicy
    obtain ⟨hdecides, hagrees⟩ := verify_eq_of_anyNode (endorsedBy service) r op
    rw [hunrestricted, hrestricted]
    refine ⟨fun hdecided => ⟨r, hr, fun hendorses => ?_, fun hendorses => ?_⟩, hagrees,
      fun v hv => ?_⟩
    · rw [hdecides hdecided, if_pos (endorsedBy_accepts_iff.mpr hendorses)]
    · rw [hdecides hdecided, if_neg (mt endorsedBy_accepts_iff.mp hendorses)]
    · by_cases hdecided : DecidedByClaims (anyNode.verify r op)
      · rw [hdecides hdecided] at hv
        split at hv
        · exact hv
        · nomatch hv
      · exact (hagrees hdecided).symm.trans hv
  · have hunrestricted : unrestricted = .error why := hreject none _ rfl
    have hrestricted : restricted = .error why := hreject _ _ hpolicy
    rw [hunrestricted, hrestricted]
    exact ⟨fun hdecided => absurd hdecided hundecided, fun _ => rfl, fun _ => id⟩

open NodeKey (generatorKey mirroredKey resignedCertificate)

/-- The armour does not hide the key. -/
theorem ofCertificate_armouredReceipt :
    NodeKey.ofCertificate (armouredReceipt generatorCertificate).cert = .ok generatorKey ∧
      NodeKey.ofCertificate (armouredReceipt resignedCertificate).cert = .ok generatorKey := by
  constructor
  · rw [armouredReceipt, NodeKey.ofCertificate_eq_of_packages NodeKey.parse_generatorCertificate
      (.armoured (.oneLine _) [])]
    exact NodeKey.ofCertificate_bareCertificate.1
  · rw [armouredReceipt, NodeKey.ofCertificate_eq_of_packages NodeKey.parse_resignedCertificate
      (.armoured (.oneLine _) [])]
    exact NodeKey.ofCertificate_resignedCertificate

/-- Each of the answers that a service may give. -/
theorem endorses_armouredReceipt :
    generatorKey.endorses (armouredReceipt resignedCertificate).cert = .ok true ∧
      mirroredKey.endorses (armouredReceipt resignedCertificate).cert = .ok false ∧
      generatorKey.endorses (armouredReceipt generatorCertificate).cert =
        .error (.signatureAlgorithm "") := by
  obtain ⟨hholds, hopposite⟩ := NodeKey.endorses_resignedCertificate
  have hsigned (service : NodeKey) := NodeKey.endorses_eq_of_packages service
    NodeKey.parse_resignedCertificate (.armoured (.oneLine _) [])
  have hplain := NodeKey.endorses_eq_of_packages generatorKey NodeKey.parse_generatorCertificate
    (.armoured (.oneLine _) [])
  refine ⟨(hsigned _).trans hholds, (hsigned _).trans hopposite, hplain.trans ?_⟩
  decide +kernel

/-- The verdict on a receipt that is handed in for the transaction. -/
def putVerdict (r : Receipt) (cert : Option Bytes) : Except Rejection Verified :=
  let op := putAnswered none (some (revision 11))
  check (.ofList (receiptChars r)) "txn" op.requestJson op.responseJson cert

theorem putVerdict_none {cert : Bytes}
    (hr : Receipt.parse (.ofList (receiptChars (armouredReceipt cert))) =
      .ok (armouredReceipt cert))
    (hkey : NodeKey.ofCertificate (armouredReceipt cert).cert = .ok generatorKey) :
    putVerdict (armouredReceipt cert) none = .ok (attested (armouredReceipt cert)) := by
  have hsignature : verifyRoot (armouredReceipt cert).cert (armouredReceipt cert).signature
      (armouredReceipt cert).root = .ok true := by
    rw [verifyRoot, hkey, ← NodeKey.ofCertificate_bareCertificate.1]
    exact verifyRoot_putReceipt
  have hop : Operation.ofBodies "txn" (putAnswered none (some (revision 11))).requestJson
      (putAnswered none (some (revision 11))).responseJson =
        .ok (putAnswered none (some (revision 11))) := rfl
  have hanyNode : Policy.ofServiceCertificate none = .ok anyNode := rfl
  refine (check_of_decoded hop hanyNode hr).trans (verify_eq_ok_iff.mpr ?_)
  exact ⟨nodeGates_eq_ok_iff.mpr ⟨hsignature, rfl⟩, rfl, rfl⟩

/-- A node whose certificate was signed by the service is accepted with it as without it. Another
service takes the receipt back, and so does a service that cannot tell how the certificate of the
node was signed. -/
theorem putVerdict_restricted :
    let r := armouredReceipt resignedCertificate
    let unsigned := armouredReceipt generatorCertificate
    (NodeKey.ofCertificate generatorCertificate = .ok generatorKey ∧
      generatorKey.endorses r.cert = .ok true ∧ putVerdict r none = .ok (attested r) ∧
      putVerdict r (some generatorCertificate) = putVerdict r none) ∧
    (NodeKey.ofCertificate (bareCertificate 2) = .ok mirroredKey ∧
      mirroredKey.endorses r.cert = .ok false ∧
      putVerdict r (some (bareCertificate 2)) = .error (.untrustedNode "n0")) ∧
    generatorKey.endorses unsigned.cert = .error (.signatureAlgorithm "") ∧
      putVerdict unsigned none = .ok (attested unsigned) ∧
      putVerdict unsigned (some generatorCertificate) = .error (.untrustedNode "n0") := by
  intro r unsigned
  obtain ⟨hgenerator, hmirrored⟩ := NodeKey.ofCertificate_bareCertificate
  obtain ⟨hholds, hopposite, hunknown⟩ := endorses_armouredReceipt
  have hr : Receipt.parse (.ofList (receiptChars r)) = .ok r := parse_receiptChars r (by simp [r])
  have hunsigned : Receipt.parse (.ofList (receiptChars unsigned)) = .ok unsigned :=
    parse_receiptChars unsigned (by simp [unsigned])
  have haccepted := putVerdict_none hr ofCertificate_armouredReceipt.2
  have haccepted' := putVerdict_none hunsigned ofCertificate_armouredReceipt.1
  -- What a service decides about a receipt that is accepted without it.
  have hrestricts {text : String} {request response : Json} {r : Receipt} {cert : Bytes}
      {service : NodeKey} (hr : Receipt.parse text = .ok r)
      (haccepted : check text "txn" request response none = .ok (attested r))
      (hservice : NodeKey.ofCertificate cert = .ok service) :
      (service.endorses r.cert = .ok true →
          check text "txn" request response (some cert) = .ok (attested r)) ∧
        (service.endorses r.cert ≠ .ok true →
          check text "txn" request response (some cert) = .error (.untrustedNode r.nodeId)) := by
    obtain ⟨hdecided, -, -⟩ :=
      check_serviceCert_restricts text "txn" request response cert service hservice
    rw [haccepted] at hdecided
    obtain ⟨found, hfound, hverdict⟩ := hdecided trivial
    obtain rfl : r = found := Except.ok.inj (hr.symm.trans hfound)
    exact hverdict
  have hkept := (hrestricts hr haccepted hgenerator).1 hholds
  refine ⟨⟨hgenerator, hholds, haccepted, hkept.trans haccepted.symm⟩,
    ⟨hmirrored, hopposite, (hrestricts hr haccepted hmirrored).2 ?_⟩,
    hunknown, haccepted', (hrestricts hunsigned haccepted' hgenerator).2 ?_⟩
  · rw [hopposite]
    nofun
  · rw [hunknown]
    nofun

end Audit

end LedgerAudit
