import LedgerAudit.Audit.Check
import LedgerAudit.Proofs.Audit.Gates
import LedgerAudit.Proofs.Basic
import LedgerAudit.Proofs.Certificate.Signed

/-!
# The stages of a check

A check runs ten stages in a fixed order. What it means that a stage passes or fails is said for
each stage by itself, whatever the others do. The check accepts when all of them pass, and else
rejects for the first that fails; the service is at fault only where all that is decoded decodes.
-/

namespace LedgerAudit

/-- What is read of a request before its value matters. -/
def OperationKind.checkRequest : OperationKind → Json → Except Json.Fault Unit
  | .put, v => (PutRequest.format.read v).map fun _ => ()
  | .deleteRange, v => (DeleteRangeRequest.format.read v).map fun _ => ()
  | .txn, v => (TxnRequest.format.read v).map fun _ => ()

def OperationKind.checkResponse : OperationKind → Json → Except Json.Fault Unit
  | .put, v => (PutResponse.format.read v).map fun _ => ()
  | .deleteRange, v => (DeleteRangeResponse.format.read v).map fun _ => ()
  | .txn, v => (TxnResponse.format.read v).map fun _ => ()

namespace Operation

variable {α β : Type} (k : OperationKind) (request response : Json)

theorem readPair_cases (f : Message.Format α) (g : Message.Format β) (make : α → β → Operation) :
    let bodies := readPair k f g request response >>= fun (a, b) => pure (make a b)
    (∃ op, (f.read request).map (fun _ => ()) = .ok () ∧
      (g.read response).map (fun _ => ()) = .ok () ∧ bodies = .ok op) ∨
    (∃ fault, (f.read request).map (fun _ => ()) = .error fault ∧
      bodies = .error (.request k fault)) ∨
    ∃ fault, (f.read request).map (fun _ => ()) = .ok () ∧
      (g.read response).map (fun _ => ()) = .error fault ∧
      bodies = .error (.response k fault) := by
  simp only [readPair]
  cases f.read request with
  | error fault => exact .inr (.inl ⟨fault, rfl, rfl⟩)
  | ok a =>
      cases g.read response with
      | error fault => exact .inr (.inr ⟨fault, rfl, rfl, rfl⟩)
      | ok b => exact .inl ⟨make a b, rfl, rfl, rfl⟩

theorem read_cases :
    (∃ op, k.checkRequest request = .ok () ∧ k.checkResponse response = .ok () ∧
      read k request response = .ok op) ∨
    (∃ fault, k.checkRequest request = .error fault ∧
      read k request response = .error (.request k fault)) ∨
    ∃ fault, k.checkRequest request = .ok () ∧ k.checkResponse response = .error fault ∧
      read k request response = .error (.response k fault) := by
  cases k with
  | put => exact readPair_cases .put request response _ _ .put
  | deleteRange => exact readPair_cases .deleteRange request response _ _ .deleteRange
  | txn => exact readPair_cases .txn request response _ _ .txn

theorem ofBodies_eq (kind : String) :
    ofBodies kind request response =
      match OperationKind.ofName? kind with
      | none => .error (.unsupportedKind kind)
      | some k =>
        (read k request response).mapError fun fault => .malformedReceipt (.operation fault) := by
  rw [ofBodies]
  cases OperationKind.ofName? kind with
  | none => rfl
  | some k =>
      dsimp only
      cases read k request response <;> rfl

end Operation

namespace Audit

/-- What is handed in for a check. -/
structure Submission where
  receipt : String
  kind : String
  request : Json
  response : Json
  serviceCert : Option Bytes

inductive Stage
  | kind
  | request
  | response
  | serviceKey
  | receiptText
  | receipt
  | nodeKey
  | signature
  | trust
  | claims
deriving DecidableEq, Repr

namespace Stage

/-- The stages in the order in which they are run. -/
def all : List Stage :=
  [.kind, .request, .response, .serviceKey, .receiptText, .receipt, .nodeKey, .signature, .trust,
    .claims]

/-- The stages that only turn what is handed in into operations, keys and receipts. -/
def decodes : Stage → Bool
  | .signature | .trust | .claims => false
  | _ => true

@[simp] theorem mem_all (stage : Stage) : stage ∈ all := by cases stage <;> decide

/-- Nothing is decoded once the receipt is judged. -/
theorem pairwise_all : all.Pairwise fun a b => b.decodes = true → a.decodes = true := by decide

end Stage

namespace Submission

def verdict (s : Submission) : Except Rejection Verified :=
  check s.receipt s.kind s.request s.response s.serviceCert

/-- A stage that can be run on what is handed in, and succeeds. -/
inductive Passes (s : Submission) : Stage → Prop
  | kind {k : OperationKind} (hkind : OperationKind.ofName? s.kind = some k) : Passes s .kind
  | request {k : OperationKind} (hkind : OperationKind.ofName? s.kind = some k)
      (hrequest : k.checkRequest s.request = .ok ()) : Passes s .request
  | response {k : OperationKind} (hkind : OperationKind.ofName? s.kind = some k)
      (hresponse : k.checkResponse s.response = .ok ()) : Passes s .response
  | noService (hcert : s.serviceCert = none) : Passes s .serviceKey
  | serviceKey {cert : Bytes} {service : NodeKey} (hcert : s.serviceCert = some cert)
      (hservice : NodeKey.ofCertificate cert = .ok service) : Passes s .serviceKey
  | receiptText {d : ReceiptDocument} (hparse : ReceiptDocument.parse s.receipt = .ok d) :
      Passes s .receiptText
  | receipt {r : Receipt} (hreceipt : Receipt.parse s.receipt = .ok r) : Passes s .receipt
  | nodeKey {r : Receipt} {key : NodeKey} (hreceipt : Receipt.parse s.receipt = .ok r)
      (hkey : NodeKey.ofCertificate r.cert = .ok key) : Passes s .nodeKey
  | signature {r : Receipt} {key : NodeKey} (hreceipt : Receipt.parse s.receipt = .ok r)
      (hkey : NodeKey.ofCertificate r.cert = .ok key)
      (hholds : key.verify (foldRoot r.leafComponents.leaf r.proof).bytes r.signature = true) :
      Passes s .signature
  | anyNode (hcert : s.serviceCert = none) : Passes s .trust
  | endorsed {r : Receipt} {cert : Bytes} {service : NodeKey}
      (hreceipt : Receipt.parse s.receipt = .ok r) (hcert : s.serviceCert = some cert)
      (hservice : NodeKey.ofCertificate cert = .ok service)
      (hendorses : service.endorses r.cert = .ok true) : Passes s .trust
  | claims {r : Receipt} {k : OperationKind} {op : Operation}
      (hreceipt : Receipt.parse s.receipt = .ok r)
      (hkind : OperationKind.ofName? s.kind = some k)
      (hop : Operation.read k s.request s.response = .ok op)
      (hclaims : op.claimsDigest = r.leafComponents.claimsDigest) : Passes s .claims

/-- A stage that can be run on what is handed in and does not succeed, with its rejection. -/
inductive Fails (s : Submission) : Stage → Rejection → Prop
  | kind (hkind : OperationKind.ofName? s.kind = none) : Fails s .kind (.unsupportedKind s.kind)
  | request {k : OperationKind} {fault : Json.Fault}
      (hkind : OperationKind.ofName? s.kind = some k)
      (hrequest : k.checkRequest s.request = .error fault) :
      Fails s .request (.malformedReceipt (.operation (.request k fault)))
  | response {k : OperationKind} {fault : Json.Fault}
      (hkind : OperationKind.ofName? s.kind = some k)
      (hresponse : k.checkResponse s.response = .error fault) :
      Fails s .response (.malformedReceipt (.operation (.response k fault)))
  | serviceKey {cert : Bytes} {fault : CertificateFault} (hcert : s.serviceCert = some cert)
      (hservice : NodeKey.ofCertificate cert = .error fault) :
      Fails s .serviceKey (.certificate fault)
  | receiptText {fault : ReceiptFault} (hparse : ReceiptDocument.parse s.receipt = .error fault) :
      Fails s .receiptText (.malformedReceipt fault)
  | receipt {d : ReceiptDocument} {fault : ReceiptFault}
      (hparse : ReceiptDocument.parse s.receipt = .ok d) (hreceipt : d.toReceipt = .error fault) :
      Fails s .receipt (.malformedReceipt fault)
  | nodeKey {r : Receipt} {fault : CertificateFault} (hreceipt : Receipt.parse s.receipt = .ok r)
      (hkey : NodeKey.ofCertificate r.cert = .error fault) : Fails s .nodeKey (.certificate fault)
  | signature {r : Receipt} {key : NodeKey} (hreceipt : Receipt.parse s.receipt = .ok r)
      (hkey : NodeKey.ofCertificate r.cert = .ok key)
      (hholds : key.verify (foldRoot r.leafComponents.leaf r.proof).bytes r.signature = false) :
      Fails s .signature .signatureInvalid
  | trust {r : Receipt} {cert : Bytes} {service : NodeKey}
      (hreceipt : Receipt.parse s.receipt = .ok r) (hcert : s.serviceCert = some cert)
      (hservice : NodeKey.ofCertificate cert = .ok service)
      (hendorses : service.endorses r.cert ≠ .ok true) : Fails s .trust (.untrustedNode r.nodeId)
  | claims {r : Receipt} {k : OperationKind} {op : Operation}
      (hreceipt : Receipt.parse s.receipt = .ok r)
      (hkind : OperationKind.ofName? s.kind = some k)
      (hop : Operation.read k s.request s.response = .ok op)
      (hclaims : op.claimsDigest ≠ r.leafComponents.claimsDigest) :
      Fails s .claims (.claimsMismatch r.leafComponents.claimsDigest op.claimsDigest)

/-- The rejection of the first stage that fails: all stages before it pass. -/
def FailsFirst (s : Submission) (stage : Stage) (why : Rejection) : Prop :=
  ∃ earlier later, Stage.all = earlier ++ stage :: later ∧ (∀ e ∈ earlier, s.Passes e) ∧
    s.Fails stage why

variable {s : Submission} {stage stage' : Stage} {why why' : Rejection}

theorem Fails.not_passes (h : s.Fails stage why) : ¬s.Passes stage := by
  intro hpasses
  cases h <;> cases hpasses <;> simp_all [Receipt.parse, bind, Except.bind]

theorem Fails.unique (h : s.Fails stage why) (h' : s.Fails stage why') : why = why' := by
  cases h <;> cases h' <;> simp_all

theorem FailsFirst.unique (h : s.FailsFirst stage why) (h' : s.FailsFirst stage' why') :
    stage = stage' ∧ why = why' := by
  obtain ⟨earlier, later, hall, hpass, hfail⟩ := h
  obtain ⟨earlier', later', hall', hpass', hfail'⟩ := h'
  -- Neither stage is among those before the other, which pass.
  obtain ⟨hearlier, hrest⟩ : earlier = earlier' ∧ stage :: later = stage' :: later' := by
    rcases List.append_eq_append_iff.mp (hall.symm.trans hall') with
      ⟨mid, hmid, hcons⟩ | ⟨mid, hmid, hcons⟩
    · cases mid with
      | nil => exact ⟨by simpa using hmid.symm, by simpa using hcons⟩
      | cons e mid =>
          obtain ⟨rfl, -⟩ := List.cons.inj hcons
          exact absurd (hpass' stage (by simp [hmid])) hfail.not_passes
    · cases mid with
      | nil => exact ⟨by simpa using hmid, by simpa using hcons.symm⟩
      | cons e mid =>
          obtain ⟨rfl, -⟩ := List.cons.inj hcons
          exact absurd (hpass stage' (by simp [hmid])) hfail'.not_passes
  obtain rfl := (List.cons.inj hrest).1
  exact ⟨rfl, hfail.unique hfail'⟩

theorem FailsFirst.not_passes_all (h : s.FailsFirst stage why) : ¬∀ st, s.Passes st := by
  obtain ⟨-, -, -, -, hfail⟩ := h
  exact fun hall => hfail.not_passes (hall stage)

def PassesUntil (s : Submission) (n : Nat) : Prop := ∀ e ∈ Stage.all.take n, s.Passes e

theorem passesUntil_zero (s : Submission) : s.PassesUntil 0 := by simp [PassesUntil]

theorem PassesUntil.succ {n : Nat} (h : s.PassesUntil n) (hstage : Stage.all[n]? = some stage)
    (hpass : s.Passes stage) : s.PassesUntil (n + 1) := by
  intro e he
  rw [List.take_add_one, hstage, List.mem_append] at he
  rcases he with he | he
  · exact h e he
  · obtain rfl : e = stage := by simpa using he
    exact hpass

theorem PassesUntil.failsFirst {n : Nat} (h : s.PassesUntil n)
    (hstage : Stage.all[n]? = some stage) (hfail : s.Fails stage why) :
    s.FailsFirst stage why := by
  obtain ⟨hn, rfl⟩ := List.getElem?_eq_some_iff.mp hstage
  refine ⟨_, Stage.all.drop (n + 1), ?_, h, hfail⟩
  rw [← List.drop_eq_getElem_cons hn, List.take_append_drop]

/-- The stages come in groups, by what they make up: the operation, the policy, the receipt, and
last the audit. -/
theorem operation_cases (s : Submission) :
    (∃ k op, s.PassesUntil 3 ∧ OperationKind.ofName? s.kind = some k ∧
      Operation.read k s.request s.response = .ok op ∧
      Operation.ofBodies s.kind s.request s.response = .ok op) ∨
    ∃ stage why, s.FailsFirst stage why ∧
      Operation.ofBodies s.kind s.request s.response = .error why := by
  simp only [Operation.ofBodies_eq]
  cases hkind : OperationKind.ofName? s.kind with
  | none => exact .inr ⟨.kind, _, s.passesUntil_zero.failsFirst rfl (.kind hkind), rfl⟩
  | some k =>
      have hknown : s.PassesUntil 1 := s.passesUntil_zero.succ rfl (.kind hkind)
      rcases Operation.read_cases k s.request s.response with
        ⟨op, hrequest, hresponse, hread⟩ | ⟨fault, hrequest, hread⟩ |
          ⟨fault, hrequest, hresponse, hread⟩
      · have hbodies := (hknown.succ rfl (.request hkind hrequest)).succ rfl
          (.response hkind hresponse)
        exact .inl ⟨k, op, hbodies, rfl, hread, by simp [hread]⟩
      · exact .inr ⟨.request, _, hknown.failsFirst rfl (.request hkind hrequest),
          by simp [hread]⟩
      · have hasked := hknown.succ rfl (.request hkind hrequest)
        exact .inr ⟨.response, _, hasked.failsFirst rfl (.response hkind hresponse),
          by simp [hread]⟩

theorem policy_cases (h : s.PassesUntil 3) :
    (∃ policy, s.PassesUntil 4 ∧ Policy.ofServiceCertificate s.serviceCert = .ok policy) ∨
    ∃ why, s.FailsFirst .serviceKey why ∧
      Policy.ofServiceCertificate s.serviceCert = .error why := by
  cases hcert : s.serviceCert with
  | none => exact .inl ⟨.anyNode, h.succ rfl (.noService hcert), rfl⟩
  | some cert =>
      cases hservice : NodeKey.ofCertificate cert with
      | ok service =>
          refine .inl ⟨.endorsedBy service, h.succ rfl (.serviceKey hcert hservice), ?_⟩
          simp [Policy.ofServiceCertificate, hservice]
      | error fault =>
          refine .inr ⟨_, h.failsFirst rfl (.serviceKey hcert hservice), ?_⟩
          simp [Policy.ofServiceCertificate, hservice]

theorem receipt_cases (h : s.PassesUntil 4) :
    (∃ r, s.PassesUntil 6 ∧ Receipt.parse s.receipt = .ok r) ∨
    ∃ stage why, s.FailsFirst stage why ∧ readReceipt s.receipt = .error why := by
  simp only [readReceipt, Receipt.parse]
  cases hparse : ReceiptDocument.parse s.receipt with
  | error fault => exact .inr ⟨_, _, h.failsFirst rfl (.receiptText hparse), rfl⟩
  | ok d =>
      have hparsed : s.PassesUntil 5 := h.succ rfl (.receiptText hparse)
      cases hreceipt : d.toReceipt with
      | error fault =>
          refine .inr ⟨_, _, hparsed.failsFirst rfl (.receipt hparse hreceipt), ?_⟩
          simp [bind, Except.bind, hreceipt]
      | ok r =>
          have hr : Receipt.parse s.receipt = .ok r := by
            simp [Receipt.parse, hparse, bind, Except.bind, hreceipt]
          exact .inl ⟨r, hparsed.succ rfl (.receipt hr), by simp [bind, Except.bind, hreceipt]⟩

theorem verdict_eq (s : Submission) :
    s.verdict = (do
      let op ← Operation.ofBodies s.kind s.request s.response
      let policy ← Policy.ofServiceCertificate s.serviceCert
      let r ← readReceipt s.receipt
      policy.verify r op) := by
  rw [verdict, check, checkTraced]
  simp only [Traced.outcome_bind, Traced.outcome_silent, Policy.outcome_auditDocument,
    readDocument, readReceipt, Receipt.parse]
  cases Operation.ofBodies s.kind s.request s.response with
  | error why => rfl
  | ok op =>
      cases Policy.ofServiceCertificate s.serviceCert with
      | error why => rfl
      | ok policy =>
          cases ReceiptDocument.parse s.receipt with
          | error fault => rfl
          | ok d =>
              cases h : d.toReceipt <;> simp [h, bind, Except.bind]

theorem verdict_of_decoded {op : Operation} {policy : Policy} {r : Receipt}
    (hop : Operation.ofBodies s.kind s.request s.response = .ok op)
    (hpolicy : Policy.ofServiceCertificate s.serviceCert = .ok policy)
    (hr : Receipt.parse s.receipt = .ok r) : s.verdict = policy.verify r op := by
  have hreceipt : readReceipt s.receipt = .ok r := by rw [readReceipt, hr, Except.ok_mapError]
  rw [verdict_eq, hop, Except.ok_bind, hpolicy, Except.ok_bind, hreceipt, Except.ok_bind]

/-- Whether the policy accepts the node is what the stage of trust asks. -/
theorem trust_cases {r : Receipt} {policy : Policy} (hreceipt : Receipt.parse s.receipt = .ok r)
    (hpolicy : Policy.ofServiceCertificate s.serviceCert = .ok policy) :
    (policy.accepts r.nodeId r.cert = true ∧ s.Passes .trust) ∨
    (policy.accepts r.nodeId r.cert = false ∧ s.Fails .trust (.untrustedNode r.nodeId)) := by
  cases hcert : s.serviceCert with
  | none =>
      obtain rfl : Policy.anyNode = policy := by
        simpa [Policy.ofServiceCertificate, hcert] using hpolicy
      exact .inl ⟨rfl, .anyNode hcert⟩
  | some cert =>
      cases hservice : NodeKey.ofCertificate cert with
      | error fault =>
          simp [Policy.ofServiceCertificate, hcert, hservice] at hpolicy
      | ok service =>
          obtain rfl : Policy.endorsedBy service = policy := by
            simpa [Policy.ofServiceCertificate, hcert, hservice] using hpolicy
          by_cases hendorses : service.endorses r.cert = .ok true
          · exact .inl ⟨by simp [Policy.endorsedBy, hendorses],
              .endorsed hreceipt hcert hservice hendorses⟩
          · refine .inr ⟨?_, .trust hreceipt hcert hservice hendorses⟩
            cases h : service.endorses r.cert with
            | error fault => simp [Policy.endorsedBy, h]
            | ok endorsed => simpa [Policy.endorsedBy, h] using hendorses

theorem gates_cases {k : OperationKind} {op : Operation} {policy : Policy} {r : Receipt}
    (h : s.PassesUntil 6) (hkind : OperationKind.ofName? s.kind = some k)
    (hop : Operation.read k s.request s.response = .ok op)
    (hpolicy : Policy.ofServiceCertificate s.serviceCert = .ok policy)
    (hreceipt : Receipt.parse s.receipt = .ok r) :
    (s.PassesUntil 10 ∧ policy.verify r op = .ok (Policy.attested r)) ∨
    ∃ stage why, s.FailsFirst stage why ∧ policy.verify r op = .error why := by
  rw [Policy.verify_eq, Policy.nodeGates, Policy.outcome_signatureGate,
    Policy.outcome_trustGate, Policy.outcome_claimsGate, verifyRoot]
  cases hkey : NodeKey.ofCertificate r.cert with
  | error fault => exact .inr ⟨_, _, h.failsFirst rfl (.nodeKey hreceipt hkey), rfl⟩
  | ok key =>
      have hkeyed : s.PassesUntil 7 := h.succ rfl (.nodeKey hreceipt hkey)
      cases hholds : key.verify r.root.bytes r.signature with
      | false =>
          refine .inr ⟨_, _, hkeyed.failsFirst rfl (.signature hreceipt hkey hholds), ?_⟩
          simp [bind, Except.bind, pure, Except.pure, hholds]
      | true =>
          have hsigned : s.PassesUntil 8 := hkeyed.succ rfl (.signature hreceipt hkey hholds)
          rcases trust_cases hreceipt hpolicy with ⟨haccepts, htrust⟩ | ⟨haccepts, htrust⟩
          · have htrusted : s.PassesUntil 9 := hsigned.succ rfl htrust
            by_cases hclaims : op.claimsDigest = r.leafComponents.claimsDigest
            · refine .inl ⟨htrusted.succ rfl (.claims hreceipt hkind hop hclaims), ?_⟩
              simp [bind, Except.bind, pure, Except.pure, hholds, haccepts, hclaims]
            · refine .inr ⟨_, _, htrusted.failsFirst rfl (.claims hreceipt hkind hop hclaims), ?_⟩
              simp [bind, Except.bind, pure, Except.pure, hholds, haccepts, hclaims]
          · refine .inr ⟨_, _, hsigned.failsFirst rfl htrust, ?_⟩
            simp [bind, Except.bind, pure, Except.pure, hholds, haccepts]

/-- Every stage passes and the receipt is attested, or the first stage that fails is blamed. -/
theorem verdict_cases (s : Submission) :
    (∃ r, (∀ stage, s.Passes stage) ∧ Receipt.parse s.receipt = .ok r ∧
      s.verdict = .ok (Policy.attested r)) ∨
    ∃ stage why, s.FailsFirst stage why ∧ s.verdict = .error why := by
  rw [verdict_eq]
  rcases operation_cases s with ⟨k, op, hbodies, hkind, hread, hop⟩ | ⟨stage, why, hfirst, hop⟩
  · rcases policy_cases hbodies with ⟨policy, hserved, hpolicy⟩ | ⟨why, hfirst, hpolicy⟩
    · rcases receipt_cases hserved with ⟨r, hdecoded, hr⟩ | ⟨stage, why, hfirst, hr⟩
      · have hgates := gates_cases hdecoded hkind hread hpolicy hr
        rw [← verdict_eq, verdict_of_decoded hop hpolicy hr]
        rcases hgates with ⟨hall, hverify⟩ | hfails
        · exact .inl ⟨r, fun stage => hall stage stage.mem_all, hr, hverify⟩
        · exact .inr hfails
      · exact .inr ⟨stage, why, hfirst, by simp [hop, hpolicy, hr, bind, Except.bind]⟩
    · exact .inr ⟨.serviceKey, why, hfirst, by simp [hop, hpolicy, bind, Except.bind]⟩
  · exact .inr ⟨stage, why, hfirst, by simp [hop, bind, Except.bind]⟩

/-- The service is blamed exactly by the stages that judge what was decoded. -/
theorem Fails.isServiceFault_iff (h : s.Fails stage why) :
    why.isServiceFault = true ↔ stage.decodes = false := by
  cases h <;> simp [Rejection.isServiceFault, Stage.decodes]

theorem FailsFirst.passes_of_decodes (h : s.FailsFirst stage why) (hstage : stage.decodes = false)
    {e : Stage} (he : e.decodes = true) : s.Passes e := by
  obtain ⟨earlier, later, hall, hpass, -⟩ := h
  have horder := Stage.pairwise_all
  rw [hall, List.pairwise_append, List.pairwise_cons] at horder
  have hmem := e.mem_all
  rw [hall, List.mem_append, List.mem_cons] at hmem
  rcases hmem with hearlier | rfl | hlater
  · exact hpass e hearlier
  · simp [hstage] at he
  · simp [horder.2.1.1 e hlater he] at hstage

theorem FailsFirst.isServiceFault_iff (h : s.FailsFirst stage why) :
    why.isServiceFault = true ↔ (∀ e, e.decodes = true → s.Passes e) ∧
      ∃ e, e.decodes = false ∧ s.FailsFirst e why := by
  obtain ⟨-, -, -, -, hfail⟩ := id h
  rw [hfail.isServiceFault_iff]
  constructor
  · exact fun hstage => ⟨fun _ => h.passes_of_decodes hstage, stage, hstage, h⟩
  · rintro ⟨-, e, he, hfirst⟩
    rw [(h.unique hfirst).1, he]

theorem verdict_eq_ok_iff {v : Verified} :
    s.verdict = .ok v ↔ (∀ stage, s.Passes stage) ∧
      ∃ r, Receipt.parse s.receipt = .ok r ∧ v = Policy.attested r := by
  rcases verdict_cases s with ⟨r, hpass, hr, hverdict⟩ | ⟨stage, why, hfirst, hverdict⟩ <;>
    rw [hverdict]
  · constructor
    · rintro ⟨⟩
      exact ⟨hpass, r, hr, rfl⟩
    · rintro ⟨-, r', hr', rfl⟩
      rw [Except.ok.inj (hr.symm.trans hr')]
  · exact ⟨nofun, fun h => absurd h.1 hfirst.not_passes_all⟩

theorem verdict_eq_error_iff : s.verdict = .error why ↔ ∃ stage, s.FailsFirst stage why := by
  rcases verdict_cases s with ⟨r, hpass, hr, hverdict⟩ | ⟨stage, why', hfirst, hverdict⟩ <;>
    rw [hverdict]
  · exact ⟨nofun, fun ⟨stage, hfirst⟩ => absurd hpass hfirst.not_passes_all⟩
  · constructor
    · rintro ⟨⟩
      exact ⟨stage, hfirst⟩
    · rintro ⟨stage', hfirst'⟩
      rw [(hfirst.unique hfirst').2]

/-- A check accepts exactly when every stage passes, and attests to the digests, the node and the
position of the receipt; else it gives the rejection of the first stage that fails. The service is
at fault exactly when all decoding stages pass and the first to fail is one of the others. -/
theorem verdict_by_stages (s : Submission) :
    (∀ v, s.verdict = .ok v ↔ (∀ stage, s.Passes stage) ∧
      ∃ r, Receipt.parse s.receipt = .ok r ∧
        v = { nodeId := r.nodeId
              leaf := r.leafComponents.leaf
              root := foldRoot r.leafComponents.leaf r.proof
              txId := r.leafComponents.commitEvidence.txId? }) ∧
    (∀ why, s.verdict = .error why ↔ ∃ stage, s.FailsFirst stage why) ∧
    ∀ why, s.verdict = .error why →
      (why.isServiceFault = true ↔ (∀ stage, stage.decodes = true → s.Passes stage) ∧
        ∃ stage, stage.decodes = false ∧ s.FailsFirst stage why) := by
  refine ⟨fun v => verdict_eq_ok_iff, fun why => verdict_eq_error_iff, fun why h => ?_⟩
  obtain ⟨stage, hfirst⟩ := verdict_eq_error_iff.mp h
  exact hfirst.isServiceFault_iff

/-- A kind that is not known is blamed, even where nothing else can be read. -/
example : (⟨"", "range", .null, .null, some []⟩ : Submission).verdict =
    .error (.unsupportedKind "range") := rfl

end Submission

open NodeKey (generatorSignature resignedCertificate)
open Policy (putAnswered revision putReceipt generatorCertificate)

def quoted (cs : List Char) : List Char :=
  '"' :: cs.flatMap (fun c => if c = '\n' then ['\\', 'n'] else [c]) ++ ['"']

def object (members : List (String × List Char)) : List Char :=
  let lines := members.map fun m => quoted m.1.toList ++ ':' :: m.2
  '\x7b' :: [','].intercalate lines ++ ['\x7d']

/-- The text of a receipt all of whose parts are ASCII. -/
def receiptChars (r : Receipt) : List Char :=
  let ascii (bytes : Bytes) : List Char := quoted (bytes.map fun b => Char.ofNat b.toNat)
  let hex (d : Digest) : List Char := quoted (d.bytes.flatMap Hex.pair)
  let leaf := object [("writeSetDigest", hex r.leafComponents.writeSetDigest),
    ("commitEvidence", quoted r.leafComponents.commitEvidence.text.toList),
    ("claimsDigest", hex r.leafComponents.claimsDigest)]
  let steps := r.proof.map fun step => object [(step.direction.name, hex step.sibling)]
  let proof := '[' :: [','].intercalate steps ++ [']']
  object [("nodeId", quoted r.nodeId.toList), ("cert", ascii r.cert),
    ("signature", ascii (Base64.standard.encode r.signature)),
    ("txReceipt", object [("leafComponents", leaf), ("proof", proof)])]

/-- `putReceipt` under a certificate in an armour, as it is in a text. -/
def armouredReceipt (cert : Bytes) : Receipt :=
  { putReceipt with cert := (Pem.Armour.oneLine cert).bytes [] }

/-- A receipt whose signature is over other bytes than its root. -/
def forgedReceipt : Receipt :=
  { armouredReceipt generatorCertificate with signature := generatorSignature Digest.zero.bytes }

theorem parse_receiptChars :
    ∀ r ∈ [armouredReceipt generatorCertificate, armouredReceipt resignedCertificate,
      forgedReceipt], Receipt.parse (.ofList (receiptChars r)) = .ok r := by
  have hok {e : Except ReceiptFault Receipt} {r : Receipt} (h : e.toOption = some r) :
      e = .ok r := by
    cases e <;> simp_all [Except.toOption]
  intro r hr
  apply hok
  rw [Receipt.parse, ReceiptDocument.parse, Json.parse, String.toList_ofList]
  revert r
  decide +kernel

/-- A well-formed signature over other bytes is noticed once everything is decoded. -/
example :
    let op := putAnswered none (some (revision 11))
    let s : Submission :=
      ⟨.ofList (receiptChars forgedReceipt), "txn", op.requestJson, op.responseJson, none⟩
    s.verdict = .error .signatureInvalid := by
  intro op s
  have hop : Operation.ofBodies s.kind s.request s.response = .ok op := rfl
  have hreceipt : Receipt.parse s.receipt = .ok forgedReceipt :=
    parse_receiptChars forgedReceipt (by simp)
  have hforged : verifyRoot forgedReceipt.cert forgedReceipt.signature forgedReceipt.root =
      .ok false := by
    rw [verifyRoot, forgedReceipt, armouredReceipt, NodeKey.ofCertificate, Certificate.read_armour]
    decide +kernel
  rw [Submission.verdict_of_decoded hop rfl hreceipt, Policy.verify_eq, Policy.nodeGates,
    Policy.outcome_signatureGate, hforged]
  rfl

end Audit

end LedgerAudit
