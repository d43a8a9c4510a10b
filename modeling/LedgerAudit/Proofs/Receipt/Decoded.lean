import LedgerAudit.Audit.Check
import LedgerAudit.Proofs.Audit.Gates
import LedgerAudit.Proofs.Base64
import LedgerAudit.Proofs.Digest
import LedgerAudit.Proofs.Text.Blank
import Mathlib.Data.List.Forall2

/-!
# Receipts made of documents

A document says which receipt is made of it, part by part. Nothing is made of a document that says
less, and the first entry of a proof list that is no step is named.
-/

namespace LedgerAudit

/-- The message about an entry of a proof list begins with the index of the entry. -/
theorem StepFault.exists_message_eq (index : Nat) (fault : StepFault) :
    ∃ rest : String, fault.message index = s!"proof[{index}]{rest}" := by
  cases fault with
  | noTag =>
      have hsplit : "]: missing direction tag" = "]" ++ ": missing direction tag" := rfl
      refine ⟨": missing direction tag", ?_⟩
      simp only [message, hsplit, String.append_assoc, toString]
  | severalTags tags =>
      have hsplit : "]: expected one direction tag, found " =
          "]" ++ ": expected one direction tag, found " := rfl
      refine ⟨": expected one direction tag, found " ++ Text.quotedList tags, ?_⟩
      simp only [message, hsplit, String.append_assoc, toString]
  | unknownTag tag =>
      have hsplit : "]: unknown direction tag " = "]" ++ ": unknown direction tag " := rfl
      refine ⟨": unknown direction tag " ++ Text.quoted tag, ?_⟩
      simp only [message, hsplit, String.append_assoc, toString]
  | notText tag =>
      have hsplit : "]." = "]" ++ "." := rfl
      refine ⟨"." ++ tag ++ ": expected a hex string", ?_⟩
      simp only [message, hsplit, String.append_assoc, toString]
  | digest fault =>
      have hsplit : "]: Malformed digest: " = "]" ++ ": Malformed digest: " := rfl
      refine ⟨": Malformed digest: " ++ fault.message, ?_⟩
      simp only [message, hsplit, String.append_assoc, toString]

/-- The 64 hexadecimal characters of a digest, with letters in either case. -/
def Digest.SpelledBy (d : Digest) (text : String) : Prop :=
  text.toList.map Char.toLower = d.toHex.toList

/-- One key, a side, over the text of the sibling. -/
def StepDocument.Describes (entry : StepDocument) (step : ProofStep) : Prop :=
  ∃ text, entry = [(step.direction.name, .string text)] ∧ step.sibling.SpelledBy text

structure LeafDocument.Describes (d : LeafDocument) (c : LeafComponents) : Prop where
  writeSetDigest : ∃ text ∈ d.writeSetDigest, c.writeSetDigest.SpelledBy text
  commitEvidence : d.commitEvidence = some c.commitEvidence.text
  claimsDigest : ∃ text ∈ d.claimsDigest, c.claimsDigest.SpelledBy text

namespace ReceiptDocument

/-- The padded standard base64 of some bytes, between blanks. -/
def SignatureText (text : String) (signature : Bytes) : Prop :=
  ∃ before after, (∀ c ∈ before, Text.isBlank c) ∧ (∀ c ∈ after, Text.isBlank c) ∧
    text.toList = before ++ (Base64.standard.encodeText signature).toList ++ after

/-- The document has every part of the receipt, and no other receipt. -/
structure Describes (d : ReceiptDocument) (r : Receipt) : Prop where
  nodeId : d.nodeId = some r.nodeId
  cert : ∃ text ∈ d.cert, r.cert = Bytes.ofText text
  signature : ∃ text ∈ d.signature, SignatureText text r.signature
  leafComponents : ∃ t ∈ d.txReceipt, ∃ leaf ∈ t.leafComponents, leaf.Describes r.leafComponents
  proof : ∃ t ∈ d.txReceipt, ∃ entries ∈ t.proof,
    List.Forall₂ StepDocument.Describes entries r.proof

/-- The parts are there and the signature can be read, but the entry at this index of the proof
list is the first that is no step. -/
structure FailsAtStep (d : ReceiptDocument) (index : Nat) : Prop where
  nodeId : d.nodeId.isSome
  cert : d.cert.isSome
  signature : ∃ text ∈ d.signature, ∃ bytes, SignatureText text bytes
  proof : ∃ t ∈ d.txReceipt, t.leafComponents.isSome ∧ ∃ good bad rest,
    t.proof = some (good ++ bad :: rest) ∧ good.length = index ∧
    (∀ entry ∈ good, ∃ step, entry.Describes step) ∧ ∀ step, ¬bad.Describes step

end ReceiptDocument

theorem ReceiptFault.require_eq_ok_iff {α : Type} {part : String} {o : Option α} {a : α} :
    require part o = .ok a ↔ o = some a := by
  cases o <;> simp [require]

theorem Direction.ofName?_eq_some_iff {text : String} {d : Direction} :
    ofName? text = some d ↔ text = d.name := by
  constructor
  · intro h
    have hname : d.name = text := by simpa using List.find?_some h
    exact hname.symm
  · rintro rfl
    exact ofName?_name d

theorem StepDocument.toStep_eq_ok_iff {entry : StepDocument} {step : ProofStep} :
    entry.toStep = .ok step ↔ entry.Describes step := by
  constructor
  · intro h
    rw [toStep.eq_def] at h
    split at h
    · nomatch h
    · split at h
      · nomatch h
      · next direction text hdirection =>
        cases hsibling : Digest.ofHex text with
        | error fault => simp [hsibling] at h
        | ok sibling =>
            obtain rfl : ⟨direction, sibling⟩ = step := by simpa [hsibling] using h
            refine ⟨text, ?_, Digest.ofHex_eq_ok_iff.mp hsibling⟩
            rw [Direction.ofName?_eq_some_iff.mp hdirection]
      · nomatch h
    · nomatch h
  · rintro ⟨text, rfl, hsibling⟩
    simp [toStep, Digest.ofHex_eq_ok_iff.mpr hsibling]

theorem LeafDocument.readDigest_eq_ok_iff {part text : String} {d : Digest} :
    readDigest part text = .ok d ↔ d.SpelledBy text := by
  rw [readDigest, Digest.SpelledBy, ← Digest.ofHex_eq_ok_iff]
  cases Digest.ofHex text <;> simp

theorem LeafDocument.toComponents_eq_ok_iff {d : LeafDocument} {c : LeafComponents} :
    d.toComponents = .ok c ↔ d.Describes c := by
  simp only [toComponents, Except.bind_eq_ok_iff, ReceiptFault.require_eq_ok_iff,
    readDigest_eq_ok_iff, Except.pure_eq_ok, Except.ok.injEq]
  constructor
  · rintro ⟨writeSet, hwriteSet, evidence, hevidence, claims, hclaims, a, ha, b, hb, rfl⟩
    exact ⟨⟨writeSet, hwriteSet, ha⟩, hevidence, ⟨claims, hclaims, hb⟩⟩
  · rintro ⟨⟨writeSet, hwriteSet, ha⟩, hevidence, ⟨claims, hclaims, hb⟩⟩
    exact ⟨writeSet, hwriteSet, _, hevidence, claims, hclaims, _, ha, _, hb, rfl⟩

namespace ReceiptDocument

theorem readSignature_eq_ok_iff {text : String} {signature : Bytes} :
    readSignature text = .ok signature ↔ SignatureText text signature := by
  have hread : readSignature text = .ok signature ↔
      Base64.standard.decode (Bytes.ofText (.ofList (Text.trim text.toList))) = .ok signature := by
    rw [readSignature]
    cases Base64.standard.decode (Bytes.ofText (.ofList (Text.trim text.toList))) <;> simp
  have hblank : ∀ c ∈ (Base64.standard.encodeText signature).toList, Text.isBlank c = false := by
    intro c hc
    rw [Base64.Alphabet.encodeText, String.toList_ofList] at hc
    obtain ⟨b, hb, rfl⟩ := List.mem_map.mp hc
    exact Base64.Alphabet.forall_mem_encode
      (P := fun b => Text.isBlank (Char.ofNat b.toNat) = false)
      (by decide +kernel) (by decide +kernel) signature b hb
  rw [hread, Base64.Alphabet.standard_lawful.decode_ofText_eq_ok_iff Base64.Alphabet.standard_exact,
    SignatureText, ← Text.trim_eq_iff hblank, ← String.toList_inj, String.toList_ofList]

/-- A proof list is read entry by entry. -/
theorem readProof_eq_ok_iff {index : Nat} {entries : List StepDocument} {steps : List ProofStep} :
    readProof index entries = .ok steps ↔ List.Forall₂ StepDocument.Describes entries steps := by
  induction entries generalizing index steps with
  | nil =>
      rw [readProof, List.forall₂_nil_left_iff, Except.ok.injEq]
      exact eq_comm
  | cons entry rest ih =>
      rw [readProof, List.forall₂_cons_left_iff]
      cases hstep : entry.toStep with
      | error fault =>
          have hbad : ∀ step, ¬entry.Describes step := by
            intro step h
            nomatch hstep.symm.trans (StepDocument.toStep_eq_ok_iff.mpr h)
          simp [hbad]
      | ok step =>
          have hentry : ∀ other, entry.Describes other ↔ step = other := by
            intro other
            rw [← StepDocument.toStep_eq_ok_iff, hstep, Except.ok.injEq]
          simp only [hentry, Except.bind_eq_ok_iff, ih, Except.pure_eq_ok, Except.ok.injEq]
          constructor
          · rintro ⟨tail, htail, rfl⟩
            exact ⟨step, tail, rfl, htail, rfl⟩
          · rintro ⟨_, tail, rfl, htail, rfl⟩
            exact ⟨tail, htail, rfl⟩

/-- The first entry that is no step is blamed. -/
theorem readProof_eq_error (index : Nat) {good : List StepDocument} {bad : StepDocument}
    (rest : List StepDocument) (hgood : ∀ entry ∈ good, ∃ step, entry.Describes step)
    (hbad : ∀ step, ¬bad.Describes step) :
    ∃ fault, readProof index (good ++ bad :: rest) =
      .error (.step (index + good.length) fault) := by
  induction good generalizing index with
  | nil =>
      cases hstep : bad.toStep with
      | ok step => exact absurd (StepDocument.toStep_eq_ok_iff.mp hstep) (hbad step)
      | error fault => exact ⟨fault, by simp [readProof, hstep]⟩
  | cons entry good ih =>
      obtain ⟨⟨step, hstep⟩, hgood⟩ := List.forall_mem_cons.mp hgood
      obtain ⟨fault, hrest⟩ := ih (index + 1) hgood
      have hindex : index + 1 + good.length = index + (entry :: good).length := by
        simp
        omega
      refine ⟨fault, ?_⟩
      rw [List.cons_append, readProof, StepDocument.toStep_eq_ok_iff.mpr hstep, hrest, hindex]
      rfl

theorem toReceipt_eq_ok_iff {d : ReceiptDocument} {r : Receipt} :
    d.toReceipt = .ok r ↔ d.Describes r := by
  simp only [toReceipt, Except.bind_eq_ok_iff, ReceiptFault.require_eq_ok_iff,
    readSignature_eq_ok_iff, readProof_eq_ok_iff, LeafDocument.toComponents_eq_ok_iff,
    Except.pure_eq_ok, Except.ok.injEq]
  constructor
  · rintro ⟨nodeId, hnodeId, cert, hcert, text, htext, t, ht, leaf, hleaf, entries, hentries,
      signature, hsignature, steps, hsteps, components, hcomponents, rfl⟩
    exact ⟨hnodeId, ⟨cert, hcert, rfl⟩, ⟨text, htext, hsignature⟩,
      ⟨t, ht, leaf, hleaf, hcomponents⟩, ⟨t, ht, entries, hentries, hsteps⟩⟩
  · rintro ⟨hnodeId, ⟨cert, hcert, hbytes⟩, ⟨text, htext, hsignature⟩,
      ⟨t, ht, leaf, hleaf, hcomponents⟩, ⟨t', ht', entries, hentries, hsteps⟩⟩
    obtain rfl : t = t' := Option.some.inj (ht.symm.trans ht')
    refine ⟨_, hnodeId, cert, hcert, text, htext, t, ht, leaf, hleaf, entries, hentries,
      _, hsignature, _, hsteps, _, hcomponents, ?_⟩
    rw [← hbytes]

theorem FailsAtStep.toReceipt_eq {d : ReceiptDocument} {index : Nat} (h : d.FailsAtStep index) :
    ∃ fault, d.toReceipt = .error (.step index fault) := by
  obtain ⟨nodeId, hnodeId⟩ := Option.isSome_iff_exists.mp h.nodeId
  obtain ⟨cert, hcert⟩ := Option.isSome_iff_exists.mp h.cert
  obtain ⟨text, htext, bytes, hbytes⟩ := h.signature
  obtain ⟨t, ht, hleaf, good, bad, rest, hproof, rfl, hgood, hbad⟩ := h.proof
  obtain ⟨leaf, hleaf⟩ := Option.isSome_iff_exists.mp hleaf
  obtain ⟨fault, hfault⟩ := readProof_eq_error 0 rest hgood hbad
  rw [Nat.zero_add] at hfault
  have hsignature := readSignature_eq_ok_iff.mpr hbytes
  refine ⟨fault, ?_⟩
  rw [toReceipt, hnodeId, hcert, Option.mem_def.mp htext, Option.mem_def.mp ht]
  simp [ReceiptFault.require, hleaf, hproof, hsignature, hfault]

/-- Whatever the policy and the operation are, a document that is not read is rejected as
malformed. -/
theorem outcome_auditDocument_of_error {d : ReceiptDocument} {fault : ReceiptFault}
    (h : d.toReceipt = .error fault) (policy : Policy) (op : Operation) :
    (policy.auditDocument d op).outcome = .error (.malformedReceipt fault) := by
  rw [Policy.outcome_auditDocument, h]
  rfl

/-- Exactly the documents that describe a receipt are read, and as that receipt; all others are
rejected as malformed, before a policy or an operation matters. Where it is the proof list that is
bad, the message begins with the index of its first bad entry. Nothing but malformed receipts comes
of a text that is not read. -/
theorem toReceipt_exact :
    (∀ d : ReceiptDocument,
      (∀ r, d.toReceipt = .ok r ↔ d.Describes r) ∧
      ((∀ r, ¬d.Describes r) → ∃ fault, d.toReceipt = .error fault ∧
        ∀ (policy : Policy) (op : Operation),
          (policy.auditDocument d op).outcome = .error (.malformedReceipt fault)) ∧
      ∀ index, d.FailsAtStep index → ∃ (fault : ReceiptFault) (rest : String),
        d.toReceipt = .error fault ∧ fault.message = s!"proof[{index}]{rest}" ∧
        ∀ (policy : Policy) (op : Operation), ∃ why,
          (policy.auditDocument d op).outcome = .error why ∧ why.kind = "malformed_receipt" ∧
          why.message = "Malformed receipt: " ++ fault.message) ∧
    ∀ text why, Audit.readReceipt text = .error why →
      ∃ fault, why = .malformedReceipt fault ∧ why.kind = "malformed_receipt" := by
  refine ⟨fun d => ⟨fun r => toReceipt_eq_ok_iff, fun hnone => ?_, fun index h => ?_⟩,
    fun text why h => ?_⟩
  · cases hread : d.toReceipt with
    | ok r => exact absurd (toReceipt_eq_ok_iff.mp hread) (hnone r)
    | error fault => exact ⟨fault, rfl, outcome_auditDocument_of_error hread⟩
  · obtain ⟨fault, hfault⟩ := h.toReceipt_eq
    obtain ⟨rest, hmessage⟩ := fault.exists_message_eq index
    exact ⟨.step index fault, rest, hfault, hmessage, fun policy op =>
      ⟨_, outcome_auditDocument_of_error hfault policy op, rfl, rfl⟩⟩
  · obtain ⟨fault, -, rfl⟩ := Except.mapError_eq_error_iff.mp h
    exact ⟨fault, rfl, rfl⟩

def mixedDigest : Digest := ⟨List.replicate 32 171, by simp⟩

/-- The characters of `mixedDigest`, every other one in uppercase. -/
def mixedText : String := .ofList (List.replicate 32 ['A', 'b']).flatten

theorem spelledBy_mixedText : mixedDigest.SpelledBy mixedText := by
  have htext : mixedText.toList = (List.replicate 32 ['A', 'b']).flatten := String.toList_ofList
  have hwritten : mixedDigest.toHex.toList = mixedDigest.bytes.flatMap Hex.pair :=
    String.toList_ofList
  rw [Digest.SpelledBy, htext, hwritten]
  decide +kernel

/-- A document with blanks around its signature and letters of both cases in its digests. -/
def mixedDocument (entries : List StepDocument) : ReceiptDocument where
  cert := some "PEM"
  signature := some " AQ==\n"
  nodeId := some "n0"
  txReceipt := some
    { leafComponents := some ⟨some mixedText, some "ce:", some mixedText⟩
      proof := some entries }

/-- An entry with a second key is no step, even if there is nothing under that key. -/
theorem toReceipt_mixedDocument :
    let step : StepDocument := [("left", .string mixedText)]
    let twoTags : StepDocument := [("left", .string mixedText), ("right", .null)]
    let receipt : Receipt := ⟨"n0", Bytes.ofText "PEM", [1], ⟨mixedDigest, ⟨"ce:"⟩, mixedDigest⟩,
      [⟨.left, mixedDigest⟩]⟩
    (mixedDocument [step]).toReceipt = .ok receipt ∧
      (mixedDocument [step, twoTags, step]).FailsAtStep 1 ∧
      ∃ (fault : ReceiptFault) (rest : String),
        (mixedDocument [step, twoTags, step]).toReceipt = .error fault ∧
          fault.message = s!"proof[{1}]{rest}" ∧
          ∀ (policy : Policy) (op : Operation), ∃ why,
            (policy.auditDocument (mixedDocument [step, twoTags, step]) op).outcome =
              .error why ∧ why.kind = "malformed_receipt" ∧
            why.message = "Malformed receipt: " ++ fault.message := by
  intro step twoTags receipt
  have hstep : step.Describes ⟨.left, mixedDigest⟩ := ⟨mixedText, rfl, spelledBy_mixedText⟩
  have hbad : ∀ other, ¬twoTags.Describes other := by
    rintro other ⟨text, htext, -⟩
    simp [twoTags] at htext
  have hsignature : SignatureText " AQ==\n" [1] := by
    have hbefore : ∀ c ∈ [' '], Text.isBlank c := List.forall_mem_singleton.mpr rfl
    have hafter : ∀ c ∈ ['\n'], Text.isBlank c := List.forall_mem_singleton.mpr rfl
    refine ⟨[' '], ['\n'], hbefore, hafter, ?_⟩
    rw [Base64.Alphabet.encodeText, String.toList_ofList]
    decide +kernel
  have hdescribes : (mixedDocument [step]).Describes receipt :=
    { nodeId := rfl
      cert := ⟨_, rfl, rfl⟩
      signature := ⟨_, rfl, hsignature⟩
      leafComponents := ⟨_, rfl, _, rfl, ⟨_, rfl, spelledBy_mixedText⟩, rfl,
        ⟨_, rfl, spelledBy_mixedText⟩⟩
      proof := ⟨_, rfl, _, rfl, .cons hstep .nil⟩ }
  have hfails : (mixedDocument [step, twoTags, step]).FailsAtStep 1 :=
    { nodeId := rfl
      cert := rfl
      signature := ⟨_, rfl, _, hsignature⟩
      proof := ⟨_, rfl, rfl, [step], twoTags, [step], rfl, rfl,
        List.forall_mem_singleton.mpr ⟨_, hstep⟩, hbad⟩ }
  exact ⟨((toReceipt_exact.1 _).1 _).mpr hdescribes, hfails, (toReceipt_exact.1 _).2.2 1 hfails⟩

end ReceiptDocument

end LedgerAudit
