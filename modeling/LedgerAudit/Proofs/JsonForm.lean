import LedgerAudit.Proofs.Message.Catalogue
import LedgerAudit.Proofs.Receipt.Restored

/-!
# What survives its own JSON form

A message that is written as a JSON value and read again is the same message with the same bytes,
unless a comparison in it compares with bytes. A receipt document is the same document, alone and
in its envelope.
-/

namespace LedgerAudit

open Message

/-- Every message without a comparison with bytes survives its JSON form, and so does every
receipt document. -/
theorem jsonForm_read :
    (∀ (k : MessageKind) (m : k.Carrier), (∀ c ∈ k.comparisons m, ¬ c.TargetsValue) →
      k.format.read (k.format.toJson m).sorted = .ok m ∧
        (k.format.read (k.format.toJson m).sorted).map k.format.encode = .ok (k.format.encode m)) ∧
    (∀ d : ReceiptDocument, d.HasMaps →
      ReceiptDocument.codec.read (ReceiptDocument.codec.write d).sorted = .ok d) ∧
    ∀ e : Envelope, e.receipt.HasMaps →
      Envelope.codec.read (Envelope.codec.write e).sorted = .ok e := by
  refine ⟨fun k m h => ?_, fun d h => d.codec_restores h, fun e h => e.codec_restores h⟩
  have hread : k.format.read (k.format.toJson m).sorted = .ok m :=
    (k.format_restores_iff m).mpr h
  exact ⟨hread, by rw [hread, Except.ok_map]⟩

theorem jsonForm_read_nested :
    let t : TxnRequest := ⟨[⟨0, 0, [97], some (.version 7), []⟩],
      [.txn [⟨1, 4, [98], some (.lease (-1)), []⟩] [.put ⟨[98], [255], 3, true, false, false⟩] []],
      [.unset]⟩
    let d : ReceiptDocument :=
      ⟨none, some "AA==", some "n1", some ⟨none, some [[("left", .string "00")], []]⟩⟩
    ((∀ c ∈ t.comparisons, ¬ c.TargetsValue) ∧ d.HasMaps) ∧
      TxnRequest.format.read (TxnRequest.format.toJson t).sorted = .ok t ∧
      ReceiptDocument.codec.read (ReceiptDocument.codec.write d).sorted = .ok d ∧
      Envelope.codec.read (Envelope.codec.write ⟨some ⟨1, 2, 3, 4, 5, 6⟩, d⟩).sorted =
        .ok ⟨some ⟨1, 2, 3, 4, 5, 6⟩, d⟩ := by
  intro t d
  have ht : ∀ c ∈ t.comparisons, ¬ c.TargetsValue := by
    simp [t, TxnRequest.comparisons, RequestOp.comparisonsOfAll, RequestOp.comparisons,
      Compare.TargetsValue]
  have hd : d.HasMaps := by
    rintro _ ⟨rfl⟩ _ ⟨rfl⟩ entry hentry
    rcases List.mem_pair.mp hentry with rfl | rfl <;> rfl
  exact ⟨⟨ht, hd⟩, (jsonForm_read.1 .txnRequest t ht).1, jsonForm_read.2.1 d hd,
    jsonForm_read.2.2 ⟨some ⟨1, 2, 3, 4, 5, 6⟩, d⟩ hd⟩

namespace Compare

/-- A comparison survives its JSON form exactly when it does not compare with bytes, and a
transaction exactly when none of its comparisons, at any depth, does. -/
theorem jsonForm_read_iff (c : Compare) (t : TxnRequest) :
    (Compare.format.read (Compare.format.toJson c).sorted = .ok c ↔ ¬ c.TargetsValue) ∧
      (TxnRequest.format.read (TxnRequest.format.toJson t).sorted = .ok t ↔
        ∀ c ∈ t.comparisons, ¬ c.TargetsValue) :=
  ⟨c.format_restores_iff, t.format_restores_iff⟩

theorem read_toJson_value :
    format.read (format.toJson ⟨0, 3, [97], some (.value [98]), []⟩).sorted =
      .error (.wrongType (.array [.integer 98]) "a string") := rfl

end Compare

end LedgerAudit
