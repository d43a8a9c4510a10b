import LedgerAudit.Proofs.Message.Restored

/-!
# Receipt documents read back from their JSON form

Every part of a document is restored, present or not, alone and under the header of a response. An
entry of a proof list is kept as the map that it is.
-/

namespace LedgerAudit

open Json (Codec)

theorem Json.Codec.text_optional_restores (s : Option String) : Codec.text.optional.Restores s :=
  (Codec.optional_restores_iff nofun).mpr fun a _ =>
    Codec.text_roundTrips.restores (fun _ => rfl) a

/-- An entry as a map has it: its keys in order, each once, and so on inside. -/
def StepDocument.IsMap (entry : StepDocument) : Prop :=
  (Json.object entry).sorted = .object entry

theorem StepDocument.codec_restores {entry : StepDocument} (h : entry.IsMap) :
    codec.Restores entry := by
  rw [Codec.Restores]
  change Codec.members.read (Json.object entry).sorted = .ok entry
  rw [h]
  rfl

theorem LeafDocument.layout_restores (d : LeafDocument) : layout.codec.Restores d := by
  refine (layout_lawful.read_sorted_write_eq_ok_iff (by simp [layout])).mpr ?_
  simp [layout, Codec.text_optional_restores]

namespace ReceiptDocument

/-- The entries of the proof list are maps. -/
def HasMaps (d : ReceiptDocument) : Prop :=
  ∀ t ∈ d.txReceipt, ∀ steps ∈ t.proof, ∀ entry ∈ steps, StepDocument.IsMap entry

end ReceiptDocument

theorem TxReceiptDocument.layout_restores {d : TxReceiptDocument}
    (h : ∀ steps ∈ d.proof, ∀ entry ∈ steps, StepDocument.IsMap entry) :
    layout.codec.Restores d := by
  have hleaf : LeafDocument.layout.codec.optional.Restores d.leafComponents :=
    (Codec.optional_restores_iff nofun).mpr fun a _ => a.layout_restores
  have hproof : StepDocument.codec.list.optional.Restores d.proof :=
    (Codec.optional_restores_iff nofun).mpr fun steps hsteps =>
      Codec.list_restores_iff.mpr fun entry hentry =>
        StepDocument.codec_restores (h steps hsteps entry hentry)
  refine (layout_lawful.read_sorted_write_eq_ok_iff (by simp [layout])).mpr ?_
  simp [layout, hleaf, hproof]

theorem ReceiptDocument.codec_restores {d : ReceiptDocument} (h : d.HasMaps) :
    codec.Restores d := by
  have htxReceipt : TxReceiptDocument.layout.codec.optional.Restores d.txReceipt :=
    (Codec.optional_restores_iff nofun).mpr fun t ht =>
      TxReceiptDocument.layout_restores (h t ht)
  refine (layout_lawful.read_sorted_write_eq_ok_iff (by simp [layout])).mpr ?_
  simp [layout, blank, Codec.text_optional_restores, htxReceipt]

theorem Envelope.codec_restores {e : Envelope} (h : e.receipt.HasMaps) : codec.Restores e := by
  have hheader : ResponseHeader.format.codec.optional.Restores e.header :=
    (Codec.optional_restores_iff nofun).mpr fun a _ => a.format_restores
  have hreceipt := ReceiptDocument.codec_restores h
  have hrequired : ∀ f ∈ layout.fields, f.required = true → f.write e ≠ none := by
    simp [layout, Json.FieldSpec.ofCodec]
  refine (layout_lawful.read_sorted_write_eq_ok_iff hrequired).mpr ?_
  rw [Codec.Restores] at hheader hreceipt
  simp [layout, Json.FieldSpec.restore, Json.FieldSpec.ofCodec, hheader, hreceipt]

end LedgerAudit
