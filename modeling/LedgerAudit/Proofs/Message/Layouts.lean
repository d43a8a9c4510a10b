import LedgerAudit.Message.Txn
import LedgerAudit.Proofs.Json.Layout
import LedgerAudit.Receipt.Document

/-!
# The layouts of messages and documents

No two fields of a message share a spelling, and each field has a place of its own, so the fields
can be read in any order. The same holds of the documents that carry a receipt.
-/

namespace LedgerAudit

namespace Json.FieldSpec

variable {σ α β : Type} {name name' : String} {alternate alternate' : Option String}
  {c : Codec α} {get : σ → α} {set : α → σ → σ} {d : Codec β} {other : σ → β} {put : β → σ → σ}
  {read : Json → Except Fault (Option α)} {write : α → Json} {arm? : σ → Option α}
  {setArm : Option α → σ → σ} {readOther : Json → Except Fault (Option β)} {writeOther : β → Json}
  {otherArm? : σ → Option β} {putArm : Option β → σ → σ}

@[simp] theorem name_ofCodec : (ofCodec name alternate c get set).name = name := rfl

@[simp] theorem name_arm : (arm name alternate read write arm? setArm).name = name := rfl

@[simp] theorem keys_ofCodec :
    (ofCodec name alternate c get set).keys = name :: alternate.toList := rfl

@[simp] theorem keys_arm :
    (arm name alternate read write arm? setArm).keys = name :: alternate.toList := rfl

@[simp] theorem required_ofCodec : (ofCodec name alternate c get set).required = false := rfl

@[simp] theorem required_arm : (arm name alternate read write arm? setArm).required = false := rfl

@[simp] theorem independent_ofCodec_ofCodec (h : ∀ a b s, set a (put b s) = put b (set a s)) :
    (ofCodec name alternate c get set).Independent (ofCodec name' alternate' d other put) :=
  .of_commute (fun _ _ => rfl) (fun _ _ => rfl) h

@[simp] theorem independent_arm_arm
    (h : ∀ a b s, setArm a (putArm b s) = putArm b (setArm a s)) :
    (arm name alternate read write arm? setArm).Independent
      (arm name' alternate' readOther writeOther otherArm? putArm) :=
  .of_commute (fun _ _ => rfl) (fun _ _ => rfl) h

@[simp] theorem independent_ofCodec_arm (h : ∀ a b s, put a (setArm b s) = setArm b (put a s)) :
    (ofCodec name' alternate' d other put).Independent
      (arm name alternate read write arm? setArm) :=
  .of_commute (fun _ _ => rfl) (fun _ _ => rfl) h

@[simp] theorem independent_arm_ofCodec (h : ∀ a b s, setArm a (put b s) = put b (setArm a s)) :
    (arm name alternate read write arm? setArm).Independent
      (ofCodec name' alternate' d other put) :=
  .of_commute (fun _ _ => rfl) (fun _ _ => rfl) h

end Json.FieldSpec

namespace Message

variable {σ α : Type} {tag : Nat} {name alternate : String} {k : Kind α} {get : σ → α}
  {set : α → σ → σ}

@[simp] theorem FieldSpec.json_plain :
    (plain tag name k get set).json = .ofCodec name none k.codec get set := rfl

@[simp] theorem FieldSpec.json_spelled :
    (spelled tag name alternate k get set).json = .ofCodec name (some alternate) k.codec get set :=
  rfl

@[simp] theorem FieldSpec.json_messageArm {f : Format α} {arm? : σ → Option α}
    {setArm : Option α → σ → σ} :
    (messageArm tag name alternate f arm? setArm).json =
      .arm name (some alternate) f.codec.optional.read f.codec.write arm? setArm := rfl

@[simp] theorem FieldSpec.json_scalarArm {alternate : Option String} {c : Json.Codec α}
    {write : α → Json} {payload : α → Protobuf.Payload} {arm? : σ → Option α}
    {setArm : Option α → σ → σ} :
    (scalarArm tag name alternate c write payload arm? setArm).json =
      .arm name alternate (fun v => (c.read v).map some) write arm? setArm := rfl

@[simp] theorem Schema.fields_layout (s : Schema σ) :
    s.layout.fields = s.fields.map FieldSpec.json := rfl

@[simp] theorem Schema.blank_layout (s : Schema σ) : s.layout.blank = s.blank := rfl

end Message

open Message

theorem ResponseHeader.layout_lawful : schema.layout.Lawful where
  keys_nodup := by decide
  independent := by simp [schema]

theorem KeyValue.layout_lawful : schema.layout.Lawful where
  keys_nodup := by decide
  independent := by simp [schema]

theorem PutRequest.layout_lawful : schema.layout.Lawful where
  keys_nodup := by decide
  independent := by simp [schema]

theorem PutResponse.layout_lawful : schema.layout.Lawful where
  keys_nodup := by decide
  independent := by simp [schema]

theorem DeleteRangeRequest.layout_lawful : schema.layout.Lawful where
  keys_nodup := by decide
  independent := by simp [schema]

theorem DeleteRangeResponse.layout_lawful : schema.layout.Lawful where
  keys_nodup := by decide
  independent := by simp [schema]

theorem RangeRequest.layout_lawful : schema.layout.Lawful where
  keys_nodup := by decide
  independent := by simp [schema]

theorem RangeResponse.layout_lawful : schema.layout.Lawful where
  keys_nodup := by decide
  independent := by simp [schema]

theorem Compare.Flat.layout_lawful : schema.layout.Lawful where
  keys_nodup := by decide
  independent := by simp [schema, numberArm, bytesArm]

theorem RequestOp.Flat.layout_lawful (f : Format RequestOp) : (schemaOver f).layout.Lawful where
  keys_nodup := by simp [schemaOver]
  independent := by simp [schemaOver]

theorem ResponseOp.Flat.layout_lawful (f : Format ResponseOp) : (schemaOver f).layout.Lawful where
  keys_nodup := by simp [schemaOver]
  independent := by simp [schemaOver]

theorem TxnRequest.layout_lawful (f : Format RequestOp) : (schemaOver f).layout.Lawful where
  keys_nodup := by simp [schemaOver]
  independent := by simp [schemaOver]

theorem TxnResponse.layout_lawful (f : Format ResponseOp) : (schemaOver f).layout.Lawful where
  keys_nodup := by simp [schemaOver]
  independent := by simp [schemaOver]

theorem LeafDocument.layout_lawful : layout.Lawful where
  keys_nodup := by decide
  independent := by simp [layout]

theorem TxReceiptDocument.layout_lawful : layout.Lawful where
  keys_nodup := by decide
  independent := by simp [layout]

theorem ReceiptDocument.layout_lawful : layout.Lawful where
  keys_nodup := by decide
  independent := by simp [layout]

theorem Envelope.layout_lawful : layout.Lawful where
  keys_nodup := by decide
  independent := List.pairwise_pair.mpr
    (.of_commute (fun _ _ => rfl) (fun _ _ => rfl) fun _ _ _ => rfl)

end LedgerAudit
