import LedgerAudit.Proofs.Message.Restored

/-!
# Transactions read back from their JSON form

The comparisons of a transaction stand in it and in the transactions inside it, at any depth. The
transaction is restored exactly when each of them is.
-/

namespace LedgerAudit

open Message
open Json (Codec)

namespace RequestOp

mutual

/-- The comparisons inside an operation, at any depth. -/
def comparisons : RequestOp → List Compare
  | .txn compare success failure =>
    compare ++ comparisonsOfAll success ++ comparisonsOfAll failure
  | _ => []

def comparisonsOfAll : List RequestOp → List Compare
  | [] => []
  | op :: rest => comparisons op ++ comparisonsOfAll rest

end

theorem forall_mem_comparisonsOfAll {P : Compare → Prop} {ops : List RequestOp} :
    (∀ c ∈ comparisonsOfAll ops, P c) ↔ ∀ op ∈ ops, ∀ c ∈ op.comparisons, P c := by
  induction ops with
  | nil => simp [comparisonsOfAll]
  | cons op rest ih => rw [comparisonsOfAll, List.forall_mem_append, List.forall_mem_cons, ih]

end RequestOp

namespace TxnRequest

def comparisons (t : TxnRequest) : List Compare :=
  t.compare ++ RequestOp.comparisonsOfAll t.success ++ RequestOp.comparisonsOfAll t.failure

theorem schemaOver_restores_iff {f : Format RequestOp} {t : TxnRequest} :
    (schemaOver f).format.codec.Restores t ↔
      Compare.format.codec.list.Restores t.compare ∧ f.codec.list.Restores t.success ∧
        f.codec.list.Restores t.failure := by
  change _ ↔ (Kind.repeated Compare.format).codec.Restores t.compare ∧
    (Kind.repeated f).codec.Restores t.success ∧ (Kind.repeated f).codec.Restores t.failure
  refine (Schema.read_sorted_write_eq_ok_iff (layout_lawful f) (by simp [schemaOver])).trans ?_
  obtain ⟨compare, success, failure⟩ := t
  simp [schemaOver, Json.FieldSpec.restore_ofCodec_eq, Except.bind_eq_ok_iff,
    Except.map_eq_ok_iff, Codec.Restores]

end TxnRequest

namespace RequestOp

theorem nest_restores_iff {f : Format RequestOp} {op : RequestOp} :
    (levels.nest f).codec.Restores op ↔
      ∀ t ∈ op.flat.txn, (TxnRequest.schemaOver f).format.codec.Restores t := by
  have hrange := fun r => RangeRequest.format.read_optional nofun (RangeRequest.format_restores r)
  have hput := fun r => PutRequest.format.read_optional nofun (PutRequest.format_restores r)
  have hdelete := fun r =>
    DeleteRangeRequest.format.read_optional nofun (DeleteRangeRequest.format_restores r)
  have htxn : ∀ t, (TxnRequest.schemaOver f).format.codec.optional.read
      ((TxnRequest.schemaOver f).format.codec.write t).sorted =
        ((TxnRequest.schemaOver f).format.codec.read
          ((TxnRequest.schemaOver f).format.codec.write t).sorted).map some := fun _ => rfl
  refine (Schema.via_restores_iff (Flat.layout_lawful f) (by simp [Flat.schemaOver])).trans ?_
  cases op with
  | unset => simp [Flat.schemaOver, flat, Flat.blank, Flat.collapse, Flat.arms]
  | range r => simp [Flat.schemaOver, flat, Flat.blank, Flat.collapse, Flat.arms, hrange]
  | put r => simp [Flat.schemaOver, flat, Flat.blank, Flat.collapse, Flat.arms, hput]
  | deleteRange r => simp [Flat.schemaOver, flat, Flat.blank, Flat.collapse, Flat.arms, hdelete]
  | txn compare success failure =>
      cases hread : (TxnRequest.schemaOver f).format.codec.read
          ((TxnRequest.schemaOver f).format.codec.write ⟨compare, success, failure⟩).sorted with
      | error fault =>
          simp [Flat.schemaOver, flat, Flat.blank, htxn, Codec.Restores, hread]
      | ok t =>
          obtain ⟨compare', success', failure'⟩ := t
          simp [Flat.schemaOver, flat, Flat.blank, Flat.collapse, Flat.arms, htxn, Codec.Restores,
            hread, ofTxn]

theorem format_restores_iff (op : RequestOp) :
    format.codec.Restores op ↔ ∀ c ∈ op.comparisons, ¬ c.TargetsValue := by
  induction op using levels.induction with
  | step op ih =>
      have hunrolled : format.codec.Restores op ↔ (levels.nest format).codec.Restores op :=
        Codec.restores_congr format_read_eq (format_write_eq op)
      rw [hunrolled, nest_restores_iff]
      cases op with
      | txn compare success failure =>
          have hsuccess : (∀ op ∈ success, format.codec.Restores op) ↔
              ∀ op ∈ success, ∀ c ∈ op.comparisons, ¬ c.TargetsValue :=
            forall₂_congr fun op hop => ih op (List.mem_append_left _ hop)
          have hfailure : (∀ op ∈ failure, format.codec.Restores op) ↔
              ∀ op ∈ failure, ∀ c ∈ op.comparisons, ¬ c.TargetsValue :=
            forall₂_congr fun op hop => ih op (List.mem_append_right _ hop)
          simp only [flat, Option.mem_some_iff, forall_eq', TxnRequest.schemaOver_restores_iff,
            Codec.list_restores_iff, Compare.format_restores_iff, hsuccess, hfailure, comparisons,
            List.forall_mem_append, forall_mem_comparisonsOfAll, and_assoc]
      | _ => simp [flat, Flat.blank, comparisons]

end RequestOp

/-- A transaction is restored when every comparison in it, at any depth, is. -/
theorem TxnRequest.format_restores_iff (t : TxnRequest) :
    format.codec.Restores t ↔ ∀ c ∈ t.comparisons, ¬ c.TargetsValue := by
  refine schemaOver_restores_iff.trans ?_
  simp only [Codec.list_restores_iff, Compare.format_restores_iff, RequestOp.format_restores_iff,
    comparisons, List.forall_mem_append, RequestOp.forall_mem_comparisonsOfAll, and_assoc]

namespace TxnResponse

theorem schemaOver_restores {f : Format ResponseOp} {t : TxnResponse}
    (h : ∀ op ∈ t.responses, f.codec.Restores op) :
    (schemaOver f).format.codec.Restores t := by
  have hheader := Kind.message_restores nofun ResponseHeader.format_restores
  have hresponses : (Kind.repeated f).codec.Restores t.responses :=
    Codec.list_restores_iff.mpr h
  refine (Schema.read_sorted_write_eq_ok_iff (layout_lawful f) (by simp [schemaOver])).mpr ?_
  simp [schemaOver, hheader, hresponses]

end TxnResponse

namespace ResponseOp

theorem nest_restores {f : Format ResponseOp} {op : ResponseOp}
    (h : ∀ member ∈ op.members, f.codec.Restores member) :
    (levels.nest f).codec.Restores op := by
  have hrange := fun r => RangeResponse.format.read_optional nofun (RangeResponse.format_restores r)
  have hput := fun r => PutResponse.format.read_optional nofun (PutResponse.format_restores r)
  have hdelete := fun r =>
    DeleteRangeResponse.format.read_optional nofun (DeleteRangeResponse.format_restores r)
  have hnull : ∀ t, (TxnResponse.schemaOver f).format.codec.read .null ≠ .ok t := nofun
  refine (Schema.via_restores_iff (Flat.layout_lawful f) (by simp [Flat.schemaOver])).mpr ?_
  cases op with
  | unset => simp [Flat.schemaOver, flat, Flat.blank, Flat.collapse, Flat.arms]
  | range r => simp [Flat.schemaOver, flat, Flat.blank, Flat.collapse, Flat.arms, hrange]
  | put r => simp [Flat.schemaOver, flat, Flat.blank, Flat.collapse, Flat.arms, hput]
  | deleteRange r => simp [Flat.schemaOver, flat, Flat.blank, Flat.collapse, Flat.arms, hdelete]
  | txn header succeeded responses =>
      have htxn := (TxnResponse.schemaOver f).format.read_optional hnull
        (TxnResponse.schemaOver_restores (t := ⟨header, succeeded, responses⟩) h)
      simp [Flat.schemaOver, flat, Flat.blank, Flat.collapse, Flat.arms, htxn, ofTxn]

theorem format_restores (op : ResponseOp) : format.codec.Restores op := by
  induction op using levels.induction with
  | step op ih =>
      have hunrolled : format.codec.Restores op ↔ (levels.nest format).codec.Restores op :=
        Codec.restores_congr format_read_eq (format_write_eq op)
      exact hunrolled.mpr (nest_restores ih)

end ResponseOp

theorem TxnResponse.format_restores (t : TxnResponse) : format.codec.Restores t :=
  schemaOver_restores fun op _ => op.format_restores

end LedgerAudit
