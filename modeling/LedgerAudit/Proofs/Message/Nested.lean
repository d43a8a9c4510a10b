import LedgerAudit.Message.Txn
import LedgerAudit.Proofs.Message.Levels
import LedgerAudit.Proofs.Message.Requests

/-!
# The bytes of transactions

Operations of a transaction, and the answers to them, may be transactions again. Both are told by
their bytes at any depth, by induction on what is directly inside them.
-/

namespace LedgerAudit

open Message

namespace TxnRequest

/-- The records of a transaction depend on the format of the operations in it only. -/
theorem schemaOver_records_congr {f g : Format RequestOp} {t : TxnRequest}
    (h : ∀ op ∈ t.success ++ t.failure, f.records op = g.records op) :
    (schemaOver f).format.records t = (schemaOver g).format.records t := by
  have hsuccess : (Kind.repeated f).payloads t.success = (Kind.repeated g).payloads t.success :=
    Kind.payloads_repeated_congr fun op hop => h op (List.mem_append_left _ hop)
  have hfailure : (Kind.repeated f).payloads t.failure = (Kind.repeated g).payloads t.failure :=
    Kind.payloads_repeated_congr fun op hop => h op (List.mem_append_right _ hop)
  rw [Schema.records_format, Schema.records_format]
  simp [schemaOver, FieldSpec.records, hsuccess, hfailure]

theorem eq_of_schemaOver_encode_eq {f : Format RequestOp} {t u : TxnRequest}
    (hmem : ∀ op ∈ t.success ++ t.failure, ∀ op', f.encode op = f.encode op' → op = op')
    (h : (schemaOver f).format.encode t = (schemaOver f).format.encode u) : t = u := by
  have htags : ((schemaOver f).fields.map FieldSpec.tag).Nodup := by simp [schemaOver]
  have hfields := Schema.payloads_eq_of_encode_eq htags h
  simp only [schemaOver, List.forall_mem_cons, FieldSpec.payloads_plain] at hfields
  obtain ⟨hcompare, hsuccess, hfailure, -⟩ := hfields
  cases t
  cases u
  congr 1
  · exact (Kind.payloads_repeated_inj Compare.format_faithful).mp hcompare
  · exact Kind.payloads_repeated_inj_of_mem
      (fun op hop => hmem op (List.mem_append_left _ hop)) hsuccess
  · exact Kind.payloads_repeated_inj_of_mem
      (fun op hop => hmem op (List.mem_append_right _ hop)) hfailure

end TxnRequest

namespace RequestOp

/-- The operations directly inside an operation. -/
def members : RequestOp → List RequestOp
  | .txn _ success failure => success ++ failure
  | _ => []

theorem depth_lt_of_mem_members {op member : RequestOp} (h : member ∈ op.members) :
    member.depth < op.depth := by
  cases op with
  | txn compare success failure =>
      rw [depth]
      rcases List.mem_append.mp h with h | h
      · have hle := List.le_of_mem_of_cons_eq_max depthOfAll.eq_2 h
        omega
      · have hle := List.le_of_mem_of_cons_eq_max depthOfAll.eq_2 h
        omega
  | _ => simp [members] at h

theorem members_of_flat_txn {op : RequestOp} {t : TxnRequest} (h : op.flat.txn = some t) :
    op.members = t.success ++ t.failure := by
  cases op with
  | txn compare success failure =>
      obtain rfl : ⟨compare, success, failure⟩ = t := by simpa [flat] using h
      rfl
  | _ => simp [flat, Flat.blank] at h

theorem flat_injective : Function.Injective flat := by
  intro a b h
  cases a <;> cases b <;> simp_all [flat, Flat.blank]

theorem schemaOver_records_congr {f g : Format RequestOp} {op : RequestOp}
    (h : ∀ member ∈ op.members, f.records member = g.records member) :
    (Flat.schemaOver f).format.records op.flat = (Flat.schemaOver g).format.records op.flat := by
  have htxn : (Kind.message (TxnRequest.schemaOver f).format).payloads op.flat.txn =
      (Kind.message (TxnRequest.schemaOver g).format).payloads op.flat.txn := by
    refine Kind.payloads_message_congr fun t ht => TxnRequest.schemaOver_records_congr ?_
    rwa [← members_of_flat_txn ht]
  rw [Schema.records_format, Schema.records_format]
  simp [Flat.schemaOver, FieldSpec.records, htxn]

theorem eq_of_schemaOver_encode_eq {f : Format RequestOp} {a b : RequestOp}
    (hmem : ∀ op ∈ a.members, ∀ op', f.encode op = f.encode op' → op = op')
    (h : (Flat.schemaOver f).format.encode a.flat = (Flat.schemaOver f).format.encode b.flat) :
    a = b := by
  have htags : ((Flat.schemaOver f).fields.map FieldSpec.tag).Nodup := by simp [Flat.schemaOver]
  have hfields := Schema.payloads_eq_of_encode_eq htags h
  simp only [Flat.schemaOver, List.forall_mem_cons, FieldSpec.payloads_messageArm,
    Kind.payloads_message_inj RangeRequest.format_faithful,
    Kind.payloads_message_inj PutRequest.format_faithful,
    Kind.payloads_message_inj DeleteRangeRequest.format_faithful] at hfields
  obtain ⟨hrange, hput, hdelete, hpayloads, -⟩ := hfields
  have htxn : a.flat.txn = b.flat.txn := by
    refine Kind.payloads_message_inj_of_mem (fun t ht u => ?_) hpayloads
    refine TxnRequest.eq_of_schemaOver_encode_eq fun op hop => hmem op ?_
    rwa [members_of_flat_txn ht]
  apply flat_injective
  cases ha : a.flat
  cases hb : b.flat
  simp_all

def levels : Levels RequestOp where
  members := members
  depth := depth
  depth_pos op := by cases op <;> simp [depth]
  depth_lt_of_mem := depth_lt_of_mem_members
  formatAt := formatAt
  nest f := (Flat.schemaOver f).format.via flat Flat.collapse
  formatAt_succ _ := rfl
  records_congr := schemaOver_records_congr

theorem format_faithful : format.Faithful :=
  levels.faithful (fun _ => rfl) eq_of_schemaOver_encode_eq

end RequestOp

theorem TxnRequest.format_faithful : TxnRequest.format.Faithful :=
  fun _ _ => eq_of_schemaOver_encode_eq fun _ _ _ h => RequestOp.format_faithful h

namespace TxnResponse

/-- The records of an answer depend on the format of the answers in it only. -/
theorem schemaOver_records_congr {f g : Format ResponseOp} {t : TxnResponse}
    (h : ∀ op ∈ t.responses, f.records op = g.records op) :
    (schemaOver f).format.records t = (schemaOver g).format.records t := by
  have hresponses := Kind.payloads_repeated_congr h
  rw [Schema.records_format, Schema.records_format]
  simp [schemaOver, FieldSpec.records, hresponses]

theorem eq_of_schemaOver_encode_eq {f : Format ResponseOp} {t u : TxnResponse}
    (hmem : ∀ op ∈ t.responses, ∀ op', f.encode op = f.encode op' → op = op')
    (h : (schemaOver f).format.encode t = (schemaOver f).format.encode u) : t = u := by
  have htags : ((schemaOver f).fields.map FieldSpec.tag).Nodup := by simp [schemaOver]
  have hfields := Schema.payloads_eq_of_encode_eq htags h
  simp only [schemaOver, List.forall_mem_cons, FieldSpec.payloads_plain,
    Kind.payloads_message_inj ResponseHeader.format_faithful, Kind.payloads_bool_inj] at hfields
  obtain ⟨hheader, hsucceeded, hresponses, -⟩ := hfields
  cases t
  cases u
  congr 1
  exact Kind.payloads_repeated_inj_of_mem hmem hresponses

end TxnResponse

namespace ResponseOp

/-- The answers directly inside an answer. -/
def members : ResponseOp → List ResponseOp
  | .txn _ _ responses => responses
  | _ => []

theorem depth_lt_of_mem_members {op member : ResponseOp} (h : member ∈ op.members) :
    member.depth < op.depth := by
  cases op with
  | txn header succeeded responses =>
      rw [depth]
      exact Nat.lt_succ_of_le (List.le_of_mem_of_cons_eq_max depthOfAll.eq_2 h)
  | _ => simp [members] at h

theorem members_of_flat_txn {op : ResponseOp} {t : TxnResponse} (h : op.flat.txn = some t) :
    op.members = t.responses := by
  cases op with
  | txn header succeeded responses =>
      obtain rfl : ⟨header, succeeded, responses⟩ = t := by simpa [flat] using h
      rfl
  | _ => simp [flat, Flat.blank] at h

theorem flat_injective : Function.Injective flat := by
  intro a b h
  cases a <;> cases b <;> simp_all [flat, Flat.blank]

theorem schemaOver_records_congr {f g : Format ResponseOp} {op : ResponseOp}
    (h : ∀ member ∈ op.members, f.records member = g.records member) :
    (Flat.schemaOver f).format.records op.flat = (Flat.schemaOver g).format.records op.flat := by
  have htxn : (Kind.message (TxnResponse.schemaOver f).format).payloads op.flat.txn =
      (Kind.message (TxnResponse.schemaOver g).format).payloads op.flat.txn := by
    refine Kind.payloads_message_congr fun t ht => TxnResponse.schemaOver_records_congr ?_
    rwa [← members_of_flat_txn ht]
  rw [Schema.records_format, Schema.records_format]
  simp [Flat.schemaOver, FieldSpec.records, htxn]

theorem eq_of_schemaOver_encode_eq {f : Format ResponseOp} {a b : ResponseOp}
    (hmem : ∀ op ∈ a.members, ∀ op', f.encode op = f.encode op' → op = op')
    (h : (Flat.schemaOver f).format.encode a.flat = (Flat.schemaOver f).format.encode b.flat) :
    a = b := by
  have htags : ((Flat.schemaOver f).fields.map FieldSpec.tag).Nodup := by simp [Flat.schemaOver]
  have hfields := Schema.payloads_eq_of_encode_eq htags h
  simp only [Flat.schemaOver, List.forall_mem_cons, FieldSpec.payloads_messageArm,
    Kind.payloads_message_inj RangeResponse.format_faithful,
    Kind.payloads_message_inj PutResponse.format_faithful,
    Kind.payloads_message_inj DeleteRangeResponse.format_faithful] at hfields
  obtain ⟨hrange, hput, hdelete, hpayloads, -⟩ := hfields
  have htxn : a.flat.txn = b.flat.txn := by
    refine Kind.payloads_message_inj_of_mem (fun t ht u => ?_) hpayloads
    refine TxnResponse.eq_of_schemaOver_encode_eq fun op hop => hmem op ?_
    rwa [members_of_flat_txn ht]
  apply flat_injective
  cases ha : a.flat
  cases hb : b.flat
  simp_all

def levels : Levels ResponseOp where
  members := members
  depth := depth
  depth_pos op := by cases op <;> simp [depth]
  depth_lt_of_mem := depth_lt_of_mem_members
  formatAt := formatAt
  nest f := (Flat.schemaOver f).format.via flat Flat.collapse
  formatAt_succ _ := rfl
  records_congr := schemaOver_records_congr

theorem format_faithful : format.Faithful :=
  levels.faithful (fun _ => rfl) eq_of_schemaOver_encode_eq

end ResponseOp

theorem TxnResponse.format_faithful : TxnResponse.format.Faithful :=
  fun _ _ => eq_of_schemaOver_encode_eq fun _ _ _ h => ResponseOp.format_faithful h

end LedgerAudit
