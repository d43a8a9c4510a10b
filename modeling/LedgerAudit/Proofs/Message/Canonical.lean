import LedgerAudit.Proofs.Message.Declared
import LedgerAudit.Proofs.Message.Nested

/-!
# Messages have canonical bytes

The bytes of a message are the canonical encoding of its fields, at every depth, and so are those
of the claims. No other bytes are.
-/

namespace LedgerAudit

open Message Protobuf

namespace Protobuf

theorem exists_mem_of_forall₂ {α β : Type} {R : α → β → Prop} {as : List α} {bs : List β}
    (h : List.Forall₂ R as bs) {a : α} (ha : a ∈ as) : ∃ b ∈ bs, R a b := by
  induction h with
  | nil => nomatch ha
  | cons hab _ ih =>
      rcases List.mem_cons.mp ha with rfl | ha
      · exact ⟨_, List.mem_cons_self, hab⟩
      · obtain ⟨b, hb, hab⟩ := ih ha
        exact ⟨b, List.mem_cons_of_mem _ hb, hab⟩

theorem Encodes.inRange {v : Value} {p : Payload} (h : Encodes v p) : p.InRange := by
  cases h with
  | int64 n =>
      simp only [Payload.InRange]
      omega
  | uint64 n => exact UInt64.toNat_lt n
  | bool b => cases b <;> simp [Payload.InRange]
  | enumeration n =>
      simp only [Payload.InRange]
      omega
  | bytes => trivial
  | message => trivial

theorem Fills.inRange {slot : Slot} {ps : List Payload} (h : Fills slot ps) :
    ∀ p ∈ ps, p.InRange := by
  cases h with
  | default => nofun
  | missing => nofun
  | plain _ h => exact List.forall_mem_singleton.mpr h.inRange
  | present h => exact List.forall_mem_singleton.mpr h.inRange
  | repeated h =>
      induction h with
      | nil => nofun
      | cons h _ ih => exact List.forall_mem_cons.mpr ⟨h.inRange, ih⟩

end Protobuf

namespace Message

variable {σ α : Type}

namespace Kind

/-- The payload of a field that is left out at its default. -/
theorem fills_elided [DecidableEq α] {value : α → Value} (payload : α → Payload) {a d : α}
    (hdefault : (value a).IsDefault ↔ a = d) (h : Encodes (value a) (payload a)) :
    Fills (.plain (value a)) (if a = d then [] else [payload a]) := by
  split
  · next hd => exact .default (hdefault.mpr hd)
  · next hd => exact .plain (mt hdefault.mp hd) h

theorem toNat_toUInt64 (n : Int64) : n.toUInt64.toNat = (n.toInt % 2 ^ 64).toNat := by
  have hint : n.toInt = n.toUInt64.toBitVec.toInt := rfl
  have hlt : n.toUInt64.toNat < 2 ^ 64 := n.toUInt64.toNat_lt
  rw [hint, BitVec.toInt_eq_toNat_cond, UInt64.toNat_toBitVec]
  split <;> omega

theorem encodes_int64Payload (n : Int64) : Encodes (.int64 n) (int64Payload n) := by
  rw [int64Payload, toNat_toUInt64]
  exact .int64 n

@[simp] theorem fills_int64 (n : Int64) : Fills (.plain (.int64 n)) (int64.payloads n) :=
  fills_elided int64Payload .rfl (encodes_int64Payload n)

@[simp] theorem fills_uint64 (n : UInt64) : Fills (.plain (.uint64 n)) (uint64.payloads n) :=
  fills_elided (fun n : UInt64 => .varint n.toNat) .rfl (.uint64 n)

@[simp] theorem fills_bool (b : Bool) : Fills (.plain (.bool b)) (bool.payloads b) := by
  cases b with
  | false => exact .default rfl
  | true => exact .plain nofun (.bool true)

@[simp] theorem fills_bytes (b : Bytes) : Fills (.plain (.bytes b)) (bytes.payloads b) := by
  cases b with
  | nil => exact .default rfl
  | cons => exact .plain nofun (.bytes _)

@[simp] theorem fills_enumeration (names : List String) (n : Int32) :
    Fills (.plain (.enumeration n)) ((enumeration names).payloads n) := by
  have hencodes : Encodes (.enumeration n) (int64Payload n.toInt64) := by
    rw [int64Payload, toNat_toUInt64, Int32.toInt_toInt64]
    exact .enumeration n
  exact fills_elided (fun n : Int32 => int64Payload n.toInt64) .rfl hencodes

theorem fills_message {f : Format σ} {declared : σ → List Field} {m : Option σ}
    (h : ∀ a, m = some a → Canonical (declared a) (f.encode a)) :
    Fills (.embedded declared m) ((message f).payloads m) := by
  cases m with
  | none => exact .missing
  | some a => exact .present (.message (h a rfl))

theorem fills_repeated {f : Format σ} {declared : σ → List Field} {ms : List σ}
    (h : ∀ m ∈ ms, Canonical (declared m) (f.encode m)) :
    Fills (.all declared ms) ((repeated f).payloads ms) := by
  refine .repeated (List.forall₂_map_left_iff.mpr (List.forall₂_map_right_iff.mpr ?_))
  exact List.forall₂_same.mpr fun m hm => .message (h m hm)

end Kind

namespace FieldSpec

/-- The payloads that a schema gives a field are those that the field has by itself. -/
def Lays (m : σ) (spec : FieldSpec σ) (field : Field) : Prop :=
  spec.tag = field.tag ∧ Fills field.slot (spec.payloads m)

variable {tag : Nat} {name : String} {m : σ} {slot : Slot}

@[simp] theorem lays_plain {k : Kind α} {get : σ → α} {set : α → σ → σ} :
    (plain tag name k get set).Lays m ⟨tag, slot⟩ ↔ Fills slot (k.payloads (get m)) :=
  and_iff_right rfl

@[simp] theorem lays_spelled {alternate : String} {k : Kind α} {get : σ → α} {set : α → σ → σ} :
    (spelled tag name alternate k get set).Lays m ⟨tag, slot⟩ ↔ Fills slot (k.payloads (get m)) :=
  and_iff_right rfl

@[simp] theorem lays_messageArm {alternate : String} {f : Format α} {get : σ → Option α}
    {set : Option α → σ → σ} :
    (messageArm tag name alternate f get set).Lays m ⟨tag, slot⟩ ↔
      Fills slot ((Kind.message f).payloads (get m)) :=
  and_iff_right rfl

theorem lays_scalarArm {alternate : Option String} {c : Json.Codec α} {write : α → Json}
    {payload : α → Payload} {get : σ → Option α} {set : Option α → σ → σ} {value : α → Value}
    (h : ∀ a, Encodes (value a) (payload a)) :
    (scalarArm tag name alternate c write payload get set).Lays m
      ⟨tag, .optional ((get m).map value)⟩ := by
  refine ⟨rfl, ?_⟩
  simp only [scalarArm, Field.slot]
  cases get m with
  | none => exact .missing
  | some a => exact .present (h a)

end FieldSpec

namespace Schema

theorem under_records {s : Schema σ} {m : σ} (htags : (s.fields.map FieldSpec.tag).Nodup)
    {spec : FieldSpec σ} (hspec : spec ∈ s.fields) :
    Record.under spec.tag (s.format.records m) = spec.payloads m := by
  rw [Record.under, filter_records htags hspec, FieldSpec.records, List.map_map]
  exact List.map_id _

theorem pairwise_records {s : Schema σ} (htags : (s.fields.map FieldSpec.tag).Pairwise (· < ·))
    (m : σ) : (s.format.records m).Pairwise fun r r' => r.tag ≤ r'.tag := by
  have htag {spec : FieldSpec σ} {r : Record} (hr : r ∈ spec.records m) : r.tag = spec.tag := by
    obtain ⟨p, -, rfl⟩ := List.mem_map.mp hr
    rfl
  rw [records_format, List.pairwise_flatMap]
  refine ⟨fun spec _ => ?_, (List.pairwise_map.mp htags).imp fun hlt r hr r' hr' => ?_⟩
  · exact List.pairwise_map.mpr (List.pairwise_of_forall fun _ _ => Nat.le_refl _)
  · rw [htag hr, htag hr']
    exact Nat.le_of_lt hlt

/-- The fields that a schema lays out have canonical bytes, as long as its tags ascend. -/
theorem canonical {s : Schema σ} {m : σ} {fields : List Field}
    (htags : (s.fields.map FieldSpec.tag).Pairwise (· < ·))
    (hbound : ∀ spec ∈ s.fields, spec.tag < 2 ^ 29)
    (hlays : List.Forall₂ (FieldSpec.Lays m) s.fields fields) :
    Canonical fields (s.format.encode m) := by
  have hnodup : (s.fields.map FieldSpec.tag).Nodup := htags.imp Nat.ne_of_lt
  have hsame : s.fields.map FieldSpec.tag = fields.map Field.tag := by
    rw [← List.forall₂_eq_eq_eq, List.forall₂_map_left_iff, List.forall₂_map_right_iff]
    exact hlays.imp fun _ _ h => h.1
  have hfills : ∀ f ∈ fields, Fills f.slot (Record.under f.tag (s.format.records m)) := by
    intro f hf
    obtain ⟨spec, hspec, htag, hfills⟩ := exists_mem_of_forall₂ hlays.flip hf
    rw [← htag, under_records hnodup hspec]
    exact hfills
  refine .intro (hsame ▸ hnodup) (row_encodeAll fun r hr => ?_) (pairwise_records htags m)
    (fun r hr => ?_) hfills
  all_goals
    rw [records_format] at hr
    obtain ⟨spec, hspec, hr⟩ := List.mem_flatMap.mp hr
    obtain ⟨p, hp, rfl⟩ := List.mem_map.mp hr
  · obtain ⟨field, -, -, hfills⟩ := exists_mem_of_forall₂ hlays hspec
    exact ⟨hbound spec hspec, hfills.inRange p hp⟩
  · rw [← hsame]
    exact List.mem_map_of_mem hspec

end Schema

end Message

theorem ResponseHeader.canonical (m : ResponseHeader) :
    Canonical m.declared (format.encode m) :=
  Schema.canonical (by decide) (by decide) (by simp [schema, declared])

theorem KeyValue.canonical (m : KeyValue) : Canonical m.declared (format.encode m) :=
  Schema.canonical (by decide) (by decide) (by simp [schema, declared])

theorem PutRequest.canonical (m : PutRequest) : Canonical m.declared (format.encode m) :=
  Schema.canonical (by decide) (by decide) (by simp [schema, declared])

theorem fills_header (m : Option ResponseHeader) :
    Fills (.embedded ResponseHeader.declared m)
      ((Kind.message ResponseHeader.format).payloads m) :=
  Kind.fills_message fun a _ => a.canonical

theorem fills_pairs (ms : List KeyValue) :
    Fills (.all KeyValue.declared ms) ((Kind.repeated KeyValue.format).payloads ms) :=
  Kind.fills_repeated fun a _ => a.canonical

theorem PutResponse.canonical (m : PutResponse) : Canonical m.declared (format.encode m) := by
  have hprev := Kind.fills_message fun kv (_ : m.prevKv = some kv) => kv.canonical
  exact Schema.canonical (by decide) (by decide) (by simp [schema, declared, fills_header, hprev])

theorem DeleteRangeRequest.canonical (m : DeleteRangeRequest) :
    Canonical m.declared (format.encode m) :=
  Schema.canonical (by decide) (by decide) (by simp [schema, declared])

theorem DeleteRangeResponse.canonical (m : DeleteRangeResponse) :
    Canonical m.declared (format.encode m) :=
  Schema.canonical (by decide) (by decide) (by simp [schema, declared, fills_header, fills_pairs])

theorem RangeRequest.canonical (m : RangeRequest) : Canonical m.declared (format.encode m) :=
  Schema.canonical (by decide) (by decide) (by simp [schema, declared])

theorem RangeResponse.canonical (m : RangeResponse) : Canonical m.declared (format.encode m) :=
  Schema.canonical (by decide) (by decide) (by simp [schema, declared, fills_header, fills_pairs])

namespace Compare

/-- The arms of the choice, side by side. -/
theorem declared_eq (m : Compare) :
    m.declared = [⟨1, .plain (.enumeration m.flat.result)⟩,
      ⟨2, .plain (.enumeration m.flat.target)⟩, ⟨3, .plain (.bytes m.flat.key)⟩,
      ⟨4, .optional (m.flat.version.map .int64)⟩,
      ⟨5, .optional (m.flat.createRevision.map .int64)⟩,
      ⟨6, .optional (m.flat.modRevision.map .int64)⟩, ⟨7, .optional (m.flat.value.map .bytes)⟩,
      ⟨8, .optional (m.flat.lease.map .int64)⟩, ⟨64, .plain (.bytes m.flat.rangeEnd)⟩] := by
  obtain ⟨result, target, key, operand, rangeEnd⟩ := m
  rcases operand with _ | _ | _ | _ | _ | _ <;> rfl

theorem canonical (m : Compare) : Canonical m.declared (format.encode m) := by
  have hbytes := Encodes.bytes
  have hnumber := Kind.encodes_int64Payload
  rw [declared_eq]
  refine Schema.canonical (s := Flat.schema) (by decide) (by decide) ?_
  simp [Flat.schema, numberArm, bytesArm, FieldSpec.lays_scalarArm, hbytes, hnumber]

end Compare

/-- A transaction has canonical bytes as soon as the operations in it have. -/
theorem TxnRequest.canonical_of_members {f : Format RequestOp} {t : TxnRequest}
    (hmem : ∀ op ∈ t.success ++ t.failure, Canonical op.declared (f.encode op)) :
    Canonical t.declared ((schemaOver f).format.encode t) := by
  obtain ⟨hsuccess, hfailure⟩ := List.forall_mem_append.mp hmem
  have hcompare := Kind.fills_repeated fun c (_ : c ∈ t.compare) => c.canonical
  refine Schema.canonical (by simp [schemaOver]) (by simp [schemaOver]) ?_
  simp [schemaOver, declared, hcompare, Kind.fills_repeated hsuccess, Kind.fills_repeated hfailure]

namespace RequestOp

theorem declaredAll_eq (ops : List RequestOp) :
    declaredAll ops = ops.map fun op => .message op.declared := by
  induction ops with
  | nil => rfl
  | cons op rest ih => rw [declaredAll, ih, List.map_cons]

theorem declared_eq (op : RequestOp) :
    op.declared = [⟨1, .embedded RangeRequest.declared op.flat.range⟩,
      ⟨2, .embedded PutRequest.declared op.flat.put⟩,
      ⟨3, .embedded DeleteRangeRequest.declared op.flat.deleteRange⟩,
      ⟨4, .embedded TxnRequest.declared op.flat.txn⟩] := by
  cases op with
  | txn compare success failure =>
      rw [declared, declaredAll_eq, declaredAll_eq]
      rfl
  | _ => rfl

theorem canonical (op : RequestOp) : Canonical op.declared (format.encode op) := by
  induction op using levels.induction with
  | step op ih =>
      have hunroll : format.encode op = (Flat.schemaOver format).format.encode op.flat :=
        congrArg Record.encodeAll (levels.records_eq_nest (fun _ => rfl) op)
      have hrange := Kind.fills_message fun a (_ : op.flat.range = some a) => a.canonical
      have hput := Kind.fills_message fun a (_ : op.flat.put = some a) => a.canonical
      have hdelete := Kind.fills_message fun a (_ : op.flat.deleteRange = some a) => a.canonical
      have hmembers : ∀ member ∈ op.members, Canonical member.declared (format.encode member) :=
        ih
      have htxn := Kind.fills_message fun t (ht : op.flat.txn = some t) =>
        TxnRequest.canonical_of_members (members_of_flat_txn ht ▸ hmembers)
      rw [hunroll, declared_eq]
      refine Schema.canonical (by simp [Flat.schemaOver]) (by simp [Flat.schemaOver]) ?_
      simp [Flat.schemaOver, hrange, hput, hdelete, htxn]

end RequestOp

theorem TxnRequest.canonical (t : TxnRequest) : Canonical t.declared (format.encode t) :=
  canonical_of_members fun op _ => op.canonical

/-- An answer has canonical bytes as soon as the answers in it have. -/
theorem TxnResponse.canonical_of_members {f : Format ResponseOp} {t : TxnResponse}
    (hmem : ∀ op ∈ t.responses, Canonical op.declared (f.encode op)) :
    Canonical t.declared ((schemaOver f).format.encode t) := by
  refine Schema.canonical (by simp [schemaOver]) (by simp [schemaOver]) ?_
  simp [schemaOver, declared, fills_header, Kind.fills_repeated hmem]

namespace ResponseOp

theorem declaredAll_eq (ops : List ResponseOp) :
    declaredAll ops = ops.map fun op => .message op.declared := by
  induction ops with
  | nil => rfl
  | cons op rest ih => rw [declaredAll, ih, List.map_cons]

theorem declared_eq (op : ResponseOp) :
    op.declared = [⟨1, .embedded RangeResponse.declared op.flat.range⟩,
      ⟨2, .embedded PutResponse.declared op.flat.put⟩,
      ⟨3, .embedded DeleteRangeResponse.declared op.flat.deleteRange⟩,
      ⟨4, .embedded TxnResponse.declared op.flat.txn⟩] := by
  cases op with
  | txn header succeeded responses =>
      rw [declared, declaredAll_eq]
      rfl
  | _ => rfl

theorem canonical (op : ResponseOp) : Canonical op.declared (format.encode op) := by
  induction op using levels.induction with
  | step op ih =>
      have hunroll : format.encode op = (Flat.schemaOver format).format.encode op.flat :=
        congrArg Record.encodeAll (levels.records_eq_nest (fun _ => rfl) op)
      have hrange := Kind.fills_message fun a (_ : op.flat.range = some a) => a.canonical
      have hput := Kind.fills_message fun a (_ : op.flat.put = some a) => a.canonical
      have hdelete := Kind.fills_message fun a (_ : op.flat.deleteRange = some a) => a.canonical
      have hmembers : ∀ member ∈ op.members, Canonical member.declared (format.encode member) :=
        ih
      have htxn := Kind.fills_message fun t (ht : op.flat.txn = some t) =>
        TxnResponse.canonical_of_members (members_of_flat_txn ht ▸ hmembers)
      rw [hunroll, declared_eq]
      refine Schema.canonical (by simp [Flat.schemaOver]) (by simp [Flat.schemaOver]) ?_
      simp [Flat.schemaOver, hrange, hput, hdelete, htxn]

end ResponseOp

theorem TxnResponse.canonical (t : TxnResponse) : Canonical t.declared (format.encode t) :=
  canonical_of_members fun op _ => op.canonical

theorem Message.MessageKind.canonical (k : MessageKind) (m : k.Carrier) :
    Canonical (k.declared m) (k.format.encode m) := by
  cases k with
  | responseHeader => exact ResponseHeader.canonical m
  | keyValue => exact KeyValue.canonical m
  | putRequest => exact PutRequest.canonical m
  | putResponse => exact PutResponse.canonical m
  | deleteRangeRequest => exact DeleteRangeRequest.canonical m
  | deleteRangeResponse => exact DeleteRangeResponse.canonical m
  | rangeRequest => exact RangeRequest.canonical m
  | rangeResponse => exact RangeResponse.canonical m
  | compare => exact Compare.canonical m
  | requestOp => exact RequestOp.canonical m
  | responseOp => exact ResponseOp.canonical m
  | txnRequest => exact TxnRequest.canonical m
  | txnResponse => exact TxnResponse.canonical m

namespace Operation

/-- The arms of a choice hold what is under their tags, where only the tag of one of them has
anything. -/
theorem fills_choice {tags : List Nat} {i : Nat} {v : Value} {p : Payload} {records : List Record}
    (h : Encodes v p)
    (hunder : ∀ tag ∈ tags, Record.under tag records = if i = tag then [p] else []) :
    ∀ f ∈ choice tags (some (i, v)), Fills f.slot (Record.under f.tag records) := by
  intro f hf
  obtain ⟨tag, htag, rfl⟩ := List.mem_map.mp hf
  rw [Field.tag, hunder tag htag, Field.slot]
  by_cases hi : i = tag
  · simpa [hi] using Fills.present h
  · simpa [hi] using Fills.missing

/-- A request and a response, each under a tag of its choice. -/
theorem canonical_pair {request response : List Field} {a b : Bytes} {i j : Nat}
    (hi : i ∈ [1, 2, 3]) (hj : j ∈ [4, 5, 6]) (ha : Canonical request a)
    (hb : Canonical response b) :
    Canonical (choice [1, 2, 3] (some (i, .message request)) ++
        choice [4, 5, 6] (some (j, .message response)))
      (Record.encodeAll [⟨i, .bytes a⟩, ⟨j, .bytes b⟩]) := by
  have hapart : ∀ tag ∈ [1, 2, 3], j ≠ tag := by simp at hj ⊢; omega
  have hapart' : ∀ tag ∈ [4, 5, 6], i ≠ tag := by simp at hi ⊢; omega
  refine .intro (by simp [choice, Field.tag]) (row_encodeAll ?_) ?_ ?_ ?_
  · simp [Payload.InRange] at hi hj ⊢
    omega
  · simp at hi hj ⊢
    omega
  · simp [choice, Field.tag] at hi hj ⊢
    omega
  · refine List.forall_mem_append.mpr
      ⟨fills_choice (.message ha) fun tag htag => ?_, fills_choice (.message hb) fun tag htag => ?_⟩
    · by_cases h : i = tag <;> simp [Record.under, hapart tag htag, h]
    · by_cases h : j = tag <;> simp [Record.under, hapart' tag htag, h]

theorem canonical (op : Operation) : Canonical op.declaredClaims op.claimsBytes := by
  cases op with
  | put request response =>
      exact canonical_pair (by simp) (by simp) request.canonical response.withoutHeader.canonical
  | deleteRange request response =>
      exact canonical_pair (by simp) (by simp) request.canonical response.withoutHeader.canonical
  | txn request response =>
      exact canonical_pair (by simp) (by simp) request.canonical response.withoutHeader.canonical

/-- The bytes of a message are the canonical ones of its fields, and so are the bytes of the claims:
no other bytes have their numbers as short as they can be, their records in the order of the tags,
a record for what is there and none for what is left out. -/
theorem canonical_iff_eq_bytes :
    (∀ (k : MessageKind) (m : k.Carrier) (bytes : Bytes),
      Canonical (k.declared m) bytes ↔ bytes = k.format.encode m) ∧
    ∀ (op : Operation) (bytes : Bytes),
      Canonical op.declaredClaims bytes ↔ bytes = op.claimsBytes := by
  constructor
  · intro k m bytes
    constructor
    · exact fun h => h.unique (k.canonical m)
    · rintro rfl
      exact k.canonical m
  · intro op bytes
    constructor
    · exact fun h => h.unique op.canonical
    · rintro rfl
      exact op.canonical

/-- A name that is not known is kept as a number, an arm of value zero has a record, and the tag 64
takes two bytes. -/
example : Compare.format.encode ⟨-1, 0, [], some (.version 0), [7]⟩ =
    [8, 255, 255, 255, 255, 255, 255, 255, 255, 255, 1, 32, 0, 130, 4, 1, 7] := by
  decide

end Operation

end LedgerAudit
