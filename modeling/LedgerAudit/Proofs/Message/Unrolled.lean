import LedgerAudit.Proofs.Json.Alike
import LedgerAudit.Proofs.Message.Nested

/-!
# Transactions read and written one level at a time

The level that a value needs to be read, and the level that an operation needs to be written, do
not show in the result: an operation is read and written as by one more level over its own format.
-/

namespace LedgerAudit

open Message
open Json (Codec Layout)

namespace Message

variable {σ α : Type} {n tag : Nat} {name alternate : String} {s k : Schema σ}

theorem Schema.codec_alike (htitle : s.title = k.title) (hblank : s.blank = k.blank)
    (hfields : List.Forall₂ (fun f g => f.json.AlikeBelow n g.json) s.fields k.fields) :
    s.format.codec.AlikeBelow (n + 1) k.format.codec := by
  refine Layout.codec_alike htitle hblank ?_
  exact List.forall₂_map_left_iff.mpr (List.forall₂_map_right_iff.mpr hfields)

theorem Schema.write_congr {m : σ} (hfields : List.Forall₂
      (fun f g => f.json.name = g.json.name ∧ f.json.write m = g.json.write m)
      s.fields k.fields) : s.format.codec.write m = k.format.codec.write m := by
  refine Layout.write_congr ?_
  exact List.forall₂_map_left_iff.mpr (List.forall₂_map_right_iff.mpr hfields)

namespace FieldSpec

theorem plain_alike {c d : Kind α} {get : σ → α} {set : α → σ → σ}
    (h : c.codec.AlikeBelow n d.codec) :
    (plain tag name c get set).json.AlikeBelow n (plain tag name d get set).json :=
  ⟨rfl, rfl, rfl, fun v _ hv => congrArg (Except.map _) (h v hv)⟩

theorem messageArm_alike {f g : Format α} {get : σ → Option α} {set : Option α → σ → σ}
    (h : f.codec.optional.AlikeBelow n g.codec.optional) :
    (messageArm tag name alternate f get set).json.AlikeBelow n
      (messageArm tag name alternate g get set).json :=
  ⟨rfl, rfl, rfl, fun v _ hv => congrArg (Except.map _) (h v hv)⟩

end FieldSpec

end Message

namespace TxnRequest

theorem schemaOver_alike {n : Nat} {f g : Format RequestOp} (h : f.codec.AlikeBelow n g.codec) :
    (schemaOver f).format.codec.AlikeBelow (n + 1) (schemaOver g).format.codec := by
  have hlist : f.codec.list.AlikeBelow n g.codec.list := h.list.mono (Nat.le_succ n)
  refine Schema.codec_alike rfl rfl (.cons (.refl _) (.cons ?_ (.cons ?_ .nil)))
  · exact FieldSpec.plain_alike hlist
  · exact FieldSpec.plain_alike hlist

theorem schemaOver_write_congr {f g : Format RequestOp} {t : TxnRequest}
    (h : ∀ op ∈ t.success ++ t.failure, f.codec.write op = g.codec.write op) :
    (schemaOver f).format.codec.write t = (schemaOver g).format.codec.write t := by
  have hsuccess : f.codec.list.write t.success = g.codec.list.write t.success :=
    congrArg Json.array (List.map_congr_left fun op hop => h op (List.mem_append_left _ hop))
  have hfailure : f.codec.list.write t.failure = g.codec.list.write t.failure :=
    congrArg Json.array (List.map_congr_left fun op hop => h op (List.mem_append_right _ hop))
  exact Schema.write_congr (.cons ⟨rfl, rfl⟩ (.cons ⟨rfl, congrArg some hsuccess⟩
    (.cons ⟨rfl, congrArg some hfailure⟩ .nil)))

end TxnRequest

namespace RequestOp

theorem nest_alike {n : Nat} {f g : Format RequestOp} (h : f.codec.AlikeBelow n g.codec) :
    (levels.nest f).codec.AlikeBelow (n + 1) (levels.nest g).codec := by
  have htxn := ((TxnRequest.schemaOver_alike h).mono (Nat.le_succ n)).optional
  have hflat : (Flat.schemaOver f).format.codec.AlikeBelow (n + 1)
      (Flat.schemaOver g).format.codec := by
    refine Schema.codec_alike rfl rfl
      (.cons (.refl _) (.cons (.refl _) (.cons (.refl _) (.cons ?_ .nil))))
    exact FieldSpec.messageArm_alike htxn
  exact fun v hv => congrArg (· >>= Flat.collapse) (hflat v hv)

theorem nest_write_congr {f g : Format RequestOp} {op : RequestOp}
    (h : ∀ member ∈ op.members, f.codec.write member = g.codec.write member) :
    (levels.nest f).codec.write op = (levels.nest g).codec.write op := by
  have htxn : op.flat.txn.map (TxnRequest.schemaOver f).format.codec.write =
      op.flat.txn.map (TxnRequest.schemaOver g).format.codec.write := by
    refine Option.map_congr fun t ht => TxnRequest.schemaOver_write_congr ?_
    rwa [← members_of_flat_txn ht]
  exact Schema.write_congr (.cons ⟨rfl, rfl⟩ (.cons ⟨rfl, rfl⟩ (.cons ⟨rfl, rfl⟩
    (.cons ⟨rfl, htxn⟩ .nil))))

/-- An operation is read as by one more level. -/
theorem format_read_eq (v : Json) : format.codec.read v = (levels.nest format).codec.read v :=
  observe_eq_nest (fun f : Format RequestOp => f.codec.read) (fun _ => rfl) Json.height_pos
    (fun h => nest_alike h _ (Nat.lt_succ_self _)) (fun _ => rfl) v

theorem format_write_eq (op : RequestOp) :
    format.codec.write op = (levels.nest format).codec.write op :=
  observe_eq_nest (fun f : Format RequestOp => f.codec.write) levels.formatAt_succ levels.depth_pos
    (fun h => nest_write_congr fun member hmember =>
      h member (levels.depth_lt_of_mem hmember)) (fun _ => rfl) op

end RequestOp

namespace TxnResponse

theorem schemaOver_alike {n : Nat} {f g : Format ResponseOp} (h : f.codec.AlikeBelow n g.codec) :
    (schemaOver f).format.codec.AlikeBelow (n + 1) (schemaOver g).format.codec := by
  have hlist : f.codec.list.AlikeBelow n g.codec.list := h.list.mono (Nat.le_succ n)
  refine Schema.codec_alike rfl rfl (.cons (.refl _) (.cons (.refl _) (.cons ?_ .nil)))
  exact FieldSpec.plain_alike hlist

theorem schemaOver_write_congr {f g : Format ResponseOp} {t : TxnResponse}
    (h : ∀ op ∈ t.responses, f.codec.write op = g.codec.write op) :
    (schemaOver f).format.codec.write t = (schemaOver g).format.codec.write t := by
  have hresponses : f.codec.list.write t.responses = g.codec.list.write t.responses :=
    congrArg Json.array (List.map_congr_left h)
  exact Schema.write_congr (.cons ⟨rfl, rfl⟩ (.cons ⟨rfl, rfl⟩
    (.cons ⟨rfl, congrArg some hresponses⟩ .nil)))

end TxnResponse

namespace ResponseOp

theorem nest_alike {n : Nat} {f g : Format ResponseOp} (h : f.codec.AlikeBelow n g.codec) :
    (levels.nest f).codec.AlikeBelow (n + 1) (levels.nest g).codec := by
  have htxn := ((TxnResponse.schemaOver_alike h).mono (Nat.le_succ n)).optional
  have hflat : (Flat.schemaOver f).format.codec.AlikeBelow (n + 1)
      (Flat.schemaOver g).format.codec := by
    refine Schema.codec_alike rfl rfl
      (.cons (.refl _) (.cons (.refl _) (.cons (.refl _) (.cons ?_ .nil))))
    exact FieldSpec.messageArm_alike htxn
  exact fun v hv => congrArg (· >>= Flat.collapse) (hflat v hv)

theorem nest_write_congr {f g : Format ResponseOp} {op : ResponseOp}
    (h : ∀ member ∈ op.members, f.codec.write member = g.codec.write member) :
    (levels.nest f).codec.write op = (levels.nest g).codec.write op := by
  have htxn : op.flat.txn.map (TxnResponse.schemaOver f).format.codec.write =
      op.flat.txn.map (TxnResponse.schemaOver g).format.codec.write := by
    refine Option.map_congr fun t ht => TxnResponse.schemaOver_write_congr ?_
    rwa [← members_of_flat_txn ht]
  exact Schema.write_congr (.cons ⟨rfl, rfl⟩ (.cons ⟨rfl, rfl⟩ (.cons ⟨rfl, rfl⟩
    (.cons ⟨rfl, htxn⟩ .nil))))

theorem format_read_eq (v : Json) : format.codec.read v = (levels.nest format).codec.read v :=
  observe_eq_nest (fun f : Format ResponseOp => f.codec.read) (fun _ => rfl) Json.height_pos
    (fun h => nest_alike h _ (Nat.lt_succ_self _)) (fun _ => rfl) v

theorem format_write_eq (op : ResponseOp) :
    format.codec.write op = (levels.nest format).codec.write op :=
  observe_eq_nest (fun f : Format ResponseOp => f.codec.write) levels.formatAt_succ
    levels.depth_pos
    (fun h => nest_write_congr fun member hmember =>
      h member (levels.depth_lt_of_mem hmember)) (fun _ => rfl) op

end ResponseOp

end LedgerAudit
