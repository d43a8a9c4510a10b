import LedgerAudit.Proofs.Json.Codec
import LedgerAudit.Proofs.Message.Layouts
import LedgerAudit.Proofs.Message.Unrolled

/-!
# Messages read back from their JSON form

A message is restored when each of its fields is. The only value that is written in a form it is
not read from is the byte string that a comparison compares with, so a message is restored exactly
when none of the comparisons inside it has one.
-/

namespace LedgerAudit

open Json (Codec)

namespace Json.FieldSpec

variable {σ α : Type} {name : String} {alternate : Option String} {c : Codec α} {get : σ → α}
  {set : α → σ → σ} {read : Json → Except Fault (Option α)} {write : α → Json}
  {arm? : σ → Option α} {setArm : Option α → σ → σ} {m s : σ}

theorem restore_ofCodec_eq : (ofCodec name alternate c get set).restore m s =
    (c.read (c.write (get m)).sorted).map (set · s) := rfl

@[simp] theorem restore_ofCodec (h : c.Restores (get m)) :
    (ofCodec name alternate c get set).restore m s = .ok (set (get m) s) := by
  rw [restore_ofCodec_eq, h, Except.ok_map]

@[simp] theorem restore_arm_of_none (h : arm? m = none) :
    (arm name alternate read write arm? setArm).restore m s = .ok s := by
  simp [restore, arm, h]

@[simp] theorem restore_arm_of_some {a : α} (h : arm? m = some a) :
    (arm name alternate read write arm? setArm).restore m s =
      (read (write a).sorted).map (setArm · s) := by
  simp [restore, arm, h]

end Json.FieldSpec

namespace Message

variable {σ : Type}

theorem Schema.read_sorted_write_eq_ok_iff {s : Schema σ} {m t : σ} (h : s.layout.Lawful)
    (hrequired : ∀ f ∈ s.fields, f.json.required = false) :
    s.format.codec.read (s.format.codec.write m).sorted = .ok t ↔
      s.fields.foldlM (fun acc f => f.json.restore m acc) s.blank = .ok t := by
  refine (h.read_sorted_write_eq_ok_iff ?_).trans ?_
  · simp +contextual [hrequired]
  · simp [List.foldlM_map]

theorem Schema.via_restores_iff {τ : Type} {s : Schema τ} {expand : σ → τ}
    {collapse : τ → Except Json.Fault σ} {m : σ} (h : s.layout.Lawful)
    (hrequired : ∀ f ∈ s.fields, f.json.required = false) :
    (s.format.via expand collapse).codec.Restores m ↔
      ∃ t, s.fields.foldlM (fun acc f => f.json.restore (expand m) acc) s.blank = .ok t ∧
        collapse t = .ok m := by
  simp only [← read_sorted_write_eq_ok_iff h hrequired]
  exact Except.bind_eq_ok_iff

theorem Format.read_optional {f : Format σ} (hnull : ∀ m, f.codec.read .null ≠ .ok m) {m : σ}
    (h : f.codec.Restores m) :
    f.codec.optional.read (f.codec.write m).sorted = .ok (some m) := by
  have hsome : f.codec.optional.Restores (some m) :=
    (Codec.optional_restores_iff hnull).mpr (by simpa using h)
  exact hsome

namespace Kind

@[simp] theorem int64_restores (n : Int64) : int64.codec.Restores n :=
  (Codec.fixedWidth_roundTrips FixedWidth.hasZero_int64).restores (fun _ => rfl) n

@[simp] theorem uint64_restores (n : UInt64) : uint64.codec.Restores n :=
  (Codec.fixedWidth_roundTrips FixedWidth.hasZero_uint64).restores (fun _ => rfl) n

@[simp] theorem bool_restores (b : Bool) : bool.codec.Restores b :=
  Codec.bool_roundTrips.restores (fun _ => rfl) b

@[simp] theorem bytes_restores (b : Bytes) : bytes.codec.Restores b :=
  Codec.base64_roundTrips.restores (fun _ => rfl) b

@[simp] theorem enumeration_restores {names : List String} (h : names.Nodup) (n : Int32) :
    (enumeration names).codec.Restores n :=
  (Codec.enumeration_roundTrips h).restores Codec.sorted_write_enumeration n

theorem message_restores {f : Format σ} (hnull : ∀ m, f.codec.read .null ≠ .ok m)
    (h : ∀ m, f.codec.Restores m) (m : Option σ) : (message f).codec.Restores m :=
  (Codec.optional_restores_iff hnull).mpr fun a _ => h a

theorem repeated_restores {f : Format σ} (h : ∀ m, f.codec.Restores m) (ms : List σ) :
    (repeated f).codec.Restores ms :=
  Codec.list_restores_iff.mpr fun a _ => h a

end Kind

end Message

open Message

theorem ResponseHeader.format_restores (m : ResponseHeader) : format.codec.Restores m := by
  refine (Schema.read_sorted_write_eq_ok_iff layout_lawful (by simp [schema])).mpr ?_
  simp [schema]

theorem KeyValue.format_restores (m : KeyValue) : format.codec.Restores m := by
  refine (Schema.read_sorted_write_eq_ok_iff layout_lawful (by simp [schema])).mpr ?_
  simp [schema]

theorem PutRequest.format_restores (m : PutRequest) : format.codec.Restores m := by
  refine (Schema.read_sorted_write_eq_ok_iff layout_lawful (by simp [schema])).mpr ?_
  simp [schema]

theorem PutResponse.format_restores (m : PutResponse) : format.codec.Restores m := by
  have hheader := Kind.message_restores nofun ResponseHeader.format_restores
  have hkv := Kind.message_restores nofun KeyValue.format_restores
  refine (Schema.read_sorted_write_eq_ok_iff layout_lawful (by simp [schema])).mpr ?_
  simp [schema, hheader, hkv]

theorem DeleteRangeRequest.format_restores (m : DeleteRangeRequest) :
    format.codec.Restores m := by
  refine (Schema.read_sorted_write_eq_ok_iff layout_lawful (by simp [schema])).mpr ?_
  simp [schema]

theorem DeleteRangeResponse.format_restores (m : DeleteRangeResponse) :
    format.codec.Restores m := by
  have hheader := Kind.message_restores nofun ResponseHeader.format_restores
  have hkvs := Kind.repeated_restores KeyValue.format_restores
  refine (Schema.read_sorted_write_eq_ok_iff layout_lawful (by simp [schema])).mpr ?_
  simp [schema, hheader, hkvs]

theorem RangeRequest.format_restores (m : RangeRequest) : format.codec.Restores m := by
  refine (Schema.read_sorted_write_eq_ok_iff layout_lawful (by simp [schema])).mpr ?_
  simp [schema, sortOrders, sortTargets]

theorem RangeResponse.format_restores (m : RangeResponse) : format.codec.Restores m := by
  have hheader := Kind.message_restores nofun ResponseHeader.format_restores
  have hkvs := Kind.repeated_restores KeyValue.format_restores
  refine (Schema.read_sorted_write_eq_ok_iff layout_lawful (by simp [schema])).mpr ?_
  simp [schema, hheader, hkvs]

namespace Compare

/-- Compares the stored value with bytes. -/
def TargetsValue (c : Compare) : Prop := ∃ b, c.operand = some (.value b)

/-- A comparison is restored except when it compares with bytes: these are written as an array of
numbers, which is no base64 text. -/
theorem format_restores_iff (c : Compare) : format.codec.Restores c ↔ ¬ c.TargetsValue := by
  have hnumber : ∀ n : Int64, (Codec.fixedWidth Int64).read (Json.integer n.toInt).sorted = .ok n :=
    fun n => Codec.fixedWidth_read_integer_eq_ok_iff.mpr rfl
  have hbytes : ∀ items : List Json, Codec.base64.read (Json.array items).sorted =
      .error (.wrongType (Json.array items).sorted "a string") := fun _ => rfl
  refine (Schema.via_restores_iff Flat.layout_lawful
    (by simp [Flat.schema, numberArm, bytesArm])).trans ?_
  obtain ⟨result, target, key, operand, rangeEnd⟩ := c
  cases operand with
  | none =>
      simp [TargetsValue, Flat.schema, flat, numberArm, bytesArm, results, targets, Flat.collapse,
        Flat.operands]
  | some operand =>
      cases operand with
      | value b =>
          simp [TargetsValue, Flat.schema, flat, numberArm, bytesArm, results, targets, hbytes]
      | _ n =>
          simp [TargetsValue, Flat.schema, flat, numberArm, bytesArm, results, targets, hnumber,
            Flat.collapse, Flat.operands]

end Compare

end LedgerAudit
