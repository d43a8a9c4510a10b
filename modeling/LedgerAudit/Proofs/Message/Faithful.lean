import LedgerAudit.Message.Schema
import LedgerAudit.Proofs.Protobuf.Reader

/-!
# Formats whose bytes tell the message

The payloads of a field tell its value, because a value has no payload only when it is the default.
Where the tags of a schema differ, the payloads of every field can be picked out of the bytes, and
so the bytes tell the message.
-/

namespace LedgerAudit.Message

open Protobuf (Payload Record)

variable {σ α : Type}

/-- Different messages have different bytes. -/
def Format.Faithful (f : Format σ) : Prop := Function.Injective f.encode

theorem Format.records_eq_of_encode_eq {f : Format σ} {m n : σ} (h : f.encode m = f.encode n) :
    f.records m = f.records n :=
  Record.encodeAll_injective h

namespace Kind

theorem int64Payload_injective : Function.Injective int64Payload := by
  intro a b h
  simp only [int64Payload, Payload.varint.injEq, UInt64.toNat_inj] at h
  cases a
  cases b
  simpa using h

/-- Leaving out the default loses nothing. -/
theorem elided_inj [DecidableEq α] {p : α → Payload} (hp : Function.Injective p) (d : α) {a b : α} :
    ((if a = d then [] else [p a]) = if b = d then [] else [p b]) ↔ a = b := by
  constructor
  · intro h
    by_cases ha : a = d <;> by_cases hb : b = d
    · rw [ha, hb]
    · simp [ha, hb] at h
    · simp [ha, hb] at h
    · exact hp (by simpa [ha, hb] using h)
  · rintro rfl
    rfl

@[simp] theorem payloads_int64_inj {a b : Int64} :
    int64.payloads a = int64.payloads b ↔ a = b :=
  elided_inj int64Payload_injective 0

@[simp] theorem payloads_uint64_inj {a b : UInt64} :
    uint64.payloads a = uint64.payloads b ↔ a = b := by
  have hp : Function.Injective fun n : UInt64 => Payload.varint n.toNat := by
    intro a b h
    simpa [UInt64.toNat_inj] using h
  exact elided_inj hp 0

@[simp] theorem payloads_bool_inj {a b : Bool} : bool.payloads a = bool.payloads b ↔ a = b := by
  cases a <;> cases b <;> simp [bool]

@[simp] theorem payloads_bytes_inj {a b : Bytes} :
    bytes.payloads a = bytes.payloads b ↔ a = b := by
  cases a <;> cases b <;> simp [bytes]

@[simp] theorem payloads_enumeration_inj {names : List String} {a b : Int32} :
    (enumeration names).payloads a = (enumeration names).payloads b ↔ a = b := by
  have hp : Function.Injective fun n : Int32 => int64Payload n.toInt64 := by
    intro a b h
    have hwide : a.toInt64.toInt = b.toInt64.toInt :=
      congrArg Int64.toInt (int64Payload_injective h)
    exact Int32.toInt_inj.mp (by simpa using hwide)
  exact elided_inj hp 0

/-- A message that may be missing is told by its payloads as soon as its format tells it. -/
theorem payloads_message_inj_of_mem {f : Format σ} {a b : Option σ}
    (hmem : ∀ m, a = some m → ∀ n, f.encode m = f.encode n → m = n)
    (h : (message f).payloads a = (message f).payloads b) : a = b := by
  cases a with
  | none => cases b <;> simp_all [message]
  | some m =>
      cases b with
      | none => simp [message] at h
      | some n =>
          simp only [message, Option.map_some, Option.toList_some, List.cons.injEq,
            Payload.bytes.injEq, and_true] at h
          rw [hmem m rfl n h]

theorem payloads_message_inj {f : Format σ} (hf : f.Faithful) {a b : Option σ} :
    (message f).payloads a = (message f).payloads b ↔ a = b :=
  ⟨payloads_message_inj_of_mem fun _ _ _ h => hf h, fun h => h ▸ rfl⟩

theorem payloads_message_congr {f g : Format σ} {a : Option σ}
    (h : ∀ m, a = some m → f.records m = g.records m) :
    (message f).payloads a = (message g).payloads a := by
  cases a with
  | none => rfl
  | some m => simp [message, Format.encode, h m rfl]

/-- Lists of messages are told by their payloads as soon as the members of one of them are. -/
theorem payloads_repeated_inj_of_mem {f : Format σ} {as bs : List σ}
    (hmem : ∀ a ∈ as, ∀ b, f.encode a = f.encode b → a = b)
    (h : (repeated f).payloads as = (repeated f).payloads bs) : as = bs := by
  induction as generalizing bs with
  | nil => cases bs <;> simp_all [repeated]
  | cons a as ih =>
      cases bs with
      | nil => simp [repeated] at h
      | cons b bs =>
          simp only [repeated, List.map_cons, List.cons.injEq, Payload.bytes.injEq] at h
          rw [hmem a List.mem_cons_self b h.1,
            ih (fun a ha => hmem a (List.mem_cons_of_mem _ ha)) h.2]

theorem payloads_repeated_inj {f : Format σ} (hf : f.Faithful) {as bs : List σ} :
    (repeated f).payloads as = (repeated f).payloads bs ↔ as = bs :=
  ⟨payloads_repeated_inj_of_mem fun _ _ _ h => hf h, fun h => h ▸ rfl⟩

theorem payloads_repeated_congr {f g : Format σ} {as : List σ}
    (h : ∀ a ∈ as, f.records a = g.records a) :
    (repeated f).payloads as = (repeated g).payloads as :=
  List.map_congr_left fun a ha => by rw [Format.encode, Format.encode, h a ha]

end Kind

namespace FieldSpec

@[simp] theorem tag_plain (tag : Nat) (name : String) (k : Kind α) (get : σ → α)
    (set : α → σ → σ) : (plain tag name k get set).tag = tag := rfl

@[simp] theorem tag_messageArm (tag : Nat) (name alternate : String) (f : Format α)
    (get : σ → Option α) (set : Option α → σ → σ) :
    (messageArm tag name alternate f get set).tag = tag := rfl

@[simp] theorem payloads_plain (tag : Nat) (name : String) (k : Kind α) (get : σ → α)
    (set : α → σ → σ) (m : σ) : (plain tag name k get set).payloads m = k.payloads (get m) := rfl

@[simp] theorem payloads_spelled (tag : Nat) (name alternate : String) (k : Kind α) (get : σ → α)
    (set : α → σ → σ) (m : σ) :
    (spelled tag name alternate k get set).payloads m = k.payloads (get m) := rfl

@[simp] theorem payloads_messageArm (tag : Nat) (name alternate : String) (f : Format α)
    (get : σ → Option α) (set : Option α → σ → σ) (m : σ) :
    (messageArm tag name alternate f get set).payloads m = (Kind.message f).payloads (get m) := rfl

/-- An arm that is set to its default keeps its payload. -/
theorem payloads_scalarArm_inj {tag : Nat} {name : String} {alternate : Option String}
    {c : Json.Codec α} {write : α → Json} {payload : α → Payload} {get : σ → Option α}
    {set : Option α → σ → σ} (hp : Function.Injective payload) {m n : σ} :
    (scalarArm tag name alternate c write payload get set).payloads m =
      (scalarArm tag name alternate c write payload get set).payloads n ↔ get m = get n := by
  simp only [scalarArm]
  cases get m <;> cases get n <;> simp [hp.eq_iff]

theorem filter_records (f g : FieldSpec σ) (m : σ) :
    (g.records m).filter (fun r => r.tag = f.tag) = if g.tag = f.tag then g.records m else [] := by
  by_cases h : g.tag = f.tag
  · rw [if_pos h]
    exact List.filter_eq_self.mpr (by simp [records, h])
  · rw [if_neg h]
    exact List.filter_eq_nil_iff.mpr (by simp [records, h])

end FieldSpec

namespace Schema

variable {s : Schema σ}

theorem records_format (s : Schema σ) (m : σ) :
    s.format.records m = s.fields.flatMap fun f => f.records m := rfl

/-- The records under the tag of a field are those of the field. -/
theorem filter_records (htags : (s.fields.map FieldSpec.tag).Nodup) {f : FieldSpec σ}
    (hf : f ∈ s.fields) (m : σ) :
    (s.format.records m).filter (fun r => r.tag = f.tag) = f.records m := by
  rw [records_format]
  generalize s.fields = fields at htags hf
  induction fields with
  | nil => simp at hf
  | cons g gs ih =>
      rw [List.map_cons, List.nodup_cons] at htags
      rw [List.flatMap_cons, List.filter_append, FieldSpec.filter_records]
      rcases List.mem_cons.mp hf with rfl | hf
      · -- No later field has this tag.
        have hrest : (gs.flatMap fun g => g.records m).filter (fun r => r.tag = f.tag) = [] := by
          rw [List.filter_flatMap, List.flatMap_eq_nil_iff]
          intro g hg
          have hne : g.tag ≠ f.tag := fun h => htags.1 (List.mem_map.mpr ⟨g, hg, h⟩)
          rw [FieldSpec.filter_records, if_neg hne]
        rw [hrest, if_pos rfl, List.append_nil]
      · have hne : g.tag ≠ f.tag := fun h => htags.1 (List.mem_map.mpr ⟨f, hf, h.symm⟩)
        rw [if_neg hne, List.nil_append, ih htags.2 hf]

/-- Equal bytes hold equal payloads field by field. -/
theorem payloads_eq_of_encode_eq (htags : (s.fields.map FieldSpec.tag).Nodup) {m n : σ}
    (h : s.format.encode m = s.format.encode n) : ∀ f ∈ s.fields, f.payloads m = f.payloads n := by
  intro f hf
  have hrecords : f.records m = f.records n := by
    rw [← filter_records htags hf m, ← filter_records htags hf n,
      Format.records_eq_of_encode_eq h]
  exact List.map_inj_right (fun p q hpq => by simpa using hpq) |>.mp hrecords

theorem faithful (htags : (s.fields.map FieldSpec.tag).Nodup)
    (hfields : ∀ m n, (∀ f ∈ s.fields, f.payloads m = f.payloads n) → m = n) :
    s.format.Faithful :=
  fun _ _ h => hfields _ _ (payloads_eq_of_encode_eq htags h)

end Schema

end LedgerAudit.Message
