import LedgerAudit.Proofs.Message.Fields
import Mathlib.Logic.Relation

/-!
# Presentations of one message

The same message can be written in many ways: numbers as numbers or as texts, enumerations by
number or by name, bytes in either alphabet, keys in either spelling, defaults as null or not at
all, and with keys that mean nothing. A rewrite changes one such choice, at any depth, and what is
read stays the same. An object with both spellings of a key is not read at all.
-/

namespace LedgerAudit.Message

open Json (Codec Members)

/-- A scalar in two spellings: an integer and a text that is accepted for it, the number and the
name of an enumeration, bytes in the standard and in the URL-safe alphabet. -/
inductive Respells : Shape → Json → Json → Prop
  | int64 {n : Int} {text : String} (hvalue : Numeral.Denotes (Text.trim text.toList) n)
      (haccepted : ∃ a : Int64, Numeral.read Int64 (Text.trim text.toList) = .ok a) :
      Respells .int64 (.integer n) (.string text)
  | uint64 {n : Int} {text : String} (hvalue : Numeral.Denotes (Text.trim text.toList) n)
      (haccepted : ∃ a : UInt64, Numeral.read UInt64 (Text.trim text.toList) = .ok a) :
      Respells .uint64 (.integer n) (.string text)
  | enumeration {e : EnumKind} {i : Nat} {name : String} (hname : e.names[i]? = some name) :
      Respells (.enumeration e) (.integer i) (.string name)
  | bytes {b : Bytes} {text other : String}
      (hstandard : Base64.standard.decode (Bytes.ofText text) = .ok b)
      (hurlSafe : Base64.urlSafe.decode (Bytes.ofText other) = .ok b) :
      Respells .bytes (.string text) (.string other)

theorem fixedWidth_respelled {α : Type} [FixedWidth α] (hzero : FixedWidth.HasZero α) {n : Int}
    {text : String} (hvalue : Numeral.Denotes (Text.trim text.toList) n)
    (haccepted : ∃ a : α, Numeral.read α (Text.trim text.toList) = .ok a) :
    ∃ a, (Codec.fixedWidth α).read (.integer n) = .ok a ∧
      (Codec.fixedWidth α).read (.string text) = .ok a := by
  obtain ⟨a, hread⟩ := haccepted
  have hn : FixedWidth.toInt a = n :=
    ((Numeral.read_eq_ok_iff hzero).mp hread).1.unique hvalue
  refine ⟨a, Codec.fixedWidth_read_integer_eq_ok_iff.mpr hn, ?_⟩
  change Codec.liftNumeral (Numeral.read α (Text.trim text.toList)) = .ok a
  rw [hread, Codec.liftNumeral]

theorem enumeration_respelled {e : EnumKind} {i : Nat} {name : String}
    (hname : e.names[i]? = some name) :
    ∃ a, (Codec.enumeration e.names).read (.integer i) = .ok a ∧
      (Codec.enumeration e.names).read (.string name) = .ok a := by
  have hnodup : e.names.Nodup := by cases e <;> decide
  have hlength : e.names.length ≤ 5 := by cases e <;> decide
  obtain ⟨hi, -⟩ := List.getElem?_eq_some_iff.mp hname
  refine ⟨Int32.ofNat i, ?_, Codec.enumeration_read_name hnodup hname⟩
  have hfit : Numeral.fit Int32 i = .ok (Int32.ofNat i) := by
    rw [Numeral.fit_eq_ok_iff]
    exact Int32.toInt_ofNat_of_lt (by omega)
  change Codec.liftNumeral (Numeral.fit Int32 i) = _
  rw [hfit, Codec.liftNumeral]

theorem bytes_respelled {b : Bytes} {text other : String}
    (hstandard : Base64.standard.decode (Bytes.ofText text) = .ok b)
    (hurlSafe : Base64.urlSafe.decode (Bytes.ofText other) = .ok b) :
    Codec.base64.read (.string text) = .ok b ∧ Codec.base64.read (.string other) = .ok b := by
  change Codec.readBase64 text = .ok b ∧ Codec.readBase64 other = .ok b
  refine ⟨by rw [Codec.readBase64, hstandard], ?_⟩
  rw [Codec.readBase64]
  cases hother : Base64.standard.decode (Bytes.ofText other) with
  | error fault => simp [hurlSafe]
  | ok b' => rw [Base64.Alphabet.standard_agree_urlSafe.decode hother hurlSafe]

theorem Respells.read_eq {s : Shape} {v w : Json} (h : Respells s v w) :
    ∃ a, s.codec.read v = .ok a ∧ s.codec.read w = .ok a := by
  cases h with
  | int64 hvalue haccepted =>
      exact fixedWidth_respelled FixedWidth.hasZero_int64 hvalue haccepted
  | uint64 hvalue haccepted =>
      exact fixedWidth_respelled FixedWidth.hasZero_uint64 hvalue haccepted
  | enumeration hname => exact enumeration_respelled hname
  | bytes hstandard hurlSafe => exact ⟨_, bytes_respelled hstandard hurlSafe⟩

/-- One change to how a value of a shape is written. The first member of an object stands for any
of them, since `reorder` brings each to the front. -/
inductive Rewrites : Shape → Json → Json → Prop
  | respell {s : Shape} {v w : Json} (h : Respells s v w) : Rewrites s v w
  | respellBack {s : Shape} {v w : Json} (h : Respells s v w) : Rewrites s w v
  | present {k : MessageKind} {v w : Json} (h : Rewrites (.message k) v w) :
      Rewrites (.optional k) v w
  | item {k : MessageKind} {vs : List Json} {i : Nat} {v w : Json} (hv : vs[i]? = some v)
      (h : Rewrites (.message k) v w) : Rewrites (.repeated k) (.array vs) (.array (vs.set i w))
  | element {k : MessageKind} {field : Field} {vs : List Json} {i : Nat} {v w : Json}
      (hfield : k.fields[i]? = some field) (hv : vs[i]? = some v)
      (h : Rewrites field.shape v w) : Rewrites (.message k) (.array vs) (.array (vs.set i w))
  | member {k : MessageKind} {field : Field} {key : String} {v w : Json} {ms : Members}
      (hfield : field ∈ k.fields) (hkey : key ∈ field.keys) (h : Rewrites field.shape v w) :
      Rewrites (.message k) (.object ((key, v) :: ms)) (.object ((key, w) :: ms))
  | rename {k : MessageKind} {field : Field} {key key' : String} {v : Json} {ms : Members}
      (hfield : field ∈ k.fields) (hkey : key ∈ field.keys) (hkey' : key' ∈ field.keys) :
      Rewrites (.message k) (.object ((key, v) :: ms)) (.object ((key', v) :: ms))
  | forgetNull {k : MessageKind} {field : Field} {key : String} {ms : Members}
      (hfield : field ∈ k.fields) (hnullable : field.nullable) (hkey : key ∈ field.keys) :
      Rewrites (.message k) (.object ((key, .null) :: ms)) (.object ms)
  | supplyNull {k : MessageKind} {field : Field} {key : String} {ms : Members}
      (hfield : field ∈ k.fields) (hnullable : field.nullable) (hkey : key ∈ field.keys)
      (habsent : ∀ m ∈ ms, m.1 ∉ field.keys) :
      Rewrites (.message k) (.object ms) (.object ((key, .null) :: ms))
  | drop {k : MessageKind} {key : String} {v : Json} {ms : Members}
      (hunknown : ∀ field ∈ k.fields, key ∉ field.keys) :
      Rewrites (.message k) (.object ((key, v) :: ms)) (.object ms)
  | add {k : MessageKind} {key : String} {v : Json} {ms : Members}
      (hunknown : ∀ field ∈ k.fields, key ∉ field.keys) :
      Rewrites (.message k) (.object ms) (.object ((key, v) :: ms))
  | reorder {k : MessageKind} {ms ms' : Members} (h : ms.Perm ms') :
      Rewrites (.message k) (.object ms) (.object ms')

namespace MessageKind

variable {k : MessageKind} {field : Field} {v w : Json} {i : Nat}

theorem keeps (h : k.schema.layout.Keeps v w) : k.format.codec.Keeps v w := by
  intro m hread
  rw [read_eq, Except.bind_eq_ok_iff] at hread ⊢
  obtain ⟨a, hlayout, hcollapse⟩ := hread
  exact ⟨a, h a hlayout, hcollapse⟩

theorem exists_layout_read {m : k.Carrier} (h : k.format.codec.read v = .ok m) :
    ∃ a, k.schema.layout.read v = .ok a := by
  rw [read_eq, Except.bind_eq_ok_iff] at h
  exact h.imp fun _ => And.left

theorem exists_described_at (hfield : k.fields[i]? = some field) :
    ∃ f, k.schema.layout.fields[i]? = some f ∧ field.Describes k.schema.blank f := by
  obtain ⟨hi, rfl⟩ := List.getElem?_eq_some_iff.mp hfield
  have hi' : i < k.schema.fields.length := k.described.length_eq ▸ hi
  refine ⟨k.schema.fields[i].json, ?_, k.described.get hi hi'⟩
  change (k.schema.fields.map (·.json))[i]? = _
  rw [List.getElem?_map, List.getElem?_eq_getElem hi', Option.map_some]

theorem exists_described (hfield : field ∈ k.fields) :
    ∃ f ∈ k.schema.layout.fields, field.Describes k.schema.blank f := by
  obtain ⟨i, hi⟩ := List.mem_iff_getElem?.mp hfield
  obtain ⟨f, hf, hdescribes⟩ := exists_described_at hi
  exact ⟨f, List.mem_of_getElem? hf, hdescribes⟩

theorem exists_field {f : Json.FieldSpec k.Flat} (hf : f ∈ k.schema.layout.fields) :
    ∃ field ∈ k.fields, field.Describes k.schema.blank f := by
  obtain ⟨g, hg, rfl⟩ := List.mem_map.mp hf
  obtain ⟨i, hi', rfl⟩ := List.mem_iff_getElem.mp hg
  have hi : i < k.fields.length := k.described.length_eq ▸ hi'
  exact ⟨k.fields[i], List.getElem_mem hi, k.described.get hi hi'⟩

theorem not_required (f : Json.FieldSpec k.Flat) (hf : f ∈ k.schema.layout.fields) :
    f.required = false := by
  obtain ⟨field, -, hdescribes⟩ := exists_field hf
  exact hdescribes.required_eq

/-- A key that no field of the message is spelled by is unknown to the layout. -/
theorem unknown {key : String} (h : ∀ field ∈ k.fields, key ∉ field.keys) :
    ∀ f ∈ k.schema.layout.fields, key ∉ f.keys := by
  intro f hf hkey
  obtain ⟨field, hfield, hdescribes⟩ := exists_field hf
  exact h field hfield ((hdescribes.mem_keys key).mp hkey)

end MessageKind

theorem Field.Describes.keeps {σ : Type} {field : Field} {blank : σ} {f : Json.FieldSpec σ}
    (h : field.Describes blank f) {v w : Json} (hkeeps : field.shape.codec.Keeps v w) (s t : σ)
    (hread : f.read v s = .ok t) : f.read w s = .ok t := by
  obtain ⟨set, hset⟩ := h.read_eq
  rw [hset, Except.map_eq_ok_iff] at hread ⊢
  exact hread.imp fun a ha => ⟨hkeeps a ha.1, ha.2⟩

theorem Field.Describes.exists_shape_read {σ : Type} {field : Field} {blank : σ}
    {f : Json.FieldSpec σ} (h : field.Describes blank f) {v : Json} {s t : σ}
    (hread : f.read v s = .ok t) : ∃ a, field.shape.codec.read v = .ok a := by
  obtain ⟨set, hset⟩ := h.read_eq
  rw [hset, Except.map_eq_ok_iff] at hread
  exact hread.imp fun _ => And.left

/-- Null stands for no message, so it is not rewritten as one. -/
theorem Rewrites.ne_null {k : MessageKind} {v w : Json} (h : Rewrites (.message k) v w) :
    v ≠ .null ∧ w ≠ .null := by
  cases h with
  | respell h => cases h
  | respellBack h => cases h
  | _ => exact ⟨nofun, nofun⟩

/-- A rewrite keeps what is read. -/
theorem Rewrites.keeps {s : Shape} {v w : Json} (h : Rewrites s v w) : s.codec.Keeps v w := by
  -- on the depth of the change: the field around a change reads alike what its shape reads alike
  induction h with
  | respell h =>
      obtain ⟨a, hv, hw⟩ := h.read_eq
      intro b hb
      rw [hw, ← hv, hb]
  | respellBack h =>
      obtain ⟨a, hv, hw⟩ := h.read_eq
      intro b hb
      rw [hv, ← hw, hb]
  | present h ih => exact Codec.Keeps.optional ih h.ne_null.1 h.ne_null.2
  | item hv _ ih => exact Codec.Keeps.item ih hv
  | element hfield hv _ ih =>
      obtain ⟨f, hf, hdescribes⟩ := MessageKind.exists_described_at hfield
      apply MessageKind.keeps
      exact Json.Layout.keeps_element hf hv (hdescribes.keeps ih)
  | @member k field key v w ms hfield hkey _ ih =>
      obtain ⟨f, hf, hdescribes⟩ := MessageKind.exists_described hfield
      have hkey : key ∈ f.keys := (hdescribes.mem_keys key).mpr hkey
      apply MessageKind.keeps
      exact k.layout_lawful.keeps_member hf hkey (hdescribes.keeps ih)
  | @rename k field key key' v ms hfield hkey hkey' =>
      obtain ⟨f, hf, hdescribes⟩ := MessageKind.exists_described hfield
      have hkey : key ∈ f.keys := (hdescribes.mem_keys key).mpr hkey
      have hkey' : key' ∈ f.keys := (hdescribes.mem_keys key').mpr hkey'
      apply MessageKind.keeps
      exact k.layout_lawful.keeps_rename hf hkey hkey'
  | @forgetNull k field key ms hfield hnullable hkey =>
      obtain ⟨f, hf, hdescribes⟩ := MessageKind.exists_described hfield
      have hkey : key ∈ f.keys := (hdescribes.mem_keys key).mpr hkey
      have hnull := hdescribes.read_null hnullable
      apply MessageKind.keeps
      exact k.layout_lawful.keeps_omit hf MessageKind.not_required hnull hkey
  | @supplyNull k field key ms hfield hnullable hkey habsent =>
      obtain ⟨f, hf, hdescribes⟩ := MessageKind.exists_described hfield
      have hkey : key ∈ f.keys := (hdescribes.mem_keys key).mpr hkey
      have hnull := hdescribes.read_null hnullable
      have habsent : ∀ m ∈ ms, m.1 ∉ f.keys :=
        fun m hm hkey => habsent m hm ((hdescribes.mem_keys m.1).mp hkey)
      apply MessageKind.keeps
      exact k.layout_lawful.keeps_supply hf MessageKind.not_required hnull hkey habsent
  | drop hunknown =>
      apply MessageKind.keeps
      intro t
      exact (Json.Layout.read_object_cons_of_unknown (MessageKind.unknown hunknown)).mp
  | add hunknown =>
      apply MessageKind.keeps
      intro t
      exact (Json.Layout.read_object_cons_of_unknown (MessageKind.unknown hunknown)).mpr
  | @reorder k ms ms' hperm =>
      apply MessageKind.keeps
      intro t
      exact k.layout_lawful.read_perm hperm

/-- Any number of rewrites keep what is read. -/
theorem keeps_of_reflTransGen {s : Shape} {v w : Json}
    (h : Relation.ReflTransGen (Rewrites s) v w) : s.codec.Keeps v w := by
  induction h with
  | refl => exact fun _ => id
  | tail _ hstep ih => exact fun a ha => hstep.keeps a (ih a ha)

/-- Some object of a message has both spellings of a field. -/
inductive SpelledTwice : Shape → Json → Prop
  | here {k : MessageKind} {field : Field} {key key' : String} {v w : Json} {ms : Members}
      (hfield : field ∈ k.fields) (hkey : key ∈ field.keys) (hkey' : key' ∈ field.keys)
      (hne : key ≠ key') (hv : (key, v) ∈ ms) (hw : (key', w) ∈ ms) :
      SpelledTwice (.message k) (.object ms)
  | present {k : MessageKind} {v : Json} (h : SpelledTwice (.message k) v) :
      SpelledTwice (.optional k) v
  | item {k : MessageKind} {vs : List Json} {v : Json} (hv : v ∈ vs)
      (h : SpelledTwice (.message k) v) : SpelledTwice (.repeated k) (.array vs)
  | element {k : MessageKind} {field : Field} {vs : List Json} {i : Nat} {v : Json}
      (hfield : k.fields[i]? = some field) (hv : vs[i]? = some v)
      (h : SpelledTwice field.shape v) : SpelledTwice (.message k) (.array vs)
  | member {k : MessageKind} {field : Field} {key : String} {v : Json} {ms : Members}
      (hfield : field ∈ k.fields) (hkey : key ∈ field.keys) (hv : (key, v) ∈ ms)
      (h : SpelledTwice field.shape v) : SpelledTwice (.message k) (.object ms)

/-- A value in which some object has both spellings of a field is not read. -/
theorem SpelledTwice.read_ne_ok {s : Shape} {v : Json} (h : SpelledTwice s v) :
    ∀ a, s.codec.read v ≠ .ok a := by
  induction h with
  | @here k field key key' v w ms hfield hkey hkey' hne hv hw =>
      intro (m : k.Carrier) hread
      obtain ⟨f, hf, hdescribes⟩ := MessageKind.exists_described hfield
      obtain ⟨t, ht⟩ := MessageKind.exists_layout_read hread
      have hkey : key ∈ f.keys := (hdescribes.mem_keys key).mpr hkey
      have hkey' : key' ∈ f.keys := (hdescribes.mem_keys key').mpr hkey'
      exact k.layout_lawful.read_ne_ok_of_both hf hkey hkey' hne hv hw ht
  | @present k v h ih =>
      intro (a : Option k.Carrier) hread
      have hnull : v ≠ .null := by rintro rfl; cases h
      have hcodec : k.format.codec.optional.read v = .ok a := hread
      rw [Codec.optional_read_of_ne_null hnull, Except.map_eq_ok_iff] at hcodec
      obtain ⟨m, hm, -⟩ := hcodec
      exact ih m hm
  | @item k vs v hv _ ih =>
      intro (as : List k.Carrier) hread
      obtain ⟨i, hi⟩ := List.mem_iff_getElem?.mp hv
      obtain ⟨m, hm, -⟩ := Codec.mapM_read_at hi hread
      exact ih m hm
  | @element k field vs i v hfield hv _ ih =>
      intro (m : k.Carrier) hread
      obtain ⟨f, hf, hdescribes⟩ := MessageKind.exists_described_at hfield
      obtain ⟨t, ht⟩ := MessageKind.exists_layout_read hread
      obtain ⟨s₁, s₂, hs, -⟩ := Json.Layout.readElements_at hf hv ht
      obtain ⟨a, ha⟩ := hdescribes.exists_shape_read hs
      exact ih a ha
  | @member k field key v ms hfield hkey hv _ ih =>
      intro (m : k.Carrier) hread
      obtain ⟨f, hf, hdescribes⟩ := MessageKind.exists_described hfield
      obtain ⟨t, ht⟩ := MessageKind.exists_layout_read hread
      have hkey : key ∈ f.keys := (hdescribes.mem_keys key).mpr hkey
      obtain ⟨s₁, s₂, hs⟩ := k.layout_lawful.exists_read_eq_ok hf hkey hv ht
      obtain ⟨a, ha⟩ := hdescribes.exists_shape_read hs
      exact ih a ha

end LedgerAudit.Message
