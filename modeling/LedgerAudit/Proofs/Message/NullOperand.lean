import LedgerAudit.Proofs.Message.Requests
import LedgerAudit.Proofs.Message.Rewriting

/-!
# Null under the key of an operand

A comparison has one operand, and the key under which it stands says which. A null under such a key
is read as zero, or as no bytes, and sets the operand all the same: it is never the same comparison
as without the key, and beside another operand it is one too many.
-/

namespace LedgerAudit

open Json (Members Layout)

namespace Json.Layout

variable {σ : Type} {fields : List (FieldSpec σ)} {found : List (FieldSpec σ × Json)} {s t : σ}

/-- Values may be exchanged for others that their fields read alike. -/
theorem readMembers_map (g : String → Json → Json)
    (h : ∀ key f, fields.find? (·.answersTo key) = some f →
      ∀ v s, f.read (g key v) s = f.read v s)
    (ms : Members) (seen : List String) (s : σ) :
    readMembers fields (ms.map fun m => (m.1, g m.1 m.2)) seen s =
      readMembers fields ms seen s := by
  induction ms generalizing seen s with
  | nil => rfl
  | cons m ms ih =>
      rw [List.map_cons, readMembers, readMembers]
      cases hfind : fields.find? (·.answersTo m.1) with
      | none => exact ih seen s
      | some f => simp only [h m.1 f hfind, ih]

/-- Where each field reads a value or not whatever has been read before, values may be left out. -/
theorem exists_assign_of_sublist {others : List (FieldSpec σ × Json)}
    (hsub : others.Sublist found)
    (hfree : ∀ p ∈ found, ∀ s t, p.1.read p.2 s = .ok t → ∀ s', ∃ t', p.1.read p.2 s' = .ok t')
    (h : assign found s = .ok t) (s' : σ) : ∃ t', assign others s' = .ok t' := by
  induction hsub generalizing s s' with
  | slnil => exact ⟨s', rfl⟩
  | cons p _ ih =>
      obtain ⟨-, hfree⟩ := List.forall_mem_cons.mp hfree
      rw [assign_cons, Except.bind_eq_ok_iff] at h
      obtain ⟨s₁, -, hrest⟩ := h
      exact ih hfree hrest s'
  | cons_cons p _ ih =>
      obtain ⟨hfirst, hfree⟩ := List.forall_mem_cons.mp hfree
      rw [assign_cons, Except.bind_eq_ok_iff] at h
      obtain ⟨s₁, hread, hrest⟩ := h
      obtain ⟨s₂, hread'⟩ := hfirst s s₁ hread s'
      obtain ⟨t', ht'⟩ := ih hfree hrest s₂
      exact ⟨t', by rw [assign_cons, hread', Except.ok_bind, ht']⟩

end Json.Layout

/-- Members may be left out of a message that is read. -/
theorem Message.MessageKind.exists_read_of_sublist {k : MessageKind} {ms ns : Members}
    (hsub : ns.Sublist ms) {m : k.Flat} (h : k.schema.layout.read (.object ms) = .ok m) :
    ∃ n, k.schema.layout.read (.object ns) = .ok n := by
  obtain ⟨hnodup, hassign, -⟩ := Layout.read_object_eq_ok_iff.mp h
  have hknown : (Layout.known k.schema.layout.fields ns).Sublist
      (Layout.known k.schema.layout.fields ms) := hsub.filterMap _
  have hfree : ∀ p ∈ Layout.known k.schema.layout.fields ms, ∀ s t,
      p.1.read p.2 s = .ok t → ∀ s', ∃ t', p.1.read p.2 s' = .ok t' := by
    intro p hp s t hread s'
    obtain ⟨field, -, hdescribes⟩ := exists_field (Layout.of_mem_known hp).1
    obtain ⟨set, hset⟩ := hdescribes.read_eq
    rw [hset, Except.map_eq_ok_iff] at hread
    obtain ⟨a, ha, -⟩ := hread
    exact ⟨set a s', by rw [hset, ha, Except.ok_map]⟩
  obtain ⟨n, hn⟩ :=
    Layout.exists_assign_of_sublist hknown hfree hassign k.schema.layout.blank
  refine ⟨n, Layout.read_object_eq_ok_iff.mpr ⟨hnodup.sublist (hknown.map _), hn, ?_⟩⟩
  intro f hf hrequired
  rw [not_required f hf] at hrequired
  nomatch hrequired

theorem List.countP_contains_comm {as bs : List String} (has : as.Nodup) (hbs : bs.Nodup) :
    as.countP bs.contains = bs.countP as.contains := by
  have hperm : (as.filter bs.contains).Perm (bs.filter as.contains) :=
    (List.perm_ext_iff_of_nodup (has.filter _) (hbs.filter _)).mpr (by simp [and_comm])
  rw [List.countP_eq_length_filter, List.countP_eq_length_filter, hperm.length_eq]

namespace Compare

/-- The keys under which the operand may stand, in both spellings. -/
def operandKeys : List String :=
  ["version", "createRevision", "create_revision", "modRevision", "mod_revision", "value", "lease"]

def operandNames : List String := ["version", "createRevision", "modRevision", "value", "lease"]

/-- The value that a null stands for under the key of an operand. -/
def spellOut (key : String) : Json → Json
  | .null => if key = "value" then .string "" else if key ∈ operandKeys then .integer 0 else .null
  | v => v

def isNullOperand (m : String × Json) : Bool := operandKeys.contains m.1 && m.2 matches .null

/-- The members without the nulls under the keys of operands. -/
def withoutNulls (ms : Members) : Members := ms.filter (! isNullOperand ·)

namespace Flat

open Message.FieldSpec (json_plain json_spelled json_scalarArm)
open Json.FieldSpec (keys_ofCodec keys_arm)

/-- The arms that an operand may stand in, with whether they are set. -/
def arms (m : Flat) : List Bool :=
  [m.version.isSome, m.createRevision.isSome, m.modRevision.isSome, m.value.isSome,
    m.lease.isSome]

theorem length_operands (m : Flat) : m.operands.length = m.arms.countP id := by
  rw [operands, List.length_filterMap_eq_countP]
  simp [arms, List.countP_cons]

theorem collapse_of_length_lt_two {m : Flat} (h : m.operands.length < 2) :
    m.collapse = .ok ⟨m.result, m.target, m.key, m.operands.head?, m.rangeEnd⟩ := by
  match hoperands : m.operands with
  | [] => rw [collapse, hoperands, List.head?_nil]
  | [operand] => rw [collapse, hoperands, List.head?_singleton]
  | _ :: _ :: _ =>
      rw [hoperands, List.length_cons, List.length_cons] at h
      omega

theorem collapse_of_two_le_length {m : Flat} (h : 2 ≤ m.operands.length) :
    m.collapse = .error (.tooManyArms "compare" "target value") := by
  match hoperands : m.operands with
  | [] => simp [hoperands] at h
  | [operand] => simp [hoperands] at h
  | _ :: _ :: _ => rw [collapse, hoperands]

/-- A field of an arm sets it, and every other field leaves the arms as they are. -/
theorem arms_of_read {f : Json.FieldSpec Flat} (hf : f ∈ schema.layout.fields) {v : Json}
    {s t : Flat} (h : f.read v s = .ok t) :
    t.arms = s.arms.zipWith (fun isSet name => isSet || name == f.name) operandNames := by
  simp only [schema, Message.Schema.layout, List.map_cons, List.map_nil, List.mem_cons,
    List.not_mem_nil, or_false] at hf
  rcases hf with rfl | rfl | rfl | rfl | rfl | rfl | rfl | rfl | rfl
  all_goals
    obtain ⟨a, ha, rfl⟩ := Except.map_eq_ok_iff.mp h
    try obtain ⟨b, hb, rfl⟩ := Except.map_eq_ok_iff.mp ha
    simp [arms, operandNames, numberArm, bytesArm]

theorem arms_of_assign {found : List (Json.FieldSpec Flat × Json)} {s t : Flat}
    (hfound : ∀ p ∈ found, p.1 ∈ schema.layout.fields) (h : Layout.assign found s = .ok t) :
    t.arms = s.arms.zipWith (fun isSet name => isSet || (Layout.names found).contains name)
      operandNames := by
  induction found generalizing s with
  | nil =>
      obtain rfl : s = t := Except.ok.inj h
      simp [arms, operandNames, Layout.names]
  | cons p rest ih =>
      rw [List.forall_mem_cons] at hfound
      rw [Layout.assign_cons, Except.bind_eq_ok_iff] at h
      obtain ⟨s', hread, h⟩ := h
      have hnames : Layout.names (p :: rest) = p.1.name :: Layout.names rest := rfl
      rw [ih hfound.2 h, arms_of_read hfound.1 hread, hnames]
      simp only [arms, operandNames, List.zipWith, List.contains_cons, Bool.or_assoc]

/-- The fields of arms are the ones that answer to the keys of operands. -/
theorem countP_known (ms : Members) :
    (Layout.names (Layout.known schema.layout.fields ms)).countP operandNames.contains =
      ms.countP fun m => operandKeys.contains m.1 := by
  have hsome : ∀ f ∈ schema.layout.fields, ∀ key ∈ f.keys,
      operandNames.contains f.name = operandKeys.contains key := by decide
  have hnone : ∀ key ∈ operandKeys, ∃ f ∈ schema.layout.fields, key ∈ f.keys := by decide
  induction ms with
  | nil => rfl
  | cons m ms ih =>
      obtain ⟨key, v⟩ := m
      rw [List.countP_cons, ← ih]
      cases hfind : schema.layout.fields.find? (·.answersTo key) with
      | none =>
          have hkey : key ∉ operandKeys := by
            intro hkey
            obtain ⟨f, hf, hanswers⟩ := hnone key hkey
            exact List.find?_eq_none.mp hfind f hf (Json.FieldSpec.answersTo_iff.mpr hanswers)
          rw [Layout.known_cons_of_find?_none hfind]
          simp [hkey]
      | some f =>
          have hf := List.mem_of_find?_eq_some hfind
          have hkey := Json.FieldSpec.answersTo_iff.mp (by simpa using List.find?_some hfind)
          rw [Layout.known_cons_of_find? hfind, Layout.names, List.map_cons, List.countP_cons,
            hsome f hf key hkey]
          rfl

theorem length_operands_of_read {ms : Members} {m : Flat}
    (h : schema.layout.read (.object ms) = .ok m) :
    m.operands.length = ms.countP fun m => operandKeys.contains m.1 := by
  obtain ⟨hnodup, hassign, -⟩ := Layout.read_object_eq_ok_iff.mp h
  have harms := arms_of_assign (fun p hp => (Layout.of_mem_known hp).1) hassign
  rw [length_operands, harms, ← countP_known, List.countP_contains_comm hnodup (by decide)]
  simp [arms, schema, operandNames, List.countP_cons]

/-- A field reads a null as the value that is spelled out for it. -/
theorem read_spellOut {f : Json.FieldSpec Flat} (hf : f ∈ schema.layout.fields) {key : String}
    (hkey : key ∈ f.keys) (v : Json) (s : Flat) : f.read (spellOut key v) s = f.read v s := by
  cases v with
  | null =>
      simp only [schema, Message.Schema.layout, List.map_cons, List.map_nil, List.mem_cons,
        List.not_mem_nil, or_false] at hf
      rcases hf with rfl | rfl | rfl | rfl | rfl | rfl | rfl | rfl | rfl
      all_goals
        simp only [numberArm, bytesArm, json_plain, json_spelled, json_scalarArm, keys_ofCodec,
          keys_arm, Option.toList_none, Option.toList_some, List.mem_cons, List.not_mem_nil,
          or_false] at hkey
        first
          | obtain rfl := hkey
            rfl
          | obtain rfl | rfl := hkey <;> rfl
  | _ => rfl

end Flat

theorem length_operand_of_read {ms : Members} {c : Compare}
    (h : format.read (.object ms) = .ok c) :
    c.operand.toList.length = ms.countP fun m => operandKeys.contains m.1 := by
  obtain ⟨m, hread, hcollapse⟩ := Except.bind_eq_ok_iff.mp h
  rw [← Flat.length_operands_of_read hread]
  by_cases hfew : m.operands.length < 2
  · rw [Flat.collapse_of_length_lt_two hfew] at hcollapse
    obtain rfl := Except.ok.inj hcollapse
    change m.operands.head?.toList.length = m.operands.length
    rw [← List.take_one, List.length_take]
    omega
  · rw [Flat.collapse_of_two_le_length (by omega)] at hcollapse
    nomatch hcollapse

/-- Without its nulls an object that is read is still read. -/
theorem exists_read_withoutNulls {ms : Members} {d : Compare}
    (h : format.read (.object ms) = .ok d) :
    ∃ c, format.read (.object (withoutNulls ms)) = .ok c := by
  have hcount := length_operand_of_read h
  have hone : d.operand.toList.length ≤ 1 := by cases d.operand <;> simp
  have hsub : (withoutNulls ms).Sublist ms := List.filter_sublist
  obtain ⟨m, hread, -⟩ := Except.bind_eq_ok_iff.mp h
  obtain ⟨n, hn⟩ := @Message.MessageKind.exists_read_of_sublist .compare _ _ hsub m hread
  have hfew : n.operands.length < 2 := by
    have hle := hsub.countP_le (p := fun m => operandKeys.contains m.1)
    rw [Flat.length_operands_of_read hn]
    omega
  exact ⟨_, Except.bind_eq_ok_iff.mpr ⟨n, hn, Flat.collapse_of_length_lt_two hfew⟩⟩

/-- Nothing can be left out of what is read as the same comparison without it. -/
theorem withoutNulls_eq_self {ms : Members} {c : Compare} (h : format.read (.object ms) = .ok c)
    (hwithout : format.read (.object (withoutNulls ms)) = .ok c) : withoutNulls ms = ms := by
  have hkept := (length_operand_of_read h).symm.trans (length_operand_of_read hwithout)
  rw [List.countP_eq_countP_filter_add ms _ (! isNullOperand ·)] at hkept
  have hdropped := List.countP_eq_zero.mp (Nat.left_eq_add.mp hkept.symm)
  rw [withoutNulls, List.filter_eq_self]
  intro m hm
  by_contra hnull
  have hnull : isNullOperand m = true := by simpa using hnull
  have hkey : operandKeys.contains m.1 = true := (Bool.and_eq_true_iff.mp hnull).1
  exact hdropped m (List.mem_filter.mpr ⟨hm, by simpa using hnull⟩) hkey

theorem read_object_map_spellOut (ms : Members) :
    format.read (.object (ms.map fun m => (m.1, spellOut m.1 m.2))) =
      format.read (.object ms) := by
  have hmembers := Layout.readMembers_map spellOut fun key f hfind v s =>
    Flat.read_spellOut (List.mem_of_find?_eq_some hfind)
      (Json.FieldSpec.answersTo_iff.mp (by simpa using List.find?_some hfind)) v s
  have hread : Flat.schema.layout.read (.object (ms.map fun m => (m.1, spellOut m.1 m.2))) =
      Flat.schema.layout.read (.object ms) := by
    rw [Layout.read, Layout.read, hmembers]
  exact congrArg (· >>= Flat.collapse) hread

/-- A null under the key of an operand sets it, to zero or to no bytes, and counts where only one
may be set. So an object is read as it is without such nulls only if it has none, or if without them
it is not read at all; and where both are read, the bytes differ too. -/
theorem operand_of_null (ms : Members) :
    format.read (.object (ms.map fun m => (m.1, spellOut m.1 m.2))) =
      format.read (.object ms) ∧
    (∀ c, format.read (.object ms) = .ok c → (c.operand = none ↔ ∀ m ∈ ms, m.1 ∉ operandKeys)) ∧
    (∀ m, Flat.schema.layout.read (.object ms) = .ok m →
      (format.read (.object ms) = .error (.tooManyArms "compare" "target value") ↔
        2 ≤ ms.countP fun m => operandKeys.contains m.1)) ∧
    ((∀ c, format.read (.object ms) = .ok c ↔ format.read (.object (withoutNulls ms)) = .ok c) ↔
      withoutNulls ms = ms ∨ ∀ c, format.read (.object (withoutNulls ms)) ≠ .ok c) ∧
    ∀ c d, format.read (.object (withoutNulls ms)) = .ok c → format.read (.object ms) = .ok d →
      format.encode d = format.encode c → withoutNulls ms = ms := by
  refine ⟨read_object_map_spellOut ms, fun c h => ?_, fun m h => ?_, ⟨fun hsame => ?_, ?_⟩, ?_⟩
  · have hnone : c.operand = none ↔ c.operand.toList.length = 0 := by
      cases c.operand <;> simp
    rw [hnone, length_operand_of_read h, List.countP_eq_zero]
    simp
  · change (Flat.schema.layout.read (.object ms) >>= Flat.collapse) = _ ↔ _
    rw [h, Except.ok_bind, ← Flat.length_operands_of_read h]
    refine ⟨fun hmany => ?_, Flat.collapse_of_two_le_length⟩
    by_contra hfew
    rw [Flat.collapse_of_length_lt_two (by omega)] at hmany
    nomatch hmany
  · apply or_iff_not_imp_right.mpr
    intro hread
    obtain ⟨c, hc⟩ := not_forall_not.mp hread
    exact withoutNulls_eq_self ((hsame c).mpr hc) hc
  · rintro (hsame | hunread) c
    · rw [hsame]
    · constructor
      · intro h
        obtain ⟨c', hc'⟩ := exists_read_withoutNulls h
        exact absurd hc' (hunread c')
      · exact fun h => absurd h (hunread c)
  · intro c d hwithout hread hbytes
    obtain rfl := format_faithful hbytes
    exact withoutNulls_eq_self hread hwithout

theorem operand_of_null_modRevision :
    let blank : Compare := ⟨0, 0, [], none, []⟩
    let zero : Compare := ⟨0, 0, [], some (.modRevision 0), []⟩
    format.read (.object [("mod_revision", .null)]) = .ok zero ∧
      format.encode zero ≠ format.encode blank ∧
      format.read (.object [("mod_revision", .null), ("version", .integer 5)]) =
        .error (.tooManyArms "compare" "target value") := by
  intro blank zero
  have hzero : format.read (.object [("mod_revision", .null)]) = .ok zero := rfl
  have hblank : format.read (.object []) = .ok blank := rfl
  obtain ⟨-, -, -, -, hbytes⟩ := operand_of_null [("mod_revision", .null)]
  have hflat : Flat.schema.layout.read
      (.object [("mod_revision", .null), ("version", .integer 5)]) =
        .ok ⟨0, 0, [], some 5, none, some 0, none, none, []⟩ := rfl
  obtain ⟨-, -, hmany, -⟩ := operand_of_null [("mod_revision", .null), ("version", .integer 5)]
  exact ⟨hzero, (fun h => nomatch hbytes blank zero hblank hzero h),
    (hmany _ hflat).mpr (by decide)⟩

/-- A null under the key of an operand is not the same as no operand. -/
theorem read_null_version :
    format.read (.object [("key", .string "YQ=="), ("version", .null)]) =
        .ok ⟨0, 0, [97], some (.version 0), []⟩ ∧
      format.read (.object [("key", .string "YQ==")]) = .ok ⟨0, 0, [97], none, []⟩ :=
  ⟨rfl, rfl⟩

end Compare

end LedgerAudit
