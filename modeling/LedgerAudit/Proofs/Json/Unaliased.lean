import LedgerAudit.Proofs.Json.Layout

/-!
# Objects read field by field

Where every field of a layout has one spelling, and no key of an object comes twice, the object is
read by looking the fields up one after the other.
-/

namespace LedgerAudit.Json.Layout

variable {σ : Type} {fields : List (FieldSpec σ)} {l : Layout σ} {ms : Members} {t : σ}

/-- The fields whose names are keys of an object, with their members. -/
def found (fields : List (FieldSpec σ)) (ms : Members) : List (FieldSpec σ × Json) :=
  fields.filterMap fun f => (Members.find? ms f.name).map (f, ·)

theorem names_found_sublist : (names (found fields ms)).Sublist (fields.map FieldSpec.name) :=
  names_filterMap_sublist _

theorem mem_found_iff (hkeys : ms.keys.Nodup) {p : FieldSpec σ × Json} :
    p ∈ found fields ms ↔ p.1 ∈ fields ∧ (p.1.name, p.2) ∈ ms := by
  simp only [found, List.mem_filterMap, Option.map_eq_some_iff, Members.find?_eq_some_iff hkeys]
  constructor
  · rintro ⟨f, hf, v, hv, rfl⟩
    exact ⟨hf, hv⟩
  · rintro ⟨hf, hv⟩
    exact ⟨p.1, hf, p.2, hv, rfl⟩

theorem name_mem_names_found_iff (hkeys : ms.keys.Nodup) {f : FieldSpec σ} (hf : f ∈ fields) :
    f.name ∈ names (found fields ms) ↔ (Members.find? ms f.name).isSome := by
  simp only [Option.isSome_iff_exists, Members.find?_eq_some_iff hkeys]
  constructor
  · intro hname
    obtain ⟨p, hp, hsame⟩ := List.mem_map.mp hname
    exact ⟨p.2, hsame ▸ ((mem_found_iff hkeys).mp hp).2⟩
  · rintro ⟨v, hv⟩
    exact List.mem_map.mpr ⟨(f, v), (mem_found_iff hkeys).mpr ⟨hf, hv⟩, rfl⟩

section Unaliased

variable (hsingle : ∀ f ∈ fields, f.alternate = none)
include hsingle

theorem eq_name_of_mem_keys {f : FieldSpec σ} (hf : f ∈ fields) {key : String}
    (hkey : key ∈ f.keys) : key = f.name := by
  simpa [FieldSpec.keys, hsingle f hf] using hkey

theorem names_known_sublist : (names (known fields ms)).Sublist ms.keys := by
  induction ms with
  | nil => exact .slnil
  | cons m ms ih =>
      cases hfind : fields.find? (·.answersTo m.1) with
      | none =>
          rw [known_cons_of_find?_none hfind]
          exact ih.cons m.1
      | some f =>
          have hname : m.1 = f.name := by
            apply eq_name_of_mem_keys hsingle (List.mem_of_find?_eq_some hfind)
            exact FieldSpec.answersTo_iff.mp (by simpa using List.find?_some hfind)
          rw [known_cons_of_find? hfind]
          change (f.name :: names _).Sublist (m.1 :: Members.keys ms)
          rw [hname]
          exact ih.cons_cons f.name

end Unaliased

namespace Lawful

variable (hl : l.Lawful) (hsingle : ∀ f ∈ l.fields, f.alternate = none) (hkeys : ms.keys.Nodup)
include hl hsingle hkeys

theorem known_perm_found : (known l.fields ms).Perm (found l.fields ms) := by
  have hknown : (known l.fields ms).Nodup :=
    ((names_known_sublist hsingle).nodup hkeys).of_map
  have hfound : (found l.fields ms).Nodup := (names_found_sublist.nodup hl.names_nodup).of_map
  rw [List.perm_ext_iff_of_nodup hknown hfound]
  intro p
  rw [mem_found_iff hkeys]
  constructor
  · intro hp
    obtain ⟨hf, key, hkey, hmem⟩ := of_mem_known hp
    rw [eq_name_of_mem_keys hsingle hf hkey] at hmem
    exact ⟨hf, hmem⟩
  · rintro ⟨hf, hmem⟩
    have hfind := FieldSpec.find?_answersTo_eq_some hl.keys_nodup hf List.mem_cons_self
    apply List.mem_filterMap.mpr
    exact ⟨_, hmem, by rw [hfind]; rfl⟩

/-- The fields are looked up one by one, and those that are required have to be there. -/
theorem read_object_eq_ok_iff_found :
    l.read (.object ms) = .ok t ↔ assign (found l.fields ms) l.blank = .ok t ∧
      ∀ f ∈ l.fields, f.required = true → (Members.find? ms f.name).isSome := by
  have hperm := hl.known_perm_found hsingle hkeys
  have hnodup : (names (known l.fields ms)).Nodup := (names_known_sublist hsingle).nodup hkeys
  have hknown := hl.known_pairwise hnodup
  have hfound := (hperm.pairwise_iff fun h => symm_of FieldSpec.Independent h).mp hknown
  have hassign : assign (known l.fields ms) l.blank = .ok t ↔
      assign (found l.fields ms) l.blank = .ok t :=
    ⟨assign_perm hperm hknown, assign_perm hperm.symm hfound⟩
  have hnames (f : FieldSpec σ) (hf : f ∈ l.fields) :
      f.name ∈ names (known l.fields ms) ↔ (Members.find? ms f.name).isSome := by
    rw [← name_mem_names_found_iff hkeys hf]
    exact (hperm.map _).mem_iff
  rw [read_object_eq_ok_iff, hassign]
  constructor
  · rintro ⟨-, hread, hrequired⟩
    exact ⟨hread, fun f hf hf' => (hnames f hf).mp (hrequired f hf hf')⟩
  · rintro ⟨hread, hrequired⟩
    exact ⟨hnodup, hread, fun f hf hf' => (hnames f hf).mpr (hrequired f hf hf')⟩

end Lawful

end LedgerAudit.Json.Layout
