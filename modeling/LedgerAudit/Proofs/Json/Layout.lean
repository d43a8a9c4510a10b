import LedgerAudit.Json.Record
import LedgerAudit.Proofs.Basic
import LedgerAudit.Proofs.Json.Sorted
import Mathlib.Data.List.Nodup
import Mathlib.Data.List.Pairwise

/-!
# Objects read by layout

Reading an object keeps the members that name a field. It succeeds exactly when no field is named
twice, every such member is read by its field, and no required field is missing. Where the fields
of a layout can be read in any order, the order of the members does not matter.
-/

namespace LedgerAudit.Json

variable {σ α β : Type}

namespace FieldSpec

variable {f g : FieldSpec σ} {fields : List (FieldSpec σ)} {key : String}

def keys (f : FieldSpec σ) : List String := f.name :: f.alternate.toList

theorem answersTo_iff : f.answersTo key = true ↔ key ∈ f.keys := by
  simp [answersTo, keys, Option.mem_toList]

theorem find?_answersTo_eq_some (hkeys : (fields.flatMap keys).Nodup) (hf : f ∈ fields)
    (hkey : key ∈ f.keys) : fields.find? (·.answersTo key) = some f := by
  induction fields with
  | nil => simp at hf
  | cons g fields ih =>
      rw [List.flatMap_cons, List.nodup_append] at hkeys
      obtain ⟨-, hrest, hdisjoint⟩ := hkeys
      rcases List.mem_cons.mp hf with rfl | hf
      · exact List.find?_cons_of_pos (answersTo_iff.mpr hkey)
      · have hmem : key ∈ fields.flatMap keys := List.mem_flatMap.mpr ⟨f, hf, hkey⟩
        rw [List.find?_cons_of_neg (by
          rw [answersTo_iff]
          exact fun h => hdisjoint key h key hmem rfl)]
        exact ih hrest hf

theorem find?_answersTo_eq_none (h : ∀ f ∈ fields, key ∉ f.keys) :
    fields.find? (·.answersTo key) = none := by
  rw [List.find?_eq_none]
  intro f hf
  rw [answersTo_iff]
  exact h f hf

/-- Reads back, with its members sorted, what a field writes of `m`. A field that is left out keeps
what is there. -/
def restore (f : FieldSpec σ) (m s : σ) : Except Fault σ :=
  match f.write m with
  | none => .ok s
  | some v => f.read v.sorted s

/-- Two fields that may be read in either order. -/
def Independent (f g : FieldSpec σ) : Prop :=
  ∀ v w s t, (f.read v s >>= g.read w) = .ok t ↔ (g.read w s >>= f.read v) = .ok t

instance : Std.Symm (Independent (σ := σ)) := ⟨fun _ _ h v w s t => (h w v s t).symm⟩

theorem Independent.of_commute {read : Json → Except Fault α} {other : Json → Except Fault β}
    {set : α → σ → σ} {put : β → σ → σ} (hf : ∀ v s, f.read v s = (read v).map (set · s))
    (hg : ∀ v s, g.read v s = (other v).map (put · s))
    (hcommute : ∀ a b s, set a (put b s) = put b (set a s)) : Independent f g := by
  intro v w s t
  cases hread : read v <;> cases hother : other w <;> simp [hf, hg, hread, hother, hcommute]

end FieldSpec

namespace Layout

variable {fields : List (FieldSpec σ)} {f : FieldSpec σ} {ms ns : Members} {s t : σ}

/-- The members that name a field, with the field. -/
def known (fields : List (FieldSpec σ)) (ms : Members) : List (FieldSpec σ × Json) :=
  ms.filterMap fun m => (fields.find? (·.answersTo m.1)).map (·, m.2)

def names (found : List (FieldSpec σ × Json)) : List String := found.map (·.1.name)

/-- Reads every member with its field, one after the other. -/
def assign (found : List (FieldSpec σ × Json)) (s : σ) : Except Fault σ :=
  found.foldlM (fun s p => p.1.read p.2 s) s

/-- The fields that are written, with their values sorted. -/
def parts (fields : List (FieldSpec σ)) (m : σ) : List (FieldSpec σ × Json) :=
  fields.filterMap fun f => (f.write m).map fun v => (f, v.sorted)

@[simp] theorem assign_nil (s : σ) : assign [] s = .ok s := rfl

theorem assign_cons {p : FieldSpec σ × Json} {rest : List (FieldSpec σ × Json)} :
    assign (p :: rest) s = p.1.read p.2 s >>= assign rest := by
  rw [assign, List.foldlM_cons]
  rfl

theorem known_cons_of_find? {key : String} {v : Json}
    (h : fields.find? (·.answersTo key) = some f) :
    known fields ((key, v) :: ms) = (f, v) :: known fields ms := by
  simp [known, h]

theorem known_cons_of_find?_none {key : String} {v : Json}
    (h : fields.find? (·.answersTo key) = none) :
    known fields ((key, v) :: ms) = known fields ms := by
  simp [known, h]

theorem readMembers_eq_ok_iff {seen out : List String} :
    readMembers fields ms seen s = .ok (t, out) ↔
      (names (known fields ms)).Nodup ∧ (names (known fields ms)).Disjoint seen ∧
        assign (known fields ms) s = .ok t ∧ out = (names (known fields ms)).reverse ++ seen := by
  -- what is seen grows with every member, and stays apart from the names still to come
  induction ms generalizing seen s with
  | nil => simp [readMembers, known, names, eq_comm]
  | cons m ms ih =>
      obtain ⟨key, v⟩ := m
      rw [readMembers]
      cases hfind : fields.find? (·.answersTo key) with
      | none =>
          rw [known_cons_of_find?_none hfind]
          exact ih
      | some f =>
          rw [known_cons_of_find? hfind, assign_cons, names, List.map_cons]
          change (if seen.contains f.name then _ else _) = _ ↔ (f.name :: names _).Nodup ∧
            List.Disjoint (f.name :: names _) seen ∧ _ ∧ out = (f.name :: names _).reverse ++ seen
          rw [List.nodup_cons, List.disjoint_cons_left, List.reverse_cons, List.append_assoc]
          by_cases hseen : f.name ∈ seen
          · simp [hseen]
          · rw [if_neg (by simpa using hseen)]
            simp only [Except.bind_eq_ok_iff, ih, List.disjoint_cons_right]
            constructor
            · rintro ⟨s', hread, hnodup, ⟨hfresh, hdisjoint⟩, hassign, rfl⟩
              exact ⟨⟨hfresh, hnodup⟩, ⟨hseen, hdisjoint⟩, ⟨s', hread, hassign⟩, rfl⟩
            · rintro ⟨⟨hfresh, hnodup⟩, ⟨-, hdisjoint⟩, ⟨s', hread, hassign⟩, rfl⟩
              exact ⟨s', hread, hnodup, ⟨hfresh, hdisjoint⟩, hassign, rfl⟩

/-- Whatever values go with them, fields keep the order of their names. -/
theorem names_filterMap_sublist (value : FieldSpec σ → Option Json) :
    (names (fields.filterMap fun f => (value f).map (f, ·))).Sublist
      (fields.map FieldSpec.name) := by
  induction fields with
  | nil => exact .slnil
  | cons f fields ih =>
      cases hvalue : value f with
      | none => simpa [names, hvalue] using ih.cons f.name
      | some v => simpa [names, hvalue] using ih

variable {l : Layout σ}

theorem missing?_eq_none_iff {seen : List String} :
    missing? fields seen = none ↔ ∀ f ∈ fields, f.required = true → f.name ∈ seen := by
  simp [missing?]

theorem read_object_eq_ok_iff_readMembers :
    l.read (.object ms) = .ok t ↔
      ∃ seen, readMembers l.fields ms [] l.blank = .ok (t, seen) ∧
        missing? l.fields seen = none := by
  rw [read, Except.bind_eq_ok_iff]
  constructor
  · rintro ⟨⟨s, seen⟩, hread, h⟩
    cases hmissing : missing? l.fields seen with
    | some name => simp [hmissing] at h
    | none =>
        obtain rfl : s = t := by simpa [hmissing] using h
        exact ⟨seen, hread, hmissing⟩
  · rintro ⟨seen, hread, hmissing⟩
    exact ⟨(t, seen), hread, by simp [hmissing]⟩

/-- An object is read exactly when no field is named twice, every member of a field is read by it
and no required field is missing. -/
theorem read_object_eq_ok_iff :
    l.read (.object ms) = .ok t ↔
      (names (known l.fields ms)).Nodup ∧ assign (known l.fields ms) l.blank = .ok t ∧
        ∀ f ∈ l.fields, f.required = true → f.name ∈ names (known l.fields ms) := by
  simp only [read_object_eq_ok_iff_readMembers, readMembers_eq_ok_iff, missing?_eq_none_iff]
  constructor
  · rintro ⟨seen, ⟨hnodup, -, hassign, rfl⟩, hrequired⟩
    exact ⟨hnodup, hassign, fun f hf hf' => by simpa using hrequired f hf hf'⟩
  · rintro ⟨hnodup, hassign, hrequired⟩
    exact ⟨_, ⟨hnodup, by simp, hassign, rfl⟩, fun f hf hf' => by simpa using hrequired f hf hf'⟩

/-- A layout whose fields have spellings of their own and can be read in any order. -/
structure Lawful (l : Layout σ) : Prop where
  keys_nodup : (l.fields.flatMap FieldSpec.keys).Nodup
  independent : l.fields.Pairwise FieldSpec.Independent

theorem of_mem_known {p : FieldSpec σ × Json} (h : p ∈ known fields ms) :
    p.1 ∈ fields ∧ ∃ key ∈ p.1.keys, (key, p.2) ∈ ms := by
  obtain ⟨⟨key, v⟩, hmem, hfind⟩ := List.mem_filterMap.mp h
  obtain ⟨f, hf, rfl⟩ := Option.map_eq_some_iff.mp hfind
  exact ⟨List.mem_of_find?_eq_some hf, key,
    FieldSpec.answersTo_iff.mp (by simpa using List.find?_some hf), hmem⟩

theorem assign_perm {found others : List (FieldSpec σ × Json)} (h : found.Perm others)
    (hfound : found.Pairwise fun p q => p.1.Independent q.1) :
    assign found s = .ok t → assign others s = .ok t := by
  -- only a swap of two neighbours needs that they are independent
  induction h generalizing s with
  | nil => exact id
  | cons p _ ih =>
      rw [List.pairwise_cons] at hfound
      simp only [assign_cons, Except.bind_eq_ok_iff]
      rintro ⟨s', hread, hassign⟩
      exact ⟨s', hread, ih hfound.2 hassign⟩
  | swap p q found =>
      have hindependent := (List.pairwise_cons.mp hfound).1 p List.mem_cons_self
      simp only [assign_cons, Except.bind_eq_ok_iff]
      rintro ⟨s₁, hq, s₂, hp, hassign⟩
      have hboth : (q.1.read q.2 s >>= p.1.read p.2) = .ok s₂ :=
        Except.bind_eq_ok_iff.mpr ⟨s₁, hq, hp⟩
      rw [hindependent, Except.bind_eq_ok_iff] at hboth
      obtain ⟨s₃, hp, hq⟩ := hboth
      exact ⟨s₃, hp, s₂, hq, hassign⟩
  | trans hfirst _ ih₁ ih₂ =>
      intro hassign
      refine ih₂ ?_ (ih₁ hfound hassign)
      exact (hfirst.pairwise_iff fun h => symm_of FieldSpec.Independent h).mp hfound

namespace Lawful

variable (hl : l.Lawful)
include hl

theorem known_pairwise (h : (names (known l.fields ms)).Nodup) :
    (known l.fields ms).Pairwise fun p q => p.1.Independent q.1 := by
  have hdistinct : (known l.fields ms).Pairwise fun p q => p.1.name ≠ q.1.name :=
    List.pairwise_map.mp h
  refine hdistinct.imp_of_mem fun hp hq hne => ?_
  exact hl.independent.forall (of_mem_known hp).1 (of_mem_known hq).1
    fun heq => hne (congrArg FieldSpec.name heq)

/-- The order of the members does not matter. -/
theorem read_perm (h : ms.Perm ns) (hread : l.read (.object ms) = .ok t) :
    l.read (.object ns) = .ok t := by
  rw [read_object_eq_ok_iff] at hread ⊢
  obtain ⟨hnodup, hassign, hrequired⟩ := hread
  have hknown : (known l.fields ms).Perm (known l.fields ns) := h.filterMap _
  have hnames : (names (known l.fields ms)).Perm (names (known l.fields ns)) := hknown.map _
  refine ⟨hnames.nodup_iff.mp hnodup, assign_perm hknown (hl.known_pairwise hnodup) hassign, ?_⟩
  exact fun f hf hf' => hnames.mem_iff.mp (hrequired f hf hf')

theorem names_nodup : (l.fields.map FieldSpec.name).Nodup := by
  refine hl.keys_nodup.sublist ?_
  generalize l.fields = fields
  induction fields with
  | nil => exact .slnil
  | cons f fields ih =>
      have hname : [f.name].Sublist f.keys := List.singleton_sublist.mpr List.mem_cons_self
      rw [List.map_cons, List.flatMap_cons]
      exact hname.append ih

omit hl in
theorem names_parts_sublist {m : σ} :
    (names (parts fields m)).Sublist (fields.map FieldSpec.name) := by
  have hparts : parts fields m =
      fields.filterMap fun f => ((f.write m).map sorted).map (f, ·) := by
    simp [parts, Function.comp_def]
  rw [hparts]
  exact names_filterMap_sublist _

omit hl in
theorem assign_parts {m : σ} :
    assign (parts fields m) s = fields.foldlM (fun s f => f.restore m s) s := by
  induction fields generalizing s with
  | nil => rfl
  | cons f fields ih =>
      rw [List.foldlM_cons, FieldSpec.restore]
      cases hwrite : f.write m with
      | none => simpa [parts, hwrite] using ih
      | some v =>
          have hparts : parts (f :: fields) m = (f, v.sorted) :: parts fields m := by
            simp [parts, hwrite]
          rw [hparts, assign_cons]
          exact bind_congr fun s' => ih

theorem known_write {m : σ} :
    known l.fields ((parts l.fields m).map fun p => (p.1.name, p.2)) = parts l.fields m := by
  have hfind : ∀ p ∈ parts l.fields m, l.fields.find? (·.answersTo p.1.name) = some p.1 := by
    intro p hp
    obtain ⟨f, hf, hwrite⟩ := List.mem_filterMap.mp hp
    obtain ⟨v, -, rfl⟩ := Option.map_eq_some_iff.mp hwrite
    exact FieldSpec.find?_answersTo_eq_some hl.keys_nodup hf List.mem_cons_self
  generalize parts l.fields m = found at hfind ⊢
  induction found with
  | nil => rfl
  | cons p rest ih =>
      rw [List.forall_mem_cons] at hfind
      rw [List.map_cons, known_cons_of_find? hfind.1, ih hfind.2]

/-- What is written and sorted has the members of the fields, in some order. -/
theorem sorted_write_perm (m : σ) :
    ∃ ms : Members, (l.write m).sorted = .object ms ∧
      ms.Perm ((parts l.fields m).map fun p => (p.1.name, p.2)) := by
  have hmembers : (l.fields.filterMap fun f => (f.write m).map fun v => (f.name, v)).map
      (fun p => (p.1, p.2.sorted)) = (parts l.fields m).map fun p => (p.1.name, p.2) := by
    simp [parts, List.map_filterMap, Function.comp_def]
  have hkeys := congrArg Members.keys hmembers
  rw [← hmembers]
  apply sorted_object_perm
  have hnodup : (names (parts l.fields m)).Nodup := hl.names_nodup.sublist names_parts_sublist
  simp only [Members.keys, names, List.map_map, Function.comp_def] at hkeys hnodup ⊢
  rwa [hkeys]

/-- Reading back what was written is reading back every field in turn. -/
theorem read_sorted_write_eq_ok_iff {m : σ}
    (hrequired : ∀ f ∈ l.fields, f.required = true → f.write m ≠ none) :
    l.read (l.write m).sorted = .ok t ↔
      l.fields.foldlM (fun s f => f.restore m s) l.blank = .ok t := by
  obtain ⟨ms, hsorted, hperm⟩ := hl.sorted_write_perm m
  rw [hsorted, ← assign_parts]
  have hread : l.read (.object ms) = .ok t ↔
      l.read (.object ((parts l.fields m).map fun p => (p.1.name, p.2))) = .ok t :=
    ⟨hl.read_perm hperm, hl.read_perm hperm.symm⟩
  rw [hread, read_object_eq_ok_iff, hl.known_write]
  refine ⟨fun h => h.2.1, fun h => ⟨hl.names_nodup.sublist names_parts_sublist, h, ?_⟩⟩
  intro f hf hf'
  obtain ⟨v, hv⟩ := Option.ne_none_iff_exists'.mp (hrequired f hf hf')
  exact List.mem_map.mpr ⟨(f, v.sorted), List.mem_filterMap.mpr ⟨f, hf, by simp [hv]⟩, rfl⟩

end Lawful

end Layout

end LedgerAudit.Json
