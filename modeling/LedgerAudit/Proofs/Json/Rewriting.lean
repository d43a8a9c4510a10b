import LedgerAudit.Proofs.Json.Codec

/-!
# Changes that a reader does not see

A layout that reads an object reads the same record from it after its members are moved, a key is
written in the other spelling, a member that no field answers to comes or goes, or a null that
stands for what the record starts with comes or goes. An element of a list, and a value that may
be missing, can be replaced by one that is read alike.
-/

namespace LedgerAudit.Json

namespace Codec

variable {α : Type} {c : Codec α} {v w : Json}

/-- What the codec reads from the first value it reads from the second too. -/
def Keeps (c : Codec α) (v w : Json) : Prop := ∀ a, c.read v = .ok a → c.read w = .ok a

theorem optional_read_of_ne_null (h : v ≠ .null) : c.optional.read v = (c.read v).map some := by
  cases v <;> first | rfl | exact absurd rfl h

theorem Keeps.optional (h : c.Keeps v w) (hv : v ≠ .null) (hw : w ≠ .null) :
    c.optional.Keeps v w := by
  intro a hread
  rw [optional_read_of_ne_null hv, Except.map_eq_ok_iff] at hread
  rw [optional_read_of_ne_null hw, Except.map_eq_ok_iff]
  exact hread.imp fun m hm => ⟨h m hm.1, hm.2⟩

/-- An element of a list is read, and any value that is read alike may take its place. -/
theorem mapM_read_at {as : List α} {vs : List Json} {i : Nat} {v : Json} (hv : vs[i]? = some v)
    (h : vs.mapM c.read = .ok as) :
    ∃ a, c.read v = .ok a ∧ ∀ w, c.read w = .ok a → (vs.set i w).mapM c.read = .ok as := by
  simp only [mapM_read_eq_ok_iff] at h ⊢
  induction h generalizing i with
  | nil => simp at hv
  | @cons u a vs as hu hrest ih =>
      cases i with
      | zero =>
          obtain rfl : u = v := by simpa using hv
          exact ⟨a, hu, fun w hw => .cons hw hrest⟩
      | succ i =>
          obtain ⟨b, hb, hset⟩ := ih (by simpa using hv)
          exact ⟨b, hb, fun w hw => .cons hu (hset w hw)⟩

theorem Keeps.item (h : c.Keeps v w) {vs : List Json} {i : Nat} (hv : vs[i]? = some v) :
    c.list.Keeps (.array vs) (.array (vs.set i w)) := by
  intro as hread
  obtain ⟨a, ha, hset⟩ := mapM_read_at hv hread
  exact hset w (h a ha)

end Codec

namespace Layout

variable {σ : Type} {l : Layout σ} {f : FieldSpec σ} {ms : Members} {key key' : String}
  {v w : Json}

def Keeps (l : Layout σ) (v w : Json) : Prop := ∀ t, l.read v = .ok t → l.read w = .ok t

/-- A member that no field answers to may come or go. -/
theorem read_object_cons_of_unknown (h : ∀ f ∈ l.fields, key ∉ f.keys) {t : σ} :
    l.read (.object ((key, v) :: ms)) = .ok t ↔ l.read (.object ms) = .ok t := by
  rw [read_object_eq_ok_iff, read_object_eq_ok_iff,
    known_cons_of_find?_none (FieldSpec.find?_answersTo_eq_none h)]

namespace Lawful

variable (hl : l.Lawful) (hf : f ∈ l.fields)
include hl hf

theorem known_cons (hkey : key ∈ f.keys) :
    known l.fields ((key, v) :: ms) = (f, v) :: known l.fields ms :=
  known_cons_of_find? (FieldSpec.find?_answersTo_eq_some hl.keys_nodup hf hkey)

theorem eq_of_name_eq {g : FieldSpec σ} (hg : g ∈ l.fields) (h : f.name = g.name) : f = g := by
  have hfind := FieldSpec.find?_answersTo_eq_some hl.keys_nodup hf List.mem_cons_self
  rw [h, FieldSpec.find?_answersTo_eq_some hl.keys_nodup hg List.mem_cons_self] at hfind
  exact (Option.some.inj hfind).symm

theorem keeps_member (hkey : key ∈ f.keys)
    (h : ∀ s t, f.read v s = .ok t → f.read w s = .ok t) :
    l.Keeps (.object ((key, v) :: ms)) (.object ((key, w) :: ms)) := by
  intro t
  simp only [read_object_eq_ok_iff, hl.known_cons hf hkey, assign_cons, Except.bind_eq_ok_iff]
  rintro ⟨hnodup, ⟨s, hread, hassign⟩, hrequired⟩
  exact ⟨hnodup, ⟨s, h _ _ hread, hassign⟩, hrequired⟩

theorem keeps_rename (hkey : key ∈ f.keys) (hkey' : key' ∈ f.keys) :
    l.Keeps (.object ((key, v) :: ms)) (.object ((key', v) :: ms)) := by
  intro t
  simp only [read_object_eq_ok_iff, hl.known_cons hf hkey, hl.known_cons hf hkey']
  exact id

section Null

variable (hrequired : ∀ g ∈ l.fields, g.required = false)
  (hnull : f.read .null l.blank = .ok l.blank) (hkey : key ∈ f.keys)
include hrequired hnull hkey

/-- A null that changes nothing at the start may be left out. -/
theorem keeps_omit : l.Keeps (.object ((key, .null) :: ms)) (.object ms) := by
  intro t
  simp only [read_object_eq_ok_iff, hl.known_cons hf hkey, assign_cons, hnull, Except.ok_bind]
  rintro ⟨hnodup, hassign, -⟩
  refine ⟨(List.nodup_cons.mp hnodup).2, hassign, fun g hg hg' => ?_⟩
  simp [hrequired g hg] at hg'

/-- A null that changes nothing at the start may be put in when no spelling of its key is there. -/
theorem keeps_supply (habsent : ∀ m ∈ ms, m.1 ∉ f.keys) :
    l.Keeps (.object ms) (.object ((key, .null) :: ms)) := by
  intro t
  simp only [read_object_eq_ok_iff, hl.known_cons hf hkey, assign_cons, hnull, Except.ok_bind]
  rintro ⟨hnodup, hassign, -⟩
  refine ⟨List.nodup_cons.mpr ⟨fun hmem => ?_, hnodup⟩, hassign, fun g hg hg' => ?_⟩
  · obtain ⟨p, hp, hname⟩ := List.mem_map.mp hmem
    obtain ⟨hfield, other, hother, hmember⟩ := of_mem_known hp
    obtain rfl := hl.eq_of_name_eq hfield hf hname
    exact habsent _ hmember hother
  · simp [hrequired g hg] at hg'

end Null

theorem exists_read_eq_ok {t : σ} (hkey : key ∈ f.keys) (hv : (key, v) ∈ ms)
    (h : l.read (.object ms) = .ok t) : ∃ s s', f.read v s = .ok s' := by
  obtain ⟨pre, post, rfl⟩ := List.append_of_mem hv
  have hfront := hl.read_perm List.perm_middle h
  rw [read_object_eq_ok_iff, hl.known_cons hf hkey, assign_cons, Except.bind_eq_ok_iff] at hfront
  obtain ⟨-, ⟨s, hread, -⟩, -⟩ := hfront
  exact ⟨l.blank, s, hread⟩

/-- An object with both spellings of a field is not read. -/
theorem read_ne_ok_of_both {t : σ} (hkey : key ∈ f.keys) (hkey' : key' ∈ f.keys)
    (hne : key ≠ key') (hv : (key, v) ∈ ms) (hw : (key', w) ∈ ms) :
    l.read (.object ms) ≠ .ok t := by
  intro h
  -- with both members at the front, the field is named by the first and by the second
  obtain ⟨pre, post, rfl⟩ := List.append_of_mem hv
  have hw : (key', w) ∈ pre ++ post := by
    simpa [hne.symm] using hw
  obtain ⟨pre', post', hsplit⟩ := List.append_of_mem hw
  have hrest : (pre ++ post).Perm ((key', w) :: (pre' ++ post')) := hsplit ▸ List.perm_middle
  have hfront := hl.read_perm (List.perm_middle.trans (hrest.cons (key, v))) h
  rw [read_object_eq_ok_iff, hl.known_cons hf hkey, hl.known_cons hf hkey'] at hfront
  have hfresh := (List.nodup_cons.mp hfront.1).1
  exact hfresh List.mem_cons_self

end Lawful

/-- The element at the place of a field is read by it, and any value that is read alike may take
its place. -/
theorem readElements_at {fields : List (FieldSpec σ)} {title : String}
    {total count position : Nat} {vs : List Json} {i : Nat} {s t : σ} (hf : fields[i]? = some f)
    (hv : vs[i]? = some v)
    (hread : readElements title total count position fields vs s = .ok t) :
    ∃ s₁ s₂, f.read v s₁ = .ok s₂ ∧ ∀ w, f.read w s₁ = .ok s₂ →
      readElements title total count position fields (vs.set i w) s = .ok t := by
  induction fields generalizing vs i position s with
  | nil => simp at hf
  | cons g fields ih =>
      cases vs with
      | nil => simp at hv
      | cons u vs =>
          rw [readElements, Except.bind_eq_ok_iff] at hread
          obtain ⟨s', hu, hrest⟩ := hread
          cases i with
          | zero =>
              obtain rfl : g = f := by simpa using hf
              obtain rfl : u = v := by simpa using hv
              refine ⟨s, s', hu, fun w hw => ?_⟩
              rw [List.set_cons_zero, readElements, hw]
              exact hrest
          | succ i =>
              obtain ⟨s₁, s₂, hread, hset⟩ := ih (by simpa using hf) (by simpa using hv) hrest
              refine ⟨s₁, s₂, hread, fun w hw => ?_⟩
              rw [List.set_cons_succ, readElements, hu]
              exact hset w hw

theorem keeps_element {vs : List Json} {i : Nat} (hf : l.fields[i]? = some f)
    (hv : vs[i]? = some v) (h : ∀ s t, f.read v s = .ok t → f.read w s = .ok t) :
    l.Keeps (.array vs) (.array (vs.set i w)) := by
  intro t hread
  obtain ⟨s₁, s₂, hread, hset⟩ := readElements_at hf hv hread
  rw [read, List.length_set]
  exact hset w (h _ _ hread)

end Layout

end LedgerAudit.Json
