import LedgerAudit.Json.Record
import LedgerAudit.Proofs.Basic
import Mathlib.Data.List.Forall2

/-!
# Readers that agree on values of bounded height

A list or an object holds values of less height than its own, so readers of lists and objects
agree one level higher than the readers of what is in them.
-/

namespace LedgerAudit.Json

variable {σ α : Type} {n m : Nat}

theorem height_pos (v : Json) : 0 < v.height := by
  cases v <;> simp [height]

theorem height_lt_of_mem_items {v : Json} {items : List Json} (h : v ∈ items) :
    v.height < (array items).height := by
  rw [height, Nat.lt_succ_iff]
  exact List.le_of_mem_of_cons_eq_max heightOfItems.eq_2 h

theorem height_lt_of_mem_members {m : String × Json} {ms : Members} (h : m ∈ ms) :
    m.2.height < (object ms).height := by
  rw [height, Nat.lt_succ_iff]
  exact List.le_of_mem_of_cons_eq_max (fun m ms => heightOfMembers.eq_2 m.1 m.2 ms) h

/-- Two codecs that read values of less than a height alike. -/
def Codec.AlikeBelow (n : Nat) (c d : Codec α) : Prop := ∀ v, v.height < n → c.read v = d.read v

namespace Codec.AlikeBelow

variable {c d : Codec α}

theorem mono (h : c.AlikeBelow n d) (hle : m ≤ n) : c.AlikeBelow m d :=
  fun v hv => h v (Nat.lt_of_lt_of_le hv hle)

theorem optional (h : c.AlikeBelow n d) : c.optional.AlikeBelow n d.optional := by
  intro v hv
  cases v <;> simp only [Codec.optional, h _ hv]

theorem list (h : c.AlikeBelow n d) : c.list.AlikeBelow (n + 1) d.list := by
  intro v hv
  cases v with
  | array items =>
      have hitems : ∀ u ∈ items, c.read u = d.read u := by
        intro u hu
        have hlt := height_lt_of_mem_items hu
        exact h u (by omega)
      change items.mapM c.read = items.mapM d.read
      clear hv
      induction items with
      | nil => rfl
      | cons u items ih =>
          rw [List.forall_mem_cons] at hitems
          rw [List.mapM_cons, List.mapM_cons, hitems.1, ih hitems.2]
  | _ => rfl

end Codec.AlikeBelow

/-- Two fields with the same spellings that read values of less than a height alike. -/
structure FieldSpec.AlikeBelow (n : Nat) (f g : FieldSpec σ) : Prop where
  name_eq : f.name = g.name
  alternate_eq : f.alternate = g.alternate
  required_eq : f.required = g.required
  read_eq : ∀ v s, v.height < n → f.read v s = g.read v s

theorem FieldSpec.AlikeBelow.refl (f : FieldSpec σ) : f.AlikeBelow n f :=
  ⟨rfl, rfl, rfl, fun _ _ _ => rfl⟩

namespace Layout

variable {fields others : List (FieldSpec σ)}
  (h : List.Forall₂ (FieldSpec.AlikeBelow n) fields others)
include h

theorem find?_alike (key : String) :
    Option.Rel (FieldSpec.AlikeBelow n) (fields.find? (·.answersTo key))
      (others.find? (·.answersTo key)) := by
  induction h with
  | nil => exact .none
  | @cons f g fields others hfg _ ih =>
      have hanswers : f.answersTo key = g.answersTo key := by
        rw [FieldSpec.answersTo, FieldSpec.answersTo, hfg.name_eq, hfg.alternate_eq]
      rw [List.find?_cons, List.find?_cons, hanswers]
      cases g.answersTo key
      · exact ih
      · exact .some hfg

theorem readMembers_alike {ms : Members} (hms : ∀ m ∈ ms, m.2.height < n) (seen : List String)
    (s : σ) : readMembers fields ms seen s = readMembers others ms seen s := by
  induction ms generalizing seen s with
  | nil => rfl
  | cons m ms ih =>
      rw [List.forall_mem_cons] at hms
      have hfind := find?_alike h m.1
      rw [readMembers, readMembers]
      cases hf : fields.find? (·.answersTo m.1) <;> cases hg : others.find? (·.answersTo m.1) <;>
        rw [hf, hg] at hfind <;> cases hfind
      · exact ih hms.2 seen s
      · rename_i f g hfg
        simp only [hfg.name_eq, hfg.read_eq _ s hms.1, ih hms.2]

theorem readElements_alike {title : String} {total count position : Nat} {vs : List Json}
    (hvs : ∀ v ∈ vs, v.height < n) (s : σ) :
    readElements title total count position fields vs s =
      readElements title total count position others vs s := by
  induction h generalizing position vs s with
  | nil => rfl
  | @cons f g fields others hfg _ ih =>
      cases vs with
      | nil => rw [readElements, readElements, hfg.required_eq, ih (by simp)]
      | cons v vs =>
          rw [List.forall_mem_cons] at hvs
          simp only [readElements, hfg.read_eq v s hvs.1, ih hvs.2]

theorem missing?_alike (seen : List String) : missing? fields seen = missing? others seen := by
  simp only [missing?]
  induction h with
  | nil => rfl
  | @cons f g fields others hfg _ ih =>
      rw [List.find?_cons, List.find?_cons, hfg.required_eq, hfg.name_eq]
      cases g.required && !seen.contains g.name
      · exact ih
      · exact congrArg some hfg.name_eq

omit h in
/-- Layouts whose fields agree on values below a height read objects one level higher alike. -/
theorem codec_alike {l k : Layout σ} (htitle : l.title = k.title) (hblank : l.blank = k.blank)
    (hfields : List.Forall₂ (FieldSpec.AlikeBelow n) l.fields k.fields) :
    l.codec.AlikeBelow (n + 1) k.codec := by
  intro v hv
  change l.read v = k.read v
  cases v with
  | object ms =>
      have hms : ∀ m ∈ ms, m.2.height < n := by
        intro m hm
        have hlt := height_lt_of_mem_members hm
        omega
      simp only [read, readMembers_alike hfields hms, missing?_alike hfields, hblank]
  | array items =>
      have hitems : ∀ u ∈ items, u.height < n := by
        intro u hu
        have hlt := height_lt_of_mem_items hu
        omega
      rw [read, read, readElements_alike hfields hitems, htitle, hblank, hfields.length_eq]
  | _ => simp only [read, htitle]

omit h in
theorem write_congr {l k : Layout σ} {a : σ}
    (hfields : List.Forall₂ (fun f g => f.name = g.name ∧ f.write a = g.write a)
      l.fields k.fields) : l.write a = k.write a := by
  rw [write, write]
  congr 1
  generalize l.fields = fields, k.fields = others at hfields
  induction hfields with
  | nil => rfl
  | cons hfg _ ih => rw [List.filterMap_cons, List.filterMap_cons, hfg.1, hfg.2, ih]

end Layout

end LedgerAudit.Json
