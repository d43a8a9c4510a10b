import LedgerAudit.Proofs.Base64
import LedgerAudit.Proofs.Json.Layout
import LedgerAudit.Proofs.Text.Numeral
import Mathlib.Data.List.Forall2

/-!
# Values that codecs read back

A codec restores a value that it reads back from what it wrote, with the members of all objects
sorted. A codec that round-trips and writes no objects restores every value. A list is restored when
its elements are, and a record when its fields are.
-/

namespace LedgerAudit.Json

namespace Codec

variable {α : Type} {c : Codec α}

def Restores (c : Codec α) (a : α) : Prop := c.read (c.write a).sorted = .ok a

theorem restores_congr {d : Codec α} {a : α} (hread : ∀ v, c.read v = d.read v)
    (hwrite : c.write a = d.write a) : c.Restores a ↔ d.Restores a := by
  rw [Restores, Restores, hread, hwrite]

/-- Sorting leaves a value as it is that has no members. -/
theorem RoundTrips.restores (h : c.RoundTrips) (hsorted : ∀ a, (c.write a).sorted = c.write a)
    (a : α) : c.Restores a := by
  rw [Restores, hsorted, h]

theorem bool_roundTrips : bool.RoundTrips := fun _ => rfl

theorem text_roundTrips : text.RoundTrips := fun _ => rfl

theorem base64_roundTrips : base64.RoundTrips := by
  intro bytes
  change readBase64 (Base64.standard.encodeText bytes) = .ok bytes
  rw [readBase64, Base64.Alphabet.standard_lawful.decode_ofText_encodeText]

theorem fixedWidth_roundTrips [FixedWidth α] (hzero : FixedWidth.HasZero α) :
    (fixedWidth α).RoundTrips := by
  intro a
  change liftNumeral (Numeral.read α (Text.trim (toString (FixedWidth.toInt a)).toList)) = .ok a
  rw [Numeral.read_toString hzero, liftNumeral]

theorem liftNumeral_eq_ok_iff {r : Except Numeral.Fault α} {a : α} :
    liftNumeral r = .ok a ↔ r = .ok a := by
  cases r <;> simp [liftNumeral]

/-- An integer within the range is read from a JSON number too. -/
theorem fixedWidth_read_integer_eq_ok_iff [FixedWidth α] {a : α} {n : Int} :
    (fixedWidth α).read (.integer n) = .ok a ↔ FixedWidth.toInt a = n := by
  rw [← Numeral.fit_eq_ok_iff]
  exact liftNumeral_eq_ok_iff

/-- A name that comes once stands for its place. -/
theorem enumeration_read_name {names : List String} (h : names.Nodup) {i : Nat} {name : String}
    (hname : names[i]? = some name) :
    (enumeration names).read (.string name) = .ok (Int32.ofNat i) := by
  obtain ⟨hi, rfl⟩ := List.getElem?_eq_some_iff.mp hname
  have hindex : names.idxOf? names[i] = some i := by
    refine List.idxOf?_eq_some_iff.mpr ⟨hi, rfl, fun j hj heq => ?_⟩
    exact absurd (h.getElem_inj_iff.mp heq) (Nat.ne_of_lt hj)
  simp only [enumeration, hindex]

theorem enumeration_roundTrips {names : List String} (h : names.Nodup) :
    (enumeration names).RoundTrips := by
  intro n
  cases hname : (if 0 ≤ n.toInt then names[n.toInt.toNat]? else none) with
  | none =>
      have hfit : Numeral.fit Int32 n.toInt = .ok n := Numeral.fit_eq_ok_iff.mpr rfl
      simp only [enumeration, hname, liftNumeral, hfit]
  | some name =>
      obtain ⟨hpos, hname'⟩ := Option.ite_none_right_eq_some.mp hname
      have hwrite : (enumeration names).write n = .string name := by
        simp only [enumeration, hname]
      rw [hwrite, enumeration_read_name h hname', ← Int32.ofInt_eq_ofNat,
        Int.toNat_of_nonneg hpos, Int32.ofInt_toInt]

theorem sorted_write_enumeration {names : List String} (n : Int32) :
    ((enumeration names).write n).sorted = (enumeration names).write n := by
  simp only [enumeration]
  split <;> rfl

theorem mapM_read_eq_ok_iff {as : List α} {vs : List Json} :
    vs.mapM c.read = .ok as ↔ List.Forall₂ (fun v a => c.read v = .ok a) vs as := by
  induction vs generalizing as with
  | nil => cases as <;> simp
  | cons v vs ih =>
      cases as with
      | nil => simp [Except.bind_eq_ok_iff]
      | cons a as => simp [Except.bind_eq_ok_iff, ih]

theorem list_restores_iff {as : List α} : c.list.Restores as ↔ ∀ a ∈ as, c.Restores a := by
  rw [Restores, list, sorted, sortedItems_eq_map, List.map_map]
  change List.mapM c.read _ = _ ↔ _
  rw [mapM_read_eq_ok_iff, List.forall₂_map_left_iff, List.forall₂_same]
  rfl

/-- Null stands for no value, so a value is restored only if it is not read from null. -/
theorem optional_restores_iff (hnull : ∀ a, c.read .null ≠ .ok a) {a : Option α} :
    c.optional.Restores a ↔ ∀ x ∈ a, c.Restores x := by
  cases a with
  | none => simp [Restores, optional, sorted]
  | some x =>
      simp only [Restores, optional, Option.mem_some_iff, forall_eq']
      split
      · rename_i hsorted
        simp [hsorted, hnull]
      · rw [Except.map_eq_ok_iff]
        simp

end Codec

end LedgerAudit.Json
