import LedgerAudit.Proofs.Base64.Canonical
import LedgerAudit.Proofs.Json.Codec
import LedgerAudit.Proofs.Text.Blank
import Mathlib.Algebra.Group.Int.Defs

/-!
# Scalar fields that are read

Bytes are read from their padded form in either alphabet, and from no other text. An integer of 64
bits is read from a JSON integer or from a numeral between blanks, where it lies in the range. Null
stands for no bytes and for zero.
-/

namespace LedgerAudit.Json.Codec

open Base64 (standard urlSafe)
open Base64.Alphabet

section Base64

variable {text : String} {bytes : Bytes}

/-- Neither alphabet reads a text as other bytes than those that it writes so. -/
theorem readBase64_eq_ok_iff :
    readBase64 text = .ok bytes ↔
      text = standard.encodeText bytes ∨ text = urlSafe.encodeText bytes := by
  rw [← standard_lawful.decode_ofText_eq_ok_iff standard_exact,
    ← urlSafe_lawful.decode_ofText_eq_ok_iff urlSafe_exact, readBase64]
  cases hstandard : standard.decode (Bytes.ofText text) with
  | ok found =>
      rw [Except.ok.injEq, Except.ok.injEq]
      constructor
      · exact .inl
      · rintro (h | h)
        · exact h
        · exact standard_agree_urlSafe.decode hstandard h
  | error fault => cases urlSafe.decode (Bytes.ofText text) <;> simp

theorem base64_read_eq_ok_iff {v : Json} :
    base64.read v = .ok bytes ↔
      v = .null ∧ bytes = [] ∨ ∃ text, v = .string text ∧ readBase64 text = .ok bytes := by
  cases v with
  | null =>
      have hempty : readBase64 "" = .ok [] := readBase64_eq_ok_iff.mpr (.inl rfl)
      simp [base64, hempty, eq_comm]
  | string text => simp [base64]
  | _ => simp [base64]

/-- Bytes are read from null, as none, and from the padded form in either of the two alphabets: from
whole groups of symbols of one alphabet, with all the padding that they need and no bit set beyond
the bytes. So bytes have two spellings at most, without blanks and without symbols that only the
other alphabet has, and one of them is the one that is written. -/
theorem base64_read_exact :
    (∀ (v : Json) (bytes : Bytes), base64.read v = .ok bytes ↔
      v = .null ∧ bytes = [] ∨ ∃ text, v = .string text ∧
        (standard.Spells bytes (Bytes.ofText text) ∨ urlSafe.Spells bytes (Bytes.ofText text))) ∧
    (∀ text : String, (∃ bytes, base64.read (.string text) = .ok bytes) ↔
      standard.IsCanonical (Bytes.ofText text) ∨ urlSafe.IsCanonical (Bytes.ofText text)) ∧
    (∀ (text : String) (bytes : Bytes), base64.read (.string text) = .ok bytes ↔
      text = standard.encodeText bytes ∨ text = urlSafe.encodeText bytes) ∧
    (∀ (text : String) (bytes : Bytes), base64.read (.string text) = .ok bytes →
      (∀ c ∈ text.toList, Text.isBlank c = false) ∧
        ((∀ c ∈ text.toList, c ≠ '-' ∧ c ≠ '_') ∨ ∀ c ∈ text.toList, c ≠ '+' ∧ c ≠ '/')) ∧
    ∀ bytes : Bytes, base64.read (base64.write bytes) = .ok bytes := by
  have hstring (text : String) (bytes : Bytes) : base64.read (.string text) = .ok bytes ↔
      text = standard.encodeText bytes ∨ text = urlSafe.encodeText bytes :=
    readBase64_eq_ok_iff
  refine ⟨fun v bytes => ?_, fun text => ?_, hstring, fun text bytes h => ?_, base64_roundTrips⟩
  · simp only [base64_read_eq_ok_iff, readBase64_eq_ok_iff, standard_lawful.spells_ofText_iff,
      urlSafe_lawful.spells_ofText_iff]
  · simp only [hstring, exists_or, standard_lawful.isCanonical_ofText_iff,
      urlSafe_lawful.isCanonical_ofText_iff]
  · have hblank (a : Base64.Alphabet)
        (hsymbol : ∀ n < 64, Text.isBlank (Char.ofNat (a.symbol n).toNat) = false) :
        ∀ c ∈ (a.encodeText bytes).toList, Text.isBlank c = false :=
      forall_mem_encodeText (P := fun c => Text.isBlank c = false) hsymbol rfl bytes
    have hstandard : ∀ c ∈ (standard.encodeText bytes).toList, c ≠ '-' ∧ c ≠ '_' :=
      forall_mem_encodeText (by decide +kernel) (by decide) bytes
    have hurlSafe : ∀ c ∈ (urlSafe.encodeText bytes).toList, c ≠ '+' ∧ c ≠ '/' :=
      forall_mem_encodeText (by decide +kernel) (by decide) bytes
    rcases (hstring text bytes).mp h with rfl | rfl
    · exact ⟨hblank standard (by decide +kernel), .inl hstandard⟩
    · exact ⟨hblank urlSafe (by decide +kernel), .inr hurlSafe⟩

/-- Two spellings of the same bytes. -/
theorem base64_read_bothSpellings :
    base64.read (.string "+/8=") = .ok [0xfb, 0xff] ∧
      base64.read (.string "-_8=") = .ok [0xfb, 0xff] ∧
      (∀ c ∈ "-_8=".toList, Text.isBlank c = false) ∧
        ((∀ c ∈ "-_8=".toList, c ≠ '-' ∧ c ≠ '_') ∨ ∀ c ∈ "-_8=".toList, c ≠ '+' ∧ c ≠ '/') := by
  have hstandard : "+/8=" = standard.encodeText [0xfb, 0xff] := by decide +kernel
  have hurlSafe : "-_8=" = urlSafe.encodeText [0xfb, 0xff] := by decide +kernel
  have hread := (base64_read_exact.2.2.1 "-_8=" [0xfb, 0xff]).mpr (.inr hurlSafe)
  exact ⟨(base64_read_exact.2.2.1 "+/8=" [0xfb, 0xff]).mpr (.inl hstandard), hread,
    base64_read_exact.2.2.2.1 "-_8=" [0xfb, 0xff] hread⟩

end Base64

section Integer

/-- What an integer may be given as. Only where there are negative integers may the numeral have a
minus sign. -/
inductive Stands (signed : Prop) : Json → Int → Prop
  | null : Stands signed .null 0
  | integer (n : Int) : Stands signed (.integer n) n
  | numeral {before cs after : List Char} {n : Int} (hbefore : ∀ c ∈ before, Text.isBlank c)
      (hafter : ∀ c ∈ after, Text.isBlank c) (hcs : Numeral.Denotes cs n)
      (hsign : cs.head? = some '-' → signed) :
      Stands signed (.string (String.ofList (before ++ cs ++ after))) n

theorem stands_string_iff {signed : Prop} {text : String} {n : Int} :
    Stands signed (.string text) n ↔
      Numeral.Denotes (Text.trim text.toList) n ∧
        ((Text.trim text.toList).head? = some '-' → signed) := by
  constructor
  · rintro (_ | _ | ⟨hbefore, hafter, hcs, hsign⟩)
    have htrim := (Text.trim_eq_iff hcs.isBlank_eq_false).mpr ⟨_, _, hbefore, hafter, rfl⟩
    rw [String.toList_ofList, htrim]
    exact ⟨hcs, hsign⟩
  · rintro ⟨hcs, hsign⟩
    obtain ⟨before, after, hbefore, hafter, htext⟩ :=
      (Text.trim_eq_iff hcs.isBlank_eq_false).mp rfl
    have hstands := Stands.numeral hbefore hafter hcs hsign
    rwa [← htext, String.ofList_toList] at hstands

variable {α : Type} [FixedWidth α] {v : Json} {a : α} {n : Int}

theorem ofInt_zero_eq_iff (hzero : FixedWidth.HasZero α) :
    FixedWidth.ofInt 0 = a ↔ FixedWidth.toInt a = 0 := by
  constructor
  · rintro rfl
    exact FixedWidth.toInt_ofInt 0 hzero.1 hzero.2
  · intro h
    rw [← h, FixedWidth.ofInt_toInt]

theorem fixedWidth_read_eq_ok_iff (hzero : FixedWidth.HasZero α) :
    (fixedWidth α).read v = .ok a ↔ Stands (FixedWidth.least α < 0) v (FixedWidth.toInt a) := by
  cases v with
  | null =>
      change Except.ok (FixedWidth.ofInt 0) = Except.ok a ↔ _
      rw [Except.ok.injEq, ofInt_zero_eq_iff hzero]
      constructor
      · intro h
        rw [h]
        exact .null
      · intro h
        generalize FixedWidth.toInt a = n at h
        cases h
        rfl
  | number m =>
      cases m with
      | integer n =>
          rw [fixedWidth_read_integer_eq_ok_iff]
          constructor
          · rintro rfl
            exact .integer _
          · rintro ⟨⟩
            rfl
      | float x =>
          constructor
          · nofun
          · nofun
  | string text =>
      rw [stands_string_iff, ← Numeral.read_eq_ok_iff hzero]
      exact liftNumeral_eq_ok_iff
  | _ =>
      constructor
      · nofun
      · nofun

theorem map_fixedWidth_read_eq_ok_iff (hzero : FixedWidth.HasZero α) :
    ((fixedWidth α).read v).map FixedWidth.toInt = .ok n ↔
      (FixedWidth.least α ≤ n ∧ n ≤ FixedWidth.greatest α) ∧
        Stands (FixedWidth.least α < 0) v n := by
  rw [Except.map_eq_ok_iff]
  constructor
  · rintro ⟨a, hread, rfl⟩
    exact ⟨⟨FixedWidth.least_le_toInt a, FixedWidth.toInt_le_greatest a⟩,
      (fixedWidth_read_eq_ok_iff hzero).mp hread⟩
  · rintro ⟨⟨hleast, hgreatest⟩, hstands⟩
    have hback := FixedWidth.toInt_ofInt n hleast hgreatest
    refine ⟨FixedWidth.ofInt n, (fixedWidth_read_eq_ok_iff hzero).mpr ?_, hback⟩
    rwa [hback]

theorem map_int64_read_eq_ok_iff :
    ((fixedWidth Int64).read v).map Int64.toInt = .ok n ↔
      (-2 ^ 63 ≤ n ∧ n < 2 ^ 63) ∧ Stands True v n := by
  have hread := map_fixedWidth_read_eq_ok_iff (v := v) (n := n) FixedWidth.hasZero_int64
  have hleast : FixedWidth.least Int64 = -2 ^ 63 := by decide
  have hgreatest : FixedWidth.greatest Int64 = 2 ^ 63 - 1 := by decide
  rwa [hleast, hgreatest, Int.le_sub_one_iff, eq_true (by decide : -2 ^ 63 < (0 : Int))] at hread

theorem map_uint64_read_eq_ok_iff :
    ((fixedWidth UInt64).read v).map (fun x => (x.toNat : Int)) = .ok n ↔
      (0 ≤ n ∧ n < 2 ^ 64) ∧ Stands False v n := by
  have hread := map_fixedWidth_read_eq_ok_iff (v := v) (n := n) FixedWidth.hasZero_uint64
  have hleast : FixedWidth.least UInt64 = 0 := rfl
  have hgreatest : FixedWidth.greatest UInt64 = 2 ^ 64 - 1 := by decide
  rwa [hleast, hgreatest, Int.le_sub_one_iff, eq_false (Int.lt_irrefl 0)] at hread

/-- An integer is read exactly where it lies in the range and the value stands for it, be it
null, a JSON integer or a numeral between blanks; all other values are rejected. What is written is
read back. -/
theorem fixedWidth_read_exact :
    (∀ (v : Json) (n : Int), ((fixedWidth Int64).read v).map Int64.toInt = .ok n ↔
      (-2 ^ 63 ≤ n ∧ n < 2 ^ 63) ∧ Stands True v n) ∧
    (∀ (v : Json) (n : Int), ((fixedWidth UInt64).read v).map (fun x => (x.toNat : Int)) = .ok n ↔
      (0 ≤ n ∧ n < 2 ^ 64) ∧ Stands False v n) ∧
    (∀ x : Int64, (fixedWidth Int64).read ((fixedWidth Int64).write x) = .ok x) ∧
    ∀ x : UInt64, (fixedWidth UInt64).read ((fixedWidth UInt64).write x) = .ok x := by
  refine ⟨fun v n => map_int64_read_eq_ok_iff, fun v n => map_uint64_read_eq_ok_iff, ?_, ?_⟩
  · exact fixedWidth_roundTrips FixedWidth.hasZero_int64
  · exact fixedWidth_roundTrips FixedWidth.hasZero_uint64

end Integer

end LedgerAudit.Json.Codec
