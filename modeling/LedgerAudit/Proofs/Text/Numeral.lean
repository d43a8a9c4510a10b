import LedgerAudit.Text.Blank
import LedgerAudit.Text.Numeral

/-!
# Numerals that are read

Reading a numeral gives the integer that it spells out, and succeeds exactly when that integer lies
in the range and no minus sign stands where nothing is negative. The decimal text of an integer is
such a numeral, with no blanks around it.
-/

namespace LedgerAudit

namespace Text

variable {cs : List Char}

theorem isBlank_eq_false_of_isDigit {c : Char} (h : c.isDigit = true) : isBlank c = false := by
  have hle : 48 ≤ c.toNat ∧ c.toNat ≤ 57 := by
    simp only [Char.isDigit, ge_iff_le, Bool.and_eq_true, decide_eq_true_eq,
      UInt32.le_iff_toNat_le] at h
    exact h
  simp only [isBlank, Bool.or_eq_false_iff, Bool.and_eq_false_imp, decide_eq_true_eq,
    decide_eq_false_iff_not, beq_eq_false_iff_ne]
  omega

theorem trim_eq_self (h : ∀ c ∈ cs, isBlank c = false) : trim cs = cs := by
  have hdrop : ∀ ds : List Char, (∀ c ∈ ds, isBlank c = false) → ds.dropWhile isBlank = ds := by
    intro ds hds
    cases ds with
    | nil => rfl
    | cons d ds => rw [List.dropWhile_cons_of_neg (by simp [hds d])]
  rw [trim, trimStart, hdrop cs h, trimEnd, hdrop _ (by simpa using h), List.reverse_reverse]

end Text

namespace Numeral

/-- Digits, and at least one. -/
def IsMagnitude (ds : List Char) : Prop := ds ≠ [] ∧ ∀ c ∈ ds, c.isDigit = true

/-- The integer that a numeral spells out, in whatever range. -/
inductive Denotes : List Char → Int → Prop
  | bare {ds : List Char} (h : IsMagnitude ds) : Denotes ds (Nat.ofDigitChars 10 ds 0)
  | plus {ds : List Char} (h : IsMagnitude ds) : Denotes ('+' :: ds) (Nat.ofDigitChars 10 ds 0)
  | minus {ds : List Char} (h : IsMagnitude ds) : Denotes ('-' :: ds) (-(Nat.ofDigitChars 10 ds 0))

variable {limit sum m : Nat} {outside : Fault} {cs : List Char} {least greatest n : Int}

theorem le_ofDigitChars (cs : List Char) (sum : Nat) : sum ≤ Nat.ofDigitChars 10 cs sum := by
  induction cs generalizing sum with
  | nil => simp
  | cons c cs ih =>
      rw [Nat.ofDigitChars_cons]
      exact Nat.le_trans (by omega) (ih _)

theorem readDigits_eq_ok_iff (hsum : sum ≤ limit) :
    readDigits limit outside sum cs = .ok m ↔
      (∀ c ∈ cs, c.isDigit = true) ∧ Nat.ofDigitChars 10 cs sum = m ∧ m ≤ limit := by
  induction cs generalizing sum with
  | nil =>
      simp only [readDigits, Except.ok.injEq, Nat.ofDigitChars_nil]
      constructor
      · rintro rfl
        exact ⟨by simp, rfl, hsum⟩
      · exact fun h => h.2.1
  | cons c cs ih =>
      rw [readDigits, Nat.ofDigitChars_cons, List.forall_mem_cons]
      by_cases hdigit : c.isDigit = true
      · rw [if_pos hdigit]
        change (if limit < 10 * sum + (c.toNat - 48) then _ else _) = _ ↔ _ ∧
          Nat.ofDigitChars 10 cs (10 * sum + (c.toNat - 48)) = m ∧ _
        have hle := le_ofDigitChars cs (10 * sum + (c.toNat - 48))
        split
        · simp only [reduceCtorEq, false_iff]
          omega
        · rw [ih (by omega)]
          simp [hdigit]
      · simp [hdigit]

theorem readDigits_map_eq_ok_iff {f : Nat → Int} (hcs : cs ≠ []) :
    (readDigits limit outside 0 cs).map f = .ok n ↔
      IsMagnitude cs ∧ f (Nat.ofDigitChars 10 cs 0) = n ∧ Nat.ofDigitChars 10 cs 0 ≤ limit := by
  constructor
  · intro h
    cases hread : readDigits limit outside 0 cs with
    | error fault => simp [hread, Except.map] at h
    | ok m =>
        obtain ⟨hdigits, hvalue, hle⟩ := (readDigits_eq_ok_iff (Nat.zero_le _)).mp hread
        rw [hread] at h
        rw [hvalue]
        exact ⟨⟨hcs, hdigits⟩, by simpa [Except.map] using h, hle⟩
  · rintro ⟨⟨-, hdigits⟩, hvalue, hle⟩
    rw [(readDigits_eq_ok_iff (Nat.zero_le _)).mpr ⟨hdigits, rfl, hle⟩, ← hvalue]
    rfl

theorem denotes_plus_iff :
    Denotes ('+' :: cs) n ↔ IsMagnitude cs ∧ (Nat.ofDigitChars 10 cs 0 : Int) = n := by
  constructor
  · rintro (h | h)
    · exact absurd (h.2 '+' List.mem_cons_self) (by decide)
    · exact ⟨h, rfl⟩
  · rintro ⟨h, rfl⟩
    exact .plus h

theorem denotes_minus_iff :
    Denotes ('-' :: cs) n ↔ IsMagnitude cs ∧ -(Nat.ofDigitChars 10 cs 0 : Int) = n := by
  constructor
  · rintro (h | _ | h)
    · exact absurd (h.2 '-' List.mem_cons_self) (by decide)
    · exact ⟨h, rfl⟩
  · rintro ⟨h, rfl⟩
    exact .minus h

theorem denotes_cons_iff {c : Char} (hplus : c ≠ '+') (hminus : c ≠ '-') :
    Denotes (c :: cs) n ↔
      IsMagnitude (c :: cs) ∧ (Nat.ofDigitChars 10 (c :: cs) 0 : Int) = n := by
  constructor
  · intro h
    cases h with
    | bare h => exact ⟨h, rfl⟩
    | plus h => exact absurd rfl hplus
    | minus h => exact absurd rfl hminus
  · rintro ⟨h, rfl⟩
    exact .bare h

theorem not_denotes_nil : ¬ Denotes [] n := by
  intro h
  cases h with
  | bare h => exact h.1 rfl

theorem Denotes.unique {m n : Int} (h : Denotes cs m) (h' : Denotes cs n) : m = n := by
  cases h with
  | plus h => exact (denotes_plus_iff.mp h').2
  | minus h => exact (denotes_minus_iff.mp h').2
  | bare h =>
      cases cs with
      | nil => exact absurd rfl h.1
      | cons c cs =>
          have hdigit := h.2 c List.mem_cons_self
          have hplus : c ≠ '+' := by
            rintro rfl
            exact absurd hdigit (by decide)
          have hminus : c ≠ '-' := by
            rintro rfl
            exact absurd hdigit (by decide)
          exact ((denotes_cons_iff hplus hminus).mp h').2

theorem le_toNat_greatest_iff (hleast : least ≤ 0) (hgreatest : 0 ≤ greatest)
    (hhead : cs.head? ≠ some '-') :
    m ≤ greatest.toNat ↔
      least ≤ Int.ofNat m ∧ Int.ofNat m ≤ greatest ∧ (cs.head? = some '-' → least < 0) := by
  simp only [hhead, false_implies, and_true, Int.ofNat_eq_natCast]
  omega

/-- A magnitude, with or without a sign before it, is read when it fits the range. -/
theorem readWithin_eq_ok_iff (hleast : least ≤ 0) (hgreatest : 0 ≤ greatest) :
    readWithin least greatest cs = .ok n ↔
      Denotes cs n ∧ least ≤ n ∧ n ≤ greatest ∧ (cs.head? = some '-' → least < 0) := by
  unfold readWithin
  split
  · simp [not_denotes_nil]
  · rw [readDigits_map_eq_ok_iff (by simp), denotes_plus_iff, and_assoc]
    refine and_congr_right fun _ => and_congr_right ?_
    rintro rfl
    exact le_toNat_greatest_iff hleast hgreatest (by simp)
  · rename_i c cs
    rw [denotes_minus_iff, and_assoc]
    split
    · rename_i hneg
      have hmap : ∀ r : Except Fault Nat,
          Except.map (fun i : Int => -i) (r >>= fun a => pure (a : Int)) =
            r.map fun a => -Int.ofNat a := by
        intro r
        cases r <;> rfl
      rw [hmap, readDigits_map_eq_ok_iff (by simp)]
      refine and_congr_right fun _ => and_congr_right ?_
      rintro rfl
      simp only [hneg, implies_true, and_true, Int.ofNat_eq_natCast]
      omega
    · rename_i hneg
      simp [hneg]
  · rename_i c cs hplus hminus
    rw [readDigits_map_eq_ok_iff (by simp)]
    by_cases hsign : c = '+' ∨ c = '-'
    · -- a sign alone is no numeral
      have hcs : cs = [] := by
        cases cs with
        | nil => rfl
        | cons d ds =>
            rcases hsign with rfl | rfl
            · exact absurd rfl (hplus d ds rfl)
            · exact (hminus d ds rfl rfl).elim
      subst hcs
      rcases hsign with rfl | rfl
      · simp [denotes_plus_iff, IsMagnitude]
      · simp [denotes_minus_iff, IsMagnitude]
    · rw [not_or] at hsign
      rw [denotes_cons_iff hsign.1 hsign.2, and_assoc]
      refine and_congr_right fun _ => and_congr_right ?_
      rintro rfl
      exact le_toNat_greatest_iff hleast hgreatest (by simpa using hsign.2)

theorem isMagnitude_repr (m : Nat) : IsMagnitude m.repr.toList := by
  rw [Nat.toList_repr]
  exact ⟨Nat.toDigits_ne_nil, fun c => Nat.isDigit_of_mem_toDigits (by decide) (by decide)⟩

theorem ofDigitChars_repr (m : Nat) : Nat.ofDigitChars 10 m.repr.toList 0 = m := by
  rw [Nat.toList_repr, Nat.ofDigitChars_ten_toDigits]

theorem toList_toString (n : Int) :
    (toString n).toList =
      if 0 ≤ n then n.toNat.repr.toList else '-' :: (-n).toNat.repr.toList := by
  rw [Int.toString_eq_repr, Int.repr_eq_if]
  split <;> simp

theorem denotes_toString (n : Int) : Denotes (toString n).toList n := by
  rw [toList_toString]
  split
  · have h := Denotes.bare (isMagnitude_repr n.toNat)
    rwa [ofDigitChars_repr, Int.toNat_of_nonneg (by omega)] at h
  · rw [denotes_minus_iff, ofDigitChars_repr]
    exact ⟨isMagnitude_repr _, by omega⟩

theorem neg_of_head?_toString (h : (toString n).toList.head? = some '-') : n < 0 := by
  rw [toList_toString] at h
  split at h
  · have hminus := (isMagnitude_repr n.toNat).2 '-' (List.mem_of_mem_head? h)
    exact absurd hminus (by decide)
  · omega

/-- No blank stands in a numeral. -/
theorem Denotes.isBlank_eq_false (h : Denotes cs n) : ∀ c ∈ cs, Text.isBlank c = false := by
  have hdigits : ∀ ds, IsMagnitude ds → ∀ c ∈ ds, Text.isBlank c = false :=
    fun ds hds c hc => Text.isBlank_eq_false_of_isDigit (hds.2 c hc)
  cases h with
  | bare h => exact hdigits _ h
  | plus h => exact List.forall_mem_cons.mpr ⟨rfl, hdigits _ h⟩
  | minus h => exact List.forall_mem_cons.mpr ⟨rfl, hdigits _ h⟩

theorem trim_toString (n : Int) : Text.trim (toString n).toList = (toString n).toList :=
  Text.trim_eq_self (denotes_toString n).isBlank_eq_false

end Numeral

/-- Zero lies in the range, as it does for signed and for unsigned integers. -/
def FixedWidth.HasZero (α : Type) [FixedWidth α] : Prop := least α ≤ 0 ∧ 0 ≤ greatest α

theorem FixedWidth.hasZero_int64 : HasZero Int64 := ⟨by decide, by decide⟩

theorem FixedWidth.hasZero_uint64 : HasZero UInt64 := ⟨by decide, by decide⟩

namespace Numeral

variable {α : Type} [FixedWidth α] {a : α} {cs : List Char} {n : Int}

theorem fit_eq_ok_iff : fit α n = .ok a ↔ FixedWidth.toInt a = n := by
  have hleast := FixedWidth.least_le_toInt a
  have hgreatest := FixedWidth.toInt_le_greatest a
  unfold fit
  split
  · simp only [reduceCtorEq, false_iff]
    omega
  · split
    · simp only [reduceCtorEq, false_iff]
      omega
    · rw [Except.ok.injEq]
      constructor
      · rintro rfl
        exact FixedWidth.toInt_ofInt n (by omega) (by omega)
      · rintro rfl
        exact FixedWidth.ofInt_toInt a

/-- What is read is the integer that the numeral spells out. -/
theorem read_eq_ok_iff (hzero : FixedWidth.HasZero α) :
    read α cs = .ok a ↔
      Denotes cs (FixedWidth.toInt a) ∧ (cs.head? = some '-' → FixedWidth.least α < 0) := by
  have hwithin (n : Int) : readWithin (FixedWidth.least α) (FixedWidth.greatest α) cs = .ok n ↔
      Denotes cs n ∧ FixedWidth.least α ≤ n ∧ n ≤ FixedWidth.greatest α ∧
        (cs.head? = some '-' → FixedWidth.least α < 0) :=
    readWithin_eq_ok_iff hzero.1 hzero.2
  constructor
  · intro h
    cases hread : readWithin (FixedWidth.least α) (FixedWidth.greatest α) cs with
    | error fault => simp [read, hread, Except.map] at h
    | ok n =>
        obtain ⟨hdenotes, hleast, hgreatest, hminus⟩ := (hwithin n).mp hread
        obtain rfl : FixedWidth.ofInt n = a := by simpa [read, hread, Except.map] using h
        rw [FixedWidth.toInt_ofInt n hleast hgreatest]
        exact ⟨hdenotes, hminus⟩
  · rintro ⟨hdenotes, hminus⟩
    have hread := (hwithin _).mpr ⟨hdenotes, FixedWidth.least_le_toInt a,
      FixedWidth.toInt_le_greatest a, hminus⟩
    rw [read, hread, Except.map, FixedWidth.ofInt_toInt]

theorem read_toString (hzero : FixedWidth.HasZero α) (a : α) :
    read α (Text.trim (toString (FixedWidth.toInt a)).toList) = .ok a := by
  rw [trim_toString, read_eq_ok_iff hzero]
  refine ⟨denotes_toString _, fun h => ?_⟩
  exact Int.lt_of_le_of_lt (FixedWidth.least_le_toInt a) (neg_of_head?_toString h)

end Numeral

end LedgerAudit
