import LedgerAudit.Proofs.Digest

/-!
# Hexadecimal digits

A byte is a digit when it is one of the 22 characters of both cases. Reading stops at the first byte
that is none. The texts of bytes, compared byte by byte, stand in the order of the bytes.
-/

namespace LedgerAudit.Hex

/-- The digits, with the letters in both cases. -/
def digits : List Char :=
  ['0', '1', '2', '3', '4', '5', '6', '7', '8', '9', 'a', 'b', 'c', 'd', 'e', 'f',
    'A', 'B', 'C', 'D', 'E', 'F']

theorem toNat_lt_of_isSome_value? {c : Char} (h : (value? c).isSome) : c.toNat < 128 := by
  unfold value? at h
  split at h
  · next hdigit => exact Nat.lt_of_le_of_lt (UInt32.le_iff_toNat_le.mp hdigit.2) (by decide)
  · split at h
    · next hlower => exact Nat.lt_of_le_of_lt (UInt32.le_iff_toNat_le.mp hlower.2) (by decide)
    · split at h
      · next hupper => exact Nat.lt_of_le_of_lt (UInt32.le_iff_toNat_le.mp hupper.2) (by decide)
      · nomatch h

theorem isSome_value?_iff {c : Char} : (value? c).isSome ↔ c ∈ digits := by
  have hascii : ∀ n < 128, (value? (Char.ofNat n)).isSome ↔ Char.ofNat n ∈ digits := by
    decide +kernel
  by_cases hlt : c.toNat < 128
  · have hc := hascii c.toNat hlt
    rwa [Char.ofNat_toNat] at hc
  · have hdigits : digits.all fun d => decide (d.toNat < 128) := by decide
    refine iff_of_false (fun h => hlt (toNat_lt_of_isSome_value? h)) fun h => hlt ?_
    exact of_decide_eq_true (List.all_eq_true.mp hdigits c h)

def IsDigit (b : UInt8) : Prop := Char.ofNat b.toNat ∈ digits

variable {position : Nat} {b : UInt8} {fault : Fault} {bs : Bytes}

theorem exists_value_eq_ok_iff : (∃ n, value position b = .ok n) ↔ IsDigit b := by
  rw [IsDigit, ← isSome_value?_iff, value]
  cases value? (Char.ofNat b.toNat) <;> simp

theorem value_eq_error_iff :
    value position b = .error fault ↔ ¬IsDigit b ∧ fault = ⟨b, position⟩ := by
  rw [IsDigit, ← isSome_value?_iff, value]
  cases value? (Char.ofNat b.toNat) <;> simp [eq_comm]

/-- The fault of a text that starts at `position`: its first byte that is no digit. -/
def FirstBad (position : Nat) (bs : Bytes) (fault : Fault) : Prop :=
  ∃ before after, bs = before ++ fault.found :: after ∧ (∀ c ∈ before, IsDigit c) ∧
    ¬IsDigit fault.found ∧ fault.position = position + before.length

theorem not_firstBad_nil : ¬FirstBad position [] fault := by
  rintro ⟨before, after, hsplit, -⟩
  simp at hsplit

theorem firstBad_cons_iff :
    FirstBad position (b :: bs) fault ↔
      ¬IsDigit b ∧ fault = ⟨b, position⟩ ∨ IsDigit b ∧ FirstBad (position + 1) bs fault := by
  obtain ⟨found, place⟩ := fault
  constructor
  · rintro ⟨before, after, hsplit, hbefore, hbad, hposition⟩
    cases before with
    | nil =>
        obtain ⟨rfl, rfl⟩ := List.cons.inj hsplit
        obtain rfl : place = position := hposition
        exact .inl ⟨hbad, rfl⟩
    | cons c before =>
        obtain ⟨rfl, rfl⟩ := List.cons.inj hsplit
        obtain ⟨hc, hbefore⟩ := List.forall_mem_cons.mp hbefore
        refine .inr ⟨hc, before, after, rfl, hbefore, hbad, ?_⟩
        rw [hposition, List.length_cons]
        omega
  · rintro (⟨hbad, hfault⟩ | ⟨hb, before, after, rfl, hbefore, hbad, hposition⟩)
    · obtain ⟨rfl, rfl⟩ := Fault.mk.inj hfault
      exact ⟨[], bs, rfl, by simp, hbad, rfl⟩
    · refine ⟨b :: before, after, rfl, List.forall_mem_cons.mpr ⟨hb, hbefore⟩, hbad, ?_⟩
      rw [hposition, List.length_cons]
      omega

/-- Reading stops at the first byte that is no digit. -/
theorem decodeFrom_eq_error_iff (heven : bs.length % 2 = 0) :
    decodeFrom position bs = .error fault ↔ FirstBad position bs fault := by
  fun_induction decodeFrom position bs with
  | case1 position high low rest ih =>
      have heven : rest.length % 2 = 0 := by simp at heven; omega
      simp only [Except.bind_eq_error_iff, Except.pure_eq_ok, reduceCtorEq, and_false,
        exists_false, or_false, exists_and_right, exists_value_eq_ok_iff, value_eq_error_iff,
        ih heven, firstBad_cons_iff]
  | case2 digits position hshort =>
      obtain rfl : digits = [] := by
        rcases digits with _ | ⟨b, _ | ⟨c, rest⟩⟩
        · rfl
        · simp at heven
        · exact (hshort b c rest rfl).elim
      simp [not_firstBad_nil]

/-- Of a character of two bytes the first is named. -/
example : decode (Bytes.ofText "0é0") = .error ⟨0xc3, 1⟩ := by rfl

/-- Digits that are read are twice as many as the bytes. -/
theorem length_of_decode {bytes : Bytes} (heven : bs.length % 2 = 0) (h : decode bs = .ok bytes) :
    bs.length = 2 * bytes.length := by
  have hsame := congrArg List.length ((decodeFrom_eq_ok_iff heven).mp h)
  rwa [List.length_map, length_flatMap_pair] at hsame

/-- The code of a digit as a byte. -/
def digitByte (n : Nat) : UInt8 := UInt8.ofNat (digit n).toNat

def pairBytes (b : UInt8) : Bytes := [digitByte (b.toNat / 16), digitByte (b.toNat % 16)]

theorem digitByte_lt_digitByte_iff : ∀ m < 16, ∀ n < 16, digitByte m < digitByte n ↔ m < n := by
  decide +kernel

theorem digitByte_inj : ∀ m < 16, ∀ n < 16, digitByte m = digitByte n ↔ m = n := by
  decide +kernel

theorem map_pairBytes (b : UInt8) : (pairBytes b).map (fun c => Char.ofNat c.toNat) = pair b := by
  have hdigit : ∀ n < 16, Char.ofNat (digitByte n).toNat = digit n := by decide +kernel
  have hb := b.toNat_lt
  rw [pairBytes, pair, List.map_cons, List.map_singleton, hdigit _ (by omega), hdigit _ (by omega)]

theorem ofText_encode (bytes : Bytes) :
    Bytes.ofText (encode bytes) = bytes.flatMap pairBytes := by
  have hascii : ∀ c ∈ bytes.flatMap pairBytes, c.toNat < 128 := by
    have hdigit : ∀ n < 16, (digitByte n).toNat < 128 := by decide +kernel
    intro c hc
    obtain ⟨b, -, hb⟩ := List.mem_flatMap.mp hc
    have hlt := b.toNat_lt
    have hhalf : c = digitByte (b.toNat / 16) ∨ c = digitByte (b.toNat % 16) := by
      simpa [pairBytes] using hb
    rcases hhalf with rfl | rfl
    · exact hdigit _ (by omega)
    · exact hdigit _ (by omega)
  rw [Bytes.ofText_eq_iff hascii, encode, String.toList_ofList, List.map_flatMap]
  simp only [map_pairBytes]

/-- The higher half of a byte is compared first, and what follows the byte last. -/
theorem pairBytes_append_le_iff {a b : UInt8} {as bs : Bytes} :
    pairBytes a ++ as ≤ pairBytes b ++ bs ↔ a < b ∨ a = b ∧ as ≤ bs := by
  have ha := a.toNat_lt
  have hb := b.toNat_lt
  simp only [pairBytes, List.cons_append, List.nil_append, List.cons_le_cons_iff,
    digitByte_lt_digitByte_iff (a.toNat / 16) (by omega) (b.toNat / 16) (by omega),
    digitByte_lt_digitByte_iff (a.toNat % 16) (by omega) (b.toNat % 16) (by omega),
    digitByte_inj (a.toNat / 16) (by omega) (b.toNat / 16) (by omega),
    digitByte_inj (a.toNat % 16) (by omega) (b.toNat % 16) (by omega),
    UInt8.lt_iff_toNat_lt, ← UInt8.toNat_inj]
  by_cases hrest : as ≤ bs
  · simp only [hrest, and_true]
    omega
  · simp only [hrest, and_false, or_false]
    omega

/-- Bytes stand in the order of their digits. -/
theorem flatMap_pairBytes_le_iff {as bs : Bytes} :
    as.flatMap pairBytes ≤ bs.flatMap pairBytes ↔ as ≤ bs := by
  induction as generalizing bs with
  | nil => simp
  | cons a as ih =>
      cases bs with
      | nil => simp [pairBytes]
      | cons b bs =>
          rw [List.flatMap_cons, List.flatMap_cons, pairBytes_append_le_iff, ih,
            List.cons_le_cons_iff]

end LedgerAudit.Hex
