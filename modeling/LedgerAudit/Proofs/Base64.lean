import LedgerAudit.Base64
import LedgerAudit.Proofs.Basic
import LedgerAudit.Proofs.Bytes

/-!
# Base64 texts that are read

What an alphabet writes it reads back. The two alphabets never read a text as different bytes: a
text that both of them read has only symbols that they share.
-/

namespace LedgerAudit.Base64

namespace Alphabet

variable {a c : Alphabet} {position : Nat}

/-- Each of the 64 symbols has its value back, and none of them is padding or beyond ASCII. -/
structure Lawful (a : Alphabet) : Prop where
  value?_symbol : ∀ n < 64, a.value? (a.symbol n) = some n
  symbol_ne_padding : ∀ n < 64, a.symbol n ≠ padding
  symbol_lt : ∀ n < 64, (a.symbol n).toNat < 128

theorem standard_lawful : standard.Lawful := ⟨by decide, by decide, by decide⟩

theorem urlSafe_lawful : urlSafe.Lawful := ⟨by decide, by decide, by decide⟩

theorem decodeGroup_eq_decodeFull {w x y z : UInt8} (hy : y ≠ padding) (hz : z ≠ padding) :
    a.decodeGroup position w x y z = a.decodeFull position w x y z := by
  simp only [decodeGroup, decodeFull, if_neg hy, if_neg hz]

theorem value_eq_ok_iff {b : UInt8} {n : Nat} :
    a.value position b = .ok n ↔ a.value? b = some n := by
  rw [value]
  cases a.value? b <;> simp

theorem decodeFrom_append {w x y z : UInt8} {rest : Bytes} (hy : y ≠ padding)
    (hz : z ≠ padding) :
    a.decodeFrom position (w :: x :: y :: z :: rest) = (do
      let head ← a.decodeFull position w x y z
      let tail ← a.decodeFrom (position + 4) rest
      return head ++ tail) := by
  cases rest with
  | nil =>
      change a.decodeGroup position w x y z = _
      rw [decodeGroup_eq_decodeFull hy hz, decodeFrom]
      cases a.decodeFull position w x y z <;> simp
  | cons r rest => rw [decodeFrom]; simp

namespace Lawful

variable (h : a.Lawful)
include h

theorem value_symbol {n : Nat} (hn : n < 64) : a.value position (a.symbol n) = .ok n :=
  value_eq_ok_iff.mpr (h.value?_symbol n hn)

theorem decodeGroup_one (x : UInt8) :
    a.decodeGroup position (a.symbol (16 * x.toNat / 64)) (a.symbol (16 * x.toNat % 64))
      padding padding = .ok [x] := by
  have hx := x.toNat_lt
  have hbyte : 4 * (16 * x.toNat / 64) + 16 * x.toNat % 64 / 16 = x.toNat := by omega
  have hrest : 16 * x.toNat % 64 % 16 = 0 := by omega
  rw [decodeGroup, h.value_symbol (by omega), h.value_symbol (by omega)]
  simp only [Except.ok_bind, hbyte, hrest]
  simp

theorem decodeGroup_two (x y : UInt8) :
    let n := 4 * (256 * x.toNat + y.toNat)
    a.decodeGroup position (a.symbol (n / 4096)) (a.symbol (n / 64 % 64)) (a.symbol (n % 64))
      padding = .ok [x, y] := by
  intro n
  have hx := x.toNat_lt
  have hy := y.toNat_lt
  have hfirst : 4 * (n / 4096) + n / 64 % 64 / 16 = x.toNat := by omega
  have hsecond : 16 * (n / 64 % 64 % 16) + n % 64 / 4 = y.toNat := by omega
  have hrest : n % 64 % 4 = 0 := by omega
  have hsymbol := h.symbol_ne_padding (n % 64) (by omega)
  rw [decodeGroup, h.value_symbol (by omega), h.value_symbol (by omega)]
  simp only [Except.ok_bind, if_neg hsymbol, h.value_symbol (show n % 64 < 64 by omega), hfirst,
    hsecond, hrest]
  simp

theorem decodeFull_three (x y z : UInt8) :
    let n := 65536 * x.toNat + 256 * y.toNat + z.toNat
    a.decodeFull position (a.symbol (n / 262144)) (a.symbol (n / 4096 % 64))
      (a.symbol (n / 64 % 64)) (a.symbol (n % 64)) = .ok [x, y, z] := by
  intro n
  have hx := x.toNat_lt
  have hy := y.toNat_lt
  have hz := z.toNat_lt
  have hfirst : 4 * (n / 262144) + n / 4096 % 64 / 16 = x.toNat := by omega
  have hsecond : 16 * (n / 4096 % 64 % 16) + n / 64 % 64 / 4 = y.toNat := by omega
  have hthird : 64 * (n / 64 % 64 % 4) + n % 64 = z.toNat := by omega
  rw [decodeFull, h.value_symbol (by omega), h.value_symbol (by omega),
    h.value_symbol (by omega), h.value_symbol (by omega)]
  simp only [Except.ok_bind, hfirst, hsecond, hthird, UInt8.ofNat_toNat, Except.pure_eq_ok]

theorem decodeFrom_encode (bytes : Bytes) (position : Nat) :
    a.decodeFrom position (a.encode bytes) = .ok bytes := by
  fun_induction encode a bytes generalizing position with
  | case1 => rfl
  | case2 x => exact h.decodeGroup_one x
  | case3 x y => exact h.decodeGroup_two x y
  | case4 x y z rest n ih =>
      rw [decodeFrom_append (h.symbol_ne_padding _ (by omega)) (h.symbol_ne_padding _ (by omega)),
        h.decodeFull_three x y z, ih]
      rfl

end Lawful

theorem length_encode_mod_four (bytes : Bytes) : (a.encode bytes).length % 4 = 0 := by
  fun_induction encode a bytes with
  | case1 => simp
  | case2 x => simp
  | case3 x y => simp
  | case4 x y z rest n ih =>
      simp only [List.length_cons]
      omega

theorem Lawful.decode_encode (h : a.Lawful) (bytes : Bytes) :
    a.decode (a.encode bytes) = .ok bytes := by
  have hstray : a.stray? (a.encode bytes) = none := by
    rw [stray?, length_encode_mod_four]
    rfl
  rw [decode, hstray]
  exact h.decodeFrom_encode bytes 0

theorem forall_mem_encode {P : UInt8 → Prop} (hsymbol : ∀ n < 64, P (a.symbol n))
    (hpadding : P padding) (bytes : Bytes) : ∀ b ∈ a.encode bytes, P b := by
  fun_induction encode a bytes with
  | case1 => simp
  | case2 x n =>
      have hx := x.toNat_lt
      simp only [List.forall_mem_cons, List.not_mem_nil, false_implies, implies_true, and_true]
      exact ⟨hsymbol _ (by omega), hsymbol _ (by omega), hpadding, hpadding⟩
  | case3 x y n =>
      have hx := x.toNat_lt
      have hy := y.toNat_lt
      simp only [List.forall_mem_cons, List.not_mem_nil, false_implies, implies_true, and_true]
      exact ⟨hsymbol _ (by omega), hsymbol _ (by omega), hsymbol _ (by omega), hpadding⟩
  | case4 x y z rest n ih =>
      have hx := x.toNat_lt
      have hy := y.toNat_lt
      have hz := z.toNat_lt
      simp only [List.forall_mem_cons]
      exact ⟨hsymbol _ (by omega), hsymbol _ (by omega), hsymbol _ (by omega),
        hsymbol _ (by omega), ih⟩

theorem Lawful.encode_lt (h : a.Lawful) (bytes : Bytes) :
    ∀ b ∈ a.encode bytes, b.toNat < 128 :=
  forall_mem_encode h.symbol_lt (by decide) bytes

theorem Lawful.ofText_encodeText (h : a.Lawful) (bytes : Bytes) :
    Bytes.ofText (a.encodeText bytes) = a.encode bytes :=
  Bytes.ofText_ofList (h.encode_lt bytes)

theorem Lawful.decode_ofText_encodeText (h : a.Lawful) (bytes : Bytes) :
    a.decode (Bytes.ofText (a.encodeText bytes)) = .ok bytes := by
  rw [h.ofText_encodeText, h.decode_encode]

theorem encode_one {m n : Nat} (hm : m < 64) (hn : n < 64) (hrest : n % 16 = 0) :
    a.encode [UInt8.ofNat (4 * m + n / 16)] = [a.symbol m, a.symbol n, padding, padding] := by
  have hx : (UInt8.ofNat (4 * m + n / 16)).toNat = 4 * m + n / 16 := by simp; omega
  have hfirst : 16 * (4 * m + n / 16) / 64 = m := by omega
  have hsecond : 16 * (4 * m + n / 16) % 64 = n := by omega
  simp only [encode, hx, hfirst, hsecond]

theorem encode_two {m n p : Nat} (hm : m < 64) (hn : n < 64) (hp : p < 64) (hrest : p % 4 = 0) :
    a.encode [UInt8.ofNat (4 * m + n / 16), UInt8.ofNat (16 * (n % 16) + p / 4)] =
      [a.symbol m, a.symbol n, a.symbol p, padding] := by
  have hx : (UInt8.ofNat (4 * m + n / 16)).toNat = 4 * m + n / 16 := by simp; omega
  have hy : (UInt8.ofNat (16 * (n % 16) + p / 4)).toNat = 16 * (n % 16) + p / 4 := by simp; omega
  have hnumber : 4 * (256 * (4 * m + n / 16) + (16 * (n % 16) + p / 4)) =
      4096 * m + 64 * n + p := by omega
  have hfirst : (4096 * m + 64 * n + p) / 4096 = m := by omega
  have hsecond : (4096 * m + 64 * n + p) / 64 % 64 = n := by omega
  have hthird : (4096 * m + 64 * n + p) % 64 = p := by omega
  simp only [encode, hx, hy, hnumber, hfirst, hsecond, hthird]

theorem encode_three {m n p q : Nat} (hm : m < 64) (hn : n < 64) (hp : p < 64) (hq : q < 64)
    (rest : Bytes) :
    a.encode (UInt8.ofNat (4 * m + n / 16) :: UInt8.ofNat (16 * (n % 16) + p / 4) ::
        UInt8.ofNat (64 * (p % 4) + q) :: rest) =
      a.symbol m :: a.symbol n :: a.symbol p :: a.symbol q :: a.encode rest := by
  have hx : (UInt8.ofNat (4 * m + n / 16)).toNat = 4 * m + n / 16 := by simp; omega
  have hy : (UInt8.ofNat (16 * (n % 16) + p / 4)).toNat = 16 * (n % 16) + p / 4 := by simp; omega
  have hz : (UInt8.ofNat (64 * (p % 4) + q)).toNat = 64 * (p % 4) + q := by simp; omega
  have hnumber : 65536 * (4 * m + n / 16) + 256 * (16 * (n % 16) + p / 4) + (64 * (p % 4) + q) =
      262144 * m + 4096 * n + 64 * p + q := by omega
  have hfirst : (262144 * m + 4096 * n + 64 * p + q) / 262144 = m := by omega
  have hsecond : (262144 * m + 4096 * n + 64 * p + q) / 4096 % 64 = n := by omega
  have hthird : (262144 * m + 4096 * n + 64 * p + q) / 64 % 64 = p := by omega
  have hfourth : (262144 * m + 4096 * n + 64 * p + q) % 64 = q := by omega
  simp only [encode, hx, hy, hz, hnumber, hfirst, hsecond, hthird, hfourth]

/-- Each value is that of its own symbol only. -/
def Exact (a : Alphabet) : Prop :=
  ∀ b, ∀ n ∈ a.value? b, n < 64 ∧ a.symbol n = b

theorem standard_exact : standard.Exact := Bytes.forall_byte (by decide +kernel)

namespace Exact

variable (h : a.Exact)
include h

theorem of_value {b : UInt8} {n : Nat} (hb : a.value position b = .ok n) :
    n < 64 ∧ a.symbol n = b :=
  h b n (value_eq_ok_iff.mp hb)

theorem of_decodeFull {w x y z : UInt8} {head : Bytes}
    (hfull : a.decodeFull position w x y z = .ok head) (tail : Bytes) :
    a.encode (head ++ tail) = w :: x :: y :: z :: a.encode tail := by
  simp only [decodeFull, Except.bind_eq_ok_iff, Except.pure_eq_ok, Except.ok.injEq] at hfull
  obtain ⟨m, hm, n, hn, p, hp, q, hq, rfl⟩ := hfull
  obtain ⟨hm', rfl⟩ := h.of_value hm
  obtain ⟨hn', rfl⟩ := h.of_value hn
  obtain ⟨hp', rfl⟩ := h.of_value hp
  obtain ⟨hq', rfl⟩ := h.of_value hq
  exact encode_three hm' hn' hp' hq' tail

/-- The last group is the written form of its bytes, be they one, two or three. -/
theorem of_decodeGroup {w x y z : UInt8} {bytes : Bytes}
    (hgroup : a.decodeGroup position w x y z = .ok bytes) : a.encode bytes = [w, x, y, z] := by
  by_cases hpadded : y = padding ∨ z = padding
  · simp only [decodeGroup, Except.bind_eq_ok_iff] at hgroup
    obtain ⟨m, hm, n, hn, hgroup⟩ := hgroup
    obtain ⟨hm', rfl⟩ := h.of_value hm
    obtain ⟨hn', rfl⟩ := h.of_value hn
    by_cases hy : y = padding
    · by_cases hz : z = padding
      · by_cases hrest : n % 16 = 0
        · obtain rfl : [UInt8.ofNat (4 * m + n / 16)] = bytes := by
            simpa [hy, hz, hrest] using hgroup
          rw [encode_one hm' hn' hrest, hy, hz]
        · simp [hy, hz, hrest] at hgroup
      · simp [hy, hz] at hgroup
    · have hz : z = padding := hpadded.resolve_left hy
      rw [if_neg hy, Except.bind_eq_ok_iff] at hgroup
      obtain ⟨p, hp, hgroup⟩ := hgroup
      obtain ⟨hp', rfl⟩ := h.of_value hp
      by_cases hrest : p % 4 = 0
      · obtain rfl : [UInt8.ofNat (4 * m + n / 16), UInt8.ofNat (16 * (n % 16) + p / 4)] =
            bytes := by
          simpa [hz, hrest] using hgroup
        rw [encode_two hm' hn' hp' hrest, hz]
      · simp [hz, hrest] at hgroup
  · obtain ⟨hy, hz⟩ := not_or.mp hpadded
    rw [decodeGroup_eq_decodeFull hy hz] at hgroup
    simpa [encode] using h.of_decodeFull hgroup []

theorem of_decodeFrom {symbols bytes : Bytes} (hread : a.decodeFrom position symbols = .ok bytes) :
    a.encode bytes = symbols := by
  fun_induction Alphabet.decodeFrom a position symbols generalizing bytes with
  | case1 =>
      obtain rfl := Except.ok.inj hread
      rfl
  | case2 position w => simp [Except.bind_eq_ok_iff] at hread
  | case3 position w x => simp [Except.bind_eq_ok_iff] at hread
  | case4 position w x y =>
      split at hread <;> simp [Except.bind_eq_ok_iff] at hread
  | case5 position w x y z => exact h.of_decodeGroup hread
  | case6 position w x y z rest hrest ih =>
      simp only [Except.bind_eq_ok_iff, Except.pure_eq_ok, Except.ok.injEq] at hread
      obtain ⟨head, hhead, tail, htail, rfl⟩ := hread
      rw [h.of_decodeFull hhead, ih htail]

end Exact

/-- Only the written form of bytes is read as them. -/
theorem Lawful.decode_eq_ok_iff (hlawful : a.Lawful) (hexact : a.Exact) {symbols bytes : Bytes} :
    a.decode symbols = .ok bytes ↔ symbols = a.encode bytes := by
  constructor
  · intro hread
    rw [decode] at hread
    split at hread
    · nomatch hread
    · exact (hexact.of_decodeFrom hread).symm
  · rintro rfl
    exact hlawful.decode_encode bytes

theorem Lawful.decode_ofText_eq_ok_iff (hlawful : a.Lawful) (hexact : a.Exact) {text : String}
    {bytes : Bytes} :
    a.decode (Bytes.ofText text) = .ok bytes ↔ text = a.encodeText bytes := by
  rw [hlawful.decode_eq_ok_iff hexact, ← hlawful.ofText_encodeText, Bytes.ofText_injective.eq_iff]

/-- Two alphabets in which no symbol has two values. -/
def Agree (a c : Alphabet) : Prop :=
  ∀ b m n, a.value? b = some m → c.value? b = some n → m = n

theorem standard_agree_urlSafe : standard.Agree urlSafe := by
  intro b m n hm hn
  simp only [value?, standard, urlSafe] at hm hn
  grind

namespace Agree

variable (h : a.Agree c)
include h

theorem value {b : UInt8} {m n : Nat} (ha : a.value position b = .ok m)
    (hc : c.value position b = .ok n) : m = n :=
  h b m n (value_eq_ok_iff.mp ha) (value_eq_ok_iff.mp hc)

theorem decodeFull {w x y z : UInt8} {bs cs : Bytes} (ha : a.decodeFull position w x y z = .ok bs)
    (hc : c.decodeFull position w x y z = .ok cs) : bs = cs := by
  simp only [Alphabet.decodeFull, Except.bind_eq_ok_iff] at ha hc
  obtain ⟨m, hm, n, hn, p, hp, q, hq, ha⟩ := ha
  obtain ⟨m', hm', n', hn', p', hp', q', hq', hc⟩ := hc
  obtain rfl := h.value hm hm'
  obtain rfl := h.value hn hn'
  obtain rfl := h.value hp hp'
  obtain rfl := h.value hq hq'
  exact Except.ok.inj (ha.symm.trans hc)

theorem decodeGroup {w x y z : UInt8} {bs cs : Bytes}
    (ha : a.decodeGroup position w x y z = .ok bs)
    (hc : c.decodeGroup position w x y z = .ok cs) : bs = cs := by
  simp only [Alphabet.decodeGroup, Except.bind_eq_ok_iff] at ha hc
  obtain ⟨m, hm, n, hn, ha⟩ := ha
  obtain ⟨m', hm', n', hn', hc⟩ := hc
  obtain rfl := h.value hm hm'
  obtain rfl := h.value hn hn'
  by_cases hy : y = padding
  · rw [if_pos hy] at ha hc
    exact Except.ok.inj (ha.symm.trans hc)
  · rw [if_neg hy, Except.bind_eq_ok_iff] at ha hc
    obtain ⟨p, hp, ha⟩ := ha
    obtain ⟨p', hp', hc⟩ := hc
    obtain rfl := h.value hp hp'
    by_cases hz : z = padding
    · rw [if_pos hz] at ha hc
      exact Except.ok.inj (ha.symm.trans hc)
    · rw [if_neg hz, Except.bind_eq_ok_iff] at ha hc
      obtain ⟨q, hq, ha⟩ := ha
      obtain ⟨q', hq', hc⟩ := hc
      obtain rfl := h.value hq hq'
      exact Except.ok.inj (ha.symm.trans hc)

theorem decodeFrom {symbols bs cs : Bytes} (ha : a.decodeFrom position symbols = .ok bs)
    (hc : c.decodeFrom position symbols = .ok cs) : bs = cs := by
  fun_induction Alphabet.decodeFrom c position symbols generalizing bs cs with
  | case1 => exact Except.ok.inj (ha.symm.trans hc)
  | case2 position w => simp [Except.bind_eq_ok_iff] at hc
  | case3 position w x => simp [Except.bind_eq_ok_iff] at hc
  | case4 position w x y =>
      split at hc <;> simp [Except.bind_eq_ok_iff] at hc
  | case5 position w x y z => exact h.decodeGroup ha hc
  | case6 position w x y z rest hrest ih =>
      rw [Alphabet.decodeFrom.eq_6 _ _ _ _ _ _ _ hrest] at ha
      simp only [Except.bind_eq_ok_iff] at ha hc
      obtain ⟨head, hhead, tail, htail, ha⟩ := ha
      obtain ⟨head', hhead', tail', htail', hc⟩ := hc
      obtain rfl := h.decodeFull hhead hhead'
      obtain rfl := ih htail htail'
      exact Except.ok.inj (ha.symm.trans hc)

theorem decode {symbols bs cs : Bytes} (ha : a.decode symbols = .ok bs)
    (hc : c.decode symbols = .ok cs) : bs = cs := by
  rw [Alphabet.decode] at ha hc
  split at ha
  · nomatch ha
  · split at hc
    · nomatch hc
    · exact h.decodeFrom ha hc

end Agree

end Alphabet

end LedgerAudit.Base64
