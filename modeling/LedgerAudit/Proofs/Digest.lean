import LedgerAudit.Digest
import LedgerAudit.Proofs.Basic
import LedgerAudit.Proofs.Bytes

/-!
# Digests as text

A text is read as a digest when it is the text of the digest in lowercase or in uppercase, or in
any mixture of the two.
-/

namespace LedgerAudit

namespace Hex

theorem value?_eq_some_iff : ∀ b : UInt8, ∀ n < 16,
    value? (Char.ofNat b.toNat) = some n ↔ (Char.ofNat b.toNat).toLower = digit n :=
  Bytes.forall_byte (by decide +kernel)

theorem value?_lt : ∀ b : UInt8, ∀ n ∈ value? (Char.ofNat b.toNat), n < 16 :=
  Bytes.forall_byte (by decide +kernel)

theorem value_eq_ok_iff {position n : Nat} {b : UInt8} :
    value position b = .ok n ↔ n < 16 ∧ (Char.ofNat b.toNat).toLower = digit n := by
  have hvalue : value position b = .ok n ↔ value? (Char.ofNat b.toNat) = some n := by
    rw [value]
    cases value? (Char.ofNat b.toNat) <;> simp
  rw [hvalue]
  constructor
  · intro h
    have hn : n < 16 := value?_lt b n h
    exact ⟨hn, (value?_eq_some_iff b n hn).mp h⟩
  · rintro ⟨hn, h⟩
    exact (value?_eq_some_iff b n hn).mpr h

/-- A byte from its two halves. -/
theorem pair_ofNat {m n : Nat} (hm : m < 16) (hn : n < 16) :
    pair (UInt8.ofNat (16 * m + n)) = [digit m, digit n] := by
  have hbyte : (UInt8.ofNat (16 * m + n)).toNat = 16 * m + n := by simp; omega
  have hhigh : (16 * m + n) / 16 = m := by omega
  have hlow : (16 * m + n) % 16 = n := by omega
  rw [pair, hbyte, hhigh, hlow]

/-- Digits are read as the bytes that they are the text of, but for the case of letters. -/
theorem decodeFrom_eq_ok_iff {position : Nat} {digits bytes : Bytes}
    (heven : digits.length % 2 = 0) :
    decodeFrom position digits = .ok bytes ↔
      (digits.map fun b => (Char.ofNat b.toNat).toLower) = bytes.flatMap pair := by
  fun_induction decodeFrom position digits generalizing bytes with
  | case1 position high low rest ih =>
      have heven : rest.length % 2 = 0 := by simp at heven; omega
      simp only [Except.bind_eq_ok_iff, Except.pure_eq_ok, Except.ok.injEq, value_eq_ok_iff,
        ih heven, List.map_cons]
      constructor
      · rintro ⟨m, ⟨hm, hhigh⟩, n, ⟨hn, hlow⟩, tail, htail, rfl⟩
        rw [List.flatMap_cons, pair_ofNat hm hn, hhigh, hlow, htail]
        rfl
      · intro h
        cases bytes with
        | nil => nomatch h
        | cons b tail =>
            have hb := b.toNat_lt
            have hsplit : 16 * (b.toNat / 16) + b.toNat % 16 = b.toNat := by omega
            obtain ⟨hhigh, hlow, htail⟩ : _ ∧ _ ∧ _ := by simpa [pair] using h
            refine ⟨b.toNat / 16, ⟨by omega, hhigh⟩, b.toNat % 16, ⟨by omega, hlow⟩, tail, htail,
              ?_⟩
            rw [hsplit, UInt8.ofNat_toNat]
  | case2 digits position hshort =>
      obtain rfl : digits = [] := by
        rcases digits with _ | ⟨b, _ | ⟨c, rest⟩⟩
        · rfl
        · simp at heven
        · exact (hshort b c rest rfl).elim
      cases bytes <;> simp [pair]

theorem length_flatMap_pair (bytes : Bytes) : (bytes.flatMap pair).length = 2 * bytes.length := by
  induction bytes with
  | nil => rfl
  | cons b bytes ih =>
      rw [List.flatMap_cons, List.length_append, ih, List.length_cons, pair]
      simp
      omega

theorem toNat_lt_of_toLower_mem {c : Char} (bytes : Bytes) (h : c.toLower ∈ bytes.flatMap pair) :
    c.toNat < 128 := by
  have hdigit : ∀ n < 16, (digit n).toNat < 128 := by decide
  have hlower : c.toLower.toNat < 128 := by
    obtain ⟨b, -, hb⟩ := List.mem_flatMap.mp h
    have hlt := b.toNat_lt
    have hhalf : c.toLower = digit (b.toNat / 16) ∨ c.toLower = digit (b.toNat % 16) := by
      simpa [pair] using hb
    rcases hhalf with hhigh | hlow
    · rw [hhigh]
      exact hdigit _ (by omega)
    · rw [hlow]
      exact hdigit _ (by omega)
  by_cases hupper : c.val ≤ 'Z'.val
  · have hle : c.val.toNat ≤ 90 := UInt32.le_iff_toNat_le.mp hupper
    exact Nat.lt_of_le_of_lt hle (by decide)
  · have hsame : c.toLower = c := dif_neg fun h => hupper h.2
    rwa [hsame] at hlower

end Hex

namespace Digest

theorem ofBytes_eq_ok_iff {bytes : Bytes} {d : Digest} :
    ofBytes bytes = .ok d ↔ bytes = d.bytes := by
  rw [ofBytes]
  split
  · next hlength =>
    cases d
    simp
  · next hlength =>
    constructor
    · nofun
    · rintro rfl
      exact absurd d.length_bytes hlength

theorem ofHex_eq_ok_iff_decode {text : String} {d : Digest} :
    ofHex text = .ok d ↔
      (Bytes.ofText text).length = 64 ∧ Hex.decode (Bytes.ofText text) = .ok d.bytes := by
  simp only [ofHex]
  split
  · next hlength => simp [hlength]
  · next hlength =>
    rw [and_iff_right (Decidable.not_not.mp hlength)]
    cases Hex.decode (Bytes.ofText text) with
    | error fault => simp
    | ok bytes => simp [ofBytes_eq_ok_iff]

/-- Only the text of a digest is read as it, in any case of its letters. -/
theorem ofHex_eq_ok_iff {text : String} {d : Digest} :
    ofHex text = .ok d ↔ text.toList.map Char.toLower = d.toHex.toList := by
  have hwritten : d.toHex.toList = d.bytes.flatMap Hex.pair := String.toList_ofList
  rw [hwritten, ofHex_eq_ok_iff_decode, Hex.decode]
  constructor
  · rintro ⟨hlength, hdecode⟩
    rw [Hex.decodeFrom_eq_ok_iff (by omega)] at hdecode
    have hascii : ∀ b ∈ Bytes.ofText text, b.toNat < 128 := by
      intro b hb
      rw [← Bytes.toNat_ofNat_toNat b]
      refine Hex.toNat_lt_of_toLower_mem d.bytes ?_
      rw [← hdecode]
      exact List.mem_map_of_mem hb
    rw [(Bytes.ofText_eq_iff hascii).mp rfl, List.map_map]
    exact hdecode
  · intro hlower
    have hascii : ∀ c ∈ text.toList, c.toNat < 128 := by
      intro c hc
      refine Hex.toNat_lt_of_toLower_mem d.bytes ?_
      rw [← hlower]
      exact List.mem_map_of_mem hc
    rw [Bytes.toList_of_forall_lt hascii, List.map_map] at hlower
    have hlength : (Bytes.ofText text).length = 64 := by
      have hsame := congrArg List.length hlower
      rw [List.length_map, Hex.length_flatMap_pair, d.length_bytes] at hsame
      exact hsame
    exact ⟨hlength, (Hex.decodeFrom_eq_ok_iff (by omega)).mpr hlower⟩

end Digest

end LedgerAudit
