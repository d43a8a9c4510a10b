import LedgerAudit.Proofs.Hex
import LedgerAudit.Rejection

/-!
# Digests and their texts

A text is read as a digest when it is the digest's text up to the case of letters, and the fault of
any other text is its length or its first byte that is no digit. Digests are sorted as their texts
are.
-/

namespace LedgerAudit.Digest

/-- Why a text is no digest: its length, or its first byte that is no hexadecimal digit. -/
inductive Refuses (text : String) : Fault → Prop
  | length (h : (Bytes.ofText text).length ≠ 64) :
      Refuses text (.textLength (Bytes.ofText text).length)
  | digit {before after : Bytes} {b : UInt8} (hlength : (Bytes.ofText text).length = 64)
      (htext : Bytes.ofText text = before ++ b :: after) (hbefore : ∀ c ∈ before, Hex.IsDigit c)
      (hb : ¬Hex.IsDigit b) : Refuses text (.badDigit text ⟨b, before.length⟩)

variable {text : String} {fault : Fault}

theorem refuses_iff_of_length_ne (h : (Bytes.ofText text).length ≠ 64) :
    Refuses text fault ↔ fault = .textLength (Bytes.ofText text).length := by
  constructor
  · rintro (_ | ⟨hlength, -, -, -⟩)
    · rfl
    · exact absurd hlength h
  · rintro rfl
    exact .length h

theorem refuses_iff_of_length_eq (h : (Bytes.ofText text).length = 64) :
    Refuses text fault ↔
      ∃ bad, Hex.decode (Bytes.ofText text) = .error bad ∧ fault = .badDigit text bad := by
  have heven : (Bytes.ofText text).length % 2 = 0 := by omega
  simp only [Hex.decode, Hex.decodeFrom_eq_error_iff heven]
  constructor
  · rintro (hlength | ⟨-, htext, hbefore, hb⟩)
    · exact absurd h hlength
    · exact ⟨_, ⟨_, _, htext, hbefore, hb, (Nat.zero_add _).symm⟩, rfl⟩
  · rintro ⟨⟨b, position⟩, ⟨before, after, htext, hbefore, hb, hposition⟩, rfl⟩
    obtain rfl : position = before.length := hposition.trans (Nat.zero_add _)
    exact .digit h htext hbefore hb

theorem ofHex_eq_error_iff : ofHex text = .error fault ↔ Refuses text fault := by
  simp only [ofHex]
  by_cases hlength : (Bytes.ofText text).length = 64
  · rw [if_neg (Decidable.not_not.mpr hlength), refuses_iff_of_length_eq hlength]
    cases hdecode : Hex.decode (Bytes.ofText text) with
    | error bad => simp [eq_comm]
    | ok bytes =>
        have hbytes : bytes.length = 32 := by
          have hdouble := Hex.length_of_decode (by omega) hdecode
          omega
        simp [ofBytes, hbytes]
  · rw [if_pos hlength, refuses_iff_of_length_ne hlength, Except.error.injEq, eq_comm]

theorem message_badDigit (text : String) (b : UInt8) (position : Nat) :
    (Rejection.malformedDigest (.badDigit text ⟨b, position⟩)).message =
      s!"Malformed digest: {Text.quoted text}: Invalid character " ++
        s!"{Text.quotedChar (Char.ofNat b.toNat)} at position {position}" := by
  change "Malformed digest: " ++ (Text.quoted text ++ ": Invalid character " ++
      Text.quotedChar (Char.ofNat b.toNat) ++ " at position " ++ toString position) =
    "Malformed digest: " ++ Text.quoted text ++ ": Invalid character " ++
      (Text.quotedChar (Char.ofNat b.toNat) ++ " at position " ++ toString position)
  -- the quoted texts are kept closed: their tables of characters are not to be unfolded
  generalize Text.quoted text = shownText, Text.quotedChar (Char.ofNat b.toNat) = shownByte
  simp only [String.append_assoc]

theorem ofText_toHex (d : Digest) : Bytes.ofText d.toHex = d.bytes.flatMap Hex.pairBytes :=
  Hex.ofText_encode d.bytes

theorem ofText_toHex_le_iff {a b : Digest} :
    Bytes.ofText a.toHex ≤ Bytes.ofText b.toHex ↔ a ≤ b := by
  rw [ofText_toHex, ofText_toHex]
  exact Hex.flatMap_pairBytes_le_iff

theorem map_toHex_sort (ds : List Digest) :
    (sort ds).map toHex =
      (ds.map toHex).mergeSort fun s t => decide (Bytes.ofText s ≤ Bytes.ofText t) := by
  apply List.map_mergeSort
  intro a _ b _
  simp only [ofText_toHex_le_iff]

/-- A text is read as a digest exactly when in lowercase it is the digest's text; every other text
is malformed, and of 64 bytes the first that is no digit is named by its position. The order of
digests is the order of their texts byte by byte, so that sorting can be done on either. -/
theorem hexText_exact :
    (∀ (text : String) (d : Digest), ofHex text = .ok d ↔ text.toLower = d.toHex) ∧
    (∀ (text : String) (fault : Fault), ofHex text = .error fault ↔ Refuses text fault) ∧
    (∀ (text : String) (b : UInt8) (position : Nat),
      (Rejection.malformedDigest (.badDigit text ⟨b, position⟩)).message =
        s!"Malformed digest: {Text.quoted text}: Invalid character " ++
          s!"{Text.quotedChar (Char.ofNat b.toNat)} at position {position}") ∧
    (∀ a b : Digest, a ≤ b ↔ Bytes.ofText a.toHex ≤ Bytes.ofText b.toHex) ∧
    ∀ ds : List Digest, (sort ds).map toHex =
      (ds.map toHex).mergeSort fun s t => decide (Bytes.ofText s ≤ Bytes.ofText t) := by
  refine ⟨fun text d => ?_, fun text fault => ofHex_eq_error_iff, message_badDigit,
    fun a b => ofText_toHex_le_iff.symm, map_toHex_sort⟩
  have hlower : text.toLower.toList = text.toList.map Char.toLower := String.toList_map
  rw [ofHex_eq_ok_iff, ← String.toList_inj, hlower]

end LedgerAudit.Digest
