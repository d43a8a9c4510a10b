import LedgerAudit.Bytes

/-!
# Texts as bytes

A text is told by its bytes. A byte below 128 is a character of its own, and so are bytes that are
all below 128 characters one by one.
-/

namespace LedgerAudit.Bytes

theorem ofText_injective : Function.Injective ofText := by
  intro s t h
  have hbytes : s.toByteArray = t.toByteArray := by
    apply ByteArray.ext
    exact Array.toList_inj.mp h
  exact String.toByteArray_inj.mp hbytes

/-- What holds of the first 256 numbers holds of every byte. -/
theorem forall_byte {P : UInt8 → Prop} (h : ∀ n < 256, P (UInt8.ofNat n)) (b : UInt8) : P b := by
  have hb := h b.toNat b.toNat_lt
  rwa [UInt8.ofNat_toNat] at hb

theorem toNat_ofNat_toNat : ∀ b : UInt8, (Char.ofNat b.toNat).toNat = b.toNat :=
  forall_byte (by decide +kernel)

/-- A byte below 128 is the only byte of its character. -/
theorem utf8EncodeChar_ofNat (b : UInt8) (h : b.toNat < 128) :
    String.utf8EncodeChar (Char.ofNat b.toNat) = [b] := by
  have hall : ∀ n < 128, String.utf8EncodeChar (Char.ofNat n) = [UInt8.ofNat n] := by decide
  rw [hall b.toNat h, UInt8.ofNat_toNat]

theorem flatMap_utf8EncodeChar {bs : Bytes} (h : ∀ b ∈ bs, b.toNat < 128) :
    (bs.map fun b => Char.ofNat b.toNat).flatMap String.utf8EncodeChar = bs := by
  induction bs with
  | nil => rfl
  | cons b bs ih =>
      rw [List.forall_mem_cons] at h
      rw [List.map_cons, List.flatMap_cons, utf8EncodeChar_ofNat b h.1, ih h.2]
      rfl

theorem ofText_ofList {bs : Bytes} (h : ∀ b ∈ bs, b.toNat < 128) :
    ofText (String.ofList (bs.map fun b => Char.ofNat b.toNat)) = bs := by
  rw [ofText, String.toByteArray_ofList, List.utf8Encode, List.toList_data_toByteArray,
    flatMap_utf8EncodeChar h]

theorem ofText_eq_iff {text : String} {bs : Bytes} (h : ∀ b ∈ bs, b.toNat < 128) :
    ofText text = bs ↔ text.toList = bs.map fun b => Char.ofNat b.toNat := by
  constructor
  · intro htext
    rw [ofText_injective (htext.trans (ofText_ofList h).symm), String.toList_ofList]
  · intro htext
    rw [← ofText_ofList h, ← htext, String.ofList_toList]

/-- The characters below 128 of a text are its bytes. -/
theorem toList_of_forall_lt {text : String} (h : ∀ c ∈ text.toList, c.toNat < 128) :
    text.toList = (ofText text).map fun b => Char.ofNat b.toNat := by
  let bs := text.toList.map fun c => UInt8.ofNat c.toNat
  have hbyte {c : Char} (hc : c ∈ text.toList) : (UInt8.ofNat c.toNat).toNat = c.toNat := by
    have hlt := h c hc
    simp
    omega
  have hbs : ∀ b ∈ bs, b.toNat < 128 := by
    intro b hb
    obtain ⟨c, hc, rfl⟩ := List.mem_map.mp hb
    rw [hbyte hc]
    exact h c hc
  have hback : ∀ c ∈ text.toList, Char.ofNat (UInt8.ofNat c.toNat).toNat = c := by
    intro c hc
    rw [hbyte hc, Char.ofNat_toNat]
  have htext : text.toList = bs.map fun b => Char.ofNat b.toNat := by
    rw [List.map_map]
    exact (List.map_id _).symm.trans (List.map_congr_left fun c hc => (hback c hc).symm)
  rw [(ofText_eq_iff hbs).mpr htext]
  exact htext

theorem toText?_ofText (text : String) : toText? (ofText text) = some text := by
  rw [toText?, ofText, Array.toArray_toList]
  exact dif_pos text.isValidUTF8

theorem toText?_of_forall_lt {bs : Bytes} (h : ∀ b ∈ bs, b.toNat < 128) :
    toText? bs = some (String.ofList (bs.map fun b => Char.ofNat b.toNat)) := by
  have htext := toText?_ofText (String.ofList (bs.map fun b => Char.ofNat b.toNat))
  rwa [ofText_ofList h] at htext

theorem ofText_append (first second : String) :
    ofText (first ++ second) = ofText first ++ ofText second := by
  simp [ofText]

end LedgerAudit.Bytes
