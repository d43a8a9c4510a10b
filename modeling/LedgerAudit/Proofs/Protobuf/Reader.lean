import LedgerAudit.Protobuf.Record

/-!
# Reading records back

A record has a reader that takes the record from the front of some bytes and leaves the rest. No
encoding of a record therefore begins another one, and a row of records is told by its bytes.
-/

namespace LedgerAudit.Protobuf

theorem varintWithin_congr {a b n : Nat} (ha : n.log2 ≤ a) (hb : n.log2 ≤ b) :
    varintWithin a n = varintWithin b n := by
  induction a generalizing b n with
  | zero =>
      have hn : n < 2 := by
        by_cases h0 : n = 0
        · omega
        · simpa using (Nat.log2_lt h0).mp (Nat.lt_succ_of_le ha)
      cases b with
      | zero => rfl
      | succ b =>
          have h128 : n < 128 := by omega
          simp [varintWithin, h128, Nat.mod_eq_of_lt h128]
  | succ a ih =>
      by_cases hn : n < 128
      · cases b <;> simp [varintWithin, hn, Nat.mod_eq_of_lt hn]
      · have hpos : n ≠ 0 := by omega
        have hdiv : n / 128 ≠ 0 := by omega
        -- Each digit takes seven bits, so one step fewer is enough for what is left.
        have hstep : ∀ c, n.log2 ≤ c + 1 → (n / 128).log2 ≤ c := by
          intro c hc
          have hlt : n < 2 ^ (c + 2) := (Nat.log2_lt hpos).mp (Nat.lt_succ_of_le hc)
          have hpow : 2 ^ (c + 2) = 2 * 2 ^ (c + 1) := by rw [Nat.pow_succ]; omega
          exact Nat.lt_succ_iff.mp ((Nat.log2_lt hdiv).mpr (by omega))
        cases b with
        | zero =>
            have hlt : n < 2 ^ 1 := (Nat.log2_lt hpos).mp (Nat.lt_succ_of_le hb)
            omega
        | succ b => simp [varintWithin, hn, ih (hstep a ha) (hstep b hb)]

theorem varint_eq (n : Nat) :
    varint n = if n < 128 then [UInt8.ofNat n]
      else UInt8.ofNat (128 + n % 128) :: varint (n / 128) := by
  by_cases hn : n < 128
  · rw [varint, varintWithin_congr (Nat.le_refl _) (Nat.le_succ _)]
    simp [varintWithin, hn]
  · have hdiv : (n / 128).log2 ≤ n.log2 := by
      have hlt : n < 2 ^ (n.log2 + 1) := (Nat.log2_lt (by omega)).mp (Nat.lt_succ_self _)
      exact Nat.lt_succ_iff.mp ((Nat.log2_lt (by omega)).mpr (by omega))
    rw [varint, varintWithin_congr (Nat.le_refl _) (Nat.le_succ _)]
    simp [varintWithin, hn, varint, varintWithin_congr hdiv (Nat.le_refl _)]

theorem varint_ne_nil (n : Nat) : varint n ≠ [] := by
  rw [varint_eq]
  split <;> simp

/-- The number at the front of some bytes, and the bytes after it. -/
def readVarint : Bytes → Option (Nat × Bytes)
  | [] => none
  | b :: bs =>
    if b.toNat < 128 then some (b.toNat, bs)
    else (readVarint bs).map fun (n, rest) => (b.toNat - 128 + 128 * n, rest)

theorem readVarint_varint (n : Nat) (rest : Bytes) :
    readVarint (varint n ++ rest) = some (n, rest) := by
  induction n using Nat.strongRecOn with
  | ind n ih =>
      rw [varint_eq]
      by_cases hn : n < 128
      · have hbyte : (UInt8.ofNat n).toNat = n := by simp; omega
        simp [readVarint, hn, hbyte]
      · have hbyte : (UInt8.ofNat (128 + n % 128)).toNat = 128 + n % 128 := by simp; omega
        rw [if_neg hn, List.cons_append, readVarint, hbyte, if_neg (by omega),
          ih (n / 128) (by omega)]
        simp only [Option.map_some, Option.some.injEq, Prod.mk.injEq, and_true]
        omega

/-- The payload of this kind at the front of some bytes, and the bytes after it. -/
def Payload.read (wireType : Nat) (bs : Bytes) : Option (Payload × Bytes) :=
  match wireType with
  | 0 => (readVarint bs).map fun (n, rest) => (.varint n, rest)
  | 2 =>
    (readVarint bs).bind fun (size, rest) =>
      if size ≤ rest.length then some (.bytes (rest.take size), rest.drop size) else none
  | _ => none

theorem Payload.read_encode (p : Payload) (rest : Bytes) :
    Payload.read p.wireType (p.encode ++ rest) = some (p, rest) := by
  cases p with
  | varint n => simp [Payload.read, wireType, encode, readVarint_varint]
  | bytes content =>
      simp [Payload.read, wireType, encode, List.append_assoc, readVarint_varint]

namespace Record

/-- The record at the front of some bytes, and the bytes after it. -/
def read (bs : Bytes) : Option (Record × Bytes) :=
  (readVarint bs).bind fun (head, rest) =>
    (Payload.read (head % 8) rest).map fun (payload, rest) => (⟨head / 8, payload⟩, rest)

theorem read_encode (r : Record) (rest : Bytes) : read (r.encode ++ rest) = some (r, rest) := by
  have hkind : r.payload.wireType < 8 := by cases r.payload <;> simp [Payload.wireType]
  have hmod : (8 * r.tag + r.payload.wireType) % 8 = r.payload.wireType := by omega
  have hdiv : (8 * r.tag + r.payload.wireType) / 8 = r.tag := by omega
  rw [read, encode, List.append_assoc, readVarint_varint]
  simp [hmod, hdiv, Payload.read_encode]

theorem encode_ne_nil (r : Record) : r.encode ≠ [] := by
  simp [encode, varint_ne_nil]

/-- Records are told by their bytes: the first is read off, and the others stand in the rest. -/
theorem encodeAll_injective : Function.Injective encodeAll := by
  intro rs
  induction rs with
  | nil =>
      intro ss h
      cases ss with
      | nil => rfl
      | cons s ss => simp [encode_ne_nil] at h
  | cons r rs ih =>
      intro ss h
      cases ss with
      | nil => simp [encode_ne_nil] at h
      | cons s ss =>
          have hread : some (r, encodeAll rs) = some (s, encodeAll ss) := by
            rw [← read_encode r, ← read_encode s, ← encodeAll_cons, ← encodeAll_cons, h]
          obtain ⟨hr, hrest⟩ := Prod.mk.inj (Option.some.inj hread)
          rw [hr, ih hrest]

end Record

end LedgerAudit.Protobuf
