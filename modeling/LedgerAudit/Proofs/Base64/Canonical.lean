import LedgerAudit.Proofs.Base64
import Mathlib.Algebra.Group.Nat.Defs

/-!
# Padded base64 by its bits

The padded form of bytes is their bits in groups of six, the last group filled up with zeros, and
padding up to four symbols. It is what an alphabet writes. A text is the padded form of some bytes
when its padding completes the last group and no bit is set that belongs to no byte.
-/

namespace LedgerAudit.Base64

/-- The last `width` binary digits of `n`, highest first. -/
def bits : (width : Nat) → (n : Nat) → List Bool
  | 0, _ => []
  | width + 1, n => bits width (n / 2) ++ [decide (n % 2 = 1)]

@[simp] theorem length_bits (width n : Nat) : (bits width n).length = width := by
  induction width generalizing n with
  | zero => rfl
  | succ width ih => rw [bits, List.length_append, ih, List.length_singleton]

theorem bits_add (w v n : Nat) : bits (w + v) n = bits w (n / 2 ^ v) ++ bits v n := by
  induction v generalizing n with
  | zero => simp [bits]
  | succ v ih =>
      have hhigh : n / 2 / 2 ^ v = n / 2 ^ (v + 1) := by
        rw [Nat.div_div_eq_div_mul, Nat.pow_succ']
      rw [← Nat.add_assoc, bits, ih, hhigh, List.append_assoc]
      rfl

theorem bits_mod (width n : Nat) : bits width (n % 2 ^ width) = bits width n := by
  induction width generalizing n with
  | zero => rfl
  | succ width ih =>
      have hhigh : n % 2 ^ (width + 1) / 2 = n / 2 % 2 ^ width := by
        rw [Nat.pow_succ', Nat.mod_mul_right_div_self]
      have hlow : n % 2 ^ (width + 1) % 2 = n % 2 := by
        rw [Nat.pow_succ']
        exact Nat.mod_mul_right_mod n 2 (2 ^ width)
      rw [bits, bits, hhigh, hlow, ih]

theorem bits_zero (width : Nat) : bits width 0 = List.replicate width false := by
  induction width with
  | zero => rfl
  | succ width ih =>
      rw [bits, ih, List.replicate_succ']
      rfl

/-- The bits of a number put together of two. -/
theorem bits_mul_add (w v m : Nat) {k : Nat} (hk : k < 2 ^ v) :
    bits (w + v) (2 ^ v * m + k) = bits w m ++ bits v k := by
  have hhigh : (2 ^ v * m + k) / 2 ^ v = m := by
    rw [Nat.mul_add_div (Nat.two_pow_pos v), Nat.div_eq_of_lt hk, Nat.add_zero]
  have hlow : (2 ^ v * m + k) % 2 ^ v = k := by
    rw [Nat.mul_add_mod, Nat.mod_eq_of_lt hk]
  rw [bits_add, hhigh, ← bits_mod v, hlow]

theorem bits_mul (w v m : Nat) :
    bits (w + v) (2 ^ v * m) = bits w m ++ List.replicate v false := by
  rw [← bits_zero v]
  exact bits_mul_add w v m (Nat.two_pow_pos v)

theorem bits_sextet (w n : Nat) : bits (w + 6) n = bits w (n / 64) ++ bits 6 (n % 64) := by
  have hlow : bits 6 (n % 64) = bits 6 n := bits_mod 6 n
  rw [hlow]
  exact bits_add w 6 n

theorem bits_octet (w m : Nat) (b : UInt8) :
    bits (w + 8) (256 * m + b.toNat) = bits w m ++ bits 8 b.toNat :=
  bits_mul_add w 8 m b.toNat_lt

theorem eq_of_bits_eq {width m n : Nat} (hm : m < 2 ^ width) (hn : n < 2 ^ width)
    (h : bits width m = bits width n) : m = n := by
  induction width generalizing m n with
  | zero => omega
  | succ width ih =>
      rw [Nat.pow_succ'] at hm hn
      obtain ⟨hhigh, hlow⟩ := List.append_inj h (by simp)
      have hhalf : m / 2 = n / 2 := ih (by omega) (by omega) hhigh
      have hparity : m % 2 = 1 ↔ n % 2 = 1 := by simpa using hlow
      omega

theorem eq_of_flatMap_bits_eq {vs ws : List Nat} (hvs : ∀ v ∈ vs, v < 64) (hws : ∀ w ∈ ws, w < 64)
    (h : vs.flatMap (bits 6) = ws.flatMap (bits 6)) : vs = ws := by
  induction vs generalizing ws with
  | nil =>
      cases ws with
      | nil => rfl
      | cons w ws =>
          have hlength := congrArg List.length h
          simp [bits] at hlength
  | cons v vs ih =>
      cases ws with
      | nil =>
          have hlength := congrArg List.length h
          simp [bits] at hlength
      | cons w ws =>
          obtain ⟨hv, hvs⟩ := List.forall_mem_cons.mp hvs
          obtain ⟨hw, hws⟩ := List.forall_mem_cons.mp hws
          obtain ⟨hfirst, hrest⟩ := List.append_inj h (by simp)
          rw [eq_of_bits_eq hv hw hfirst, ih hvs hws hrest]

/-- The bytes that the last group of three lacks. -/
def lacking (bytes : Bytes) : Nat := (3 - bytes.length % 3) % 3

namespace Alphabet

variable {a : Alphabet}

/-- The padded form of bytes. Each byte that the last group lacks leaves two bits to be filled up
with zeros, and is made up for by one padding symbol. -/
def Spells (a : Alphabet) (bytes symbols : Bytes) : Prop :=
  ∃ values : List Nat, (∀ v ∈ values, v < 64) ∧
    values.flatMap (bits 6) =
      bytes.flatMap (fun b => bits 8 b.toNat) ++ List.replicate (2 * lacking bytes) false ∧
    symbols = values.map a.symbol ++ List.replicate (lacking bytes) padding

theorem Spells.unique {bytes symbols symbols' : Bytes} (h : a.Spells bytes symbols)
    (h' : a.Spells bytes symbols') : symbols = symbols' := by
  obtain ⟨vs, hvs, hbits, rfl⟩ := h
  obtain ⟨ws, hws, hbits', rfl⟩ := h'
  rw [eq_of_flatMap_bits_eq hvs hws (hbits.trans hbits'.symm)]

theorem spells_encode (bytes : Bytes) : a.Spells bytes (a.encode bytes) := by
  fun_induction encode a bytes with
  | case1 => exact ⟨[], by simp, rfl, rfl⟩
  | case2 x n =>
      have hx := x.toNat_lt
      have hbits : bits 6 (n / 64) ++ bits 6 (n % 64) =
          bits 8 x.toNat ++ List.replicate 4 false := by
        rw [← bits_sextet 6 n]
        exact bits_mul 8 4 x.toNat
      refine ⟨[n / 64, n % 64], ?_, ?_, rfl⟩
      · simp only [List.forall_mem_cons, List.not_mem_nil, false_implies, implies_true, and_true]
        omega
      · simpa [lacking] using hbits
  | case3 x y n =>
      have hx := x.toNat_lt
      have hy := y.toNat_lt
      have hbits : bits 6 (n / 4096) ++ bits 6 (n / 64 % 64) ++ bits 6 (n % 64) =
          bits 8 x.toNat ++ bits 8 y.toNat ++ List.replicate 2 false := by
        have hhigh : n / 4096 = n / 64 / 64 := by omega
        rw [hhigh, ← bits_sextet 6 (n / 64), ← bits_sextet 12 n, ← bits_octet 8 x.toNat y]
        exact bits_mul 16 2 (256 * x.toNat + y.toNat)
      refine ⟨[n / 4096, n / 64 % 64, n % 64], ?_, ?_, rfl⟩
      · simp only [List.forall_mem_cons, List.not_mem_nil, false_implies, implies_true, and_true]
        omega
      · simpa [lacking] using hbits
  | case4 x y z rest n ih =>
      have hx := x.toNat_lt
      have hy := y.toNat_lt
      have hz := z.toNat_lt
      obtain ⟨values, hvalues, hrest, hsymbols⟩ := ih
      have hlacking : lacking (x :: y :: z :: rest) = lacking rest := by
        simp only [lacking, List.length_cons]
        omega
      have hbits : bits 6 (n / 262144) ++ bits 6 (n / 4096 % 64) ++ bits 6 (n / 64 % 64) ++
          bits 6 (n % 64) = bits 8 x.toNat ++ bits 8 y.toNat ++ bits 8 z.toNat := by
        have hhigh : n / 262144 = n / 64 / 64 / 64 := by omega
        have hmiddle : n / 4096 = n / 64 / 64 := by omega
        have hn : n = 256 * (256 * x.toNat + y.toNat) + z.toNat := by omega
        rw [hhigh, hmiddle, ← bits_sextet 6 (n / 64 / 64), ← bits_sextet 12 (n / 64),
          ← bits_sextet 18 n, hn, ← bits_octet 8 x.toNat y]
        exact bits_octet 16 (256 * x.toNat + y.toNat) z
      refine ⟨n / 262144 :: n / 4096 % 64 :: n / 64 % 64 :: n % 64 :: values, ?_, ?_, ?_⟩
      · simp only [List.forall_mem_cons]
        exact ⟨by omega, by omega, by omega, by omega, hvalues⟩
      · simp only [List.flatMap_cons, hrest, hlacking]
        simp only [← List.append_assoc, hbits]
      · rw [hlacking, hsymbols]
        rfl

/-- The padded form is what the alphabet writes. -/
theorem spells_iff {bytes symbols : Bytes} :
    a.Spells bytes symbols ↔ symbols = a.encode bytes := by
  constructor
  · exact fun h => h.unique (spells_encode bytes)
  · rintro rfl
    exact spells_encode bytes

/-- Symbols and padding in whole groups of four, where no bit is set that belongs to no byte. -/
def IsCanonical (a : Alphabet) (symbols : Bytes) : Prop :=
  ∃ (values : List Nat) (count : Nat), (∀ v ∈ values, v < 64) ∧
    symbols = values.map a.symbol ++ List.replicate count padding ∧
    count ≤ 2 ∧ (values.length + count) % 4 = 0 ∧ ∀ v ∈ values.getLast?, v % 4 ^ count = 0

theorem Spells.isCanonical {bytes symbols : Bytes} (h : a.Spells bytes symbols) :
    a.IsCanonical symbols := by
  obtain ⟨values, hvalues, hbits, rfl⟩ := h
  have hlacking : lacking bytes ≤ 2 := by
    rw [lacking]
    omega
  refine ⟨values, lacking bytes, hvalues, rfl, hlacking, ?_, fun v hv => ?_⟩
  · have hlength := congrArg List.length hbits
    simp only [List.length_append, List.length_flatMap, length_bits, List.map_const',
      List.sum_replicate_nat, List.length_replicate] at hlength
    rw [lacking] at hlength ⊢
    omega
  · obtain ⟨init, rfl⟩ := List.getLast?_eq_some_iff.mp hv
    -- the bits that fill up the last group are the lowest ones of the last symbol
    have hlast : bits 6 v = bits (6 - 2 * lacking bytes) (v / 2 ^ (2 * lacking bytes)) ++
        bits (2 * lacking bytes) v := by
      rw [← bits_add, Nat.sub_add_cancel (by omega)]
    rw [List.flatMap_append, List.flatMap_singleton, hlast, ← List.append_assoc] at hbits
    have hzeros := (List.append_inj' hbits (by simp)).2
    rw [← bits_zero, ← bits_mod] at hzeros
    have hpos := Nat.two_pow_pos (2 * lacking bytes)
    have hmod := eq_of_bits_eq (Nat.mod_lt v hpos) hpos hzeros
    rwa [Nat.pow_mul] at hmod

theorem exists_encode_of_values {count : Nat} (hcount : count ≤ 2) :
    ∀ values : List Nat, (∀ v ∈ values, v < 64) → (values.length + count) % 4 = 0 →
      (∀ v ∈ values.getLast?, v % 4 ^ count = 0) →
      ∃ bytes, values.map a.symbol ++ List.replicate count padding = a.encode bytes
  | [], _, hgroups, _ => by
      obtain rfl : count = 0 := by simp at hgroups; omega
      exact ⟨[], rfl⟩
  | [v], _, hgroups, _ => by
      simp at hgroups
      omega
  | [v, w], hvalues, hgroups, hlast => by
      obtain rfl : count = 2 := by simp at hgroups; omega
      exact ⟨_, (encode_one (hvalues v (by simp)) (hvalues w (by simp)) (hlast w rfl)).symm⟩
  | [v, w, x], hvalues, hgroups, hlast => by
      obtain rfl : count = 1 := by simp at hgroups; omega
      exact ⟨_, (encode_two (hvalues v (by simp)) (hvalues w (by simp)) (hvalues x (by simp))
        (hlast x rfl)).symm⟩
  | v :: w :: x :: y :: rest, hvalues, hgroups, hlast => by
      have hrest : ∀ v ∈ rest, v < 64 := fun v hv => hvalues v (by simp [hv])
      have hrestLast : ∀ v ∈ rest.getLast?, v % 4 ^ count = 0 := by
        intro u hu
        refine hlast u ?_
        cases rest with
        | nil => nomatch hu
        | cons r rest => simpa [List.getLast?_cons_cons] using hu
      obtain ⟨bytes, hbytes⟩ := exists_encode_of_values hcount rest hrest
        (by simp only [List.length_cons] at hgroups; omega) hrestLast
      have hgroup := encode_three (a := a) (hvalues v (by simp)) (hvalues w (by simp))
        (hvalues x (by simp)) (hvalues y (by simp)) bytes
      rw [← hbytes] at hgroup
      exact ⟨_, hgroup.symm⟩

/-- The canonical texts are the padded forms of bytes. -/
theorem isCanonical_iff {symbols : Bytes} :
    a.IsCanonical symbols ↔ ∃ bytes, symbols = a.encode bytes := by
  constructor
  · rintro ⟨values, count, hvalues, rfl, hcount, hgroups, hlast⟩
    exact exists_encode_of_values hcount values hvalues hgroups hlast
  · rintro ⟨bytes, rfl⟩
    exact (spells_encode bytes).isCanonical

/-- The last group of two bytes is filled up with two zeros and one padding symbol. -/
example : standard.encodeText [0x66, 0x6f] = "Zm8=" := by decide +kernel

theorem urlSafe_exact : urlSafe.Exact := Bytes.forall_byte (by decide +kernel)

theorem Lawful.spells_ofText_iff (h : a.Lawful) {bytes : Bytes} {text : String} :
    a.Spells bytes (Bytes.ofText text) ↔ text = a.encodeText bytes := by
  rw [spells_iff, ← h.ofText_encodeText, Bytes.ofText_injective.eq_iff]

theorem Lawful.isCanonical_ofText_iff (h : a.Lawful) {text : String} :
    a.IsCanonical (Bytes.ofText text) ↔ ∃ bytes, text = a.encodeText bytes := by
  simp only [isCanonical_iff, ← h.ofText_encodeText, Bytes.ofText_injective.eq_iff]

theorem forall_mem_encodeText {P : Char → Prop}
    (hsymbol : ∀ n < 64, P (Char.ofNat (a.symbol n).toNat)) (hpadding : P '=') (bytes : Bytes) :
    ∀ c ∈ (a.encodeText bytes).toList, P c := by
  intro c hc
  rw [encodeText, String.toList_ofList] at hc
  obtain ⟨b, hb, rfl⟩ := List.mem_map.mp hc
  exact forall_mem_encode (P := fun b => P (Char.ofNat b.toNat)) hsymbol hpadding bytes b hb

end Alphabet

end LedgerAudit.Base64
