import LedgerAudit.Proofs.Protobuf.Reader
import Mathlib.Algebra.Group.Int.Defs
import Mathlib.Algebra.Group.Nat.Defs
import Mathlib.Data.List.Forall2

/-!
# Canonical bytes

A message, given as its fields with their tags and values, has one canonical encoding: every number
as short as it can be, the records in the order of their tags, and no record that could be left
out. That there is at most one is shown here, without any encoder.
-/

namespace LedgerAudit.Protobuf

/-- The shortest digits of a number in base 128. A number of 64 bits takes ten of them at most, and
takes all ten as soon as its highest bit is set, which it is for negative numbers. -/
structure IsVarint (n : Nat) (digits : Bytes) : Prop where
  reads : readVarint digits = some (n, [])
  shortest : ∀ other, readVarint other = some (n, []) → digits.length ≤ other.length
  length_le : n < 2 ^ 64 → digits.length ≤ 10
  length_eq : 2 ^ 63 ≤ n → n < 2 ^ 64 → digits.length = 10

theorem length_varint_le_iff {k n : Nat} : (varint n).length ≤ k + 1 ↔ n < 128 ^ (k + 1) := by
  induction k generalizing n with
  | zero =>
      have hrest : ¬n < 128 → varint (n / 128) ≠ [] := fun _ => varint_ne_nil _
      rw [varint_eq]
      split
      · simpa
      · simpa [varint_ne_nil] using Nat.le_of_not_lt ‹_›
  | succ k ih =>
      have hpow : 128 ^ (k + 1 + 1) = 128 ^ (k + 1) * 128 := Nat.pow_succ ..
      rw [varint_eq, hpow]
      split
      · have hpos : 0 < 128 ^ (k + 1) := Nat.pow_pos (by decide)
        simp
        omega
      · rw [List.length_cons, Nat.add_le_add_iff_right, ih, Nat.div_lt_iff_lt_mul (by decide)]

/-- The first digit of a number that is read in full, and the number that the others spell. -/
theorem readVarint_cons_eq_some_iff {b : UInt8} {bs : Bytes} {n : Nat} :
    readVarint (b :: bs) = some (n, []) ↔
      (b.toNat < 128 ∧ n = b.toNat ∧ bs = []) ∨
        (128 ≤ b.toNat ∧ n % 128 = b.toNat - 128 ∧ readVarint bs = some (n / 128, [])) := by
  have hb : b.toNat < 256 := b.toNat_lt
  rw [readVarint]
  split
  · next hlast =>
    simp only [Option.some.injEq, Prod.mk.injEq]
    constructor
    · rintro ⟨rfl, rfl⟩
      exact .inl ⟨hlast, rfl, rfl⟩
    · rintro (⟨-, rfl, rfl⟩ | ⟨hmore, -⟩)
      · exact ⟨rfl, rfl⟩
      · omega
  · simp only [Option.map_eq_some_iff, Prod.exists, Prod.mk.injEq]
    constructor
    · rintro ⟨m, rest, hm, rfl, rfl⟩
      have hdiv : (b.toNat - 128 + 128 * m) / 128 = m := by omega
      exact .inr ⟨by omega, by omega, by rw [hdiv, hm]⟩
    · rintro (⟨h, -⟩ | ⟨-, hmod, hrest⟩)
      · omega
      · exact ⟨n / 128, [], hrest, by omega, rfl⟩

theorem length_varint_le_of_read {digits : Bytes} {n : Nat}
    (h : readVarint digits = some (n, [])) : (varint n).length ≤ digits.length := by
  induction digits generalizing n with
  | nil => nomatch h
  | cons b bs ih =>
      rw [varint_eq]
      split
      · simp
      · rcases readVarint_cons_eq_some_iff.mp h with ⟨hb, rfl, -⟩ | ⟨-, -, hrest⟩
        · contradiction
        · simpa using ih hrest

/-- Digits of the same number that are equally many are the same. -/
theorem eq_of_readVarint_eq {digits digits' : Bytes} {n : Nat}
    (h : readVarint digits = some (n, [])) (h' : readVarint digits' = some (n, []))
    (hlength : digits.length = digits'.length) : digits = digits' := by
  induction digits generalizing digits' n with
  | nil => nomatch h
  | cons b bs ih =>
      cases digits' with
      | nil => nomatch h'
      | cons c cs =>
          have hlength : bs.length = cs.length := by simpa using hlength
          rcases readVarint_cons_eq_some_iff.mp h with ⟨hb, hn, rfl⟩ | ⟨hb, hmod, hrest⟩ <;>
            rcases readVarint_cons_eq_some_iff.mp h' with ⟨hc, hn', rfl⟩ | ⟨hc, hmod', hrest'⟩
          · rw [UInt8.toNat_inj.mp (hn.symm.trans hn')]
          · obtain rfl : cs = [] := List.length_eq_zero_iff.mp hlength.symm
            nomatch hrest'
          · obtain rfl : bs = [] := List.length_eq_zero_iff.mp hlength
            nomatch hrest
          · have hbyte : b.toNat = c.toNat := by omega
            rw [UInt8.toNat_inj.mp hbyte, ih hrest hrest' hlength]

theorem isVarint_iff {n : Nat} {digits : Bytes} : IsVarint n digits ↔ digits = varint n := by
  have hread : readVarint (varint n) = some (n, []) := by
    simpa using readVarint_varint n []
  constructor
  · intro h
    have hle := h.shortest _ hread
    exact eq_of_readVarint_eq h.reads hread (Nat.le_antisymm hle (length_varint_le_of_read h.reads))
  · rintro rfl
    refine ⟨hread, fun _ => length_varint_le_of_read, fun hn => ?_, fun hhigh hn => ?_⟩
    · exact length_varint_le_iff.mpr (by omega)
    · have hle : (varint n).length ≤ 9 + 1 := length_varint_le_iff.mpr (by omega)
      have hlt : ¬(varint n).length ≤ 8 + 1 := mt length_varint_le_iff.mp (by omega)
      omega

/-- Bytes that are a row of records, with nothing behind them. -/
inductive Row : List Record → Bytes → Prop
  | nil : Row [] []
  | number {tag n : Nat} {key digits rest : Bytes} {records : List Record}
      (htag : tag < 2 ^ 29) (hn : n < 2 ^ 64)
      (hkey : IsVarint (8 * tag) key) (hdigits : IsVarint n digits) (hrest : Row records rest) :
    Row (⟨tag, .varint n⟩ :: records) (key ++ digits ++ rest)
  | bytes {tag : Nat} {key size content rest : Bytes} {records : List Record}
      (htag : tag < 2 ^ 29) (hkey : IsVarint (8 * tag + 2) key)
      (hsize : IsVarint content.length size) (hrest : Row records rest) :
    Row (⟨tag, .bytes content⟩ :: records) (key ++ size ++ content ++ rest)

def Payload.InRange : Payload → Prop
  | .varint n => n < 2 ^ 64
  | .bytes _ => True

theorem Row.eq_encodeAll {records : List Record} {bytes : Bytes} (h : Row records bytes) :
    bytes = Record.encodeAll records := by
  induction h with
  | nil => rfl
  | number _ _ hkey hdigits _ ih =>
      simp [Record.encode, Payload.encode, Payload.wireType, isVarint_iff.mp hkey,
        isVarint_iff.mp hdigits, ih]
  | bytes _ hkey hsize _ ih =>
      simp [Record.encode, Payload.encode, Payload.wireType, isVarint_iff.mp hkey,
        isVarint_iff.mp hsize, ih]

theorem row_encodeAll {records : List Record}
    (h : ∀ r ∈ records, r.tag < 2 ^ 29 ∧ r.payload.InRange) :
    Row records (Record.encodeAll records) := by
  induction records with
  | nil => exact .nil
  | cons r records ih =>
      obtain ⟨⟨htag, hrange⟩, hrecords⟩ := List.forall_mem_cons.mp h
      have hrest := ih hrecords
      obtain ⟨tag, payload⟩ := r
      cases payload with
      | varint n =>
          exact .number htag hrange (isVarint_iff.mpr rfl) (isVarint_iff.mpr rfl) hrest
      | bytes content =>
          have hsize : IsVarint content.length (varint content.length) := isVarint_iff.mpr rfl
          have hrow := Row.bytes htag (isVarint_iff.mpr rfl) hsize hrest
          simpa [Record.encode, Payload.encode, Payload.wireType] using hrow

mutual

/-- What a record can hold. -/
inductive Value
  | int64 (n : Int64)
  | uint64 (n : UInt64)
  | bool (b : Bool)
  | enumeration (n : Int32)
  | bytes (b : Bytes)
  | message (fields : List Field)

/-- What a field holds: a plain value, which is left out at its default; a value that may be
missing, and is kept whenever it is there; or any number of values. -/
inductive Slot
  | plain (v : Value)
  | optional (v : Option Value)
  | repeated (vs : List Value)

inductive Field
  | mk (tag : Nat) (slot : Slot)

end

namespace Field

def tag : Field → Nat
  | mk tag _ => tag

def slot : Field → Slot
  | mk _ slot => slot

end Field

def Slot.values : Slot → List Value
  | plain v => [v]
  | optional v => v.toList
  | repeated vs => vs

namespace Value

/-- A message has no default: it is there or it is not. -/
def IsDefault : Value → Prop
  | int64 n => n = 0
  | uint64 n => n = 0
  | bool b => b = false
  | enumeration n => n = 0
  | bytes b => b = []
  | message _ => False

/-- The values directly inside a value. -/
def inner : Value → List Value
  | message fields => fields.flatMap fun f => f.slot.values
  | _ => []

theorem sizeOf_lt_of_mem_inner {v w : Value} (h : w ∈ v.inner) : sizeOf w < sizeOf v := by
  cases v with
  | message fields =>
      obtain ⟨f, hf, hw⟩ := List.mem_flatMap.mp h
      have hfield := List.sizeOf_lt_of_mem hf
      have hslot : sizeOf w < sizeOf f := by
        obtain ⟨tag, slot⟩ := f
        cases slot with
        | plain v =>
            obtain rfl := List.mem_singleton.mp hw
            simp
            omega
        | optional v =>
            obtain rfl := Option.mem_toList.mp hw
            simp
            omega
        | repeated vs =>
            have hvalue : sizeOf w < sizeOf vs := List.sizeOf_lt_of_mem hw
            simp
            omega
      simp
      omega
  | _ => simp [inner] at h

/-- What holds of a value as soon as it holds of the values inside it holds of every value. -/
theorem induction {P : Value → Prop} (step : ∀ v, (∀ w ∈ v.inner, P w) → P v) (v : Value) :
    P v :=
  step v fun w _ => induction step w
termination_by sizeOf v
decreasing_by exact sizeOf_lt_of_mem_inner ‹_›

end Value

/-- The payloads of the records with this tag. -/
def Record.under (tag : Nat) (records : List Record) : List Payload :=
  (records.filter fun r => r.tag = tag).map Record.payload

mutual

/-- The payload of a value. Signed numbers are widened to 64 bits in two's complement. -/
inductive Encodes : Value → Payload → Prop
  | int64 (n : Int64) : Encodes (.int64 n) (.varint (n.toInt % 2 ^ 64).toNat)
  | uint64 (n : UInt64) : Encodes (.uint64 n) (.varint n.toNat)
  | bool (b : Bool) : Encodes (.bool b) (.varint b.toNat)
  | enumeration (n : Int32) : Encodes (.enumeration n) (.varint (n.toInt % 2 ^ 64).toNat)
  | bytes (b : Bytes) : Encodes (.bytes b) (.bytes b)
  | message {fields : List Field} {content : Bytes} (h : Canonical fields content) :
    Encodes (.message fields) (.bytes content)

/-- The payloads under the tag of a field: one for each value that is not left out. -/
inductive Fills : Slot → List Payload → Prop
  | default {v : Value} (hdefault : v.IsDefault) : Fills (.plain v) []
  | plain {v : Value} {p : Payload} (hdefault : ¬v.IsDefault) (h : Encodes v p) :
    Fills (.plain v) [p]
  | missing : Fills (.optional none) []
  | present {v : Value} {p : Payload} (h : Encodes v p) : Fills (.optional (some v)) [p]
  | repeated {vs : List Value} {ps : List Payload} (h : List.Forall₂ Encodes vs ps) :
    Fills (.repeated vs) ps

/-- The bytes of a message with these fields. -/
inductive Canonical : List Field → Bytes → Prop
  | intro {fields : List Field} {records : List Record} {bytes : Bytes}
      (htags : (fields.map Field.tag).Nodup)
      (hrow : Row records bytes)
      (hsorted : records.Pairwise fun r s => r.tag ≤ s.tag)
      (hdeclared : ∀ r ∈ records, r.tag ∈ fields.map Field.tag)
      (hfills : ∀ f ∈ fields, Fills f.slot (Record.under f.tag records)) :
    Canonical fields bytes

end

namespace Record

variable {records records' : List Record}

theorem under_cons_of_eq {r : Record} {tag : Nat} (h : r.tag = tag) :
    under tag (r :: records) = r.payload :: under tag records := by
  simp [under, h]

theorem under_cons_of_ne {r : Record} {tag : Nat} (h : r.tag ≠ tag) :
    under tag (r :: records) = under tag records := by
  simp [under, h]

theorem mem_of_under_eq_cons {tag : Nat} {p : Payload} {ps : List Payload}
    (h : under tag records = p :: ps) : ∃ r ∈ records, r.tag = tag := by
  have hmem : p ∈ under tag records := by simp [h]
  obtain ⟨r, hr, -⟩ := List.mem_map.mp hmem
  obtain ⟨hr, htag⟩ := List.mem_filter.mp hr
  exact ⟨r, hr, by simpa using htag⟩

theorem under_eq_nil {tag : Nat} (h : ∀ r ∈ records, r.tag ≠ tag) : under tag records = [] := by
  rw [under, List.map_eq_nil_iff, List.filter_eq_nil_iff]
  simpa using h

/-- Records in the order of their tags are told by the payloads under each tag. -/
theorem eq_of_under_eq (h : records.Pairwise fun r s => r.tag ≤ s.tag)
    (h' : records'.Pairwise fun r s => r.tag ≤ s.tag)
    (hunder : ∀ tag, under tag records = under tag records') : records = records' := by
  induction records generalizing records' with
  | nil =>
      cases records' with
      | nil => rfl
      | cons s ss =>
          have hempty := hunder s.tag
          rw [under_cons_of_eq rfl] at hempty
          nomatch hempty
  | cons r rs ih =>
      have hr := hunder r.tag
      rw [under_cons_of_eq rfl] at hr
      cases records' with
      | nil => nomatch hr
      | cons s ss =>
          have hs := hunder s.tag
          rw [under_cons_of_eq (r := s) rfl] at hs
          obtain ⟨hfirst, hrs⟩ := List.pairwise_cons.mp h
          obtain ⟨hfirst', hss⟩ := List.pairwise_cons.mp h'
          -- The first tag of each row is in the other one, and so they are the same.
          have htag : r.tag = s.tag := by
            obtain ⟨r', hr', heq'⟩ := mem_of_under_eq_cons hr.symm
            obtain ⟨s', hs', heq⟩ := mem_of_under_eq_cons hs
            have hle : s.tag ≤ r'.tag := by
              rcases List.mem_cons.mp hr' with rfl | hr'
              · exact Nat.le_refl _
              · exact hfirst' _ hr'
            have hle' : r.tag ≤ s'.tag := by
              rcases List.mem_cons.mp hs' with rfl | hs'
              · exact Nat.le_refl _
              · exact hfirst _ hs'
            omega
          rw [under_cons_of_eq htag.symm] at hr
          obtain ⟨hpayload, -⟩ := List.cons.inj hr
          obtain rfl : r = s := by
            cases r
            cases s
            simp_all
          refine congrArg (r :: ·) (ih hrs hss fun tag => ?_)
          have htail := hunder tag
          by_cases hsame : r.tag = tag
          · rw [under_cons_of_eq hsame, under_cons_of_eq hsame] at htail
            exact List.tail_eq_of_cons_eq htail
          · rwa [under_cons_of_ne hsame, under_cons_of_ne hsame] at htail

end Record

/-- Whether a value has one payload at most. -/
def Value.Determined (v : Value) : Prop := ∀ p q, Encodes v p → Encodes v q → p = q

theorem Encodes.all_unique {vs : List Value} {ps qs : List Payload}
    (hvalues : ∀ v ∈ vs, v.Determined) (hps : List.Forall₂ Encodes vs ps)
    (hqs : List.Forall₂ Encodes vs qs) : ps = qs := by
  induction hps generalizing qs with
  | nil =>
      cases hqs
      rfl
  | cons hp _ ih =>
      cases hqs with
      | cons hq hqs =>
          obtain ⟨hv, hvs⟩ := List.forall_mem_cons.mp hvalues
          rw [hv _ _ hp hq, ih hvs hqs]

theorem Fills.unique {slot : Slot} {ps qs : List Payload}
    (hvalues : ∀ v ∈ slot.values, v.Determined) (h : Fills slot ps) (h' : Fills slot qs) :
    ps = qs := by
  cases h with
  | default hdefault =>
      cases h' with
      | default => rfl
      | plain hvalue => contradiction
  | plain hvalue hp =>
      cases h' with
      | default hdefault => contradiction
      | plain _ hq => rw [hvalues _ List.mem_cons_self _ _ hp hq]
  | missing =>
      cases h'
      rfl
  | present hp =>
      cases h' with
      | present hq => rw [hvalues _ List.mem_cons_self _ _ hp hq]
  | repeated hps =>
      cases h' with
      | repeated hqs => exact Encodes.all_unique hvalues hps hqs

theorem Canonical.unique_of_determined {fields : List Field} {bytes bytes' : Bytes}
    (hvalues : ∀ f ∈ fields, ∀ v ∈ f.slot.values, v.Determined)
    (h : Canonical fields bytes) (h' : Canonical fields bytes') : bytes = bytes' := by
  obtain ⟨-, hrow, hsorted, hdeclared, hfills⟩ := h
  obtain ⟨-, hrow', hsorted', hdeclared', hfills'⟩ := h'
  rw [hrow.eq_encodeAll, hrow'.eq_encodeAll]
  refine congrArg _ (Record.eq_of_under_eq hsorted hsorted' fun tag => ?_)
  by_cases htag : tag ∈ fields.map Field.tag
  · obtain ⟨f, hf, rfl⟩ := List.mem_map.mp htag
    exact (hfills f hf).unique (hvalues f hf) (hfills' f hf)
  · -- No field has this tag, and so no record has it.
    have habsent {records : List Record} (h : ∀ r ∈ records, r.tag ∈ fields.map Field.tag) :
        Record.under tag records = [] := by
      refine Record.under_eq_nil ?_
      rintro r hr rfl
      exact htag (h r hr)
    rw [habsent hdeclared, habsent hdeclared']

theorem Value.determined (v : Value) : v.Determined := by
  induction v using Value.induction with
  | step v ih =>
      intro p q hp hq
      cases hp with
      | message h =>
          cases hq with
          | message h' =>
              have hvalues := List.forall_mem_flatMap.mp ih
              rw [Canonical.unique_of_determined hvalues h h']
      | _ =>
          cases hq
          rfl

/-- There is one canonical encoding at most. -/
theorem Canonical.unique {fields : List Field} {bytes bytes' : Bytes}
    (h : Canonical fields bytes) (h' : Canonical fields bytes') : bytes = bytes' :=
  h.unique_of_determined (fun _ _ v _ => v.determined) h'

end LedgerAudit.Protobuf
